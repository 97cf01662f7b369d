import BloomRelay.Store.Requests
import BloomRelay.Store.Proofs.RetirementProofs
import BloomRelay.Store.Proofs.ChallengeProofs

/-!
# The outbox and the recorded operations

Both are append-only. Jobs are numbered in the order of their rows, a transaction only appends new
ones, and only the outcome of an attempt writes to a row that is there. An operation is recorded with
the request that was made under its ID.
-/

namespace BloomRelay.Store

open Protocol Checked

variable {sha256 : Bytes → Bytes32} {store : StoreConfig} {db db' : Db} {now : Time} {id : Uuid}

/-! ## Appending jobs -/

/-- `jobs'` is `jobs` and jobs queued after it. -/
inductive Queues (jobs : List OutboxRow) : List OutboxRow → Prop where
  | refl : Queues jobs jobs
  | snoc {jobs' : List OutboxRow} {o : OutboxRow} (h : Queues jobs jobs')
      (hid : o.id = jobs'.length + 1) (hnew : o.completedAt = none) : Queues jobs (jobs' ++ [o])

theorem queues_enqueue {jobs : List OutboxRow} (h : Queues jobs db.outbox) (now : Time) (id : Uuid)
    (kind : JobKind) (payload : List (String × String)) :
    Queues jobs (db.enqueue now id kind payload).outbox := h.snoc rfl rfl

theorem queues_enqueueRemoval {jobs : List OutboxRow} (h : Queues jobs db.outbox) (now : Time)
    (id : Uuid) : Queues jobs (db.enqueueRemoval now id).outbox :=
  queues_enqueue (queues_enqueue h now id .removeRecords []) now id .removeTxtAll []

/-- The jobs are numbered from one on. -/
def Numbered (jobs : List OutboxRow) : Prop := jobs.map (·.id) = List.range' 1 jobs.length

theorem Numbered.queues {jobs jobs' : List OutboxRow} (h : Numbered jobs) (hq : Queues jobs jobs') :
    Numbered jobs' := by
  induction hq with
  | refl => exact h
  | snoc _ hid _ ih =>
    unfold Numbered at ih ⊢
    rw [List.map_append, ih, List.length_append, List.map_singleton, List.length_singleton,
      List.range'_concat, hid]
    simp [Nat.add_comm]

theorem Numbered.map {jobs : List OutboxRow} (h : Numbered jobs) {f : OutboxRow → OutboxRow}
    (hf : ∀ o, (f o).id = o.id) : Numbered (jobs.map f) := by
  unfold Numbered at h ⊢
  rw [List.length_map, List.map_map, ← h]
  exact List.map_congr_left fun o _ => hf o

theorem Numbered.nodup {jobs : List OutboxRow} (h : Numbered jobs) : (jobs.map (·.id)).Nodup := by
  rw [h]
  exact List.nodup_range'

/-- Two jobs with one number are the same job. -/
theorem Numbered.id_inj {jobs : List OutboxRow} (h : Numbered jobs) {o o' : OutboxRow}
    (ho : o ∈ jobs) (ho' : o' ∈ jobs) (hid : o.id = o'.id) : o = o' :=
  List.inj_on_of_nodup_map h.nodup ho ho' hid

theorem Queues.mem {jobs jobs' : List OutboxRow} (h : Queues jobs jobs') {o : OutboxRow}
    (ho : o ∈ jobs) : o ∈ jobs' := by
  induction h with
  | refl => exact ho
  | snoc _ _ _ ih => exact List.mem_append_left _ ih

/-- A job that is completed was there before. -/
theorem Queues.mem_of_completed {jobs jobs' : List OutboxRow} (h : Queues jobs jobs')
    {o : OutboxRow} (ho : o ∈ jobs') (hdone : o.completedAt ≠ none) : o ∈ jobs := by
  induction h with
  | refl => exact ho
  | snoc _ _ hnew ih =>
    rcases List.mem_append.mp ho with ho | ho
    · exact ih ho
    · rw [List.mem_singleton.mp ho] at hdone
      exact absurd hnew hdone

/-! ## Transactions -/

/-- The transactions that write to a row of the outbox. -/
def StoreOp.recordsOutcome : StoreOp → Bool
  | .completeJob _ | .deferJob _ => true
  | _ => false

/-- What a transaction does to the outbox and to the recorded operations. -/
structure Appends (sha256 : Bytes → Bytes32) (op : StoreOp) (db db' : Db) : Prop where
  jobs : op.recordsOutcome = false → Queues db.outbox db'.outbox
  operations : Records sha256 op db db'

namespace Appends

/-- Neither table is written. -/
theorem none {op : StoreOp} (hjobs : db'.outbox = db.outbox)
    (hops : db'.operations = db.operations) : Appends sha256 op db db' := by
  refine ⟨fun _ => ?_, .same hops⟩
  rw [hjobs]
  exact .refl

theorem unchanged {op : StoreOp} : Appends sha256 op db db := .none rfl rfl

/-- Only jobs are queued. -/
theorem queued {op : StoreOp} (hjobs : Queues db.outbox db'.outbox)
    (hops : db'.operations = db.operations) : Appends sha256 op db db' :=
  ⟨fun _ => hjobs, .same hops⟩

end Appends

/-- The credential's operation is recorded, and the installations and the jobs stay. -/
theorem storeCredential_appends {operationId : Uuid} {kind : OperationKind} {digest : Bytes32}
    {c : Credential} {auditOperation : Option Uuid} {event : AuditEvent} {r : Nat × Nat}
    (h : db.storeCredential now operationId kind digest c auditOperation event = .ok (r, db')) :
    db'.outbox = db.outbox ∧ db'.installations = db.installations ∧
      db.operations.insert? ⟨operationId, c.installationId, kind, digest,
        .receipt c.generation (epochMs c.expiresAt), now⟩ = some db'.operations := by
  obtain ⟨db₁, db₂, hcred, hop, -, rfl⟩ := storeCredential_ok h
  obtain ⟨t, -, rfl⟩ := insertCredential_ok hcred
  obtain ⟨t', hins, rfl⟩ := insertOperation_ok hop
  refine ⟨?_, ?_, ?_⟩
  · split <;> rfl
  · split <;> rfl
  · split at hins <;> exact hins

theorem Books.appends {op : StoreOp} (h : Books op db db') : Appends sha256 op db db' := by
  cases h with
  | unchanged => exact .unchanged
  | quota | nonces | monitor | lag => exact .none rfl rfl

theorem operations_challengeSetChanged (db : Db) (now : Time) (id : Uuid) (event : AuditEvent) :
    (db.challengeSetChanged now id event).operations = db.operations := rfl

theorem ensureChallengeValue_appends {op : StoreOp} {generation : Nat} {txt : String} {r : Nat × Nat}
    (h : ensureChallengeValue db now id generation txt = .ok (r, db')) :
    Appends sha256 op db db' := by
  obtain ⟨-, -, row, -, -, ⟨v, -, rfl⟩ | ⟨-, hadd⟩⟩ := ensureChallengeValue_ok h
  · exact .none rfl rfl
  · obtain ⟨-, db₁, hins, rfl⟩ := addChallengeValue_ok hadd
    obtain ⟨t, -, rfl⟩ := insertChallengeValue_ok hins
    refine .queued (.snoc .refl rfl rfl) ?_
    rw [operations_challengeSetChanged]
    rfl

/-- An installation that was changed is still there. -/
theorem found_of_modified (f : Installation → Installation)
    (hf : ∀ r, (f r).installationId = r.installationId) {row : Installation}
    (hrow : db.installations.find? id = some row)
    (hdb : db'.installations = (db.modifyInstallation id f hf).installations) :
    db'.installations.find? id ≠ none := by
  rw [hdb, Db.modifyInstallation, Table.find?_modify_self, hrow]
  exact Option.some_ne_none _

theorem issueBearer_appends {operationId : Uuid} {scope : String} {tokenHash : Bytes32}
    {validitySeconds : Int} {r : Nat × Nat}
    (h : issueBearer sha256 store db now id operationId scope tokenHash validitySeconds =
      .ok (r, db')) :
    Appends sha256 (.issueBearer id operationId scope tokenHash validitySeconds) db db' := by
  obtain ⟨s, hs, hmin, hmax, ⟨-, rfl⟩ | ⟨-, hfresh⟩⟩ := issueBearer_ok h
  · exact .unchanged
  · obtain ⟨row, hrow, -, hstore⟩ := issueBearerTx_ok hfresh
    obtain ⟨hjobs, hinst, hins⟩ := storeCredential_appends hstore
    refine ⟨fun _ => hjobs ▸ .refl, .new _ _ hins rfl ?_
      (found_of_modified Installation.bump Installation.bump_installationId hrow hinst)⟩
    have hkind : (BearerScope.parse? scope).map OperationKind.issue = some (.issue s) := by
      rw [hs]
      rfl
    refine ⟨hkind, ?_, ?_, by simp [Request.accepted, hmin, hmax]⟩
    · rintro i ⟨⟩
      rfl
    · rintro b ⟨⟩
      rw [← asStr_of_parse hs]
      rfl

theorem renewBearer_appends {operationId : Uuid} {scope : String} {generation : Nat}
    {currentToken : String} {newTokenHash : Bytes32} {r : Nat × Nat}
    (h : renewBearer sha256 store db now id operationId scope generation currentToken newTokenHash =
      .ok (r, db')) :
    Appends sha256 (.renewBearer id operationId scope generation currentToken newTokenHash) db
      db' := by
  obtain ⟨s, hs, -, ⟨-, rfl⟩ | ⟨-, hfresh⟩⟩ := renewBearer_ok h
  · exact .unchanged
  · obtain ⟨row, _, hrow, -, -, hstore⟩ := renewBearerTx_ok hfresh
    obtain ⟨hjobs, hinst, hins⟩ := storeCredential_appends hstore
    refine ⟨fun _ => hjobs ▸ .refl, .new _ _ hins rfl ?_
      (found_of_modified Installation.bump Installation.bump_installationId hrow hinst)⟩
    have hkind : (BearerScope.parse? scope).map OperationKind.renew = some (.renew s) := by
      rw [hs]
      rfl
    refine ⟨hkind, ?_, ?_, rfl⟩
    · rintro i ⟨⟩
      rfl
    · rintro b ⟨⟩
      rw [← asStr_of_parse hs]
      rfl

theorem allocate_appends {operationId : Uuid} {key : Bytes32} {placement : String}
    {random : BitVec 128} {a : Allocation}
    (h : allocate db now operationId key placement id random = .ok (a, db')) :
    Appends sha256 (.allocate operationId key placement id random) db db' := by
  obtain rfl | ⟨-, hfresh⟩ := allocate_ok h
  · exact .unchanged
  · obtain ⟨db₁, db₂, db₃, h₁, h₂, h₃, rfl⟩ := allocateTx_ok hfresh
    obtain ⟨-, t, ht, rfl⟩ := insertInstallation_ok h₁
    obtain ⟨t', -, rfl⟩ := insertReservation_ok h₂
    obtain ⟨t'', hins, rfl⟩ := insertOperation_ok h₃
    refine ⟨fun _ => .snoc .refl rfl rfl, .new _ _ hins rfl ⟨rfl, nofun, nofun, rfl⟩ ?_⟩
    have hfind : t.find? id = some _ := Table.find?_insert?_self ht
    show t.find? id ≠ _
    rw [hfind]
    exact Option.some_ne_none _

theorem retire_appends {operationId : Uuid} {u : Unit}
    (h : retire sha256 db now id operationId = .ok (u, db')) :
    Appends sha256 (.retire id operationId) db db' := by
  obtain ⟨-, rfl⟩ | ⟨-, hfound, hins⟩ := retire_ok h
  · exact .unchanged
  · obtain ⟨t, hop, rfl⟩ := insertOperation_ok hins
    have hq : (Request.retire id).RecordedAs sha256
        ⟨operationId, id, .retire, retireDigest sha256 id, .empty, now⟩ :=
      ⟨rfl, by rintro i ⟨⟩; rfl, nofun, rfl⟩
    obtain ⟨heq, -⟩ | ⟨row, hrow, -, heq⟩ := retireOnce_cases db now id operationId
    · rw [heq] at hop ⊢
      refine ⟨fun _ => .refl, .new _ _ hop rfl hq ?_⟩
      exact Option.isSome_iff_ne_none.mp hfound
    · rw [heq] at hop ⊢
      have hlaw := Installation.retire_installationId now
      refine ⟨fun _ => ?_, .new _ _ hop rfl hq ?_⟩
      · exact queues_enqueueRemoval .refl now id
      · exact found_of_modified (Installation.retire now) hlaw hrow rfl

theorem relocate_appends {operationId : Uuid} {placement : String} {u : Unit}
    (h : relocate sha256 db now id operationId placement = .ok (u, db')) :
    Appends sha256 (.relocate id operationId placement) db db' := by
  obtain ⟨-, rfl⟩ | ⟨-, -, row, hrow, -, -, hins⟩ := relocate_ok h
  · exact .unchanged
  · obtain ⟨t, hop, rfl⟩ := insertOperation_ok hins
    refine ⟨fun _ => .snoc .refl rfl rfl, .new _ _ hop rfl ⟨rfl, ?_, ?_, rfl⟩
      (found_of_modified
        (fun i => { i with placement := placement, generation := i.generation + 1 }) (fun _ => rfl)
        hrow rfl)⟩
    · rintro i ⟨⟩
      rfl
    · rintro b ⟨⟩
      rfl

/-- What every transaction appends. -/
theorem transact_appends {op : StoreOp} {reply : Reply}
    (h : op.transact sha256 store now db = .ok (reply, db')) : Appends sha256 op db db' := by
  cases op with
  | issueBearer id op scope tokenHash validitySeconds =>
    obtain ⟨r, htx, -⟩ := answer_ok.mp h
    exact issueBearer_appends htx
  | renewBearer id op scope generation currentToken newTokenHash =>
    obtain ⟨r, htx, -⟩ := answer_ok.mp h
    exact renewBearer_appends htx
  | registerAcmeAccount id uri =>
    obtain ⟨u, htx, -⟩ := answer_ok.mp h
    obtain ⟨row, -, -, rfl⟩ := registerAcmeAccount_ok htx
    exact .queued (.snoc .refl rfl rfl) rfl
  | markDnsReady id =>
    obtain ⟨u, htx, -⟩ := answer_ok.mp h
    obtain rfl | ⟨row, -, -, -, rfl⟩ := markDnsReady_ok htx
    · exact .none rfl rfl
    · exact .none rfl rfl
  | ensureChallengeValue id generation txt =>
    obtain ⟨r, htx, -⟩ := answer_ok.mp h
    exact ensureChallengeValue_appends htx
  | markChallengeReconciled id revision =>
    simp only [StoreOp.transact, answer_total] at h
    obtain heq | ⟨s, -, -, heq⟩ := markChallengeReconciled_cases db id revision
    · rw [h.2, heq]
      exact .none rfl rfl
    · rw [h.2, heq]
      exact .none rfl rfl
  | allocate op key placement id random =>
    obtain ⟨r, htx, -⟩ := answer_ok.mp h
    exact allocate_appends htx
  | claimTunnel id gatewayId ttlSeconds =>
    obtain ⟨g, htx, -⟩ := answer_ok.mp h
    obtain ⟨row, -, -, -, -, rfl⟩ := claimTunnel_ok htx
    exact .none rfl rfl
  | renewTunnel id gatewayId generation =>
    simp only [StoreOp.transact, answer_total] at h
    obtain heq | ⟨-, heq⟩ := renewTunnel_cases db now id gatewayId generation
    · rw [h.2, heq]
      exact .none rfl rfl
    · rw [h.2, heq]
      exact .none rfl rfl
  | expirePendingAllocation id =>
    simp only [StoreOp.transact, answer_total] at h
    obtain heq | ⟨row, -, -, heq⟩ := expirePendingAllocation_cases db now id
    · rw [h.2, heq]
      exact .none rfl rfl
    · rw [h.2, heq]
      exact .queued (queues_enqueueRemoval .refl now id) rfl
  | expireChallengeValuesOf id =>
    simp only [StoreOp.transact, answer_total] at h
    obtain heq | ⟨-, heq⟩ := expireChallengeValuesOf_cases db now id
    · rw [h.2, heq]
      exact .none rfl rfl
    · rw [h.2, heq]
      exact .queued (.snoc .refl rfl rfl) rfl
  | retire id op =>
    obtain ⟨r, htx, -⟩ := answer_ok.mp h
    exact retire_appends htx
  | relocate id op placement =>
    obtain ⟨r, htx, -⟩ := answer_ok.mp h
    exact relocate_appends htx
  | completeJob job | deferJob job =>
    cases h
    exact ⟨(fun hno => by cases hno), .same rfl⟩
  | createBootstrapChallenge | consumeBootstrapChallenge | pruneBootstrap | pruneNonces | consumeNonce
  | ensureCtSource | markCtFeedHealthy | markCtAlertDelivered | queueCtLagAlert
  | markCtLagAlertDelivered | recordExpectedCertificate | observeCt =>
    exact (books_of_transact h rfl).appends

/-- A call that records no outcome only queues jobs. -/
theorem call_queues {call : Call} (hop : call.op.recordsOutcome = false) (db : Db) :
    Queues db.outbox (call.after sha256 db).outbox := by
  obtain heq | ⟨reply, -, htx, -⟩ := after_cases sha256 call db
  · rw [heq]
    exact .refl
  · exact (transact_appends htx).jobs hop

/-- The row after the outcome of an attempt at job `job` was recorded. -/
def OutboxRow.recorded (now : Time) (job : Nat) (finished : Bool) (o : OutboxRow) : OutboxRow :=
  if o.id = job then
    if finished then { o with completedAt := some now }
    else { o with
      attempts := o.attempts + 1
      nextAttemptAt := now + seconds (min 300 (5 * 2 ^ min 6 o.attempts)) }
  else o

@[simp] theorem OutboxRow.recorded_id (now : Time) (job : Nat) (finished : Bool) (o : OutboxRow) :
    (o.recorded now job finished).id = o.id := by
  unfold OutboxRow.recorded
  split_ifs <;> rfl

theorem transact_numbered {op : StoreOp} {reply : Reply} (hn : Numbered db.outbox)
    (h : op.transact sha256 store now db = .ok (reply, db')) : Numbered db'.outbox := by
  by_cases hop : op.recordsOutcome = false
  · exact hn.queues ((transact_appends h).jobs hop)
  · cases op with
    | completeJob job =>
      cases h
      exact hn.map fun o => o.recorded_id now job true
    | deferJob job =>
      cases h
      exact hn.map fun o => o.recorded_id now job false
    | _ => exact absurd rfl hop

theorem Numbered.run {tr : List (Event Db Call)} (h : StoreRun sha256 tr db) :
    Numbered db.outbox := by
  have hempty : Numbered Db.migrated.outbox := rfl
  refine h.state_invariant (fun db => Numbered db.outbox) hempty ?_
  rintro db call _ hn rfl
  obtain heq | ⟨reply, -, htx, -⟩ := after_cases sha256 call db
  · rw [heq]
    exact hn
  · exact transact_numbered hn htx

end BloomRelay.Store
