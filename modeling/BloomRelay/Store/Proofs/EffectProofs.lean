import BloomRelay.Store.Proofs.BookProofs

/-!
# What every transaction accounts for

Facts about whole transactions that the life of one installation does not show. A transaction that
changes anything a rollback must not undo advances the restore fence. Only an allocation gives out a
name, and no transaction takes one back. The bootstrap challenges, the replay nonces, the tables of CT
monitoring and the challenge values are each written by few transactions only.
-/

namespace BloomRelay.Store

open Protocol Checked

variable {sha256 : Bytes → Bytes32} {store : StoreConfig} {db db' : Db} {now : Time} {id : Uuid}

/-! ## What the restore fence guards -/

/-- The data a restore must not roll back: installations (identity, state, generation, placement and
account), credentials, the membership of challenge sets, the certificate inventory, CT checkpoints
and the alerts of both kinds. -/
structure Guarded where
  installations : List Installation
  credentials : List Credential
  members : List (Uuid × String)
  certificateInventory : List Certificate
  ctFeedCheckpoints : List CtFeedCheckpoint
  ctAlerts : List CtAlert
  ctHealthAlerts : List CtHealthAlert
  deriving DecidableEq

def Db.guarded (db : Db) : Guarded where
  installations := db.installations.rows
  credentials := db.credentials.rows
  members := db.challengeValues.rows.map ChallengeValue.key
  certificateInventory := db.certificateInventory.rows
  ctFeedCheckpoints := db.ctFeedCheckpoints.rows
  ctAlerts := db.ctAlerts.rows
  ctHealthAlerts := db.ctHealthAlerts.rows

/-! ## Names -/

/-- What identifies an installation. -/
structure Name where
  installationId : Uuid
  hostname : String
  adminPublicKey : Bytes32

def Installation.name (r : Installation) : Name := ⟨r.installationId, r.hostname, r.adminPublicKey⟩

def Db.names (db : Db) : List Name := db.installations.rows.map Installation.name

/-- No installation and no reservation was added, removed or renamed. -/
structure SameNames (db db' : Db) : Prop where
  names : db'.names = db.names
  reservations : db'.hostnameReservations = db.hostnameReservations

theorem SameNames.of_eq (hi : db'.installations = db.installations)
    (hr : db'.hostnameReservations = db.hostnameReservations) : SameNames db db' :=
  ⟨congrArg (fun t => t.rows.map Installation.name) hi, hr⟩

theorem SameNames.of_update {p : Installation → Bool} {f : Installation → Installation}
    (hi : db'.installations.rows = db.installations.rows.map fun r => if p r then f r else r)
    (hname : ∀ r, (f r).name = r.name)
    (hr : db'.hostnameReservations = db.hostnameReservations) : SameNames db db' := by
  refine ⟨?_, hr⟩
  rw [Db.names, hi, List.map_map]
  refine List.map_congr_left fun r _ => ?_
  simp only [Function.comp_apply]
  split
  · exact hname r
  · rfl

/-- A new installation under a new hostname, reserved with it. -/
structure Allocated (db db' : Db) (r : Installation) (h : HostnameReservation) : Prop where
  fresh : ∀ x ∈ db.installations.rows, x.hostname ≠ r.hostname
  hostname_eq : h.hostname = r.hostname
  owner_eq : h.installationId = r.installationId
  reserved : db.hostnameReservations.insert? h = some db'.hostnameReservations
  rows : db'.installations.rows = db.installations.rows ++ [r]

/-! ## Tables that few transactions write -/

/-- The tables of CT monitoring, the health of the feeds apart. -/
structure CtTables where
  checkpoints : Table CtFeedCheckpoint CtFeedCheckpoint.source
  observations : Table CtObservation CtObservation.key
  alerts : Table CtAlert CtAlert.key
  inventory : Table Certificate Certificate.key

def Db.ct (db : Db) : CtTables :=
  ⟨db.ctFeedCheckpoints, db.ctObservations, db.ctAlerts, db.certificateInventory⟩

/-- What only the transactions of `Books` write. -/
structure Beside where
  bootstrap : Table BootstrapChallenge BootstrapChallenge.nonce
  nonces : Table UsedNonce UsedNonce.key
  ct : CtTables

def Db.beside (db : Db) : Beside := ⟨db.bootstrapChallenges, db.usedNonces, db.ct⟩

def StoreOp.writesValues : StoreOp → Bool
  | .ensureChallengeValue _ _ _ | .expireChallengeValuesOf _ | .retire _ _ => true
  | _ => false

/-! ## Effects -/

structure Effect (op : StoreOp) (db db' : Db) : Prop where
  fence : db.restoreFence < db'.restoreFence ∨
    db'.restoreFence = db.restoreFence ∧ db'.guarded = db.guarded
  names : SameNames db db' ∨ ∃ r res, Allocated db db' r res
  bootstrap : op.writesBootstrap = false → db'.bootstrapChallenges = db.bootstrapChallenges
  nonces : op.writesNonces = false → db'.usedNonces = db.usedNonces
  ct : op.writesCt = false → db'.ct = db.ct
  values : op.writesValues = false → db'.challengeValues = db.challengeValues

namespace Effect

variable {op : StoreOp}

/-- A transaction that leaves the tables beside the installations alone. -/
theorem of_beside (hfence : db.restoreFence < db'.restoreFence ∨
      db'.restoreFence = db.restoreFence ∧ db'.guarded = db.guarded)
    (hnames : SameNames db db' ∨ ∃ r res, Allocated db db' r res) (hbeside : db'.beside = db.beside)
    (hvalues : op.writesValues = false → db'.challengeValues = db.challengeValues) :
    Effect op db db' :=
  ⟨hfence, hnames, fun _ => congrArg Beside.bootstrap hbeside, fun _ => congrArg Beside.nonces hbeside,
    fun _ => congrArg Beside.ct hbeside, hvalues⟩

theorem unchanged (op : StoreOp) (db : Db) : Effect op db db :=
  .of_beside (.inr ⟨rfl, rfl⟩) (.inl (.of_eq rfl rfl)) rfl fun _ => rfl

/-- It also leaves the installations and the fence alone. -/
theorem quiet (hfence : db'.restoreFence = db.restoreFence) (hguard : db'.guarded = db.guarded)
    (hinst : db'.installations = db.installations)
    (hres : db'.hostnameReservations = db.hostnameReservations) (hbeside : db'.beside = db.beside)
    (hvalues : op.writesValues = false → db'.challengeValues = db.challengeValues) :
    Effect op db db' :=
  .of_beside (.inr ⟨hfence, hguard⟩) (.inl (.of_eq hinst hres)) hbeside hvalues

/-- It advances the fence and updates an installation, but not its name. -/
theorem updated {p : Installation → Bool} {f : Installation → Installation}
    (hinst : db'.installations.rows = db.installations.rows.map fun r => if p r then f r else r)
    (hname : ∀ r, (f r).name = r.name)
    (hres : db'.hostnameReservations = db.hostnameReservations)
    (hfence : db.restoreFence < db'.restoreFence) (hbeside : db'.beside = db.beside)
    (hvalues : op.writesValues = false → db'.challengeValues = db.challengeValues) :
    Effect op db db' :=
  .of_beside (.inl hfence) (.inl (.of_update hinst hname hres)) hbeside hvalues

end Effect

/-- What `issue_bearer` and `renew_bearer` have in common. -/
theorem storeCredential_frame {operationId : Uuid} {kind : OperationKind} {digest : Bytes32}
    {c : Credential} {auditOperation : Option Uuid} {event : AuditEvent} {r : Nat × Nat}
    (h : db.storeCredential now operationId kind digest c auditOperation event = .ok (r, db')) :
    db'.installations = db.installations ∧ db'.hostnameReservations = db.hostnameReservations ∧
      db'.beside = db.beside ∧ db'.challengeValues = db.challengeValues ∧
      db'.restoreFence = db.restoreFence + 1 := by
  obtain ⟨db₁, db₂, hcred, hop, -, rfl⟩ := storeCredential_ok h
  obtain ⟨t, -, rfl⟩ := insertCredential_ok hcred
  obtain ⟨t', -, rfl⟩ := insertOperation_ok hop
  split
  · exact ⟨rfl, rfl, rfl, rfl, rfl⟩
  · exact ⟨rfl, rfl, rfl, rfl, rfl⟩

theorem effect_allocateTx {op : StoreOp} {operationId : Uuid} {key : Bytes32} {placement : String}
    {random : BitVec 128} {a : Allocation}
    (h : allocateTx db now operationId key placement id random = .ok (a, db')) :
    Effect op db db' := by
  obtain ⟨db₁, db₂, db₃, h₁, h₂, h₃, rfl⟩ := allocateTx_ok h
  obtain ⟨hfresh, t, ht, rfl⟩ := insertInstallation_ok h₁
  obtain ⟨t', ht', rfl⟩ := insertReservation_ok h₂
  obtain ⟨t'', -, rfl⟩ := insertOperation_ok h₃
  refine .of_beside (.inl (Nat.lt_succ_self _)) (.inr ⟨_, _, hfresh, rfl, rfl, ht', ?_⟩) rfl
    fun _ => rfl
  exact ((Table.insert?_eq_some_iff _).mp ht).2

theorem effect_ensureChallengeValue {generation : Nat} {txt : String} {r : Nat × Nat}
    (h : ensureChallengeValue db now id generation txt = .ok (r, db')) :
    Effect (.ensureChallengeValue id generation txt) db db' := by
  obtain ⟨-, -, row, -, -, ⟨v, -, rfl⟩ | ⟨-, hadd⟩⟩ := ensureChallengeValue_ok h
  · -- A refresh moves an expiry and leaves the membership as it is.
    refine .quiet rfl ?_ rfl rfl rfl fun hno => by cases hno
    have hkeys : ((db.ensureChallengeState id).refreshValue id txt
        (now + challengeLifetime)).challengeValues.rows.map ChallengeValue.key =
          db.challengeValues.rows.map ChallengeValue.key := by
      simp only [Db.refreshValue, Db.ensureChallengeState, Table.modify, Table.rows_updateWhere,
        List.map_map]
      refine List.map_congr_left fun x _ => ?_
      simp only [Function.comp_apply]
      split <;> rfl
    simp only [Db.guarded, hkeys]
    rfl
  · obtain ⟨-, db₁, hins, rfl⟩ := addChallengeValue_ok hadd
    obtain ⟨hi, hr, hb, hf⟩ : db₁.installations = db.installations ∧
        db₁.hostnameReservations = db.hostnameReservations ∧ db₁.beside = db.beside ∧
        db₁.restoreFence = db.restoreFence := by
      obtain ⟨t, -, rfl⟩ := insertChallengeValue_ok hins
      exact ⟨rfl, rfl, rfl, rfl⟩
    exact .of_beside (.inl (Nat.lt_succ_of_le hf.ge)) (.inl (.of_eq hi hr)) hb fun hno => by cases hno

theorem Books.effect {op : StoreOp} (h : Books op db db') : Effect op db db' := by
  have hname : ∀ {db'}, db'.installations = db.installations →
      db'.hostnameReservations = db.hostnameReservations →
        SameNames db db' ∨ ∃ r res, Allocated db db' r res := fun hi hr => .inl (.of_eq hi hr)
  cases h with
  | unchanged => exact .unchanged op db
  | quota hop =>
    exact ⟨.inr ⟨rfl, rfl⟩, hname rfl rfl, fun hno => absurd (hop.symm.trans hno) Bool.true_eq_false.mp,
      fun _ => rfl, fun _ => rfl, fun _ => rfl⟩
  | nonces hop =>
    exact ⟨.inr ⟨rfl, rfl⟩, hname rfl rfl, fun _ => rfl,
      fun hno => absurd (hop.symm.trans hno) Bool.true_eq_false.mp, fun _ => rfl, fun _ => rfl⟩
  | monitor hop _ _ _ _ _ _ hfence =>
    exact ⟨.inl hfence, hname rfl rfl, fun _ => rfl, fun _ => rfl,
      fun hno => absurd (hop.symm.trans hno) Bool.true_eq_false.mp, fun _ => rfl⟩
  | lag => exact .of_beside (.inl (Nat.lt_succ_self _)) (hname rfl rfl) rfl fun _ => rfl

/-- What every transaction accounts for. -/
theorem transact_effect {op : StoreOp} {reply : Reply}
    (h : op.transact sha256 store now db = .ok (reply, db')) : Effect op db db' := by
  cases op with
  | issueBearer id op scope tokenHash validitySeconds =>
    obtain ⟨r, htx, -⟩ := answer_ok.mp h
    obtain ⟨s, -, -, -, ⟨-, rfl⟩ | ⟨-, hfresh⟩⟩ := issueBearer_ok htx
    · exact .unchanged _ _
    · obtain ⟨row, -, -, hstore⟩ := issueBearerTx_ok hfresh
      obtain ⟨hi, hr, hb, hv, hf⟩ := storeCredential_frame hstore
      exact .updated (congrArg Table.rows hi) (fun _ => rfl) hr (hf ▸ Nat.lt_succ_self _) hb fun _ => hv
  | renewBearer id op scope generation currentToken newTokenHash =>
    obtain ⟨r, htx, -⟩ := answer_ok.mp h
    obtain ⟨s, -, -, ⟨-, rfl⟩ | ⟨-, hfresh⟩⟩ := renewBearer_ok htx
    · exact .unchanged _ _
    · obtain ⟨row, _, -, -, -, hstore⟩ := renewBearerTx_ok hfresh
      obtain ⟨hi, hr, hb, hv, hf⟩ := storeCredential_frame hstore
      exact .updated (congrArg Table.rows hi) (fun _ => rfl) hr (hf ▸ Nat.lt_succ_self _) hb fun _ => hv
  | registerAcmeAccount id uri =>
    obtain ⟨u, htx, -⟩ := answer_ok.mp h
    obtain ⟨row, -, -, rfl⟩ := registerAcmeAccount_ok htx
    exact .updated rfl (fun _ => rfl) rfl (Nat.lt_succ_self _) rfl fun _ => rfl
  | markDnsReady id =>
    obtain ⟨u, htx, -⟩ := answer_ok.mp h
    obtain rfl | ⟨row, -, -, -, rfl⟩ := markDnsReady_ok htx
    · exact .unchanged _ _
    · exact .updated rfl (fun _ => rfl) rfl (Nat.lt_succ_self _) rfl fun _ => rfl
  | ensureChallengeValue id generation txt =>
    obtain ⟨u, htx, -⟩ := answer_ok.mp h
    exact effect_ensureChallengeValue htx
  | markChallengeReconciled id revision =>
    simp only [StoreOp.transact, answer_total] at h
    obtain heq | ⟨s, -, -, heq⟩ := markChallengeReconciled_cases db id revision
    · rw [h.2, heq]
      exact .unchanged _ _
    · rw [h.2, heq]
      exact .quiet rfl rfl rfl rfl rfl fun _ => rfl
  | allocate op key placement id random =>
    obtain ⟨a, htx, -⟩ := answer_ok.mp h
    obtain rfl | ⟨-, hfresh⟩ := allocate_ok htx
    · exact .unchanged _ _
    · exact effect_allocateTx hfresh
  | claimTunnel id gatewayId ttlSeconds =>
    obtain ⟨g, htx, -⟩ := answer_ok.mp h
    obtain ⟨row, -, -, -, -, rfl⟩ := claimTunnel_ok htx
    exact .updated rfl (fun _ => rfl) rfl (Nat.lt_succ_self _) rfl fun _ => rfl
  | renewTunnel id gatewayId generation =>
    simp only [StoreOp.transact, answer_total] at h
    obtain heq | ⟨-, heq⟩ := renewTunnel_cases db now id gatewayId generation
    · rw [h.2, heq]
      exact .unchanged _ _
    · rw [h.2, heq]
      exact .quiet rfl rfl rfl rfl rfl fun _ => rfl
  | expirePendingAllocation id =>
    simp only [StoreOp.transact, answer_total] at h
    obtain heq | ⟨row, -, -, heq⟩ := expirePendingAllocation_cases db now id
    · rw [h.2, heq]
      exact .unchanged _ _
    · rw [h.2, heq]
      exact .updated rfl (fun _ => rfl) rfl (Nat.lt_succ_self _) rfl fun _ => rfl
  | expireChallengeValuesOf id =>
    simp only [StoreOp.transact, answer_total] at h
    obtain heq | ⟨-, heq⟩ := expireChallengeValuesOf_cases db now id
    · rw [h.2, heq]
      exact .unchanged _ _
    · rw [h.2, heq]
      exact .of_beside (.inl (Nat.lt_succ_self _)) (.inl (.of_eq rfl rfl)) rfl fun hno => by cases hno
  | retire id op =>
    obtain ⟨u, htx, -⟩ := answer_ok.mp h
    obtain ⟨-, rfl⟩ | ⟨-, -, hop⟩ := retire_ok htx
    · exact .unchanged _ _
    · obtain ⟨t, -, rfl⟩ := insertOperation_ok hop
      obtain ⟨heq, -⟩ | ⟨row, -, -, heq⟩ := retireOnce_cases db now id op
      · rw [heq]
        exact .quiet rfl rfl rfl rfl rfl fun _ => rfl
      · rw [heq]
        exact .updated rfl (fun _ => rfl) rfl (Nat.lt_succ_self _) rfl fun hno => by cases hno
  | relocate id op placement =>
    obtain ⟨u, htx, -⟩ := answer_ok.mp h
    obtain ⟨-, rfl⟩ | ⟨-, -, row, -, -, -, hop⟩ := relocate_ok htx
    · exact .unchanged _ _
    · obtain ⟨t, -, rfl⟩ := insertOperation_ok hop
      exact .updated rfl (fun _ => rfl) rfl (Nat.lt_succ_self _) rfl fun _ => rfl
  | completeJob job =>
    cases h
    exact .quiet rfl rfl rfl rfl rfl fun _ => rfl
  | deferJob job =>
    cases h
    exact .quiet rfl rfl rfl rfl rfl fun _ => rfl
  | createBootstrapChallenge | consumeBootstrapChallenge | pruneBootstrap | pruneNonces | consumeNonce
  | ensureCtSource | markCtFeedHealthy | markCtAlertDelivered | queueCtLagAlert
  | markCtLagAlertDelivered | recordExpectedCertificate | observeCt =>
    exact (books_of_transact h rfl).effect

/-- The same for a call, which may be refused. -/
theorem call_effect (sha256 : Bytes → Bytes32) (call : Call) (db : Db) :
    Effect call.op db (call.after sha256 db) := by
  obtain heq | ⟨reply, -, htx, -⟩ := after_cases sha256 call db
  · rw [heq]
    exact .unchanged _ _
  · exact transact_effect htx

end BloomRelay.Store
