import BloomRelay.Store.Overlap
import BloomRelay.Store.Proofs.OperationProofs

/-!
# Overlapping calls

A call in two steps that commits has done what it does in one step, because the record under its
operation ID was not there when it made it. Runs of overlapping calls are runs of the store, and under
one operation ID one call at most has changed the database.
-/

namespace BloomRelay.Store

open Protocol Checked

variable {sha256 : Bytes → Bytes32} {store : StoreConfig} {db db' db₀ : Db} {now now₀ : Time}
  {id operationId : Uuid} {op : StoreOp} {reply : Reply}

/-! ## The two steps of a call -/

theorem answer_replay {α : Type} (f : α → Reply) (replayed : Except StoreError α)
    (rest : Except StoreError (Reply × Db)) :
    answer f (do
      let a ← replayed
      .ok (a, db)) = (do
        match ← Except.map some (do
          let a ← replayed
          .ok (f a)) with
        | some reply => .ok (reply, db)
        | none => rest) := by
  cases replayed with
  | error e => rfl
  | ok a => rfl

/-- A call in one step is its lookup and, if that has not answered it, its body. -/
theorem transact_eq (op : StoreOp) (store : StoreConfig) (now : Time) (db : Db) :
    op.transact sha256 store now db = (do
      match ← op.lookup sha256 now db with
      | some reply => .ok (reply, db)
      | none => op.body sha256 store now db) := by
  cases op with
  | issueBearer id operationId scope tokenHash validitySeconds =>
    simp only [StoreOp.transact, StoreOp.lookup, StoreOp.body, issueBearer]
    cases hscope : issueScope scope validitySeconds with
    | error e => rfl
    | ok s =>
      rw [(issueScope_eq_ok.mp hscope).1]
      cases db.operations.find? operationId with
      | none => rfl
      | some existing => exact answer_replay _ _ _
  | renewBearer id operationId scope generation currentToken newTokenHash =>
    simp only [StoreOp.transact, StoreOp.lookup, StoreOp.body, renewBearer]
    cases hscope : renewScope scope currentToken with
    | error e => rfl
    | ok s =>
      rw [(renewScope_eq_ok.mp hscope).1]
      cases db.operations.find? operationId with
      | none => rfl
      | some existing => exact answer_replay _ _ _
  | allocate operationId key placement id random =>
    simp only [StoreOp.transact, StoreOp.lookup, StoreOp.body, allocate]
    cases require (placementOk placement = true) StoreError.invalidRequest with
    | error e => rfl
    | ok u =>
      cases db.allocated? operationId with
      | none => rfl
      | some i => exact answer_replay _ _ _
  | retire id operationId =>
    simp only [StoreOp.transact, StoreOp.lookup, StoreOp.body, retire]
    cases db.operations.find? operationId with
    | none => rfl
    | some existing => exact answer_replay _ _ _
  | relocate id operationId placement =>
    simp only [StoreOp.transact, StoreOp.lookup, StoreOp.body, relocate]
    cases require (placementOk placement = true) StoreError.invalidRequest with
    | error e => rfl
    | ok u =>
      cases db.operations.find? operationId with
      | none => rfl
      | some existing => exact answer_replay _ _ _
  | _ => rfl

/-! ## What the second step records -/

theorem issueBearerTx_records {scope : BearerScope} {tokenHash : Bytes32} {validitySeconds : Int}
    {r : Nat × Nat}
    (h : issueBearerTx sha256 store db now id operationId scope tokenHash validitySeconds =
      .ok (r, db')) :
    db.operations.insert? ⟨operationId, id, .issue scope,
      issueDigest sha256 scope validitySeconds tokenHash, .receipt r.1 r.2, now⟩ =
        some db'.operations := by
  obtain ⟨row, -, -, hstore⟩ := issueBearerTx_ok h
  obtain ⟨_, _, -, -, rfl, -⟩ := storeCredential_ok hstore
  exact (storeCredential_appends hstore).2.2

theorem renewBearerTx_records {scope : BearerScope} {generation : Nat} {currentToken : String}
    {newTokenHash : Bytes32} {r : Nat × Nat}
    (h : renewBearerTx sha256 store db now id operationId scope generation currentToken
      newTokenHash = .ok (r, db')) :
    db.operations.insert? ⟨operationId, id, .renew scope,
      renewDigest sha256 scope generation (sha256 (utf8 currentToken)) newTokenHash,
      .receipt r.1 r.2, now⟩ = some db'.operations := by
  obtain ⟨row, current, -, -, -, hstore⟩ := renewBearerTx_ok h
  obtain ⟨_, _, -, -, rfl, -⟩ := storeCredential_ok hstore
  exact (storeCredential_appends hstore).2.2

theorem allocateTx_records {key : Bytes32} {placement : String} {random : BitVec 128} {a : Allocation}
    (h : allocateTx db now operationId key placement id random = .ok (a, db')) :
    db.operations.insert? ⟨operationId, id, .allocate, 0, .allocation a, now⟩ =
      some db'.operations := by
  obtain ⟨db₁, db₂, db₃, hinst, hres, hop, rfl⟩ := allocateTx_ok h
  obtain ⟨-, _, -, rfl⟩ := insertInstallation_ok hinst
  obtain ⟨_, -, rfl⟩ := insertReservation_ok hres
  obtain ⟨t, hins, rfl⟩ := insertOperation_ok hop
  exact hins

theorem retireTx_records {u : Unit} (h : retireTx sha256 db now id operationId = .ok (u, db')) :
    db.operations.insert? ⟨operationId, id, .retire, retireDigest sha256 id, .empty, now⟩ =
      some db'.operations := by
  simp only [retireTx, bind_eq_ok, Except.ok.injEq, Prod.mk.injEq] at h
  obtain ⟨_, -, db₁, hop, -, rfl⟩ := h
  obtain ⟨t, hins, rfl⟩ := insertOperation_ok hop
  obtain ⟨heq, -⟩ | ⟨row, -, -, heq⟩ := retireOnce_cases db now id operationId
  · rw [heq] at hins
    exact hins
  · rw [heq] at hins
    exact hins

theorem relocateTx_records {placement : String} {u : Unit}
    (h : relocateTx sha256 db now id operationId placement = .ok (u, db')) :
    db.operations.insert? ⟨operationId, id, .relocate, relocationDigest sha256 id placement, .empty,
      now⟩ = some db'.operations := by
  simp only [relocateTx, bind_eq_ok, found_eq_ok, Except.ok.injEq, Prod.mk.injEq] at h
  obtain ⟨⟨_, db₁⟩, hupd, db₂, hop, -, rfl⟩ := h
  obtain ⟨row, -, -, -, rfl⟩ := updateInstallation_eq_some hupd
  obtain ⟨t, hins, rfl⟩ := insertOperation_ok hop
  exact hins

/-- A call that commits its second step records its operation ID, which was not recorded before. -/
theorem body_records (hid : op.operationId? = some operationId)
    (h : op.body sha256 store now db = .ok (reply, db')) :
    ∃ o, o.operationId = operationId ∧ db.operations.insert? o = some db'.operations := by
  cases op with
  | issueBearer id operationId scope tokenHash validitySeconds =>
    cases hid
    obtain ⟨r, htx, -⟩ := answer_ok.mp h
    obtain ⟨s, -, htx⟩ := bind_eq_ok.mp htx
    exact ⟨_, rfl, issueBearerTx_records htx⟩
  | renewBearer id operationId scope generation currentToken newTokenHash =>
    cases hid
    obtain ⟨r, htx, -⟩ := answer_ok.mp h
    obtain ⟨s, -, htx⟩ := bind_eq_ok.mp htx
    exact ⟨_, rfl, renewBearerTx_records htx⟩
  | allocate operationId key placement id random =>
    cases hid
    obtain ⟨a, htx, -⟩ := answer_ok.mp h
    exact ⟨_, rfl, allocateTx_records htx⟩
  | retire id operationId =>
    cases hid
    obtain ⟨u, htx, -⟩ := answer_ok.mp h
    exact ⟨_, rfl, retireTx_records htx⟩
  | relocate id operationId placement =>
    cases hid
    obtain ⟨u, htx, -⟩ := answer_ok.mp h
    exact ⟨_, rfl, relocateTx_records htx⟩
  | _ => cases hid

theorem body_unrecorded (hid : op.operationId? = some operationId)
    (h : op.body sha256 store now db = .ok (reply, db')) :
    db.operations.find? operationId = none ∧ db'.operations.find? operationId ≠ none := by
  obtain ⟨o, rfl, hins⟩ := body_records hid h
  refine ⟨((db.operations.insert?_eq_some_iff).mp hins).1, ?_⟩
  rw [Table.find?_insert?_self hins]
  exact Option.some_ne_none o

/-- The arguments of a call that was not answered by its lookup once are never refused, so that it is
not answered while its operation ID is not recorded. -/
theorem lookup_of_unrecorded (hstart : op.lookup sha256 now₀ db₀ = .ok none)
    (hnone : ∀ o, op.operationId? = some o → db.operations.find? o = none) :
    op.lookup sha256 now db = .ok none := by
  cases op with
  | issueBearer id operationId scope tokenHash validitySeconds =>
    simp only [StoreOp.lookup, bind_eq_ok] at hstart ⊢
    obtain ⟨s, hs, -⟩ := hstart
    refine ⟨s, hs, ?_⟩
    rw [hnone operationId rfl]
    rfl
  | renewBearer id operationId scope generation currentToken newTokenHash =>
    simp only [StoreOp.lookup, bind_eq_ok] at hstart ⊢
    obtain ⟨s, hs, -⟩ := hstart
    refine ⟨s, hs, ?_⟩
    rw [hnone operationId rfl]
    rfl
  | allocate operationId key placement id random =>
    simp only [StoreOp.lookup, bind_eq_ok, require_eq_ok] at hstart ⊢
    obtain ⟨u, hplacement, -⟩ := hstart
    refine ⟨u, hplacement, ?_⟩
    rw [Db.allocated?, hnone operationId rfl]
    rfl
  | retire id operationId =>
    simp only [StoreOp.lookup, hnone operationId rfl, recordedReply]
  | relocate id operationId placement =>
    simp only [StoreOp.lookup, bind_eq_ok, require_eq_ok] at hstart ⊢
    obtain ⟨u, hplacement, -⟩ := hstart
    refine ⟨u, hplacement, ?_⟩
    rw [hnone operationId rfl]
    rfl
  | _ => rfl

/-- A call that commits its second step does then what it does in one step. -/
theorem transact_of_body (hstart : op.lookup sha256 now₀ db₀ = .ok none)
    (h : op.body sha256 store now db = .ok (reply, db')) :
    op.transact sha256 store now db = .ok (reply, db') := by
  have hnone : ∀ o, op.operationId? = some o → db.operations.find? o = none :=
    fun o ho => (body_unrecorded ho h).1
  rw [transact_eq, lookup_of_unrecorded hstart hnone]
  exact h

theorem commit_ok {call : Call} (h : call.commit sha256 db = .ok (reply, db')) :
    call.op.body sha256 call.store call.now db = .ok (reply, db') := by
  unfold Call.commit at h
  split at h
  · rename_i hbody
    split_ifs at h
    cases h
    exact hbody
  · cases h

theorem exec_of_commit {call : Call} (hstart : call.op.lookup sha256 now₀ db₀ = .ok none)
    (h : call.commit sha256 db = .ok (reply, db')) : call.exec sha256 db = .ok (reply, db') := by
  unfold Call.commit at h
  split at h
  · rename_i reply₁ db₁ hbody
    unfold Call.exec
    rw [transact_of_body hstart hbody]
    exact h
  · cases h

/-- The converse: a call in one step that its lookup does not answer is its second step. -/
theorem exec_cases {call : Call} (h : call.exec sha256 db = .ok (reply, db')) :
    (call.op.lookup sha256 call.now db = .ok (some reply) ∧ db' = db) ∨
      (call.op.lookup sha256 call.now db = .ok none ∧
        call.op.body sha256 call.store call.now db = .ok (reply, db')) := by
  obtain ⟨htx, -⟩ := exec_ok h
  rw [transact_eq] at htx
  obtain ⟨answered, hlookup, htx⟩ := bind_eq_ok.mp htx
  cases answered with
  | none => exact .inr ⟨hlookup, htx⟩
  | some reply₁ =>
    cases htx
    exact .inl ⟨hlookup, rfl⟩

/-! ## Runs -/

variable {s s' : Overlap} {a : OverlapAction} {tr : List (Event Overlap OverlapAction)} {call : Call}

/-- Every open call has passed its lookup. -/
def Started (sha256 : Bytes → Bytes32) (s : Overlap) : Prop :=
  ∀ k call, s.calls k = some call → ∃ now db, call.op.lookup sha256 now db = .ok none

theorem Started.setCall (h : Started sha256 s) {k : Nat} {call? : Option Call}
    (hnew : ∀ call, call? = some call → ∃ now db, call.op.lookup sha256 now db = .ok none)
    (hcalls : s'.calls = (s.setCall k call?).calls) : Started sha256 s' := by
  intro j call hj
  rw [hcalls] at hj
  change Function.update s.calls k call? j = some call at hj
  by_cases hjk : j = k
  · subst hjk
    rw [Function.update_self] at hj
    exact hnew call hj
  · rw [Function.update_of_ne hjk] at hj
    exact h j call hj

theorem Started.step (h : Started sha256 s) (hs : OverlapStep sha256 s a s') : Started sha256 s' := by
  cases a with
  | call call =>
    cases hs
    exact h
  | start k call =>
    simp only [OverlapStep, Overlap.step] at hs
    split at hs
    · cases hs
    · split at hs
      · rename_i hlookup
        cases hs
        refine h.setCall (fun call' hcall => ?_) rfl
        cases hcall
        exact ⟨_, _, hlookup⟩
      · cases hs
        exact h
  | finish k =>
    simp only [OverlapStep, Overlap.step] at hs
    split at hs
    · cases hs
      exact h.setCall (fun _ hcall => by cases hcall) rfl
    · cases hs
  | abandon k =>
    cases hs
    exact h.setCall (fun _ hcall => by cases hcall) rfl

theorem started_of_run (h : OverlapRun sha256 tr s) : Started sha256 s :=
  h.state_invariant (Started sha256) (fun _ _ hcall => by cases hcall) fun _ _ _ hi hs => hi.step hs

theorem map_fst_ok {r : Except StoreError (Reply × Db)} (h : r.map Prod.fst = .ok reply) :
    ∃ db, r = .ok (reply, db) := by
  cases r with
  | error e => cases h
  | ok p =>
    cases h
    exact ⟨p.2, rfl⟩

/-- An answer is given to the call that the action is a step of. -/
theorem call_of_answer {answer : Except StoreError Reply} (h : s.answer? sha256 a = some (call, answer)) :
    s.call? a = some call := by
  cases a with
  | call call' =>
    cases h
    rfl
  | start k call' =>
    simp only [Overlap.answer?] at h
    split at h <;> cases h <;> rfl
  | finish k =>
    obtain ⟨call', hcall, heq⟩ := Option.map_eq_some_iff.mp h
    cases heq
    exact hcall
  | abandon k => cases h

/-- A step changes the database only if it answers a call that does the same in one step. -/
theorem overlapStep_db (h : Started sha256 s) (hs : OverlapStep sha256 s a s') :
    s'.db = s.db ∨ ∃ call reply, s.answer? sha256 a = some (call, .ok reply) ∧
      call.exec sha256 s.db = .ok (reply, s'.db) := by
  cases a with
  | call call =>
    cases hs
    obtain heq | ⟨reply, hexec, -⟩ := after_cases sha256 call s.db
    · exact .inl heq
    · refine .inr ⟨call, reply, ?_, hexec⟩
      simp only [Overlap.answer?, hexec]
      rfl
  | start k call =>
    simp only [OverlapStep, Overlap.step] at hs
    split at hs
    · cases hs
    · split at hs <;> cases hs <;> exact .inl rfl
  | finish k =>
    simp only [OverlapStep, Overlap.step] at hs
    split at hs
    · rename_i call hcall
      cases hs
      obtain ⟨now, db, hstart⟩ := h k call hcall
      show call.committed sha256 s.db = s.db ∨ _
      unfold Call.committed
      cases hcommit : call.commit sha256 s.db with
      | error e => exact .inl rfl
      | ok r =>
        refine .inr ⟨call, r.1, ?_, ?_⟩
        · simp only [Overlap.answer?, hcall, hcommit, Option.map_some]
          rfl
        · rw [exec_of_commit hstart hcommit]
          rfl
    · cases hs
  | abandon k =>
    cases hs
    exact .inl rfl

theorem after_of_exec {r : Reply} (h : call.exec sha256 db = .ok (r, db')) :
    call.after sha256 db = db' := by
  unfold Call.after
  rw [h]

/-- A run of overlapping calls is a run of the store: what holds of all of those holds here. -/
theorem storeRun_of_overlap (h : OverlapRun sha256 tr s) : ∃ tr', StoreRun sha256 tr' s.db := by
  refine h.invariant (fun _ s => ∃ tr', StoreRun sha256 tr' s.db) ⟨[], .refl⟩ ?_
  rintro tr s a s' hrun ⟨tr', hstore⟩ hs
  obtain heq | ⟨call, reply, -, hexec⟩ := overlapStep_db (started_of_run hrun) hs
  · rw [heq]
    exact ⟨tr', hstore⟩
  · exact ⟨_, hstore.snoc (l := call) (after_of_exec hexec).symm⟩

/-- A recorded operation stays as it is. -/
theorem overlapStep_find {o : Operation} (h : Started sha256 s) (hs : OverlapStep sha256 s a s')
    (ho : s.db.operations.find? operationId = some o) :
    s'.db.operations.find? operationId = some o := by
  obtain heq | ⟨call, reply, -, hexec⟩ := overlapStep_db h hs
  · rw [heq]
    exact ho
  · rw [← after_of_exec hexec]
    exact (call_records call s.db).find ho

theorem overlapRun_find {o : Operation} {tr' : List (Event Overlap OverlapAction)}
    (h : OverlapRun sha256 tr s) (h' : Run (OverlapStep sha256) s tr' s')
    (ho : s.db.operations.find? operationId = some o) :
    s'.db.operations.find? operationId = some o := by
  have hboth : Started sha256 s' ∧ s'.db.operations.find? operationId = some o := by
    refine h'.state_invariant (fun s => Started sha256 s ∧ s.db.operations.find? operationId = some o)
      ⟨started_of_run h, ho⟩ ?_
    rintro t a u ⟨ht, hfind⟩ hs
    exact ⟨ht.step hs, overlapStep_find ht hs hfind⟩
  exact hboth.2

/-- Calls in one step are a run of overlapping calls that do not overlap. -/
theorem overlapRun_of_storeRun {tr' : List (Event Db Call)} (h : StoreRun sha256 tr' db) :
    ∃ tr, OverlapRun sha256 tr ⟨db, fun _ => none⟩ := by
  have hstep : ∀ t call u, StoreStep sha256 t call u →
      OverlapStep sha256 ⟨t, fun _ => none⟩ (.call call) ⟨u, fun _ => none⟩ := by
    rintro t call u rfl
    rfl
  exact ⟨_, h.simulate (fun db => Overlap.mk db fun _ => none)
    (fun _ call => OverlapAction.call call) hstep⟩

theorem call_step (call : Call) :
    OverlapStep sha256 s (.call call) { s with db := call.after sha256 s.db } := rfl

theorem start_step {k : Nat} (call : Call) (hk : s.calls k = none)
    (hlookup : call.op.lookup sha256 call.now s.db = .ok none) :
    OverlapStep sha256 s (.start k call) (s.setCall k (some call)) := by
  simp only [OverlapStep, Overlap.step, hk, hlookup]

theorem finish_step {k : Nat} (hk : s.calls k = some call) :
    OverlapStep sha256 s (.finish k)
      ({ s with db := call.committed sha256 s.db }.setCall k none) := by
  simp only [OverlapStep, Overlap.step, hk]

/-! ## One call under an operation ID changes the database -/

/-- The step is one of a call with the operation ID, and it changes the database. -/
def Applies (operationId : Uuid) (e : Event Overlap OverlapAction) : Bool :=
  (e.src.call? e.label).bind (·.op.operationId?) = some operationId ∧ e.dst.db ≠ e.src.db

theorem applies_records {e : Event Overlap OverlapAction} (h : Started sha256 e.src)
    (hs : OverlapStep sha256 e.src e.label e.dst) (happlies : Applies operationId e = true) :
    e.src.db.operations.find? operationId = none ∧
      e.dst.db.operations.find? operationId ≠ none := by
  obtain ⟨hid, hne⟩ := of_decide_eq_true happlies
  obtain heq | ⟨call, reply, hans, hexec⟩ := overlapStep_db h hs
  · exact absurd heq hne
  · rw [call_of_answer hans] at hid
    obtain ⟨-, heq⟩ | ⟨-, hbody⟩ := exec_cases hexec
    · exact absurd heq hne
    · exact body_unrecorded hid hbody

theorem applies_once (h : OverlapRun sha256 tr s) :
    tr.countP (Applies operationId) ≤ 1 ∧
      (s.db.operations.find? operationId = none → tr.countP (Applies operationId) = 0) := by
  -- a step that applies finds no record, so that none has applied before, and leaves one
  refine h.invariant (fun tr s => tr.countP (Applies operationId) ≤ 1 ∧
    (s.db.operations.find? operationId = none → tr.countP (Applies operationId) = 0))
    ⟨Nat.zero_le 1, fun _ => rfl⟩ ?_
  intro tr t a u hrun ⟨hle, hzero⟩ hs
  have hstarted := started_of_run hrun
  rw [List.countP_cons]
  by_cases happlies : Applies operationId ⟨t, a, u⟩ = true
  · obtain ⟨hnone, hsome⟩ := applies_records (e := ⟨t, a, u⟩) hstarted hs happlies
    rw [if_pos happlies, hzero hnone]
    exact ⟨le_rfl, fun h => absurd h hsome⟩
  · rw [if_neg happlies]
    refine ⟨hle, fun hnone => hzero ?_⟩
    by_contra hfound
    obtain ⟨o, ho⟩ := Option.ne_none_iff_exists'.mp hfound
    rw [overlapStep_find hstarted hs ho] at hnone
    cases hnone

end BloomRelay.Store
