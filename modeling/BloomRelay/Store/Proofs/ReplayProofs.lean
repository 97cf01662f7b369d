import BloomRelay.Store.Proofs.OverlapProofs

/-!
# Repeated calls

A call of `issue_bearer`, `renew_bearer`, `retire` or `relocate` that has succeeded is answered from its
record from then on, whatever has happened since. A repeated `allocate` is answered from the row of the
installation as it is by then.
-/

namespace BloomRelay.Store

open Protocol Checked

variable {sha256 : Bytes → Bytes32} {store : StoreConfig} {db db' db₀ : Db} {now now₀ now' : Time}
  {operationId : Uuid} {op : StoreOp} {reply : Reply} {s s' : Overlap} {a : OverlapAction}
  {tr : List (Event Overlap OverlapAction)} {call : Call}

/-! ## Answers from a record -/

/-- The operations whose record is all that a repeated call reads. -/
def StoreOp.replays : StoreOp → Bool
  | .issueBearer .. | .renewBearer .. | .retire .. | .relocate .. => true
  | _ => false

/-- A renewal is answered from its record for five minutes. -/
def StoreOp.fresh (op : StoreOp) (db : Db) (now : Time) : Bool :=
  match op with
  | .renewBearer _ operationId _ _ _ _ =>
    (db.operations.find? operationId).all fun o => now < o.createdAt + minutes 5
  | _ => true

/-- A repeated call gives `reply` as long as it is fresh. -/
def Repeats (sha256 : Bytes → Bytes32) (op : StoreOp) (reply : Reply) (db : Db) : Prop :=
  ∀ now, op.fresh db now = true → op.lookup sha256 now db = .ok (some reply)

/-- A record that gives a receipt gives it as long as it is fresh. -/
theorem replayReceipt_fresh {o : Operation} {id : Uuid} {kind : OperationKind} {digest : Bytes32}
    {fresh fresh' : Bool} {receipt : Nat × Nat}
    (h : replayReceipt o id kind digest fresh = .ok receipt) (hfresh : fresh' = true) :
    replayReceipt o id kind digest fresh' = .ok receipt := by
  simp only [replayReceipt, bind_eq_ok, require_eq_ok] at h ⊢
  obtain ⟨u, ⟨hid, hkind, hdigest, -⟩, hresult⟩ := h
  exact ⟨u, ⟨hid, hkind, hdigest, hfresh⟩, hresult⟩

theorem replayReceipt_recorded {o : Operation} {fresh : Bool} {receipt : Nat × Nat}
    (hresult : o.result = .receipt receipt.1 receipt.2) (hfresh : fresh = true) :
    replayReceipt o o.installationId o.kind o.requestDigest fresh = .ok receipt := by
  refine bind_eq_ok.mpr ⟨(), require_eq_ok.mpr ⟨rfl, rfl, rfl, hfresh⟩, found_eq_ok.mpr ?_⟩
  rw [hresult]
  rfl

theorem recordedReply_eq_ok {ρ : Type} {recorded : Option ρ} {replay : ρ → Except StoreError Reply} :
    recordedReply recorded replay = .ok (some reply) ↔
      ∃ existing, recorded = some existing ∧ replay existing = .ok reply := by
  cases recorded with
  | none => simp [recordedReply]
  | some existing => cases h : replay existing <;> simp [recordedReply, Except.map, h]

/-- A record that answers a call once answers it later. -/
theorem repeats_of_lookup (hop : op.replays = true)
    (h : op.lookup sha256 now db = .ok (some reply)) : Repeats sha256 op reply db := by
  intro now' hfresh
  cases op with
  | renewBearer id operationId scope generation currentToken newTokenHash =>
    simp only [StoreOp.fresh] at hfresh
    simp only [StoreOp.lookup, bind_eq_ok] at h ⊢
    obtain ⟨s, hs, h⟩ := h
    refine ⟨s, hs, ?_⟩
    obtain ⟨o, ho, h⟩ := recordedReply_eq_ok.mp h
    obtain ⟨receipt, hreceipt, hreply⟩ := bind_eq_ok.mp h
    rw [ho, Option.all_some] at hfresh
    exact recordedReply_eq_ok.mpr
      ⟨o, ho, bind_eq_ok.mpr ⟨receipt, replayReceipt_fresh hreceipt hfresh, hreply⟩⟩
  | issueBearer | retire | relocate =>
    simp only [StoreOp.lookup] at h ⊢
    exact h
  | _ => cases hop

/-- A record that a call has made answers it from then on. -/
theorem repeats_of_body (hop : op.replays = true) (hstart : op.lookup sha256 now₀ db₀ = .ok none)
    (h : op.body sha256 store now db = .ok (reply, db')) : Repeats sha256 op reply db' := by
  intro now' hfresh
  cases op with
  | issueBearer id operationId scope tokenHash validitySeconds =>
    obtain ⟨r, htx, rfl⟩ := answer_ok.mp h
    obtain ⟨s, hs, htx⟩ := bind_eq_ok.mp htx
    have hs := found_eq_ok.mp hs
    have ho := Table.find?_insert?_self (issueBearerTx_records htx)
    simp only [StoreOp.lookup, bind_eq_ok, issueScope_eq_ok] at hstart ⊢
    obtain ⟨_, ⟨-, hvalid⟩, -⟩ := hstart
    exact ⟨s, ⟨hs, hvalid⟩, recordedReply_eq_ok.mpr
      ⟨_, ho, bind_eq_ok.mpr ⟨r, replayReceipt_recorded rfl rfl, rfl⟩⟩⟩
  | renewBearer id operationId scope generation currentToken newTokenHash =>
    obtain ⟨r, htx, rfl⟩ := answer_ok.mp h
    obtain ⟨s, hs, htx⟩ := bind_eq_ok.mp htx
    have hs := found_eq_ok.mp hs
    have ho := Table.find?_insert?_self (renewBearerTx_records htx)
    simp only [StoreOp.fresh] at hfresh
    rw [ho, Option.all_some] at hfresh
    simp only [StoreOp.lookup, bind_eq_ok, renewScope_eq_ok] at hstart ⊢
    obtain ⟨_, ⟨-, hvalid⟩, -⟩ := hstart
    exact ⟨s, ⟨hs, hvalid⟩, recordedReply_eq_ok.mpr
      ⟨_, ho, bind_eq_ok.mpr ⟨r, replayReceipt_recorded rfl hfresh, rfl⟩⟩⟩
  | retire id operationId =>
    obtain ⟨u, htx, rfl⟩ := answer_ok.mp h
    have ho := Table.find?_insert?_self (retireTx_records htx)
    exact recordedReply_eq_ok.mpr ⟨_, ho, bind_eq_ok.mpr ⟨(), require_eq_ok.mpr ⟨rfl, rfl⟩, rfl⟩⟩
  | relocate id operationId placement =>
    obtain ⟨u, htx, rfl⟩ := answer_ok.mp h
    have ho := Table.find?_insert?_self (relocateTx_records htx)
    simp only [StoreOp.lookup, bind_eq_ok, require_eq_ok] at hstart ⊢
    obtain ⟨_, hplacement, -⟩ := hstart
    exact ⟨(), hplacement, recordedReply_eq_ok.mpr
      ⟨_, ho, bind_eq_ok.mpr ⟨(), require_eq_ok.mpr ⟨rfl, rfl, rfl⟩, rfl⟩⟩⟩
  | _ => cases hop

/-- A repeated call reads nothing but its record. -/
theorem Repeats.congr (hop : op.replays = true) (hid : op.operationId? = some operationId)
    (heq : db'.operations.find? operationId = db.operations.find? operationId)
    (h : Repeats sha256 op reply db) : Repeats sha256 op reply db' := by
  intro now hfresh
  cases op with
  | issueBearer | retire | relocate =>
    cases hid
    have hlookup := h now rfl
    simp only [StoreOp.lookup] at hlookup ⊢
    rw [heq]
    exact hlookup
  | renewBearer =>
    cases hid
    simp only [StoreOp.fresh] at hfresh
    rw [heq] at hfresh
    have hlookup := h now hfresh
    simp only [StoreOp.lookup] at hlookup ⊢
    rw [heq]
    exact hlookup
  | _ => cases hop

/-- A call that gets an answer was answered by its lookup or has committed its second step. -/
theorem answered_cases (h : Started sha256 s) (hs : OverlapStep sha256 s a s')
    (hans : s.answer? sha256 a = some (call, .ok reply)) :
    (call.op.lookup sha256 call.now s.db = .ok (some reply) ∧ s'.db = s.db) ∨
      ∃ now db, call.op.lookup sha256 now db = .ok none ∧
        call.op.body sha256 call.store call.now s.db = .ok (reply, s'.db) := by
  cases a with
  | call call' =>
    cases hs
    simp only [Overlap.answer?, Option.some.injEq, Prod.mk.injEq] at hans
    obtain ⟨rfl, hreply⟩ := hans
    obtain ⟨db, hexec⟩ := map_fst_ok hreply
    obtain ⟨hlookup, rfl⟩ | ⟨hlookup, hbody⟩ := exec_cases hexec
    · exact .inl ⟨hlookup, after_of_exec hexec⟩
    · refine .inr ⟨_, _, hlookup, ?_⟩
      show _ = Except.ok (reply, call'.after sha256 s.db)
      rw [after_of_exec hexec]
      exact hbody
  | start k call' =>
    simp only [OverlapStep, Overlap.step] at hs
    split at hs
    · cases hs
    · simp only [Overlap.answer?] at hans
      split at hans
      · cases hans
      · rename_i hlookup
        rw [hlookup] at hs
        cases hans
        cases hs
        exact .inl ⟨hlookup, rfl⟩
      · cases hans
  | finish k =>
    simp only [OverlapStep, Overlap.step] at hs
    split at hs
    · rename_i call' hcall
      cases hs
      simp only [Overlap.answer?, hcall, Option.map_some, Option.some.injEq, Prod.mk.injEq] at hans
      obtain ⟨rfl, hreply⟩ := hans
      obtain ⟨db, hcommit⟩ := map_fst_ok hreply
      obtain ⟨now, db₀, hstart⟩ := h k call' hcall
      refine .inr ⟨now, db₀, hstart, ?_⟩
      show _ = Except.ok (reply, call'.committed sha256 s.db)
      unfold Call.committed
      rw [hcommit]
      exact commit_ok hcommit
    · cases hs
  | abandon k => cases hans

theorem operationId_of_replays (hop : op.replays = true) : ∃ o, op.operationId? = some o := by
  cases op with
  | issueBearer | renewBearer | retire | relocate => exact ⟨_, rfl⟩
  | _ => cases hop

theorem recorded_of_lookup (hop : op.replays = true) (hid : op.operationId? = some operationId)
    (h : op.lookup sha256 now db = .ok (some reply)) : db.operations.find? operationId ≠ none := by
  intro hnone
  cases op with
  | issueBearer | renewBearer | relocate =>
    cases hid
    obtain ⟨_, -, h⟩ := bind_eq_ok.mp h
    obtain ⟨_, ho, -⟩ := recordedReply_eq_ok.mp h
    cases hnone.symm.trans ho
  | retire =>
    cases hid
    obtain ⟨_, ho, -⟩ := recordedReply_eq_ok.mp h
    cases hnone.symm.trans ho
  | _ => cases hop

/-- A call that has succeeded is repeated by its record from then on. -/
theorem repeats_of_answered (h : OverlapRun sha256 tr s) {e : Event Overlap OverlapAction}
    (he : e ∈ tr) (hans : e.src.answer? sha256 e.label = some (call, .ok reply))
    (hop : call.op.replays = true) : Repeats sha256 call.op reply s.db := by
  obtain ⟨later, earlier, rfl⟩ := List.append_of_mem he
  obtain ⟨hearlier, hs, hlater⟩ := h.split
  obtain ⟨operationId, hid⟩ := operationId_of_replays hop
  have hdst : Repeats sha256 call.op reply e.dst.db ∧
      e.dst.db.operations.find? operationId ≠ none := by
    obtain ⟨hlookup, heq⟩ | ⟨now, db, hstart, hbody⟩ :=
      answered_cases (started_of_run hearlier) hs hans
    · rw [heq]
      exact ⟨repeats_of_lookup hop hlookup, recorded_of_lookup hop hid hlookup⟩
    · exact ⟨repeats_of_body hop hstart hbody, (body_unrecorded hid hbody).2⟩
  obtain ⟨o, ho⟩ := Option.ne_none_iff_exists'.mp hdst.2
  have hrun : OverlapRun sha256 (e :: earlier) e.dst := hearlier.snoc hs
  refine hdst.1.congr hop hid ?_
  rw [overlapRun_find hrun hlater ho, ho]

theorem exec_of_lookup (hin : db.inRange = true)
    (h : call.op.lookup sha256 call.now db = .ok (some reply)) :
    call.exec sha256 db = .ok (reply, db) := by
  unfold Call.exec
  rw [transact_eq, h]
  exact if_pos hin

theorem exec_of_lookup_error {e : StoreError}
    (h : call.op.lookup sha256 call.now db = .error e) : call.exec sha256 db = .error e := by
  unfold Call.exec
  rw [transact_eq, h]
  rfl

/-- **Repeated calls are idempotent.** In every run of overlapping calls, a call of `issue_bearer`,
`renew_bearer`, `retire` or `relocate` that has succeeded, made again with the same arguments by any
process at any later time (for a renewal, while its record is fresh), gets the same answer and leaves
everything as it is, in one step and in two; and of all the calls made under one operation ID, one at
most has changed the database. -/
theorem replays_idempotent (h : OverlapRun sha256 tr s) :
    (∀ e ∈ tr, ∀ call reply, e.src.answer? sha256 e.label = some (call, .ok reply) →
      call.op.replays = true →
      ∀ call' : Call, call'.op = call.op → call'.op.fresh s.db call'.now = true →
        call'.exec sha256 s.db = .ok (reply, s.db) ∧
        ∀ k, s.calls k = none → s.step sha256 (.start k call') = some s ∧
          s.answer? sha256 (.start k call') = some (call', .ok reply)) ∧
    ∀ operationId, tr.countP (Applies operationId) ≤ 1 := by
  refine ⟨?_, fun operationId => (applies_once h).1⟩
  intro e he call reply hans hop call' hcall hfresh
  have hlookup : call'.op.lookup sha256 call'.now s.db = .ok (some reply) := by
    rw [hcall] at hfresh ⊢
    exact repeats_of_answered h he hans hop call'.now hfresh
  obtain ⟨tr', hstore⟩ := storeRun_of_overlap h
  refine ⟨exec_of_lookup (inRange_run hstore) hlookup, fun k hk => ⟨?_, ?_⟩⟩
  · simp only [Overlap.step, hk, hlookup]
  · simp only [Overlap.answer?, hlookup]

/-- Two issues under one operation ID, as two processes make them. -/
def racedIssue (now : Time) : Call := ⟨.default, now, .issueBearer 7 3 "tunnel" 0 3600⟩

/-- Both issues pass their lookup, the first commits, the second fails, and the installation is retired;
the issue is then answered as it was. -/
theorem replays_idempotent_raced :
    ∃ tr s, OverlapRun (fun _ => 0) tr s ∧
      (∃ row, s.db.installations.find? 7 = some row ∧ row.state = .retired) ∧
      (racedIssue 9000000000).exec (fun _ => 0) s.db = .ok (.receipt 3 3600000, s.db) ∧
      tr.countP (Applies 3) ≤ 1 := by
  have hlookup : ∀ now, (racedIssue now).op.lookup (fun _ => 0) now
      (runOf (fun _ => 0) claimedCalls).2 = .ok none := by
    intro now
    have hnone : (racedIssue 60).op.lookup (fun _ => 0) 60 (runOf (fun _ => 0) claimedCalls).2 =
        .ok none := by decide +kernel
    exact hnone
  have hcommit : ((racedIssue 60).commit (fun _ => 0) (runOf (fun _ => 0) claimedCalls).2).map
      Prod.fst = .ok (.receipt 3 3600000) := by decide +kernel
  have hretired : ((⟨.default, 80, .retire 7 4⟩ : Call).after (fun _ => 0)
      ((racedIssue 70).committed (fun _ => 0) ((racedIssue 60).committed (fun _ => 0)
        (runOf (fun _ => 0) claimedCalls).2))).installations.find? 7 =
      some ⟨7, allocatedHostname 9, 5, "edge-1", 4, .retired,
        some "https://acme-v02.api.letsencrypt.org/acme/acct/1", 0, some 80⟩ := by decide +kernel
  obtain ⟨tr, hrun⟩ := overlapRun_of_storeRun (storeRun_runOf (fun _ => 0) claimedCalls)
  generalize (runOf (fun _ => 0) claimedCalls).2 = db at hlookup hcommit hretired hrun
  have hrun₁ := hrun.snoc (start_step (k := 0) (racedIssue 60) rfl (hlookup 60))
  have hrun₂ := hrun₁.snoc (start_step (k := 1) (racedIssue 70) rfl (hlookup 70))
  have hrun₃ := hrun₂.snoc (finish_step (k := 0) rfl)
  have hrun₄ := hrun₃.snoc (finish_step (k := 1) rfl)
  have hrun₅ := hrun₄.snoc (call_step ⟨.default, 80, .retire 7 4⟩)
  have hall := replays_idempotent hrun₅
  refine ⟨_, _, hrun₅, ⟨_, hretired, rfl⟩, ?_, hall.2 3⟩
  refine (hall.1 _ (List.mem_cons_of_mem _ (List.mem_cons_of_mem _ List.mem_cons_self))
    (racedIssue 60) (.receipt 3 3600000) ?_ rfl (racedIssue 9000000000) rfl rfl).1
  exact congrArg (fun r => some (racedIssue 60, r)) hcommit

end BloomRelay.Store
