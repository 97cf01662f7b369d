import BloomRelay.Store.Proofs.ReplayProofs

/-!
# Overlapping calls take effect at their answers

A call looks its operation ID up before it takes its locks, so that other calls come in between. A call
that succeeds has nevertheless done at the step of its answer what it would have done in one step there,
and the other steps do nothing: the successful calls, in the order of their answers, are a run of the
store.
-/

namespace BloomRelay.Store

open Protocol Checked

variable {sha256 : Bytes → Bytes32} {s s' : Overlap} {a : OverlapAction} {call : Call} {reply : Reply}
  {tr : List (Event Overlap OverlapAction)}

/-- The call that a step answers with success, as one step of the store. -/
def answeredCall (sha256 : Bytes → Bytes32) (e : Event Overlap OverlapAction) : Option (Event Db Call) :=
  match e.src.answer? sha256 e.label with
  | some (call, .ok _) => some ⟨e.src.db, call, e.dst.db⟩
  | _ => none

/-- A step that gives no result changes nothing. -/
theorem db_of_unanswered (hstarted : Started sha256 s) (hs : OverlapStep sha256 s a s')
    (h : ∀ call reply, s.answer? sha256 a ≠ some (call, .ok reply)) : s'.db = s.db := by
  obtain heq | ⟨call, reply, hans, -⟩ := overlapStep_db hstarted hs
  · exact heq
  · exact absurd hans (h call reply)

/-- A call that succeeds does the same in one step where it is answered. -/
theorem exec_of_answered (h : OverlapRun sha256 tr s) (hs : OverlapStep sha256 s a s')
    (hans : s.answer? sha256 a = some (call, .ok reply)) :
    call.exec sha256 s.db = .ok (reply, s'.db) := by
  have hin : s'.db.inRange = true := by
    obtain ⟨calls, hrun⟩ := storeRun_of_overlap (h.snoc hs)
    exact inRange_run hrun
  rcases answered_cases (started_of_run h) hs hans with ⟨hlookup, hdb⟩ | ⟨now, db, hstart, hbody⟩
  · rw [hdb] at hin ⊢
    exact exec_of_lookup hin hlookup
  · have htx := transact_of_body hstart hbody
    simp only [Call.exec, htx, hin, if_true]

theorem storeRun_answered (h : OverlapRun sha256 tr s) :
    StoreRun sha256 (tr.filterMap (answeredCall sha256)) s.db := by
  induction h with
  | refl => exact .refl
  | @snoc tr s s' a hrun hs ih =>
    by_cases hans : ∃ call reply, s.answer? sha256 a = some (call, .ok reply)
    · obtain ⟨call, reply, hans⟩ := hans
      have hcall : answeredCall sha256 ⟨s, a, s'⟩ = some ⟨s.db, call, s'.db⟩ := by
        simp only [answeredCall, hans]
      rw [List.filterMap_cons_some hcall]
      exact ih.snoc (after_of_exec (exec_of_answered hrun hs hans)).symm
    · have hnone : ∀ call reply, s.answer? sha256 a ≠ some (call, .ok reply) :=
        fun call reply h => hans ⟨call, reply, h⟩
      have hcall : answeredCall sha256 ⟨s, a, s'⟩ = none := by
        unfold answeredCall
        split
        · rename_i call reply h
          exact absurd h (hnone call reply)
        · rfl
      rw [List.filterMap_cons_none hcall, db_of_unanswered (started_of_run hrun) hs hnone]
      exact ih

/-- **Linearizability.** However calls overlap, are refused and are abandoned: the calls that succeed, each
at the step that answers it, are a run of the store to the same database, and each gets the answer there
that it got. -/
theorem overlapping_linearizable (h : OverlapRun sha256 tr s) :
    StoreRun sha256 (tr.filterMap (answeredCall sha256)) s.db ∧
    ∀ e ∈ tr, ∀ call reply, e.src.answer? sha256 e.label = some (call, .ok reply) →
      call.exec sha256 e.src.db = .ok (reply, e.dst.db) := by
  refine ⟨storeRun_answered h, fun e he call reply hans => ?_⟩
  obtain ⟨later, earlier, rfl⟩ := List.append_of_mem he
  obtain ⟨hbefore, hs, -⟩ := h.split
  exact exec_of_answered hbefore hs hans

/-- Two issues under one operation ID pass their lookups before the first commits. -/
theorem overlapping_linearizable_raced :
    ∃ tr s, OverlapRun (fun _ => 0) tr s ∧ ∃ e ∈ tr, e.label = .finish 0 ∧
      e.src.calls 1 = some (racedIssue 70) ∧
      (racedIssue 60).exec (fun _ => 0) e.src.db = .ok (.receipt 3 3600000, e.dst.db) := by
  have hlookup : (racedIssue 60).op.lookup (fun _ => 0) 60 (runOf (fun _ => 0) claimedCalls).2 =
      .ok none := by decide +kernel
  have hcommit : ((racedIssue 60).commit (fun _ => 0) (runOf (fun _ => 0) claimedCalls).2).map
      Prod.fst = .ok (.receipt 3 3600000) := by decide +kernel
  obtain ⟨tr, hrun⟩ := overlapRun_of_storeRun (storeRun_runOf (fun _ => 0) claimedCalls)
  generalize (runOf (fun _ => 0) claimedCalls).2 = db at hlookup hcommit hrun
  have hrun₁ := hrun.snoc (start_step (k := 0) (racedIssue 60) rfl hlookup)
  have hrun₂ := hrun₁.snoc (start_step (k := 1) (racedIssue 70) rfl hlookup)
  have hrun₃ := hrun₂.snoc (finish_step (k := 0) rfl)
  refine ⟨_, _, hrun₃, _, List.mem_cons_self, rfl, rfl, ?_⟩
  refine (overlapping_linearizable hrun₃).2 _ List.mem_cons_self _ _ ?_
  exact congrArg (fun r => some (racedIssue 60, r)) hcommit

end BloomRelay.Store
