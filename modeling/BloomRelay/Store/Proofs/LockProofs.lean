import BloomRelay.Store.Locks
import BloomRelay.Lib.Proofs.LockOrderProofs

/-!
# The transactions never wait for each other in a circle

Every script takes its locks in the order of `Lock.rank`, but for requests that cannot wait: rows of an
installation that the transaction has locked, and locks it has already. So the scripts are ordered, and
so is a worker's, whose claim ranks below everything it takes meanwhile.
-/

namespace BloomRelay.Store

open Protocol Locks

variable {hashtext : String → Int} {uuidText : Uuid → String}
  {kept held : List (Request Lock LockMode)} {id : Uuid} {l : Lock} {mode : LockMode}
  {q : Request Lock LockMode} {rest : LockScript}

/-! ## Requests that are admissible -/

/-- The installation is locked in a mode that also locks its credentials and challenge values. -/
def Owns (held : List (Request Lock LockMode)) (id : Uuid) : Prop :=
  ∃ q ∈ held, q.resource = .installation id ∧ (q.mode = .noKeyUpdate ∨ q.mode = .update)

@[simp] theorem owns_cons : Owns (q :: held) id ↔
    (q.resource = .installation id ∧ (q.mode = .noKeyUpdate ∨ q.mode = .update)) ∨ Owns held id := by
  simp only [Owns, List.mem_cons, exists_eq_or_imp]

theorem Owns.guarded (h : Owns held id) (hl : l.guard = some (.installation id)) :
    Guarded lockOrder held ⟨l, mode⟩ := by
  obtain ⟨⟨-, m⟩, hmem, rfl, hm⟩ := h
  exact ⟨.installation id, m, hl, hmem, hm⟩

theorem keyShare_le (hm : mode = .noKeyUpdate ∨ mode = .update) (m : LockMode)
    (h : LockMode.keyShare.conflicts m = true) : mode.conflicts m = true := by
  rcases hm with rfl | rfl
  · cases m <;> first | rfl | cases h
  · rfl

/-- The foreign-key checks of a transaction that has locked the installation. -/
@[simp] theorem admissible_of_owns (h : Owns held id) :
    Admissible lockOrder kept held ⟨.installation id, .keyShare⟩ := by
  obtain ⟨⟨-, m⟩, hmem, rfl, hm⟩ := h
  exact .inl ⟨_, hmem, rfl, keyShare_le hm⟩

@[simp] theorem admissible_of_update (h : (⟨l, .update⟩ : Request Lock LockMode) ∈ held) :
    Admissible lockOrder kept held ⟨l, mode⟩ := .inl ⟨_, h, rfl, fun _ _ => rfl⟩

@[simp] theorem admissible_of_mem (h : q ∈ held) : Admissible lockOrder kept held q :=
  .inl ⟨q, h, rfl, fun _ hm => hm⟩

@[simp] theorem admissible_of_above (h : Above lockOrder (held ++ kept) q) :
    Admissible lockOrder kept held q := .inr (.inr h)

@[simp] theorem above_iff {locks : List (Request Lock LockMode)} : Above lockOrder locks q ↔
    q.resource.guard = none ∧
      ∀ q' ∈ locks, q'.resource.guard = none → q'.resource.rank < q.resource.rank := Iff.rfl

@[simp] theorem lockOrder_guard : lockOrder.guard l = l.guard := rfl

@[simp] theorem ordered_credentialRows (h : Owns held id) :
    Ordered lockOrder kept held (credentialRows id mode :: rest) ↔
      Ordered lockOrder kept held rest := by
  refine ⟨fun h => h.2, fun hrest => ⟨?_, hrest⟩⟩
  rintro ⟨l, m⟩ ⟨-, scope, generation, rfl⟩
  exact h.guarded rfl

@[simp] theorem ordered_valueRows (h : Owns held id) :
    Ordered lockOrder kept held (valueRows id mode :: rest) ↔ Ordered lockOrder kept held rest := by
  refine ⟨fun h => h.2, fun hrest => ⟨?_, hrest⟩⟩
  rintro ⟨l, m⟩ ⟨-, txtValue, rfl⟩
  exact h.guarded rfl

/-! ## Ordered scripts -/

theorem ordered_locks (op : StoreOp) (owner : Uuid) :
    ∀ script ∈ op.locks hashtext uuidText owner, Ordered lockOrder [] [] script := by
  cases op with
  | issueBearer id operationId scope tokenHash validitySeconds =>
    by_cases hscope : scope = "tunnel" <;> simp [StoreOp.locks, Ordered, rotationLocks, hscope]
  | renewBearer id operationId scope generation currentToken newTokenHash =>
    by_cases hscope : scope = "tunnel" <;> simp [StoreOp.locks, Ordered, rotationLocks, hscope]
  | completeJob job => simp [StoreOp.locks, Ordered, claimLocks]
  | deferJob job => simp [StoreOp.locks, Ordered, claimLocks]
  | _ => simp [StoreOp.locks, Ordered]

/-- The claim of a worker ranks below the locks of the transactions it runs meanwhile. -/
theorem ordered_duringClaim {job : Nat} {key : Int} {op : StoreOp} (h : DuringClaim id op) :
    ∀ script ∈ op.locks hashtext uuidText id,
      Ordered lockOrder [⟨.advisory key, .update⟩, ⟨.outbox job, .update⟩] [] script ∧
        ∀ item ∈ script, item.Taking := by
  cases h with
  | markDnsReady => simp [StoreOp.locks, Ordered, Item.Taking]
  | markChallengeReconciled revision => simp [StoreOp.locks, Ordered, Item.Taking]

theorem ordered_worker {job : Nat} {during : List LockScript}
    (h : ∀ script ∈ during, ∃ op, DuringClaim id op ∧
      ∃ full ∈ op.locks hashtext uuidText id, script <+: full) :
    Ordered lockOrder [] [] (claimLocks hashtext uuidText job id during) := by
  have hduring : Ordered lockOrder
      [⟨.advisory (hashtext (uuidText id)), .update⟩, ⟨.outbox job, .update⟩] []
      (during.flatMap (· ++ [.commit]) ++ [.resume, Lock.forNoKeyUpdate (.outbox job)]) := by
    refine Ordered.transactions (fun script hscript => ?_) (by simp [Ordered])
    obtain ⟨op, hop, full, hfull, hp⟩ := h script hscript
    obtain ⟨hordered, htaking⟩ := ordered_duringClaim hop full hfull
    exact ⟨hordered.of_prefix hp, fun item hitem => htaking item (hp.subset hitem)⟩
  rw [claimLocks, List.append_assoc]
  exact ⟨rfl, by simp, hduring⟩

theorem ordered_of_lockProgram {script : LockScript} (h : LockProgram hashtext uuidText script) :
    Ordered lockOrder [] [] script := by
  cases h with
  | transaction owner op hscript => exact ordered_locks op owner script hscript
  | worker job id during hduring => exact ordered_worker hduring

/-- However many agents run transactions and workers, on whatever installations, operations and
sources, and however the text of an installation is hashed, no agents ever wait for each other in a
circle. -/
theorem no_deadlock {α : Type*} [DecidableEq α] (hashtext : String → Int)
    (uuidText : Uuid → String) {tr : List (Event (α → Agent Lock LockMode) α)}
    {s : α → Agent Lock LockMode} (h : Runs lockOrder (LockProgram hashtext uuidText) tr s) (a : α) :
    ¬ Relation.TransGen (Waits lockOrder s) a a :=
  (sound_of_run (fun _ hscript => ordered_of_lockProgram hscript) h).no_cycle a

/-- A retirement waits for the worker that has claimed a job of its installation, and the worker's
`mark_dns_ready` for a renewal that has locked the installation. -/
theorem exists_waiting_chain :
    ∃ tr, ∃ s : Fin 3 → Agent Lock LockMode,
      Runs lockOrder (LockProgram (fun _ => 0) fun _ => "") tr s ∧
        Waits lockOrder s 2 0 ∧ Waits lockOrder s 0 1 := by
  have hworker : LockProgram (fun _ => 0) (fun _ => "") (claimLocks (fun _ => 0) (fun _ => "") 1 5
      [[Lock.forNoKeyUpdate (.installation 5), auditLocks 5, fenceLocks]]) := by
    refine .worker 1 5 _ fun script hscript => ⟨_, .markDnsReady, _, List.mem_singleton_self _, ?_⟩
    obtain rfl := List.mem_singleton.mp hscript
    exact List.prefix_rfl
  have hrenew : LockProgram (fun _ => 0) (fun _ => "") _ :=
    .transaction 5 (.renewBearer 5 8 "tunnel" 1 "" 0) (.tail _ (.head _))
  have hretire : LockProgram (fun _ => 0) (fun _ => "") _ :=
    .transaction 5 (.retire 5 9) (.tail _ (.tail _ (.head _)))
  have hidle : Runs lockOrder (LockProgram (fun _ => 0) fun _ => "") [] fun _ : Fin 3 => .idle :=
    .refl
  obtain ⟨_, hstart⟩ := runs_move hidle 0 rfl (.start hworker) (by simp)
  obtain ⟨_, hjob⟩ := runs_move hstart 0 rfl .takeFree
    (by simp only [Option.mem_some_iff, forall_eq']; decide)
  obtain ⟨_, hadvisory⟩ := runs_move hjob 0 rfl .take
    (by simp only [Option.mem_some_iff, forall_eq']; decide)
  obtain ⟨_, hclaim⟩ := runs_move hadvisory 0 rfl .keep (by simp)
  obtain ⟨_, hrenewal⟩ := runs_move hclaim 1 rfl (.start hrenew) (by simp)
  obtain ⟨_, hlocked⟩ := runs_move hrenewal 1 rfl .take
    (by simp only [Option.mem_some_iff, forall_eq']; decide)
  obtain ⟨_, hretirement⟩ := runs_move hlocked 2 rfl (.start hretire) (by simp)
  exact ⟨_, _, hretirement, ⟨_, .take _ _, by decide⟩, ⟨_, .take _ _, by decide⟩⟩

theorem no_deadlock_waiting_chain :
    ∃ s : Fin 3 → Agent Lock LockMode, Waits lockOrder s 2 0 ∧ Waits lockOrder s 0 1 ∧
      ¬ Relation.TransGen (Waits lockOrder s) 2 2 := by
  obtain ⟨tr, s, hrun, hretire, hworker⟩ := exists_waiting_chain
  exact ⟨s, hretire, hworker, no_deadlock (fun _ => 0) (fun _ => "") hrun 2⟩

end BloomRelay.Store
