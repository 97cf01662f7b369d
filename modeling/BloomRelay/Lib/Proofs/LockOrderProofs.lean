import BloomRelay.Lib.Locks

/-!
# No circles of waiting agents

Every state of a run is sound: each agent's script is ordered from where it stands, its locks behind
guards stand with their guards, and no two transactions have conflicting locks. In a sound state a
request that waits ranks above all locks of its agent, so the requests along a chain of waiting agents
rise, and a chain that comes back to where it began would rise above itself.
-/

namespace Locks

variable {α ρ μ : Type*}

variable {d : Discipline ρ μ} {kept kept' held held' : List (Request ρ μ)} {q q' : Request ρ μ}
  {script : Script ρ μ}

/-- The second list has the same locks, and more behind guards. -/
def Extends (d : Discipline ρ μ) (l l' : List (Request ρ μ)) : Prop :=
  (∀ q ∈ l, q ∈ l') ∧ ∀ q ∈ l', q ∈ l ∨ d.guard q.resource ≠ none

theorem Extends.refl (l : List (Request ρ μ)) : Extends d l l := ⟨fun _ h => h, fun _ h => .inl h⟩

theorem Extends.cons (q : Request ρ μ) {l l' : List (Request ρ μ)} (h : Extends d l l') :
    Extends d (q :: l) (q :: l') := by
  refine ⟨fun x hx => ?_, fun x hx => ?_⟩
  · rcases List.mem_cons.mp hx with rfl | hx
    · exact List.mem_cons_self
    · exact List.mem_cons_of_mem _ (h.1 x hx)
  · rcases List.mem_cons.mp hx with rfl | hx
    · exact .inl List.mem_cons_self
    · rcases h.2 x hx with hold | hguard
      · exact .inl (List.mem_cons_of_mem _ hold)
      · exact .inr hguard

theorem Extends.append {l l' k k' : List (Request ρ μ)} (h : Extends d l l') (hk : Extends d k k') :
    Extends d (l ++ k) (l' ++ k') := by
  refine ⟨fun x hx => ?_, fun x hx => ?_⟩
  · rcases List.mem_append.mp hx with hx | hx
    · exact List.mem_append_left _ (h.1 x hx)
    · exact List.mem_append_right _ (hk.1 x hx)
  · rcases List.mem_append.mp hx with hx | hx
    · rcases h.2 x hx with hold | hguard
      · exact .inl (List.mem_append_left _ hold)
      · exact .inr hguard
    · rcases hk.2 x hx with hold | hguard
      · exact .inl (List.mem_append_right _ hold)
      · exact .inr hguard

theorem Guarded.mono (hheld : Extends d held held') (h : Guarded d held q) : Guarded d held' q := by
  obtain ⟨g, m, hguard, hmem, hm⟩ := h
  exact ⟨g, m, hguard, hheld.1 _ hmem, hm⟩

theorem Admissible.mono (hkept : Extends d kept kept') (hheld : Extends d held held')
    (h : Admissible d kept held q) : Admissible d kept' held' q := by
  rcases h with ⟨q', hq', hcovers⟩ | hguarded | ⟨hguard, habove⟩
  · exact .inl ⟨q', hheld.1 q' hq', hcovers⟩
  · exact .inr (.inl (hguarded.mono hheld))
  · refine .inr (.inr ⟨hguard, fun q' hq' hnone => ?_⟩)
    rcases (hheld.append hkept).2 q' hq' with hold | hsome
    · exact habove q' hold hnone
    · exact absurd hnone hsome

/-- Locks behind guards do not disturb the order. -/
theorem Ordered.mono (hkept : Extends d kept kept') (hheld : Extends d held held')
    (h : Ordered d kept held script) : Ordered d kept' held' script := by
  induction script generalizing kept kept' held held' with
  | nil => trivial
  | cons item rest ih =>
    cases item with
    | take q => exact ⟨h.1.mono hkept hheld, ih hkept (hheld.cons q) h.2⟩
    | mayTake q =>
      exact ⟨h.1.mono hkept hheld, ih hkept (hheld.cons q) h.2.1, ih hkept hheld h.2.2⟩
    | takeRows p => exact ⟨fun q hq => (h.1 q hq).mono hheld, ih hkept hheld h.2⟩
    | takeFree q => exact ⟨h.1, ih hkept (hheld.cons q) h.2⟩
    | keep => exact ih (hheld.append hkept) (.refl []) h
    | commit => exact ih hkept (.refl []) h
    | resume => exact ih (.refl []) hkept h

/-- A transaction may stop early. -/
theorem Ordered.of_prefix {script' : Script ρ μ} (h : Ordered d kept held script)
    (hp : script' <+: script) : Ordered d kept held script' := by
  induction script' generalizing kept held script with
  | nil => trivial
  | cons item rest' ih =>
    obtain ⟨tail, rfl⟩ := hp
    have hrest : rest' <+: rest' ++ tail := List.prefix_append rest' tail
    cases item with
    | take q => exact ⟨h.1, ih h.2 hrest⟩
    | mayTake q => exact ⟨h.1, ih h.2.1 hrest, ih h.2.2 hrest⟩
    | takeRows p => exact ⟨h.1, ih h.2 hrest⟩
    | takeFree q => exact ⟨h.1, ih h.2 hrest⟩
    | keep => exact ih h hrest
    | commit => exact ih h hrest
    | resume => exact ih h hrest

/-- A transaction, and what its agent does after it. -/
theorem Ordered.append_commit {rest : Script ρ μ} (h : Ordered d kept held script)
    (htaking : ∀ item ∈ script, item.Taking) (hrest : Ordered d kept [] rest) :
    Ordered d kept held (script ++ .commit :: rest) := by
  induction script generalizing held with
  | nil => exact hrest
  | cons item tail ih =>
    have htail : ∀ item ∈ tail, item.Taking := fun x hx => htaking x (List.mem_cons_of_mem _ hx)
    cases item with
    | take q => exact ⟨h.1, ih h.2 htail⟩
    | mayTake q => exact ⟨h.1, ih h.2.1 htail, ih h.2.2 htail⟩
    | takeRows p => exact ⟨h.1, ih h.2 htail⟩
    | takeFree q => exact ⟨h.1, ih h.2 htail⟩
    | keep => exact (htaking _ List.mem_cons_self).elim
    | commit => exact (htaking _ List.mem_cons_self).elim
    | resume => exact (htaking _ List.mem_cons_self).elim

/-- A sequence of transactions. -/
theorem Ordered.transactions {scripts : List (Script ρ μ)} {rest : Script ρ μ}
    (h : ∀ script ∈ scripts, Ordered d kept [] script ∧ ∀ item ∈ script, item.Taking)
    (hrest : Ordered d kept [] rest) :
    Ordered d kept [] (scripts.flatMap (· ++ [.commit]) ++ rest) := by
  induction scripts with
  | nil => exact hrest
  | cons script scripts ih =>
    obtain ⟨hordered, htaking⟩ := h script List.mem_cons_self
    have hlater := ih fun s hs => h s (List.mem_cons_of_mem _ hs)
    have happend : (script :: scripts).flatMap (· ++ [Item.commit]) ++ rest =
        script ++ Item.commit :: (scripts.flatMap (· ++ [.commit]) ++ rest) := by
      simp only [List.flatMap_cons, List.append_assoc, List.cons_append, List.nil_append]
    rw [happend]
    exact hordered.append_commit htaking hlater

/-! ## What every state keeps -/

/-- Every lock behind a guard stands with a lock of its guard. -/
def Minded (d : Discipline ρ μ) (l : List (Request ρ μ)) : Prop :=
  ∀ q ∈ l, d.guard q.resource = none ∨ Guarded d l q

theorem Minded.append (h : Minded d held) (hkept : Minded d kept) : Minded d (held ++ kept) := by
  intro q hq
  rcases List.mem_append.mp hq with hq | hq
  · rcases h q hq with hnone | ⟨g, m, hguard, hmem, hm⟩
    · exact .inl hnone
    · exact .inr ⟨g, m, hguard, List.mem_append_left _ hmem, hm⟩
  · rcases hkept q hq with hnone | ⟨g, m, hguard, hmem, hm⟩
    · exact .inl hnone
    · exact .inr ⟨g, m, hguard, List.mem_append_right _ hmem, hm⟩

theorem Minded.cons (h : Minded d held) (hq : d.guard q.resource = none ∨ Guarded d held q) :
    Minded d (q :: held) := by
  intro x hx
  have hmore : ∀ y, Guarded d held y → Guarded d (q :: held) y := by
    rintro y ⟨g, m, hguard, hmem, hm⟩
    exact ⟨g, m, hguard, List.mem_cons_of_mem _ hmem, hm⟩
  rcases List.mem_cons.mp hx with rfl | hx
  · exact hq.imp_right (hmore x)
  · exact (h x hx).imp_right (hmore x)

/-- An admissible lock leaves the guards in order. -/
theorem Minded.of_admissible (h : Minded d held) (hq : Admissible d kept held q) :
    Minded d (q :: held) := by
  refine h.cons ?_
  rcases hq with ⟨q', hq', hresource, -⟩ | hguarded | ⟨hnone, -⟩
  · rcases h q' hq' with hnone | ⟨g, m, hguard, hmem, hm⟩
    · rw [hresource] at hnone
      exact .inl hnone
    · rw [hresource] at hguard
      exact .inr ⟨g, m, hguard, hmem, hm⟩
  · exact .inr hguarded
  · exact .inl hnone

/-- What holds of one agent. -/
structure Agent.Orderly (d : Discipline ρ μ) (x : Agent ρ μ) : Prop where
  ordered : Ordered d x.kept x.held x.todo
  kept : Minded d x.kept
  held : Minded d x.held

theorem minded_nil : Minded d [] := fun _ hq => absurd hq List.not_mem_nil

theorem Agent.orderly_idle : Agent.Orderly d .idle := ⟨trivial, minded_nil, minded_nil⟩

theorem Agent.Orderly.move {programs : Script ρ μ → Prop} {x x' : Agent ρ μ}
    {granted : Option (Request ρ μ)} (hprograms : ∀ p, programs p → Ordered d [] [] p)
    (h : x.Orderly d) (hm : Moves programs x granted x') : x'.Orderly d := by
  obtain ⟨hordered, hkept, hheld⟩ := h
  cases hm with
  | start hp => exact ⟨hprograms _ hp, minded_nil, minded_nil⟩
  | take => exact ⟨hordered.2, hkept, hheld.of_admissible hordered.1⟩
  | mayTake => exact ⟨hordered.2.1, hkept, hheld.of_admissible hordered.1⟩
  | skip => exact ⟨hordered.2.2, hkept, hheld⟩
  | @takeRow kept held p q rest hq =>
    have hguarded : Guarded d held q := hordered.1 q hq
    have hextends : Extends d held (q :: held) := by
      refine ⟨fun x hx => List.mem_cons_of_mem _ hx, fun x hx => ?_⟩
      rcases List.mem_cons.mp hx with rfl | hx
      · obtain ⟨g, m, hguard, -⟩ := hguarded
        exact .inr (by rw [hguard]; exact Option.some_ne_none g)
      · exact .inl hx
    refine ⟨⟨fun q' hq' => (hordered.1 q' hq').mono hextends, hordered.2.mono (.refl kept) hextends⟩,
      hkept, hheld.cons (.inr hguarded)⟩
  | rowsTaken => exact ⟨hordered.2, hkept, hheld⟩
  | takeFree => exact ⟨hordered.2, hkept, hheld.cons (.inl hordered.1)⟩
  | keep => exact ⟨hordered, hheld.append hkept, minded_nil⟩
  | commit => exact ⟨hordered, hkept, minded_nil⟩
  | resume => exact ⟨hordered, minded_nil, hkept⟩
  | finish => exact orderly_idle

/-- No two transactions have conflicting locks. -/
def Compatible (d : Discipline ρ μ) (s : α → Agent ρ μ) : Prop :=
  ∀ i j, i ≠ j → ∀ q ∈ locksOf s i, ∀ q' ∈ locksOf s j, ¬ Conflicts d q q'

theorem Conflicts.symm (h : Conflicts d q q') : Conflicts d q' q :=
  ⟨h.1.symm, d.conflict_symm _ _ h.2⟩

/-- What a move does to the locks of its agent: it adds the granted one, changes nothing, or takes
some over into the one transaction that then has locks. -/
theorem Moves.locks {programs : Script ρ μ → Prop} {x x' : Agent ρ μ}
    {granted : Option (Request ρ μ)} (hm : Moves programs x granted x') :
    (∃ q, granted = some q ∧ x'.kept = x.kept ∧ x'.held = q :: x.held) ∨
      (x'.kept = x.kept ∧ x'.held = x.held) ∨
      (x'.held = [] ∧ ∀ q ∈ x'.kept, q ∈ x.held ∨ q ∈ x.kept) ∨
      x'.kept = [] ∧ x'.held = x.kept := by
  cases hm with
  | start => exact .inr (.inl ⟨rfl, rfl⟩)
  | take => exact .inl ⟨_, rfl, rfl, rfl⟩
  | mayTake => exact .inl ⟨_, rfl, rfl, rfl⟩
  | skip => exact .inr (.inl ⟨rfl, rfl⟩)
  | takeRow => exact .inl ⟨_, rfl, rfl, rfl⟩
  | rowsTaken => exact .inr (.inl ⟨rfl, rfl⟩)
  | takeFree => exact .inl ⟨_, rfl, rfl, rfl⟩
  | keep => exact .inr (.inr (.inl ⟨rfl, fun _ hq => List.mem_append.mp hq⟩))
  | commit => exact .inr (.inr (.inl ⟨rfl, fun _ hq => .inr hq⟩))
  | resume => exact .inr (.inr (.inr ⟨rfl, rfl⟩))
  | finish => exact .inr (.inr (.inl ⟨rfl, fun _ hq => absurd hq List.not_mem_nil⟩))

/-- Two transactions of the agent that moved do not conflict after it. -/
theorem Compatible.own {s : α → Agent ρ μ} {a : α} {x : Agent ρ μ} {granted : Option (Request ρ μ)}
    {programs : Script ρ μ → Prop} (h : Compatible d s) (hm : Moves programs (s a) granted x)
    (hfree : ∀ q ∈ granted, ∀ b, ¬ Blocks d s a q b) (hq : q ∈ x.held) (hq' : q' ∈ x.kept) :
    ¬ Conflicts d q q' := by
  have hne : ((a, false) : α × Bool) ≠ (a, true) := by
    intro heq
    cases heq
  have hne' : ((a, true) : α × Bool) ≠ (a, false) := hne.symm
  rcases hm.locks with ⟨q₀, hgranted, hkept, hheld⟩ | ⟨hkept, hheld⟩ | ⟨hheld, -⟩ | ⟨hkept, -⟩
  · rw [hkept] at hq'
    rw [hheld] at hq
    rcases List.mem_cons.mp hq with rfl | hq
    · exact fun hc => hfree q hgranted a ⟨true, hne', q', hq', hc⟩
    · exact h _ _ hne q hq q' hq'
  · rw [hkept] at hq'
    rw [hheld] at hq
    exact h _ _ hne q hq q' hq'
  · rw [hheld] at hq
    exact absurd hq List.not_mem_nil
  · rw [hkept] at hq'
    exact absurd hq' List.not_mem_nil

section Runs

variable [DecidableEq α] {s s' : α → Agent ρ μ} {a : α}

theorem locksOf_update_ne {x : Agent ρ μ} {i : α × Bool} (h : i.1 ≠ a) :
    locksOf (Function.update s a x) i = locksOf s i := by
  obtain ⟨b, kept⟩ := i
  cases kept with
  | true => exact congrArg Agent.kept (Function.update_of_ne h x s)
  | false => exact congrArg Agent.held (Function.update_of_ne h x s)

theorem locksOf_update_self (x : Agent ρ μ) (kept : Bool) :
    locksOf (Function.update s a x) (a, kept) = if kept then x.kept else x.held := by
  cases kept with
  | true => exact congrArg Agent.kept (Function.update_self a x s)
  | false => exact congrArg Agent.held (Function.update_self a x s)

/-- Where the lock was before the step: it is the granted one, or one of the same agent. -/
theorem mem_before {x : Agent ρ μ} {granted : Option (Request ρ μ)} {programs : Script ρ μ → Prop}
    (hm : Moves programs (s a) granted x) {i : α × Bool}
    (hq : q ∈ locksOf (Function.update s a x) i) :
    (i = (a, false) ∧ granted = some q) ∨ ∃ kept, q ∈ locksOf s (i.1, kept) := by
  by_cases hi : i.1 = a
  · obtain ⟨b, kept⟩ := i
    subst hi
    rw [locksOf_update_self] at hq
    rcases hm.locks with ⟨q₀, hgranted, hkept, hheld⟩ | ⟨hkept, hheld⟩ | ⟨hheld, hkept⟩ |
      ⟨hkept, hheld⟩
    · cases kept with
      | true =>
        rw [if_pos rfl, hkept] at hq
        exact .inr ⟨true, hq⟩
      | false =>
        rw [if_neg Bool.false_ne_true, hheld] at hq
        rcases List.mem_cons.mp hq with rfl | hq
        · exact .inl ⟨rfl, hgranted⟩
        · exact .inr ⟨false, hq⟩
    · cases kept with
      | true =>
        rw [if_pos rfl, hkept] at hq
        exact .inr ⟨true, hq⟩
      | false =>
        rw [if_neg Bool.false_ne_true, hheld] at hq
        exact .inr ⟨false, hq⟩
    · cases kept with
      | true =>
        rw [if_pos rfl] at hq
        rcases hkept q hq with hold | hold
        · exact .inr ⟨false, hold⟩
        · exact .inr ⟨true, hold⟩
      | false =>
        rw [if_neg Bool.false_ne_true, hheld] at hq
        exact absurd hq List.not_mem_nil
    · cases kept with
      | true =>
        rw [if_pos rfl, hkept] at hq
        exact absurd hq List.not_mem_nil
      | false =>
        rw [if_neg Bool.false_ne_true, hheld] at hq
        exact .inr ⟨true, hq⟩
  · rw [locksOf_update_ne hi] at hq
    exact .inr ⟨i.2, hq⟩

/-- A lock of the agent that moved and one of another agent do not conflict. -/
theorem Compatible.other {x : Agent ρ μ} {granted : Option (Request ρ μ)}
    {programs : Script ρ μ → Prop} (h : Compatible d s) (hm : Moves programs (s a) granted x)
    (hfree : ∀ q ∈ granted, ∀ b, ¬ Blocks d s a q b) {b : α} {k k' : Bool} (hb : b ≠ a)
    (hq : q ∈ locksOf (Function.update s a x) (a, k)) (hq' : q' ∈ locksOf s (b, k')) :
    ¬ Conflicts d q q' := by
  rcases mem_before hm hq with ⟨-, hgranted⟩ | ⟨k₀, hold⟩
  · have hne : ((b, k') : α × Bool) ≠ (a, false) := fun heq => hb (congrArg Prod.fst heq)
    exact fun hc => hfree q hgranted b ⟨k', hne, q', hq', hc⟩
  · have hne : ((a, k₀) : α × Bool) ≠ (b, k') := fun heq => hb (congrArg Prod.fst heq).symm
    exact h _ _ hne q hold q' hq'

theorem Compatible.step {programs : Script ρ μ → Prop} (h : Compatible d s)
    (hs : Step d programs s a s') : Compatible d s' := by
  obtain ⟨granted, x, hm, hfree, rfl⟩ := hs
  rintro ⟨b, k⟩ ⟨b', k'⟩ hne q hq q' hq'
  by_cases hb : b = a
  · subst hb
    by_cases hb' : b' = b
    · -- The two transactions of the agent itself.
      subst hb'
      rw [locksOf_update_self] at hq hq'
      cases k with
      | false =>
        cases k' with
        | false => exact absurd rfl hne
        | true =>
          rw [if_neg Bool.false_ne_true] at hq
          rw [if_pos rfl] at hq'
          exact h.own hm hfree hq hq'
      | true =>
        cases k' with
        | true => exact absurd rfl hne
        | false =>
          rw [if_pos rfl] at hq
          rw [if_neg Bool.false_ne_true] at hq'
          exact fun hc => h.own hm hfree hq' hq hc.symm
    · rw [locksOf_update_ne hb'] at hq'
      exact h.other hm hfree hb' hq hq'
  · rw [locksOf_update_ne hb] at hq
    by_cases hb' : b' = a
    · subst hb'
      exact fun hc => h.other hm hfree hb hq' hq hc.symm
    · rw [locksOf_update_ne hb'] at hq'
      exact h _ _ hne q hq q' hq'

/-- Every agent is orderly, and their locks are compatible. -/
structure Sound (d : Discipline ρ μ) (s : α → Agent ρ μ) : Prop where
  orderly : ∀ a, (s a).Orderly d
  compatible : Compatible d s

theorem sound_of_run {programs : Script ρ μ → Prop} {tr : List (Event (α → Agent ρ μ) α)}
    (hprograms : ∀ p, programs p → Ordered d [] [] p) (h : Runs d programs tr s) : Sound d s := by
  refine h.state_invariant (Sound d) ?_ ?_
  · refine ⟨fun _ => Agent.orderly_idle, ?_⟩
    rintro ⟨a, k⟩ j - q hq
    cases k <;> exact absurd hq List.not_mem_nil
  · intro s a s' hsound hs
    refine ⟨fun b => ?_, hsound.compatible.step hs⟩
    obtain ⟨granted, x, hm, -, rfl⟩ := hs
    by_cases hb : b = a
    · subst hb
      rw [Function.update_self]
      exact (hsound.orderly b).move hprograms hm
    · rw [Function.update_of_ne hb]
      exact hsound.orderly b

/-- A run goes on with a move of one agent. -/
theorem runs_move {programs : Script ρ μ → Prop} {tr : List (Event (α → Agent ρ μ) α)}
    {x x' : Agent ρ μ} {granted : Option (Request ρ μ)} (h : Runs d programs tr s) (a : α)
    (hx : s a = x) (hm : Moves programs x granted x')
    (hfree : ∀ q ∈ granted, ∀ b, ¬ Blocks d s a q b) :
    ∃ tr', Runs d programs tr' (Function.update s a x') := by
  subst hx
  exact ⟨_, h.snoc ⟨granted, x', hm, hfree, rfl⟩⟩

end Runs

/-! ## No circles -/

variable {s : α → Agent ρ μ} {a b c : α}

theorem Ordered.admissible (h : Ordered d kept held script) (hasks : Asks script q) :
    Admissible d kept held q := by
  cases hasks with
  | take => exact h.1
  | mayTake => exact h.1
  | takeRows hq => exact .inr (.inl (h.1 q hq))

/-- A request that waits ranks above everything its agent has. -/
theorem Sound.above (h : Sound d s) (hasks : Asks (s a).todo q) (hblocks : Blocks d s a q b) :
    Above d ((s a).held ++ (s a).kept) q := by
  obtain ⟨k, hne, q', hq', hconflict⟩ := hblocks
  rcases (h.orderly a).ordered.admissible hasks with ⟨q₀, hq₀, hresource, hcovers⟩ |
    ⟨g, m, hguard, hmem, hm⟩ | habove
  · -- The lock that covers the request would conflict as well.
    exact absurd ⟨hresource.trans hconflict.1, hcovers _ hconflict.2⟩
      (h.compatible (a, false) (b, k) hne.symm q₀ hq₀ q' hq')
  · -- The other transaction has the guard too.
    have hminded : Minded d (locksOf s (b, k)) := by
      cases k with
      | true => exact (h.orderly b).kept
      | false => exact (h.orderly b).held
    rcases hminded q' hq' with hnone | ⟨g', m', hguard', hmem', hm'⟩
    · rw [← hconflict.1, hguard] at hnone
      cases hnone
    · rw [← hconflict.1, hguard] at hguard'
      cases hguard'
      exact absurd ⟨rfl, d.guards_conflict m m' hm hm'⟩
        (h.compatible (a, false) (b, k) hne.symm _ hmem _ hmem')
  · exact habove

theorem Sound.rank_lt (h : Sound d s) (hasks : Asks (s a).todo q) (hblocks : Blocks d s a q b)
    (hasks' : Asks (s b).todo q') (hblocks' : Blocks d s b q' c) :
    d.rank q.resource < d.rank q'.resource := by
  have hguard := (h.above hasks hblocks).1
  obtain ⟨k, -, q₀, hq₀, hresource, -⟩ := hblocks
  have hmem : q₀ ∈ (s b).held ++ (s b).kept := by
    cases k with
    | true => exact List.mem_append_right _ hq₀
    | false => exact List.mem_append_left _ hq₀
  rw [hresource]
  exact (h.above hasks' hblocks').2 q₀ hmem (hresource ▸ hguard)

/-- Along a chain of waiting agents the requests rise. -/
theorem Sound.rank_lt_of_chain (h : Sound d s) (hchain : Relation.TransGen (Waits d s) a b) :
    ∃ q, (∃ c, Asks (s a).todo q ∧ Blocks d s a q c) ∧
      ∀ q' c, Asks (s b).todo q' → Blocks d s b q' c → d.rank q.resource < d.rank q'.resource := by
  induction hchain using Relation.TransGen.head_induction_on with
  | single hwaits =>
    obtain ⟨q, hasks, hblocks⟩ := hwaits
    exact ⟨q, ⟨b, hasks, hblocks⟩, fun q' c hasks' hblocks' => h.rank_lt hasks hblocks hasks' hblocks'⟩
  | head hwaits _ ih =>
    obtain ⟨q, hasks, hblocks⟩ := hwaits
    obtain ⟨q', ⟨c, hasks', hblocks'⟩, hrise⟩ := ih
    refine ⟨q, ⟨_, hasks, hblocks⟩, fun q'' c' hasks'' hblocks'' => ?_⟩
    exact Nat.lt_trans (h.rank_lt hasks hblocks hasks' hblocks') (hrise q'' c' hasks'' hblocks'')

/-- No agents wait for each other in a circle. -/
theorem Sound.no_cycle (h : Sound d s) (a : α) : ¬ Relation.TransGen (Waits d s) a a := by
  intro hcycle
  obtain ⟨q, ⟨c, hasks, hblocks⟩, hrise⟩ := h.rank_lt_of_chain hcycle
  exact Nat.lt_irrefl _ (hrise q c hasks hblocks)

end Locks
