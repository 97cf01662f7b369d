import Mathlib.Order.Basic

/-!
# Runs of a transition relation

A run is kept as the list of its steps, the latest step first, each with the state it was taken in,
its label and the state it led to. A statement about the past of a run is then a statement about
that list, and the order of two steps is their order in it.
-/

/-- One step of a run. -/
structure Event (σ α : Type*) where
  /-- The state the step was taken in. -/
  src : σ
  /-- What happened. -/
  label : α
  /-- The state the step led to. -/
  dst : σ

/-- `Run step s tr s'`: the steps `tr`, the latest first, lead from `s` to `s'`. -/
inductive Run {σ α : Type*} (step : σ → α → σ → Prop) (s : σ) : List (Event σ α) → σ → Prop where
  /-- The empty run. -/
  | refl : Run step s [] s
  /-- A run and one more step. -/
  | snoc {tr : List (Event σ α)} {t u : σ} {l : α} (h : Run step s tr t) (hs : step t l u) :
      Run step s (⟨t, l, u⟩ :: tr) u

namespace Run

variable {σ α : Type*} {step : σ → α → σ → Prop} {s t u : σ} {tr tr' : List (Event σ α)}

/-- A property of the run so far and the state it reached, kept by every step, holds at the end. -/
theorem invariant (I : List (Event σ α) → σ → Prop) (h0 : I [] s)
    (hstep : ∀ tr t l u, Run step s tr t → I tr t → step t l u → I (⟨t, l, u⟩ :: tr) u)
    (h : Run step s tr t) : I tr t := by
  induction h with
  | refl => exact h0
  | snoc hp hs ih => exact hstep _ _ _ _ hp ih hs

/-- A property of states, kept by every step, holds at the end. -/
theorem state_invariant (I : σ → Prop) (h0 : I s) (hstep : ∀ t l u, I t → step t l u → I u)
    (h : Run step s tr t) : I t :=
  h.invariant (fun _ t => I t) h0 fun _ _ _ _ _ hi hs => hstep _ _ _ hi hs

theorem trans (h : Run step s tr t) (h' : Run step t tr' u) : Run step s (tr' ++ tr) u := by
  induction h' with
  | refl => exact h
  | snoc _ hs ih => exact ih.snoc hs

/-- The run before and after one of its steps. -/
theorem split {later earlier : List (Event σ α)} {e : Event σ α}
    (h : Run step s (later ++ e :: earlier) t) :
    Run step s earlier e.src ∧ step e.src e.label e.dst ∧ Run step e.dst later t := by
  induction later generalizing t with
  | nil =>
    cases h with
    | snoc hp hs => exact ⟨hp, hs, refl⟩
  | cons e' later ih =>
    cases h with
    | snoc hp hs =>
      obtain ⟨h1, h2, h3⟩ := ih hp
      exact ⟨h1, h2, h3.snoc hs⟩

/-- Every step of a run is a step of the relation. -/
theorem step_of_mem {e : Event σ α} (h : Run step s tr t) (he : e ∈ tr) :
    step e.src e.label e.dst := by
  obtain ⟨later, earlier, rfl⟩ := List.append_of_mem he
  exact h.split.2.1

/-- A map of states and labels that takes steps to steps takes runs to runs. -/
theorem simulate {σ' α' : Type*} {step' : σ' → α' → σ' → Prop} (f : σ → σ') (g : σ → α → α')
    (hstep : ∀ t l u, step t l u → step' (f t) (g t l) (f u)) (h : Run step s tr t) :
    Run step' (f s) (tr.map fun e => ⟨f e.src, g e.src e.label, f e.dst⟩) (f t) := by
  induction h with
  | refl => exact refl
  | snoc _ hs ih => exact ih.snoc (hstep _ _ _ hs)

theorem mono {step' : σ → α → σ → Prop} (hstep : ∀ t l u, step t l u → step' t l u)
    (h : Run step s tr t) : Run step' s tr t := by
  induction h with
  | refl => exact refl
  | snoc _ hs ih => exact ih.snoc (hstep _ _ _ hs)

/-- The state after a list of actions, the first one first. -/
def play (f : σ → α → Option σ) (s : σ) : List α → Option σ
  | [] => some s
  | a :: rest => (f s a).bind fun t => play f t rest

/-- The actions of a play are the steps of a run. -/
theorem of_play {f : σ → α → Option σ} {actions : List α} (h : play f s actions = some t) :
    ∃ tr, Run (fun s a t => f s a = some t) s tr t ∧ ∀ e ∈ tr, e.label ∈ actions := by
  induction actions generalizing s with
  | nil =>
    obtain rfl : s = t := Option.some.inj h
    exact ⟨[], refl, fun _ he => absurd he List.not_mem_nil⟩
  | cons a rest ih =>
    obtain ⟨s₁, hstep, hrest⟩ := Option.bind_eq_some_iff.1 h
    obtain ⟨tr, hrun, hlabels⟩ := ih hrest
    have hfirst : Run (fun s a t => f s a = some t) s [⟨s, a, s₁⟩] s₁ := refl.snoc hstep
    refine ⟨_, hfirst.trans hrun, fun e he => ?_⟩
    rcases List.mem_append.1 he with he | he
    · exact List.mem_cons_of_mem _ (hlabels e he)
    · rw [List.mem_singleton.1 he]
      exact List.mem_cons_self

/-- A play whose actions all pass a check where they are taken. -/
theorem of_play_checked {f : σ → α → Option σ} {p : σ → α → Bool} {actions : List α}
    (h : play (fun s a => if p s a then f s a else none) s actions = some t) :
    ∃ tr, Run (fun s a t => f s a = some t) s tr t ∧ ∀ e ∈ tr, p e.src e.label = true := by
  obtain ⟨tr, hrun, -⟩ := of_play h
  refine ⟨tr, ?_, ?_⟩
  · clear h
    induction hrun with
    | refl => exact refl
    | snoc _ hs ih =>
      split_ifs at hs
      exact ih.snoc hs
  · intro e he
    have hs := hrun.step_of_mem he
    split_ifs at hs with hp
    exact hp

end Run

/-- At some step of the run `P` held of the step and of the steps before it. -/
def Happened {σ α : Type*} (P : Event σ α → List (Event σ α) → Prop) (tr : List (Event σ α)) : Prop :=
  ∃ later e earlier, tr = later ++ e :: earlier ∧ P e earlier

namespace Happened

variable {σ α : Type*} {P : Event σ α → List (Event σ α) → Prop} {tr : List (Event σ α)}

theorem now {e : Event σ α} (h : P e tr) : Happened P (e :: tr) := ⟨[], e, tr, rfl, h⟩

theorem cons {e : Event σ α} (h : Happened P tr) : Happened P (e :: tr) := by
  obtain ⟨later, e', earlier, rfl, hP⟩ := h
  exact ⟨e :: later, e', earlier, rfl, hP⟩

end Happened

/-- At some step of the run `P` held of the step and of the steps before it, and every step since
satisfies `Q`. -/
def Since {σ α : Type*} (P : Event σ α → List (Event σ α) → Prop) (Q : Event σ α → Prop)
    (tr : List (Event σ α)) : Prop :=
  ∃ later e earlier, tr = later ++ e :: earlier ∧ P e earlier ∧ ∀ e' ∈ later, Q e'

namespace Since

variable {σ α : Type*} {P : Event σ α → List (Event σ α) → Prop} {Q : Event σ α → Prop}
  {tr : List (Event σ α)}

theorem now {e : Event σ α} (h : P e tr) : Since P Q (e :: tr) :=
  ⟨[], e, tr, rfl, h, fun _ he => absurd he List.not_mem_nil⟩

theorem cons {e : Event σ α} (h : Since P Q tr) (he : Q e) : Since P Q (e :: tr) := by
  obtain ⟨later, e', earlier, rfl, hP, hlater⟩ := h
  refine ⟨e :: later, e', earlier, rfl, hP, fun x hx => ?_⟩
  rcases List.mem_cons.1 hx with rfl | hx
  · exact he
  · exact hlater x hx

end Since
