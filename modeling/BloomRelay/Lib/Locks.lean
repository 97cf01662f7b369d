import BloomRelay.Lib.Run
import Mathlib.Logic.Relation
import Mathlib.Logic.Function.Basic

/-!
# Locks taken in order

Agents run scripts that take locks one after the other and give them back together. A request waits
while another transaction has a lock that conflicts with it. A script is ordered if every request it
may have to wait for ranks above the locks its agent has. Two kinds of requests are exempt, because
they never wait: one for a resource that the transaction has locked already, in a mode that covers the
new one, and one for a resource behind a guard that the transaction has locked. Where all scripts are
ordered, no agents wait for each other in a circle.

An agent may keep the locks of one transaction while it runs others. These count as locks of another
transaction, so that it can also come to wait for itself.
-/

namespace Locks

structure Request (ρ μ : Type*) where
  resource : ρ
  mode : μ

/-- The modes that exclude each other, the order of the resources and their guards. -/
structure Discipline (ρ μ : Type*) where
  conflict : μ → μ → Prop
  conflict_symm : ∀ m m', conflict m m' → conflict m' m
  rank : ρ → Nat
  /-- What has to be locked before this resource is asked for. -/
  guard : ρ → Option ρ
  /-- The modes a guard has to be locked in. -/
  guards : μ → Prop
  guards_conflict : ∀ m m', guards m → guards m' → conflict m m'

/-- What a script does next. -/
inductive Item (ρ μ : Type*) where
  | take (q : Request ρ μ)
  | mayTake (q : Request ρ μ)
  /-- Any number of locks, as a statement on many rows takes them. -/
  | takeRows (p : Request ρ μ → Prop)
  /-- A lock that is taken if it is free, and never waited for. -/
  | takeFree (q : Request ρ μ)
  /-- The locks so far are kept while other transactions run. -/
  | keep
  /-- Such a transaction ends. -/
  | commit
  /-- The transaction whose locks were kept goes on. -/
  | resume

abbrev Script (ρ μ : Type*) := List (Item ρ μ)

/-- Items of one transaction. -/
def Item.Taking {ρ μ : Type*} : Item ρ μ → Prop
  | .take _ | .mayTake _ | .takeRows _ | .takeFree _ => True
  | .keep | .commit | .resume => False

/-- The locks an agent keeps, those of the transaction it runs, and the rest of its script. -/
structure Agent (ρ μ : Type*) where
  kept : List (Request ρ μ)
  held : List (Request ρ μ)
  todo : Script ρ μ

variable {α ρ μ : Type*}

def Agent.idle : Agent ρ μ := ⟨[], [], []⟩

/-- The locks of a transaction: the one an agent keeps, or the one it runs. -/
def locksOf (s : α → Agent ρ μ) : α × Bool → List (Request ρ μ)
  | (a, true) => (s a).kept
  | (a, false) => (s a).held

/-- One agent moves, and may need a lock for it; a transaction may end at any point. -/
inductive Moves (programs : Script ρ μ → Prop) :
    Agent ρ μ → Option (Request ρ μ) → Agent ρ μ → Prop where
  | start {todo : Script ρ μ} (h : programs todo) : Moves programs .idle none ⟨[], [], todo⟩
  | take {kept held : List (Request ρ μ)} {q : Request ρ μ} {rest : Script ρ μ} :
      Moves programs ⟨kept, held, .take q :: rest⟩ (some q) ⟨kept, q :: held, rest⟩
  | mayTake {kept held : List (Request ρ μ)} {q : Request ρ μ} {rest : Script ρ μ} :
      Moves programs ⟨kept, held, .mayTake q :: rest⟩ (some q) ⟨kept, q :: held, rest⟩
  | skip {kept held : List (Request ρ μ)} {q : Request ρ μ} {rest : Script ρ μ} :
      Moves programs ⟨kept, held, .mayTake q :: rest⟩ none ⟨kept, held, rest⟩
  | takeRow {kept held : List (Request ρ μ)} {p : Request ρ μ → Prop} {q : Request ρ μ}
      {rest : Script ρ μ} (h : p q) :
      Moves programs ⟨kept, held, .takeRows p :: rest⟩ (some q)
        ⟨kept, q :: held, .takeRows p :: rest⟩
  | rowsTaken {kept held : List (Request ρ μ)} {p : Request ρ μ → Prop} {rest : Script ρ μ} :
      Moves programs ⟨kept, held, .takeRows p :: rest⟩ none ⟨kept, held, rest⟩
  | takeFree {kept held : List (Request ρ μ)} {q : Request ρ μ} {rest : Script ρ μ} :
      Moves programs ⟨kept, held, .takeFree q :: rest⟩ (some q) ⟨kept, q :: held, rest⟩
  | keep {kept held : List (Request ρ μ)} {rest : Script ρ μ} :
      Moves programs ⟨kept, held, .keep :: rest⟩ none ⟨held ++ kept, [], rest⟩
  | commit {kept held : List (Request ρ μ)} {rest : Script ρ μ} :
      Moves programs ⟨kept, held, .commit :: rest⟩ none ⟨kept, [], rest⟩
  | resume {kept held : List (Request ρ μ)} {rest : Script ρ μ} :
      Moves programs ⟨kept, held, .resume :: rest⟩ none ⟨[], kept, rest⟩
  | finish {x : Agent ρ μ} : Moves programs x none .idle

/-- The request an agent waits for, if it cannot be granted. -/
inductive Asks : Script ρ μ → Request ρ μ → Prop where
  | take (q : Request ρ μ) (rest : Script ρ μ) : Asks (.take q :: rest) q
  | mayTake (q : Request ρ μ) (rest : Script ρ μ) : Asks (.mayTake q :: rest) q
  | takeRows {p : Request ρ μ → Prop} {q : Request ρ μ} (h : p q) (rest : Script ρ μ) :
      Asks (.takeRows p :: rest) q

section Discipline

variable (d : Discipline ρ μ)

def Conflicts (q q' : Request ρ μ) : Prop := q.resource = q'.resource ∧ d.conflict q.mode q'.mode

/-- Agent `b` has a lock in the way of the request of `a`; its own running transaction never is. -/
def Blocks (s : α → Agent ρ μ) (a : α) (q : Request ρ μ) (b : α) : Prop :=
  ∃ kept, (b, kept) ≠ (a, false) ∧ ∃ q' ∈ locksOf s (b, kept), Conflicts d q q'

instance [DecidableEq ρ] [DecidableRel d.conflict] (q q' : Request ρ μ) :
    Decidable (Conflicts d q q') :=
  inferInstanceAs (Decidable (_ ∧ _))

instance [DecidableEq α] [DecidableEq ρ] [DecidableRel d.conflict] (s : α → Agent ρ μ) (a : α)
    (q : Request ρ μ) (b : α) : Decidable (Blocks d s a q b) :=
  inferInstanceAs (Decidable (∃ _ : Bool, _))

/-- Agent `a` waits for a lock that `b` has. -/
def Waits (s : α → Agent ρ μ) (a b : α) : Prop := ∃ q, Asks (s a).todo q ∧ Blocks d s a q b

variable [DecidableEq α]

/-- One step of agent `a`: a lock it needs must not be blocked. -/
def Step (programs : Script ρ μ → Prop) (s : α → Agent ρ μ) (a : α) (s' : α → Agent ρ μ) : Prop :=
  ∃ granted x, Moves programs (s a) granted x ∧ (∀ q ∈ granted, ∀ b, ¬ Blocks d s a q b) ∧
    s' = Function.update s a x

/-- The runs of agents that all begin idle. -/
abbrev Runs (programs : Script ρ μ → Prop) :
    List (Event (α → Agent ρ μ) α) → (α → Agent ρ μ) → Prop :=
  Run (Step d programs) fun _ => .idle

/-! ## Ordered scripts -/

/-- The transaction has locked the resource in a mode that covers the request. -/
def Covered (held : List (Request ρ μ)) (q : Request ρ μ) : Prop :=
  ∃ q' ∈ held, q'.resource = q.resource ∧ ∀ m, d.conflict q.mode m → d.conflict q'.mode m

/-- The transaction has locked the guard of the resource. -/
def Guarded (held : List (Request ρ μ)) (q : Request ρ μ) : Prop :=
  ∃ g m, d.guard q.resource = some g ∧ (⟨g, m⟩ : Request ρ μ) ∈ held ∧ d.guards m

/-- The resource has no guard and ranks above every lock that others may wait for. -/
def Above (locks : List (Request ρ μ)) (q : Request ρ μ) : Prop :=
  d.guard q.resource = none ∧
    ∀ q' ∈ locks, d.guard q'.resource = none → d.rank q'.resource < d.rank q.resource

def Admissible (kept held : List (Request ρ μ)) (q : Request ρ μ) : Prop :=
  Covered d held q ∨ Guarded d held q ∨ Above d (held ++ kept) q

/-- Every request of the script is admissible where it is made. -/
def Ordered : List (Request ρ μ) → List (Request ρ μ) → Script ρ μ → Prop
  | _, _, [] => True
  | kept, held, .take q :: rest => Admissible d kept held q ∧ Ordered kept (q :: held) rest
  | kept, held, .mayTake q :: rest =>
    Admissible d kept held q ∧ Ordered kept (q :: held) rest ∧ Ordered kept held rest
  | kept, held, .takeRows p :: rest => (∀ q, p q → Guarded d held q) ∧ Ordered kept held rest
  | kept, held, .takeFree q :: rest => d.guard q.resource = none ∧ Ordered kept (q :: held) rest
  | kept, held, .keep :: rest => Ordered (held ++ kept) [] rest
  | kept, _, .commit :: rest => Ordered kept [] rest
  | kept, _, .resume :: rest => Ordered [] kept rest

end Discipline

end Locks
