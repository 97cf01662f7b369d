import Mathlib.Data.Finset.Card

/-!
# Counting semaphores

Who holds a permit of which semaphore. A holder has at most one permit, and a permit is given out only
while fewer than the semaphore's capacity are held.
-/

/-- The permits that are held: each holder with its semaphore. -/
structure Permits (η ρ : Type*) where
  held : List (η × ρ)
  nodup : (held.map Prod.fst).Nodup

namespace Permits

variable {η ρ : Type*}

def empty : Permits η ρ := ⟨[], List.nodup_nil⟩

/-- How many permits are held of the semaphores that `q` selects. -/
def count (p : Permits η ρ) (q : ρ → Bool) : Nat := p.held.countP fun x => q x.2

theorem count_of_cons {p p' : Permits η ρ} {h : η} {r : ρ} {q : ρ → Bool}
    (hheld : p'.held = (h, r) :: p.held) : p'.count q = p.count q + if q r then 1 else 0 := by
  unfold count
  rw [hheld, List.countP_cons]

/-- If all selected permits are of one semaphore, that one counts them. -/
theorem count_eq_of_alone [DecidableEq ρ] {p : Permits η ρ} {r : ρ} {q : ρ → Bool}
    (hr : q r = true) (halone : ∀ x ∈ p.held, q x.2 = true → x.2 = r) :
    p.count q = p.count (· = r) := by
  refine List.countP_congr fun x hx => ?_
  constructor
  · intro hq
    exact decide_eq_true (halone x hx hq)
  · intro heq
    rw [of_decide_eq_true heq]
    exact hr

section Holders

variable [DecidableEq η]

def holds (p : Permits η ρ) (h : η) : Bool := p.held.any fun x => x.1 = h

theorem holds_iff {p : Permits η ρ} {h : η} : p.holds h = true ↔ ∃ r, (h, r) ∈ p.held := by
  simp only [holds, List.any_eq_true, decide_eq_true_eq]
  constructor
  · rintro ⟨⟨_, r⟩, hx, rfl⟩
    exact ⟨r, hx⟩
  · rintro ⟨r, hx⟩
    exact ⟨(h, r), hx, rfl⟩

/-- Distinct holders have distinct permits. -/
theorem card_le_count {p : Permits η ρ} {q : ρ → Bool} {hs : Finset η}
    (h : ∀ x ∈ hs, ∃ r, (x, r) ∈ p.held ∧ q r = true) : hs.card ≤ p.count q := by
  have hsub : hs ⊆ ((p.held.filter fun x => q x.2).map Prod.fst).toFinset := by
    intro x hx
    obtain ⟨r, hr, hq⟩ := h x hx
    rw [List.mem_toFinset]
    exact List.mem_map.mpr ⟨(x, r), List.mem_filter.mpr ⟨hr, hq⟩, rfl⟩
  calc hs.card ≤ ((p.held.filter fun x => q x.2).map Prod.fst).toFinset.card :=
        Finset.card_le_card hsub
    _ ≤ ((p.held.filter fun x => q x.2).map Prod.fst).length := List.toFinset_card_le _
    _ = p.count q := by rw [List.length_map, count, List.countP_eq_length_filter]

theorem nodup_cons (p : Permits η ρ) {h : η} (hfree : p.holds h = false) (r : ρ) :
    (((h, r) :: p.held).map Prod.fst).Nodup := by
  refine List.nodup_cons.mpr ⟨fun hmem => ?_, p.nodup⟩
  obtain ⟨⟨_, r'⟩, hx, rfl⟩ := List.mem_map.mp hmem
  rw [holds_iff.mpr ⟨r', hx⟩] at hfree
  cases hfree

/-- The holder drops its permit. -/
def release (p : Permits η ρ) (h : η) : Permits η ρ :=
  ⟨p.held.filter fun x => x.1 ≠ h, p.nodup.sublist (List.filter_sublist.map _)⟩

theorem count_release_le (p : Permits η ρ) (h : η) (q : ρ → Bool) :
    (p.release h).count q ≤ p.count q :=
  List.filter_sublist.countP_le

theorem mem_release {p : Permits η ρ} {h : η} {x : η × ρ} :
    x ∈ (p.release h).held ↔ x ∈ p.held ∧ x.1 ≠ h := by
  simp [release, List.mem_filter]

theorem holds_release_of_ne {p : Permits η ρ} {h h' : η} (hne : h' ≠ h) (hp : p.holds h' = true) :
    (p.release h).holds h' = true := by
  obtain ⟨r, hr⟩ := holds_iff.mp hp
  exact holds_iff.mpr ⟨r, mem_release.mpr ⟨hr, hne⟩⟩

end Holders

section Acquire

variable [DecidableEq η] [DecidableEq ρ]

/-- `try_acquire` of the semaphore `r` with capacity `cap`. -/
def acquire? (p : Permits η ρ) (cap : Nat) (h : η) (r : ρ) : Option (Permits η ρ) :=
  if hfree : p.holds h = false then
    if p.count (· = r) < cap then some ⟨(h, r) :: p.held, p.nodup_cons hfree r⟩ else none
  else none

variable {p p' : Permits η ρ} {cap : Nat} {h h' : η} {r : ρ} {q : ρ → Bool}

theorem acquire?_eq_some (hp : p.acquire? cap h r = some p') :
    p.holds h = false ∧ p.count (· = r) < cap ∧ p'.held = (h, r) :: p.held := by
  unfold acquire? at hp
  split_ifs at hp with hfree hcap
  cases hp
  exact ⟨hfree, hcap, rfl⟩

theorem exists_acquire (hfree : p.holds h = false) (hcap : p.count (· = r) < cap) :
    ∃ p', p.acquire? cap h r = some p' ∧ p'.held = (h, r) :: p.held := by
  refine ⟨⟨(h, r) :: p.held, p.nodup_cons hfree r⟩, ?_, rfl⟩
  simp [acquire?, hfree, hcap]

/-- A permit that is got while all selected ones are of its semaphore keeps their number within the
capacity. -/
theorem count_le_of_acquire (hp : p.acquire? cap h r = some p') (hr : q r = true)
    (halone : ∀ x ∈ p.held, q x.2 = true → x.2 = r) : p'.count q ≤ cap := by
  obtain ⟨-, hcap, hheld⟩ := acquire?_eq_some hp
  rw [count_of_cons hheld, count_eq_of_alone hr halone, if_pos hr]
  exact hcap

/-- Other semaphores are not affected. -/
theorem count_eq_of_acquire (hp : p.acquire? cap h r = some p') (hr : q r = false) :
    p'.count q = p.count q := by
  obtain ⟨-, -, hheld⟩ := acquire?_eq_some hp
  rw [count_of_cons hheld, if_neg (by simp [hr]), Nat.add_zero]

end Acquire

end Permits
