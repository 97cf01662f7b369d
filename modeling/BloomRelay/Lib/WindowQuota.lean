import Mathlib.Data.List.AList
import Mathlib.Algebra.BigOperators.Group.List.Basic
import Mathlib.Algebra.GroupWithZero.Nat

/-!
# Quotas over a window of time

A quota counts what it lets through, for each key and overall, in a window that starts anew with the
first call that finds it a whole period old. In any interval shorter than the period at most two
windows meet, so at most twice the limit gets through (`WindowQuota.Counter.hits_le`).
-/

/-- The counters of the current window. -/
structure WindowQuota (κ : Type*) where
  start : Nat
  total : Nat
  counts : AList fun _ : κ => Nat

namespace WindowQuota

structure Limits where
  period : Nat
  perKey : Nat
  overall : Nat

structure Call (κ : Type*) where
  key : κ
  now : Nat

variable {κ : Type*} [DecidableEq κ]

/-- The counter of a key, zero if it has none. -/
def countOf (q : WindowQuota κ) (k : κ) : Nat := (q.counts.lookup k).getD 0

/-- The sum of the counters. -/
def sum (q : WindowQuota κ) : Nat := (q.counts.entries.map Sigma.snd).sum

variable (lim : Limits)

/-- The window is a period old. -/
def Due (q : WindowQuota κ) (now : Nat) : Prop := lim.period ≤ now - q.start

instance (q : WindowQuota κ) (now : Nat) : Decidable (q.Due lim now) :=
  inferInstanceAs (Decidable (_ ≤ _))

def fresh (now : Nat) : WindowQuota κ := ⟨now, 0, ∅⟩

/-- The window at a time: a new one if the old one is over. -/
def roll (q : WindowQuota κ) (now : Nat) : WindowQuota κ := if q.Due lim now then fresh now else q

/-- The counters with one more for a key. -/
def charge (q : WindowQuota κ) (k : κ) : WindowQuota κ :=
  { q with total := q.total + 1, counts := q.counts.insert k (q.countOf k + 1) }

def allow (q : WindowQuota κ) (c : Call κ) : Bool × WindowQuota κ :=
  let q := q.roll lim c.now
  if q.total ≥ lim.overall ∨ q.countOf c.key ≥ lim.perKey then (false, q)
  else (true, q.charge c.key)

/-- The quota after some calls. -/
def afterCalls (q : WindowQuota κ) (calls : List (Call κ)) : WindowQuota κ :=
  calls.foldl (fun q c => (q.allow lim c).2) q

/-- The calls that get through. -/
def accepted (q : WindowQuota κ) : List (Call κ) → List (Call κ)
  | [] => []
  | c :: calls => (if (q.allow lim c).1 then [c] else []) ++ accepted (q.allow lim c).2 calls

/-- The calls that got through since the window started in which the last call was made. -/
def window (q : WindowQuota κ) (ledger : List (Call κ)) : List (Call κ) → List (Call κ)
  | [] => ledger
  | c :: calls => window (q.allow lim c).2
      ((if q.Due lim c.now then [] else ledger) ++ if (q.allow lim c).1 then [c] else []) calls

variable {lim} {q : WindowQuota κ} {c : Call κ} {k : κ} {calls ledger : List (Call κ)}

/-! ## One call -/

/-- A call is let through if the window at its time has room for it. -/
theorem allow_eq_true : (q.allow lim c).1 = true ↔
    (q.roll lim c.now).countOf c.key < lim.perKey ∧ (q.roll lim c.now).total < lim.overall := by
  unfold allow
  by_cases hfull : (q.roll lim c.now).total ≥ lim.overall ∨
      (q.roll lim c.now).countOf c.key ≥ lim.perKey
  · simp only [if_pos hfull]
    constructor
    · intro h
      cases h
    · intro h
      omega
  · simp only [if_neg hfull, true_iff]
    omega

theorem allow_accepted (h : (q.allow lim c).1 = true) :
    (q.allow lim c).2 = (q.roll lim c.now).charge c.key := by
  have hroom := allow_eq_true.mp h
  unfold allow
  rw [if_neg (by omega)]

theorem allow_refused (h : (q.allow lim c).1 = false) :
    (q.allow lim c).2 = q.roll lim c.now := by
  unfold allow at h ⊢
  simp only at h ⊢
  split_ifs at h ⊢
  rfl

@[simp] theorem countOf_fresh (now : Nat) (k : κ) : (fresh now : WindowQuota κ).countOf k = 0 := by
  unfold countOf fresh
  rw [AList.lookup_empty]
  rfl

theorem countOf_charge (q : WindowQuota κ) (k k' : κ) :
    (q.charge k).countOf k' = q.countOf k' + if k = k' then 1 else 0 := by
  by_cases hk : k = k'
  · subst hk
    rw [if_pos rfl]
    unfold countOf charge
    rw [AList.lookup_insert]
    rfl
  · rw [if_neg hk, Nat.add_zero]
    unfold countOf charge
    rw [AList.lookup_insert_ne fun h => hk h.symm]

theorem sum_kerase (k : κ) (entries : List (Sigma fun _ : κ => Nat)) :
    ((entries.kerase k).map Sigma.snd).sum + (entries.dlookup k).getD 0 =
      (entries.map Sigma.snd).sum := by
  induction entries with
  | nil => rfl
  | cons e entries ih =>
    obtain ⟨k', n⟩ := e
    by_cases hk : k = k'
    · subst hk
      have herase : (⟨k, n⟩ :: entries).kerase k = entries := List.kerase_cons_eq rfl
      rw [herase, List.dlookup_cons_eq, List.map_cons, List.sum_cons, Option.getD_some]
      exact Nat.add_comm _ _
    · rw [List.kerase_cons_ne hk, List.dlookup_cons_ne _ _ hk, List.map_cons, List.map_cons,
        List.sum_cons, List.sum_cons]
      omega

theorem sum_charge (q : WindowQuota κ) (k : κ) : (q.charge k).sum = q.sum + 1 := by
  have herase := sum_kerase k q.counts.entries
  have hcount : q.countOf k = (q.counts.entries.dlookup k).getD 0 := rfl
  unfold sum charge
  rw [AList.entries_insert, List.map_cons, List.sum_cons]
  show q.countOf k + 1 + _ = _
  omega

theorem size_charge (q : WindowQuota κ) (k : κ) :
    (q.charge k).counts.entries.length ≤ q.counts.entries.length + 1 := by
  have hsublist := (List.kerase_sublist k q.counts.entries).length_le
  unfold charge
  rw [AList.entries_insert, List.length_cons]
  omega

/-! ## What the counters say -/

/-- The counters belong together and are within the limits. -/
structure Consistent (lim : Limits) (q : WindowQuota κ) : Prop where
  sum : q.total = q.sum
  size : q.counts.entries.length ≤ q.total
  total : q.total ≤ lim.overall
  counts : ∀ k, q.countOf k ≤ lim.perKey

theorem consistent_fresh (lim : Limits) (now : Nat) : Consistent lim (fresh now : WindowQuota κ) := by
  refine ⟨rfl, le_rfl, Nat.zero_le _, fun k => ?_⟩
  rw [countOf_fresh]
  exact Nat.zero_le _

theorem Consistent.roll (h : Consistent lim q) (now : Nat) : Consistent lim (q.roll lim now) := by
  unfold WindowQuota.roll
  split_ifs
  · exact consistent_fresh lim now
  · exact h

theorem Consistent.allow (h : Consistent lim q) (c : Call κ) :
    Consistent lim (q.allow lim c).2 := by
  have hroll := h.roll c.now
  cases hallow : (q.allow lim c).1 with
  | false =>
    rw [allow_refused hallow]
    exact hroll
  | true =>
    obtain ⟨hkey, htotal⟩ := allow_eq_true.mp hallow
    rw [allow_accepted hallow]
    have hsum := hroll.sum
    have hsize := hroll.size
    have hsize' := size_charge (q.roll lim c.now) c.key
    refine ⟨?_, ?_, ?_, fun k => ?_⟩
    · rw [sum_charge, ← hsum]
      rfl
    · show _ ≤ (q.roll lim c.now).total + 1
      omega
    · show (q.roll lim c.now).total + 1 ≤ _
      omega
    · have hk := hroll.counts k
      rw [countOf_charge]
      split_ifs with heq
      · subst heq
        omega
      · omega

theorem Consistent.afterCalls (h : Consistent lim q) (calls : List (Call κ)) :
    Consistent lim (q.afterCalls lim calls) := by
  induction calls generalizing q with
  | nil => exact h
  | cons c calls ih => exact ih (h.allow c)

/-- The counters count the calls of a ledger. -/
structure Tallies (q : WindowQuota κ) (ledger : List (Call κ)) : Prop where
  total : q.total = ledger.length
  counts : ∀ k, q.countOf k = ledger.countP fun c => c.key = k

theorem tallies_fresh (now : Nat) : Tallies (fresh now : WindowQuota κ) [] :=
  ⟨rfl, fun k => countOf_fresh now k⟩

theorem Tallies.roll (h : Tallies q ledger) (now : Nat) :
    Tallies (q.roll lim now) (if q.Due lim now then [] else ledger) := by
  unfold WindowQuota.roll
  split_ifs
  · exact tallies_fresh now
  · exact h

theorem Tallies.allow (h : Tallies q ledger) (c : Call κ) : Tallies (q.allow lim c).2
    ((if q.Due lim c.now then [] else ledger) ++ if (q.allow lim c).1 then [c] else []) := by
  have hroll : Tallies (q.roll lim c.now) _ := h.roll c.now
  cases hallow : (q.allow lim c).1 with
  | false =>
    rw [allow_refused hallow, if_neg Bool.false_ne_true, List.append_nil]
    exact hroll
  | true =>
    rw [allow_accepted hallow, if_pos rfl]
    refine ⟨?_, fun k => ?_⟩
    · rw [List.length_append, ← hroll.total]
      rfl
    · rw [countOf_charge, hroll.counts, List.countP_append, List.countP_singleton]
      simp only [decide_eq_true_eq]

theorem Tallies.window (h : Tallies q ledger) (calls : List (Call κ)) :
    Tallies (q.afterCalls lim calls) (q.window lim ledger calls) := by
  induction calls generalizing q ledger with
  | nil => exact h
  | cons c calls ih => exact ih (h.allow c)

/-- A call is let through if, among those let through in its window, there are fewer than the limits. -/
theorem Tallies.allow_iff (h : Tallies q ledger) : (q.allow lim c).1 = true ↔
    (if q.Due lim c.now then [] else ledger).countP (fun c' => c'.key = c.key) < lim.perKey ∧
      (if q.Due lim c.now then [] else ledger).length < lim.overall := by
  have hroll : Tallies (q.roll lim c.now) _ := h.roll c.now
  rw [allow_eq_true, hroll.total, hroll.counts]

/-! ## Intervals of time -/

/-- A counter of the calls whose key is selected: a new window sets it to zero, and it stays below its
limit. -/
structure Counter (lim : Limits) (μ : WindowQuota κ → Nat) (select : κ → Bool) (cap : Nat) :
    Prop where
  fresh : ∀ now, μ (fresh now) = 0
  charge : ∀ (q : WindowQuota κ) (k : κ), μ (q.charge k) = μ q + if select k then 1 else 0
  room : ∀ (q : WindowQuota κ) (c : Call κ), (q.allow lim c).1 = true → select c.key = true → μ (q.roll lim c.now) < cap

theorem counter_key (lim : Limits) (k : κ) :
    Counter lim (countOf · k) (fun k' => k' = k) lim.perKey where
  fresh now := countOf_fresh now k
  charge q k' := by
    rw [countOf_charge]
    simp only [decide_eq_true_eq]
  room q c hallow hk := by
    have hkey := (allow_eq_true.mp hallow).1
    rwa [of_decide_eq_true hk] at hkey

theorem counter_total (lim : Limits) :
    Counter lim (fun q : WindowQuota κ => q.total) (fun _ => true) lim.overall where
  fresh _ := rfl
  charge _ _ := rfl
  room _ _ hallow _ := (allow_eq_true.mp hallow).2

/-- The selected calls that get through from `a` on and before `b`. -/
def hits (lim : Limits) (select : κ → Bool) (a b : Nat) (q : WindowQuota κ)
    (calls : List (Call κ)) : Nat :=
  (q.accepted lim calls).countP fun c => select c.key && decide (a ≤ c.now ∧ c.now < b)

variable {μ : WindowQuota κ → Nat} {select : κ → Bool} {cap a b : Nat}

theorem hits_cons (c : Call κ) (calls : List (Call κ)) :
    hits lim select a b q (c :: calls) = hits lim select a b (q.allow lim c).2 calls +
      if (q.allow lim c).1 = true ∧ select c.key = true ∧ a ≤ c.now ∧ c.now < b then 1 else 0 := by
  unfold hits
  rw [accepted, List.countP_append, Nat.add_comm]
  congr 1
  cases hallow : (q.allow lim c).1 with
  | false => simp
  | true =>
    rw [if_pos rfl, List.countP_singleton]
    simp only [Bool.and_eq_true, decide_eq_true_eq, true_and]

theorem accepted_subset (q : WindowQuota κ) (calls : List (Call κ)) :
    ∀ c ∈ q.accepted lim calls, c ∈ calls := by
  induction calls generalizing q with
  | nil => exact fun c hc => hc
  | cons c calls ih =>
    intro d hd
    rcases List.mem_append.mp hd with hd | hd
    · split_ifs at hd
      · rw [List.mem_singleton.mp hd]
        exact List.mem_cons_self
      · exact absurd hd List.not_mem_nil
    · exact List.mem_cons_of_mem _ (ih _ d hd)

theorem hits_eq_zero (h : ∀ c ∈ calls, b ≤ c.now) : hits lim select a b q calls = 0 := by
  refine List.countP_eq_zero.mpr fun c hc htrue => ?_
  have hlate := h c (accepted_subset q calls c hc)
  rw [Bool.and_eq_true, decide_eq_true_eq] at htrue
  omega

namespace Counter

variable (h : Counter lim μ select cap)
include h

theorem allow_le (hq : μ q ≤ cap) (c : Call κ) : μ (q.allow lim c).2 ≤ cap := by
  have hroll : μ (q.roll lim c.now) ≤ cap := by
    unfold roll
    split_ifs
    · rw [h.fresh]
      exact Nat.zero_le _
    · exact hq
  cases hallow : (q.allow lim c).1 with
  | false =>
    rw [allow_refused hallow]
    exact hroll
  | true =>
    have hroom := h.room q c hallow
    rw [allow_accepted hallow, h.charge]
    split_ifs with hselect
    · exact hroom hselect
    · exact hroll

/-- What a call adds to the counter of its window is what it adds to the hits. -/
theorem allow_eq (q : WindowQuota κ) (c : Call κ) : μ (q.allow lim c).2 = μ (q.roll lim c.now) +
    if (q.allow lim c).1 = true ∧ select c.key = true then 1 else 0 := by
  cases hallow : (q.allow lim c).1 with
  | false =>
    rw [allow_refused hallow, if_neg fun hand => Bool.false_ne_true hand.1]
    rfl
  | true =>
    rw [allow_accepted hallow, h.charge]
    simp only [true_and]

/-- From `a` on, a window that started before `a` and one that starts later can be charged; one that
started later is the only one before `b`. -/
theorem hits_add_le (hb : b ≤ a + lim.period) (hfrom : ∀ c ∈ calls, a ≤ c.now)
    (hsorted : calls.Pairwise fun c d => c.now ≤ d.now) (hq : μ q ≤ cap) :
    hits lim select a b q calls + μ q ≤ if a ≤ q.start then cap else 2 * cap := by
  induction calls generalizing q with
  | nil =>
    show 0 + μ q ≤ _
    split_ifs
    · omega
    · omega
  | cons c calls ih =>
    obtain ⟨hlater, hsorted⟩ := List.pairwise_cons.mp hsorted
    have ha := hfrom c List.mem_cons_self
    have hrest := ih (fun d hd => hfrom d (List.mem_cons_of_mem _ hd)) hsorted (h.allow_le hq c)
    by_cases hend : b ≤ c.now
    · have hzero : hits lim select a b q (c :: calls) = 0 := by
        refine hits_eq_zero fun d hd => ?_
        rcases List.mem_cons.mp hd with rfl | hd
        · exact hend
        · exact hend.trans (hlater d hd)
      rw [hzero]
      split_ifs
      · omega
      · omega
    · have hin : a ≤ c.now ∧ c.now < b := ⟨ha, by omega⟩
      have hstart : (q.allow lim c).2.start = (q.roll lim c.now).start := by
        cases hallow : (q.allow lim c).1 with
        | false => rw [allow_refused hallow]
        | true =>
          rw [allow_accepted hallow]
          rfl
      have hadd := h.allow_eq q c
      rw [hits_cons]
      simp only [hin, and_true]
      rw [hstart] at hrest
      by_cases hdue : q.Due lim c.now
      · -- the one new window of the interval: its start lies in it
        have hroll : q.roll lim c.now = WindowQuota.fresh c.now := if_pos hdue
        have hbefore : ¬ a ≤ q.start := by
          unfold Due at hdue
          omega
        rw [hroll, h.fresh] at hadd
        rw [hroll, if_pos (show a ≤ (WindowQuota.fresh c.now : WindowQuota κ).start from ha)] at hrest
        rw [if_neg hbefore]
        omega
      · have hroll : q.roll lim c.now = q := if_neg hdue
        rw [hroll] at hadd hrest
        by_cases hold : a ≤ q.start
        · rw [if_pos hold] at hrest ⊢
          omega
        · rw [if_neg hold] at hrest ⊢
          omega

/-- In an interval shorter than the period, at most twice the limit gets through. -/
theorem hits_le (hb : b ≤ a + lim.period) (hsorted : calls.Pairwise fun c d => c.now ≤ d.now)
    (hq : μ q ≤ cap) : hits lim select a b q calls ≤ 2 * cap := by
  induction calls generalizing q with
  | nil => exact Nat.zero_le _
  | cons c calls ih =>
    obtain ⟨hlater, hrest⟩ := List.pairwise_cons.mp hsorted
    by_cases ha : a ≤ c.now
    · have hfrom : ∀ d ∈ c :: calls, a ≤ d.now := by
        intro d hd
        rcases List.mem_cons.mp hd with rfl | hd
        · exact ha
        · exact ha.trans (hlater d hd)
      have hbound := h.hits_add_le hb hfrom hsorted hq
      split_ifs at hbound
      · omega
      · omega
    · have hbefore := ih hrest (h.allow_le hq c)
      rw [hits_cons, if_neg fun hand => ha hand.2.2.1]
      exact hbefore

end Counter

end WindowQuota
