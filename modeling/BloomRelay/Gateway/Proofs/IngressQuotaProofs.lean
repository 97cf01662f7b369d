import BloomRelay.Gateway.IngressQuota

/-!
# Connections that the quota lets in

The quota is an instance of a count in windows, with the limits of an address and of all addresses
together.
-/

namespace BloomRelay.Ingress

open Store WindowQuota

namespace IngressQuota

def limits : Limits where
  period := fromSecs 60
  perKey := 120
  overall := 5000

theorem allowAt_eq (state : IngressQuota) (source : IpAddr) (now : Nat) :
    state.allowAt source now = state.allow limits ⟨source, now⟩ := rfl

variable {calls : List (Call IpAddr)}

/-- The state after some calls. -/
def after (t₀ : Nat) (calls : List (Call IpAddr)) : IngressQuota :=
  calls.foldl (fun state c => (state.allowAt c.key c.now).2) (new t₀)

/-- The calls that are let in. -/
def letIn (t₀ : Nat) (calls : List (Call IpAddr)) : List (Call IpAddr) :=
  accepted limits (new t₀) calls

/-- The calls that were let in since the window started that is current at `now`. -/
def currentWindow (t₀ : Nat) (calls : List (Call IpAddr)) (now : Nat) : List (Call IpAddr) :=
  if fromSecs 60 ≤ now - (after t₀ calls).start then []
  else window limits (new t₀) [] calls

theorem after_eq (t₀ : Nat) (calls : List (Call IpAddr)) :
    after t₀ calls = afterCalls limits (new t₀) calls := rfl

theorem tallies_after (t₀ : Nat) (calls : List (Call IpAddr)) :
    Tallies (after t₀ calls) (window limits (new t₀) [] calls) := by
  rw [after_eq]
  exact Tallies.window (tallies_fresh t₀) calls

/-- **The quota over all calls.** However the calls come, at times that do not decrease: the total is
the sum of the counts, no count is above 120 and neither the total nor the number of addresses is above
5000; a call is let in exactly if its address and all addresses together have less than that in the
current window; a call that is not let in changes nothing but an old window; and in an interval
shorter than a minute at most 240 calls of an address, and 10000 in all, are let in. -/
theorem ingress_quota_over_calls (t₀ : Nat) (hsorted : calls.Pairwise fun c d => c.now ≤ d.now) :
    ((after t₀ calls).total = (after t₀ calls).sum ∧ (after t₀ calls).total ≤ 5000 ∧
      (∀ source, (after t₀ calls).countOf source ≤ 120) ∧
      (after t₀ calls).counts.entries.length ≤ 5000) ∧
    (∀ source now, ((after t₀ calls).allowAt source now).1 = true ↔
      (currentWindow t₀ calls now).countP (fun c => c.key = source) < 120 ∧
        (currentWindow t₀ calls now).length < 5000) ∧
    (∀ source now, ((after t₀ calls).allowAt source now).1 = false →
      ((after t₀ calls).allowAt source now).2 =
        if fromSecs 60 ≤ now - (after t₀ calls).start then new now else after t₀ calls) ∧
    ∀ a b, b < a + fromSecs 60 →
      (∀ source, (letIn t₀ calls).countP
        (fun c => c.key = source && decide (a ≤ c.now ∧ c.now ≤ b)) ≤ 240) ∧
      (letIn t₀ calls).countP (fun c => decide (a ≤ c.now ∧ c.now ≤ b)) ≤ 10000 := by
  have hconsistent : Consistent limits (after t₀ calls) := (consistent_fresh limits t₀).afterCalls calls
  refine ⟨⟨hconsistent.sum, hconsistent.total, hconsistent.counts, ?_⟩, ?_, ?_, ?_⟩
  · exact hconsistent.size.trans hconsistent.total
  · intro source now
    rw [allowAt_eq, (tallies_after t₀ calls).allow_iff]
    rfl
  · intro source now hrefused
    rw [allowAt_eq] at hrefused ⊢
    exact allow_refused hrefused
  · intro a b hshort
    have hperiod : b + 1 ≤ a + limits.period := hshort
    have hclosed : ∀ c : Call IpAddr, (a ≤ c.now ∧ c.now < b + 1) ↔ (a ≤ c.now ∧ c.now ≤ b) :=
      fun c => by omega
    refine ⟨fun source => ?_, ?_⟩
    · have hnone : (new t₀).countOf source ≤ limits.perKey :=
        (countOf_fresh t₀ source).trans_le (Nat.zero_le _)
      have hhits := (counter_key limits source).hits_le hperiod hsorted hnone
      simp only [hits, hclosed] at hhits
      exact hhits
    · have hnone : (new t₀).total ≤ limits.overall := Nat.zero_le _
      have hhits := (counter_total limits).hits_le hperiod hsorted hnone
      simp only [hits, hclosed, Bool.true_and] at hhits
      exact hhits

/-- One connection at the end of a window and one at the start of the next. -/
theorem ingress_quota_over_calls_two :
    (letIn 0 [⟨.v4 1, fromSecs 59⟩, ⟨.v4 1, fromSecs 61⟩]).countP
      (fun c => c.key = IpAddr.v4 1 && decide (fromSecs 59 ≤ c.now ∧ c.now ≤ fromSecs 61)) ≤ 240 :=
  ((ingress_quota_over_calls 0 (by simp [fromSecs])).2.2.2 (fromSecs 59) (fromSecs 61)
    (by decide +kernel)).1 (.v4 1)

end IngressQuota

end BloomRelay.Ingress
