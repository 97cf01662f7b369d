import BloomRelay.Lib.WindowQuota
import BloomRelay.Store.Schema

/-!
# The quota of browser connections (`bloom-relay`)

`IngressQuota` counts the connections it lets in from each address and in total, in windows of a
minute. Times are `Instant`s in nanoseconds; `duration_since` of a later time is zero.
-/

namespace BloomRelay.Ingress

open Store WindowQuota

/-- The state behind the lock: when the window started, the total, and the count of each address. -/
abbrev IngressQuota := WindowQuota IpAddr

/-- `Duration::from_secs`. -/
def fromSecs (n : Nat) : Nat := n * 1000000000

namespace IngressQuota

def new (now : Nat) : IngressQuota := ⟨now, 0, ∅⟩

def allowAt (state : IngressQuota) (source : IpAddr) (now : Nat) : Bool × IngressQuota :=
  let state : IngressQuota := if fromSecs 60 ≤ now - state.start then ⟨now, 0, ∅⟩ else state
  if state.total ≥ 5000 ∨ (state.counts.lookup source).getD 0 ≥ 120 then (false, state)
  else (true, { state with
    total := state.total + 1
    counts := state.counts.insert source ((state.counts.lookup source).getD 0 + 1) })

end IngressQuota

end BloomRelay.Ingress
