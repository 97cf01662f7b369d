import Mathlib.Data.List.Basic

/-!
# Credit-based flow control

One direction of a stream. The sender may send as much as its window allows; the receiver takes what was
sent from a queue, holds it while it works on it, and gives the credit back when it releases it. The
credit is never lost: it is in the window, in the queue or held.
-/

structure CreditFlow (α : Type*) where
  /-- How much may be sent. -/
  window : Nat
  /-- What was sent and not taken yet. -/
  queue : List α
  /-- How much was taken and not released yet. -/
  held : Nat

namespace CreditFlow

variable {α : Type*} {f : CreditFlow α} {xs : List α} {n : Nat}

def new (credit : Nat) : CreditFlow α := ⟨credit, [], 0⟩

def send (f : CreditFlow α) (xs : List α) : CreditFlow α :=
  { f with window := f.window - xs.length, queue := f.queue ++ xs }

def take (f : CreditFlow α) (n : Nat) : CreditFlow α := { f with queue := f.queue.drop n, held := f.held + n }

def release (f : CreditFlow α) (n : Nat) : CreditFlow α := { f with window := f.window + n, held := f.held - n }

/-- What the receiver has not given back. -/
def outstanding (f : CreditFlow α) : Nat := f.queue.length + f.held

def credit (f : CreditFlow α) : Nat := f.window + f.outstanding

theorem outstanding_send : (f.send xs).outstanding = f.outstanding + xs.length := by
  simp only [outstanding, send, List.length_append]
  omega

theorem outstanding_take (h : n ≤ f.queue.length) : (f.take n).outstanding = f.outstanding := by
  simp only [outstanding, take, List.length_drop]
  omega

theorem outstanding_release (h : n ≤ f.held) : (f.release n).outstanding + n = f.outstanding := by
  simp only [outstanding, release]
  omega

theorem credit_send (h : xs.length ≤ f.window) : (f.send xs).credit = f.credit := by
  unfold credit
  rw [outstanding_send]
  simp only [send]
  omega

theorem credit_take (h : n ≤ f.queue.length) : (f.take n).credit = f.credit := by
  unfold credit
  rw [outstanding_take h]
  rfl

theorem credit_release (h : n ≤ f.held) : (f.release n).credit = f.credit := by
  have hout := outstanding_release h
  unfold credit
  simp only [release] at hout ⊢
  omega

end CreditFlow
