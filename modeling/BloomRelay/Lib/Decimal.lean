import Mathlib.Data.Nat.Digits.Defs

/-!
# Decimal numbers in text

Printing a number in decimal and reading an unsigned machine integer back: an optional `+`, at least
one digit, nothing else, and a value below the type's bound.
-/

namespace Decimal

/-- Drops one leading `+`. -/
def stripPlus : List Char → List Char
  | '+' :: rest => rest
  | cs => cs

/-- Reads an unsigned integer below `bound`. -/
def parse? (bound : Nat) (cs : List Char) : Option Nat :=
  if (stripPlus cs).isEmpty || !(stripPlus cs).all Char.isDigit then none
  else if Nat.ofDigitChars 10 (stripPlus cs) 0 < bound then
    some (Nat.ofDigitChars 10 (stripPlus cs) 0)
  else none

theorem stripPlus_of_digits {cs : List Char} (h : ∀ c ∈ cs, c.isDigit = true) :
    stripPlus cs = cs := by
  unfold stripPlus
  split
  · exact absurd (h '+' List.mem_cons_self) (by decide)
  · rfl

/-- A printed number reads back as itself. -/
theorem parse?_toDigits {bound n : Nat} (h : n < bound) :
    parse? bound (Nat.toDigits 10 n) = some n := by
  have hdigit : ∀ c ∈ Nat.toDigits 10 n, c.isDigit = true := fun c hc =>
    Nat.isDigit_of_mem_toDigits (by decide) (by decide) hc
  have hne : (Nat.toDigits 10 n).isEmpty = false := by
    rw [List.isEmpty_eq_false_iff]
    exact Nat.toDigits_ne_nil
  have hall : (Nat.toDigits 10 n).all Char.isDigit = true := List.all_eq_true.mpr hdigit
  have hval : Nat.ofDigitChars 10 (Nat.toDigits 10 n) 0 = n :=
    Nat.ofDigitChars_toDigits (by decide) le_rfl
  simp [parse?, stripPlus_of_digits hdigit, hne, hall, hval, h]

/-- A number in decimal digits. -/
def print (n : Nat) : String := String.ofList (Nat.toDigits 10 n)

theorem parse?_print {bound n : Nat} (h : n < bound) : parse? bound (print n).toList = some n := by
  rw [print, String.toList_ofList]
  exact parse?_toDigits h

end Decimal
