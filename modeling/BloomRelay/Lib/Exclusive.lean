import Mathlib.Logic.Function.Basic

/-!
# Tokens that are at one place

`held x` is the token at place `x`. Every token has an owner; `Exclusive` says that no owner has
tokens at two places. It survives when tokens are dropped, when a token moves to another place, and
when an owner without a token gets one.
-/

variable {X T B : Type*} {owner : T → B} {held held' : X → Option T} {x y : X} {t : T} {b : B}

/-- No owner has tokens at two places. -/
def Exclusive (owner : T → B) (held : X → Option T) : Prop :=
  ∀ x y t u, held x = some t → held y = some u → owner t = owner u → x = y

/-- Owner `b` has no token. -/
def Absent (owner : T → B) (held : X → Option T) (b : B) : Prop :=
  ∀ x t, held x = some t → owner t ≠ b

theorem Exclusive.mono (h : Exclusive owner held)
    (hsub : ∀ x t, held' x = some t → held x = some t) : Exclusive owner held' :=
  fun x y t u ht hu howner => h x y t u (hsub x t ht) (hsub y u hu) howner

theorem Absent.mono (h : Absent owner held b)
    (hsub : ∀ x t, held' x = some t → held x = some t) : Absent owner held' b :=
  fun x t ht => h x t (hsub x t ht)

variable [DecidableEq X]

/-- Taking the token of an owner leaves the owner without one. -/
theorem Exclusive.absent_erase (h : Exclusive owner held) (hx : held x = some t) :
    Absent owner (Function.update held x none) (owner t) := by
  intro y u hu howner
  by_cases hyx : y = x
  · simp [hyx] at hu
  · rw [Function.update_of_ne hyx] at hu
    exact hyx (h y x u t hu hx howner)

theorem update_none_sub : ∀ y u, Function.update held x none y = some u → held y = some u := by
  intro y u hu
  by_cases hyx : y = x
  · simp [hyx] at hu
  · rwa [Function.update_of_ne hyx] at hu

/-- An owner without a token gets one. -/
theorem Exclusive.insert (h : Exclusive owner held) (ha : Absent owner held (owner t)) :
    Exclusive owner (Function.update held x (some t)) := by
  intro y z u v hu hv howner
  by_cases hyx : y = x <;> by_cases hzx : z = x
  · rw [hyx, hzx]
  · subst hyx
    rw [Function.update_self, Option.some.injEq] at hu
    rw [Function.update_of_ne hzx] at hv
    exact absurd (howner.symm.trans (congrArg owner hu.symm)) (ha z v hv)
  · subst hzx
    rw [Function.update_self, Option.some.injEq] at hv
    rw [Function.update_of_ne hyx] at hu
    exact absurd (howner.trans (congrArg owner hv.symm)) (ha y u hu)
  · rw [Function.update_of_ne hyx] at hu
    rw [Function.update_of_ne hzx] at hv
    exact h y z u v hu hv howner

theorem Absent.insert (h : Absent owner held b) (ht : owner t ≠ b) :
    Absent owner (Function.update held x (some t)) b := by
  intro y u hu
  by_cases hyx : y = x
  · subst hyx
    rw [Function.update_self, Option.some.injEq] at hu
    exact hu ▸ ht
  · rw [Function.update_of_ne hyx] at hu
    exact h y u hu

/-- A token moves from one place to another. -/
theorem Exclusive.move (h : Exclusive owner held) (hx : held x = some t) :
    Exclusive owner (Function.update (Function.update held x none) y (some t)) :=
  (h.mono update_none_sub).insert (h.absent_erase hx)

theorem Absent.move (h : Absent owner held b) (hx : held x = some t) :
    Absent owner (Function.update (Function.update held x none) y (some t)) b :=
  (h.mono update_none_sub).insert (h x t hx)
