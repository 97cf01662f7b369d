import Mathlib.Data.List.Basic

/-!
# Lines of a stream

A stream is cut into lines that end with a separator; what follows the last separator is not a line yet.
What the lines of a stream are does not depend on the parts in which the stream arrives: the lines of a
part are found with what was left open before it in front (`Lines.split_append`).
-/

namespace Lines

variable {α : Type*} [DecidableEq α] (sep : α)

/-- The lines of a stream, without their separators, and what is left open. -/
def split : List α → List (List α) × List α
  | [] => ([], [])
  | a :: s =>
    if a = sep then ([] :: (split s).1, (split s).2)
    else match (split s).1 with
      | [] => ([], a :: (split s).2)
      | line :: lines => ((a :: line) :: lines, (split s).2)

@[simp] theorem split_nil : split sep [] = ([], []) := rfl

@[simp] theorem split_sep (s : List α) : split sep (sep :: s) = ([] :: (split sep s).1, (split sep s).2) :=
  if_pos rfl

variable {sep}

theorem split_cons_of_nil {a : α} {s : List α} (ha : a ≠ sep) (h : (split sep s).1 = []) :
    split sep (a :: s) = ([], a :: (split sep s).2) := by
  rw [split, if_neg ha, h]

theorem split_cons_of_cons {a : α} {s line : List α} {lines : List (List α)} (ha : a ≠ sep)
    (h : (split sep s).1 = line :: lines) :
    split sep (a :: s) = ((a :: line) :: lines, (split sep s).2) := by
  rw [split, if_neg ha, h]

/-- A stream without a separator is left open. -/
theorem split_open {s : List α} (h : sep ∉ s) : split sep s = ([], s) := by
  induction s with
  | nil => rfl
  | cons a s ih =>
    have hrest := ih fun hs => h (List.mem_cons_of_mem a hs)
    have ha : a ≠ sep := fun ha => h (ha ▸ List.mem_cons_self)
    rw [split_cons_of_nil ha (congrArg Prod.fst hrest), hrest]

/-- The first line and the rest of a stream. -/
theorem split_line {line : List α} (h : sep ∉ line) (s : List α) :
    split sep (line ++ sep :: s) = (line :: (split sep s).1, (split sep s).2) := by
  induction line with
  | nil => exact split_sep sep s
  | cons a line ih =>
    have hrest := ih fun hs => h (List.mem_cons_of_mem a hs)
    have ha : a ≠ sep := fun ha => h (ha ▸ List.mem_cons_self)
    rw [List.cons_append, split_cons_of_cons ha (congrArg Prod.fst hrest), hrest]

/-- What is left open holds no separator. -/
theorem not_mem_rest (s : List α) : sep ∉ (split sep s).2 := by
  induction s with
  | nil => exact List.not_mem_nil
  | cons a s ih =>
    by_cases ha : a = sep
    · rw [ha, split_sep]
      exact ih
    · cases hs : (split sep s).1 with
      | nil =>
        rw [split_cons_of_nil ha hs, List.mem_cons, not_or]
        exact ⟨fun h => ha h.symm, ih⟩
      | cons line lines =>
        rw [split_cons_of_cons ha hs]
        exact ih

/-- A stream is its lines, each with its separator, and what is left open. -/
theorem flatMap_split (s : List α) :
    ((split sep s).1.flatMap fun line => line ++ [sep]) ++ (split sep s).2 = s := by
  induction s with
  | nil => rfl
  | cons a s ih =>
    by_cases ha : a = sep
    · rw [ha, split_sep, List.flatMap_cons, List.append_assoc, ih]
      rfl
    · cases hs : (split sep s).1 with
      | nil =>
        rw [hs] at ih
        rw [split_cons_of_nil ha hs]
        exact congrArg (a :: ·) ih
      | cons line lines =>
        rw [hs] at ih
        rw [split_cons_of_cons ha hs]
        exact congrArg (a :: ·) ih

theorem split_lines {lines : List (List α)} (h : ∀ line ∈ lines, sep ∉ line) (s : List α) :
    split sep ((lines.flatMap fun line => line ++ [sep]) ++ s) =
      (lines ++ (split sep s).1, (split sep s).2) := by
  induction lines with
  | nil => rfl
  | cons line lines ih =>
    have hrest := ih fun l hl => h l (List.mem_cons_of_mem line hl)
    rw [List.flatMap_cons, List.append_assoc, List.append_assoc, List.singleton_append,
      split_line (h line List.mem_cons_self), hrest]
    rfl

theorem not_mem_line (s : List α) : ∀ line ∈ (split sep s).1, sep ∉ line := by
  induction s with
  | nil => exact fun _ h => absurd h List.not_mem_nil
  | cons a s ih =>
    intro line hline
    by_cases ha : a = sep
    · rw [ha, split_sep] at hline
      rcases List.mem_cons.mp hline with rfl | hline
      · exact List.not_mem_nil
      · exact ih line hline
    · cases hs : (split sep s).1 with
      | nil =>
        rw [split_cons_of_nil ha hs] at hline
        exact absurd hline List.not_mem_nil
      | cons first lines =>
        rw [hs] at ih
        rw [split_cons_of_cons ha hs] at hline
        rcases List.mem_cons.mp hline with rfl | hline
        · rw [List.mem_cons, not_or]
          exact ⟨fun h => ha h.symm, ih first List.mem_cons_self⟩
        · exact ih line (List.mem_cons_of_mem first hline)

/-- A further part of the stream adds the lines that end in it. -/
theorem split_append (s part : List α) :
    split sep (s ++ part) = ((split sep s).1 ++ (split sep ((split sep s).2 ++ part)).1,
      (split sep ((split sep s).2 ++ part)).2) := by
  have hs : ((split sep s).1.flatMap fun line => line ++ [sep]) ++ (split sep s).2 = s :=
    flatMap_split s
  conv_lhs => rw [← hs, List.append_assoc]
  exact split_lines (not_mem_line s) _

/-- The lines of a part of the stream are the first lines of the stream. -/
theorem split_prefix {s s' : List α} (h : s <+: s') : (split sep s).1 <+: (split sep s').1 := by
  obtain ⟨part, rfl⟩ := h
  rw [split_append]
  exact List.prefix_append _ _

end Lines
