import BloomRelay.Lib.Table

/-!
# Lemmas about keyed tables

`find?` is the lookup every statement of a transaction goes through: a row is in the table exactly
when it is found under its own key (`mem_rows_iff`), and each operation has a lemma that says what a
lookup finds afterwards. The `filter` lemmas say the same for a secondary selection, the rows of one
owner in a table whose key has more columns.
-/

namespace Table

variable {ρ κ : Type} {key : ρ → κ}

@[simp] theorem rows_empty : (empty : Table ρ key).rows = [] := rfl

@[simp] theorem rows_updateWhere (t : Table ρ key) (p : ρ → Bool) (f : ρ → ρ)
    (hf : ∀ r, key (f r) = key r) :
    (t.updateWhere p f hf).rows = t.rows.map fun r => if p r then f r else r := rfl

@[simp] theorem rows_deleteWhere (t : Table ρ key) (p : ρ → Bool) :
    (t.deleteWhere p).rows = t.rows.filter fun r => !p r := rfl

/-- An update that does not move rows in or out of a selection updates the selection. -/
theorem filter_updateWhere (t : Table ρ key) (p : ρ → Bool) (f : ρ → ρ)
    (hf : ∀ r, key (f r) = key r) {q : ρ → Bool} (hq : ∀ r, q (f r) = q r) :
    (t.updateWhere p f hf).rows.filter q =
      (t.rows.filter q).map fun r => if p r then f r else r := by
  rw [rows_updateWhere, List.filter_map]
  congr 2
  funext r
  simp only [Function.comp_apply]
  split
  · exact hq r
  · rfl

/-- A table is its rows. -/
theorem ext_rows {t t' : Table ρ key} (h : t.rows = t'.rows) : t = t' := by
  cases t
  cases t'
  subst h
  rfl

/-- An update of no row changes nothing. -/
theorem updateWhere_eq_self (t : Table ρ key) {p : ρ → Bool} (f : ρ → ρ)
    (hf : ∀ r, key (f r) = key r) (h : t.rows.any p = false) : t.updateWhere p f hf = t := by
  refine ext_rows ?_
  rw [rows_updateWhere]
  refine (List.map_congr_left fun r hr => ?_).trans (List.map_id _)
  refine if_neg fun hp => ?_
  rw [List.any_eq_true.mpr ⟨r, hr, hp⟩] at h
  cases h

/-- Two rows with the same key are the same row. -/
theorem key_inj (t : Table ρ key) {r r' : ρ} (h : r ∈ t.rows) (h' : r' ∈ t.rows)
    (hk : key r = key r') : r = r' :=
  List.inj_on_of_nodup_map t.nodup h h' hk

variable [DecidableEq κ]

theorem find?_eq_some_iff (t : Table ρ key) {k : κ} {r : ρ} :
    t.find? k = some r ↔ r ∈ t.rows ∧ key r = k := by
  constructor
  · intro h
    exact ⟨List.mem_of_find?_eq_some h, by simpa using List.find?_some h⟩
  · rintro ⟨hr, rfl⟩
    cases h : t.find? (key r) with
    | none => simpa using List.find?_eq_none.mp h r hr
    | some r' =>
      have hm : r' ∈ t.rows := List.mem_of_find?_eq_some h
      have hk : key r' = key r := by simpa using List.find?_some h
      rw [t.key_inj hm hr hk]

theorem find?_eq_none_iff (t : Table ρ key) {k : κ} :
    t.find? k = none ↔ ∀ r ∈ t.rows, key r ≠ k := by
  simp [find?, List.find?_eq_none]

/-- A row is in the table exactly when it is found under its key. -/
theorem mem_rows_iff (t : Table ρ key) {r : ρ} : r ∈ t.rows ↔ t.find? (key r) = some r := by
  rw [find?_eq_some_iff]
  exact ⟨fun h => ⟨h, rfl⟩, fun h => h.1⟩

theorem find?_key (t : Table ρ key) {k : κ} {r : ρ} (h : t.find? k = some r) : key r = k :=
  (t.find?_eq_some_iff.mp h).2

theorem find?_mem (t : Table ρ key) {k : κ} {r : ρ} (h : t.find? k = some r) : r ∈ t.rows :=
  (t.find?_eq_some_iff.mp h).1

/-! ## What a lookup finds after each operation -/

theorem find?_updateWhere (t : Table ρ key) (p : ρ → Bool) (f : ρ → ρ)
    (hf : ∀ r, key (f r) = key r) (k : κ) :
    (t.updateWhere p f hf).find? k = (t.find? k).map fun r => if p r then f r else r := by
  have hkey : ∀ r, key (if p r then f r else r) = key r := by
    intro r
    split
    · exact hf r
    · rfl
  simp only [find?, rows_updateWhere, List.find?_map]
  congr 1
  refine congrArg (fun q => List.find? q t.rows) (funext fun r => ?_)
  simp [hkey r]

/-- Rows that the statement does not select are found as before. -/
theorem find?_updateWhere_of_not (t : Table ρ key) {p : ρ → Bool} (f : ρ → ρ)
    (hf : ∀ r, key (f r) = key r) {k : κ} (hp : ∀ r, key r = k → p r = false) :
    (t.updateWhere p f hf).find? k = t.find? k := by
  rw [find?_updateWhere]
  cases h : t.find? k with
  | none => rfl
  | some r => simp [hp r (t.find?_key h)]

@[simp] theorem find?_modify_self (t : Table ρ key) (k : κ) (f : ρ → ρ)
    (hf : ∀ r, key (f r) = key r) : (t.modify k f hf).find? k = (t.find? k).map f := by
  rw [modify, find?_updateWhere]
  cases h : t.find? k with
  | none => rfl
  | some r => simp [t.find?_key h]

theorem find?_modify_ne (t : Table ρ key) {k k' : κ} (f : ρ → ρ) (hf : ∀ r, key (f r) = key r)
    (hk : k' ≠ k) : (t.modify k f hf).find? k' = t.find? k' :=
  t.find?_updateWhere_of_not f hf fun r hr => by simp [hr, hk]

theorem find?_deleteWhere (t : Table ρ key) (p : ρ → Bool) (k : κ) :
    (t.deleteWhere p).find? k = (t.find? k).filter fun r => !p r := by
  cases h : t.find? k with
  | none =>
    rw [find?_eq_none_iff] at h
    refine ((t.deleteWhere p).find?_eq_none_iff).mpr fun r hr => ?_
    exact h r (List.mem_filter.mp hr).1
  | some r =>
    obtain ⟨hr, hk⟩ := t.find?_eq_some_iff.mp h
    cases hp : p r with
    | false =>
      have hmem : r ∈ (t.deleteWhere p).rows := List.mem_filter.mpr ⟨hr, by simp [hp]⟩
      simpa [Option.filter, hp] using ((t.deleteWhere p).find?_eq_some_iff).mpr ⟨hmem, hk⟩
    | true =>
      have hnone : (t.deleteWhere p).find? k = none := by
        refine ((t.deleteWhere p).find?_eq_none_iff).mpr fun r' hr' hk' => ?_
        obtain ⟨hm, hnp⟩ := List.mem_filter.mp hr'
        rw [t.key_inj hm hr (hk'.trans hk.symm), hp] at hnp
        exact absurd hnp (by decide)
      simpa [Option.filter, hp] using hnone

theorem find?_deleteWhere_of_not (t : Table ρ key) {p : ρ → Bool} {k : κ}
    (hp : ∀ r, key r = k → p r = false) : (t.deleteWhere p).find? k = t.find? k := by
  rw [find?_deleteWhere]
  cases h : t.find? k with
  | none => rfl
  | some r => simp [hp r (t.find?_key h)]

@[simp] theorem find?_erase_self (t : Table ρ key) (k : κ) : (t.erase k).find? k = none := by
  rw [erase, find?_deleteWhere]
  cases h : t.find? k with
  | none => rfl
  | some r => simp [t.find?_key h]

theorem find?_erase_ne (t : Table ρ key) {k k' : κ} (hk : k' ≠ k) :
    (t.erase k).find? k' = t.find? k' :=
  t.find?_deleteWhere_of_not fun r hr => by simp [hr, hk]

/-- An insert succeeds exactly when the key is free, and then appends the row. -/
theorem insert?_eq_some_iff (t : Table ρ key) {r : ρ} {t' : Table ρ key} :
    t.insert? r = some t' ↔ t.find? (key r) = none ∧ t'.rows = t.rows ++ [r] := by
  have hmem : key r ∈ t.rows.map key ↔ t.find? (key r) ≠ none := by
    rw [ne_eq, find?_eq_none_iff]
    simp
  unfold insert?
  split
  · rename_i h
    simp [hmem.mp h]
  · rename_i h
    have hn : t.find? (key r) = none := by
      by_contra hc
      exact h (hmem.mpr hc)
    simp only [Option.some.injEq, hn, true_and]
    constructor
    · rintro rfl; rfl
    · intro he
      obtain ⟨rows', nodup'⟩ := t'
      simp only at he
      subst he
      rfl

theorem insert?_inj {t t' : Table ρ key} {r r' : ρ} (h : t.insert? r = some t')
    (h' : t.insert? r' = some t') : r = r' := by
  have hrows := ((t.insert?_eq_some_iff).mp h).2
  have hrows' := ((t.insert?_eq_some_iff).mp h').2
  have heq : t.rows ++ [r] = t.rows ++ [r'] := hrows.symm.trans hrows'
  exact List.singleton_inj.mp (List.append_cancel_left heq)

theorem insert?_ne_self {t : Table ρ key} {r : ρ} : t.insert? r ≠ some t := by
  intro h
  have hrows := congrArg List.length ((t.insert?_eq_some_iff).mp h).2
  rw [List.length_append, List.length_singleton] at hrows
  omega

theorem insert?_eq_none_iff (t : Table ρ key) {r : ρ} :
    t.insert? r = none ↔ t.find? (key r) ≠ none := by
  constructor
  · intro h hn
    have hs : t.insert? r ≠ none := by
      unfold insert?
      rw [dif_neg]
      · simp
      · rw [find?_eq_none_iff] at hn
        simpa using fun x hx => hn x hx
    exact hs h
  · intro h
    cases hi : t.insert? r with
    | none => rfl
    | some t' => exact absurd (t.insert?_eq_some_iff.mp hi).1 h

theorem find?_of_rows_append {t t' : Table ρ key} {r : ρ} (h : t'.rows = t.rows ++ [r]) (k : κ) :
    t'.find? k = (t.find? k).or (if key r = k then some r else none) := by
  simp [find?, h, List.find?_append]

theorem find?_insert?_self {t t' : Table ρ key} {r : ρ} (h : t.insert? r = some t') :
    t'.find? (key r) = some r := by
  obtain ⟨hn, hr⟩ := t.insert?_eq_some_iff.mp h
  rw [find?_of_rows_append hr, hn]
  simp

theorem find?_insert?_ne {t t' : Table ρ key} {r : ρ} (h : t.insert? r = some t') {k : κ}
    (hk : key r ≠ k) : t'.find? k = t.find? k := by
  rw [find?_of_rows_append (t.insert?_eq_some_iff.mp h).2, if_neg hk, Option.or_none]

/-- Inserting a row, or keeping the one that is there. -/
theorem find?_insertNew_self (t : Table ρ key) (r : ρ) :
    (t.insertNew r).find? (key r) = some ((t.find? (key r)).getD r) := by
  unfold insertNew
  cases hi : t.insert? r with
  | none =>
    have h := t.insert?_eq_none_iff.mp hi
    obtain ⟨x, hx⟩ := Option.ne_none_iff_exists'.mp h
    simp [hx]
  | some t' =>
    have hn := (t.insert?_eq_some_iff.mp hi).1
    simp [find?_insert?_self hi, hn]

theorem find?_insertNew_ne (t : Table ρ key) {r : ρ} {k : κ} (hk : key r ≠ k) :
    (t.insertNew r).find? k = t.find? k := by
  unfold insertNew
  cases hi : t.insert? r with
  | none => rfl
  | some t' => exact find?_insert?_ne hi hk

theorem mem_insertNew {t : Table ρ key} {r x : ρ} (h : x ∈ (t.insertNew r).rows) :
    x ∈ t.rows ∨ x = r := by
  unfold insertNew at h
  cases hi : t.insert? r with
  | none =>
    rw [hi] at h
    exact .inl h
  | some t' =>
    rw [hi, Option.getD_some, (t.insert?_eq_some_iff.mp hi).2] at h
    rcases List.mem_append.mp h with h | h
    · exact .inl h
    · exact .inr (List.mem_singleton.mp h)

theorem insertNew_of_find? (t : Table ρ key) {r : ρ} (h : t.find? (key r) ≠ none) :
    t.insertNew r = t := by
  rw [insertNew, t.insert?_eq_none_iff.mpr h]
  rfl

/-- An update by key moves the count of a selection by that of the one row. -/
theorem countP_modify (t : Table ρ key) {k : κ} {r : ρ} (f : ρ → ρ) (hf : ∀ r, key (f r) = key r)
    (h : t.find? k = some r) (p : ρ → Bool) :
    (t.modify k f hf).rows.countP p + (if p r then 1 else 0) =
      t.rows.countP p + (if p (f r) then 1 else 0) := by
  obtain ⟨hmem, rfl⟩ := t.find?_eq_some_iff.mp h
  obtain ⟨before, after, hrows⟩ := List.append_of_mem hmem
  have hkeys := t.nodup
  rw [hrows, List.map_append, List.map_cons] at hkeys
  obtain ⟨-, hafter, hdisjoint⟩ := List.nodup_append.mp hkeys
  have hbefore : (before.map fun x => if key x = key r then f x else x) = before := by
    refine (List.map_congr_left fun x hx => ?_).trans (List.map_id _)
    exact if_neg (hdisjoint _ (List.mem_map_of_mem hx) _ List.mem_cons_self)
  have hrest : (after.map fun x => if key x = key r then f x else x) = after := by
    refine (List.map_congr_left fun x hx => ?_).trans (List.map_id _)
    refine if_neg fun heq : key x = key r => (List.nodup_cons.mp hafter).1 ?_
    rw [← heq]
    exact List.mem_map_of_mem hx
  simp only [modify, rows_updateWhere, decide_eq_true_eq, hrows, List.map_append, List.map_cons,
    hbefore, hrest, if_true, List.countP_append, List.countP_cons]
  omega

/-- Rewriting a row to itself changes nothing. -/
theorem modify_eq_self (t : Table ρ key) {k : κ} {f : ρ → ρ} (hf : ∀ r, key (f r) = key r)
    (h : ∀ r, t.find? k = some r → f r = r) : t.modify k f hf = t := by
  have hrows : (t.modify k f hf).rows = t.rows := by
    rw [modify, rows_updateWhere]
    refine (List.map_congr_left fun r hr => ?_).trans (List.map_id _)
    by_cases hk : key r = k
    · have hfind : t.find? k = some r := hk ▸ t.mem_rows_iff.mp hr
      simp [hk, h r hfind]
    · simp [hk]
  exact ext_rows hrows

theorem rows_upsert (t : Table ρ key) (r : ρ) :
    (t.upsert r).rows = (t.erase (key r)).rows ++ [r] := by
  unfold upsert
  cases hi : (t.erase (key r)).insert? r with
  | none => exact absurd (t.find?_erase_self (key r)) ((insert?_eq_none_iff _).mp hi)
  | some t' => exact ((insert?_eq_some_iff _).mp hi).2

@[simp] theorem find?_upsert_self (t : Table ρ key) (r : ρ) :
    (t.upsert r).find? (key r) = some r := by
  rw [find?_of_rows_append (t.rows_upsert r), find?_erase_self]
  simp

theorem find?_upsert_ne (t : Table ρ key) {r : ρ} {k : κ} (hk : key r ≠ k) :
    (t.upsert r).find? k = t.find? k := by
  rw [find?_of_rows_append (t.rows_upsert r), if_neg hk, Option.or_none,
    find?_erase_ne _ (Ne.symm hk)]

end Table
