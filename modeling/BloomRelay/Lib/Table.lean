import Mathlib.Data.List.Nodup

/-!
# Keyed tables

A table of a relational database: a list of rows in which no two rows share the primary key `key`.
The key constraint is a field of the structure, so every operation below has to keep it; an insert
that would break it fails.

The operations are the statements a transaction is made of: `find?` (a `SELECT` by primary key),
`insert?` (an `INSERT`, refused on a duplicate key), `insertNew` (`ON CONFLICT DO NOTHING`),
`upsert` (`ON CONFLICT DO UPDATE`), `updateWhere`, `modify` (an `UPDATE` by primary key),
`deleteWhere` and `erase` (a `DELETE` by primary key).
-/

/-- A list of rows with pairwise different keys. -/
structure Table (ρ : Type) {κ : Type} (key : ρ → κ) where
  /-- The rows, oldest first. -/
  rows : List ρ
  /-- The primary key constraint. -/
  nodup : (rows.map key).Nodup
  deriving DecidableEq

namespace Table

variable {ρ κ : Type} {key : ρ → κ}

/-- The table without rows. -/
def empty : Table ρ key := ⟨[], List.nodup_nil⟩

/-- Rewrites the rows that satisfy `p` with `f`, which must not touch the key. -/
def updateWhere (t : Table ρ key) (p : ρ → Bool) (f : ρ → ρ) (hf : ∀ r, key (f r) = key r) :
    Table ρ key :=
  ⟨t.rows.map fun r => if p r then f r else r, by
    have h : (t.rows.map fun r => if p r then f r else r).map key = t.rows.map key := by
      rw [List.map_map]
      refine List.map_congr_left fun r _ => ?_
      show key (if p r then f r else r) = key r
      split
      · exact hf r
      · rfl
    rw [h]
    exact t.nodup⟩

/-- Removes the rows that satisfy `p`. -/
def deleteWhere (t : Table ρ key) (p : ρ → Bool) : Table ρ key :=
  ⟨t.rows.filter fun r => !p r, t.nodup.sublist (List.filter_sublist.map key)⟩

variable [DecidableEq κ]

/-- The row with primary key `k`. -/
def find? (t : Table ρ key) (k : κ) : Option ρ := t.rows.find? fun r => key r = k

/-- Adds a row, unless its key is taken. -/
def insert? (t : Table ρ key) (r : ρ) : Option (Table ρ key) :=
  if h : key r ∈ t.rows.map key then none
  else some ⟨t.rows ++ [r], by
    rw [List.map_append, List.map_singleton]
    exact List.nodup_append.mpr ⟨t.nodup, List.nodup_singleton _, fun a ha b hb hab =>
      h (by rw [List.mem_singleton] at hb; rw [← hb, ← hab]; exact ha)⟩⟩

/-- Adds a row, or leaves the table alone when its key is taken. -/
def insertNew (t : Table ρ key) (r : ρ) : Table ρ key := (t.insert? r).getD t

/-- Rewrites the row with primary key `k`. -/
def modify (t : Table ρ key) (k : κ) (f : ρ → ρ) (hf : ∀ r, key (f r) = key r) : Table ρ key :=
  t.updateWhere (fun r => key r = k) f hf

/-- Removes the row with primary key `k`. -/
def erase (t : Table ρ key) (k : κ) : Table ρ key := t.deleteWhere fun r => key r = k

/-- Adds a row, replacing the one that has its key. -/
def upsert (t : Table ρ key) (r : ρ) : Table ρ key := ((t.erase (key r)).insert? r).getD t

end Table
