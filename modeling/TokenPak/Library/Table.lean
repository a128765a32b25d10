import Mathlib.Data.List.Nodup

/-! Tables of a relational database: rows in insertion order under one unique
index. A row whose key is `none` is not indexed, as in a partial index. -/

namespace TokenPak.Library

structure Table (Row Key : Type) (key : Row → Option Key) where
  rows : List Row
  unique : (rows.filterMap key).Nodup

namespace Table
variable {Row Key : Type} {key : Row → Option Key}

@[ext] theorem ext {table other : Table Row Key key} (same : table.rows = other.rows) : table = other := by
  cases table; cases other; cases same; rfl

def empty : Table Row Key key := ⟨[], by simp⟩

instance : Inhabited (Table Row Key key) := ⟨empty⟩

instance [DecidableEq Row] : DecidableEq (Table Row Key key) := fun table other =>
  decidable_of_iff (table.rows = other.rows) ⟨ext, congrArg rows⟩

def Taken (table : Table Row Key key) (k : Key) : Prop := k ∈ table.rows.filterMap key

instance [DecidableEq Key] (table : Table Row Key key) (k : Key) : Decidable (table.Taken k) :=
  inferInstanceAs (Decidable (k ∈ table.rows.filterMap key))

/-- `INSERT`; fails on a conflict in the index. -/
def insert [DecidableEq Key] (row : Row) (table : Table Row Key key) : Option (Table Row Key key) :=
  if fresh : ∀ k ∈ key row, ¬ table.Taken k then
    some ⟨table.rows ++ [row], by
      rw [List.filterMap_append, List.nodup_append']
      refine ⟨table.unique, ?_, ?_⟩
      · cases keyed : key row <;> simp [keyed]
      · intro k taken added
        cases keyed : key row with
        | none => simp [keyed] at added
        | some own =>
          obtain rfl : k = own := by simpa [keyed] using added
          exact fresh k keyed taken⟩
  else none

/-- `UPDATE` of the selected rows; it keeps their keys. -/
def update (selects : Row → Prop) [DecidablePred selects] (change : Row → Row)
    (keeps : ∀ row, key (change row) = key row)
    (table : Table Row Key key) : Table Row Key key :=
  ⟨table.rows.map fun row => if selects row then change row else row, by
    have same : key ∘ (fun row => if selects row then change row else row) = key := by
      funext row
      by_cases selected : selects row <;> simp [selected, keeps]
    rw [List.filterMap_map, same]
    exact table.unique⟩

/-- `DELETE` of the selected rows. -/
def delete (selects : Row → Prop) [DecidablePred selects] (table : Table Row Key key) : Table Row Key key :=
  ⟨table.rows.filter fun row => ¬ selects row, (List.filter_sublist.filterMap key).nodup table.unique⟩

/-- `INSERT ... ON CONFLICT DO UPDATE`. -/
def upsert [DecidableEq Key] (row : Row) (change : Row → Row) (keeps : ∀ row, key (change row) = key row)
    (table : Table Row Key key) : Table Row Key key :=
  (table.insert row).getD (table.update (fun other => key other = key row) change keeps)

def get [DecidableEq Key] (table : Table Row Key key) (k : Key) : Option Row :=
  table.rows.find? fun row => key row = some k

/-- The number of rows an `UPDATE` or `DELETE` would touch. -/
def count (selects : Row → Prop) [DecidablePred selects] (table : Table Row Key key) : Nat :=
  table.rows.countP (decide <| selects ·)

@[simp] theorem empty_rows : (empty : Table Row Key key).rows = [] := rfl

theorem filter_key [DecidableEq Key] {table : Table Row Key key} {row : Row} {k : Key}
    (member : row ∈ table.rows)
    (keyed : key row = some k) : table.rows.filter (fun other => key other = some k) = [row] := by
  obtain ⟨rows, unique⟩ := table
  change row ∈ rows at member
  change rows.filter _ = _
  induction rows with
  | nil => exact absurd member List.not_mem_nil
  | cons head rows ih =>
    have rest : (rows.filterMap key).Nodup := ((List.sublist_cons_self head rows).filterMap key).nodup unique
    by_cases first : key head = some k
    · rw [List.filterMap_cons_some first] at unique
      have others : ∀ other ∈ rows, key other ≠ some k := fun other inside same =>
        (List.nodup_cons.mp unique).1 (List.mem_filterMap.mpr ⟨other, inside, same⟩)
      obtain rfl | inside := List.mem_cons.mp member
      · rw [List.filter_cons, if_pos (decide_eq_true first), List.filter_eq_nil_iff.mpr]
        exact fun other inside same => others other inside (of_decide_eq_true same)
      · exact absurd keyed (others row inside)
    · rw [List.filter_cons, if_neg fun same => first (of_decide_eq_true same)]
      obtain rfl | inside := List.mem_cons.mp member
      · exact absurd keyed first
      · exact ih rest inside

theorem eq_of_key {table : Table Row Key key} {row other : Row} {k : Key} (member : row ∈ table.rows)
    (present : other ∈ table.rows) (keyed : key row = some k) (same : key other = some k) : row = other := by
  classical
  have alone : other ∈ table.rows.filter fun other => key other = some k :=
    List.mem_filter.mpr ⟨present, decide_eq_true same⟩
  rw [filter_key member keyed] at alone
  exact (List.mem_singleton.mp alone).symm

section insert
variable [DecidableEq Key]

theorem insert_eq_some {row : Row} {table after : Table Row Key key}
    (inserted : table.insert row = some after) :
    after.rows = table.rows ++ [row] ∧ ∀ k ∈ key row, ¬ table.Taken k := by
  unfold insert at inserted
  split at inserted
  next fresh => cases inserted; exact ⟨rfl, fresh⟩
  next => cases inserted

theorem upsert_rows (row : Row) (change : Row → Row) (keeps : ∀ row, key (change row) = key row)
    (table : Table Row Key key) :
    (table.upsert row change keeps).rows =
      if ∀ k ∈ key row, ¬ table.Taken k then table.rows ++ [row]
      else table.rows.map fun other => if key other = key row then change other else other := by
  unfold upsert insert update
  by_cases fresh : ∀ k ∈ key row, ¬ table.Taken k
  · rw [dif_pos fresh, if_pos fresh]; rfl
  · rw [dif_neg fresh, if_neg fresh]; rfl

end insert

@[simp] theorem update_rows (selects : Row → Prop) [DecidablePred selects] (change : Row → Row)
    (keeps : ∀ row, key (change row) = key row) (table : Table Row Key key) :
    (table.update selects change keeps).rows = table.rows.map fun row =>
      if selects row then change row else row :=
      rfl

@[simp] theorem delete_rows (selects : Row → Prop) [DecidablePred selects] (table : Table Row Key key) :
    (table.delete selects).rows = table.rows.filter fun row => ¬ selects row := rfl

/-! What a statement leaves alone of the rows another query selects. -/

section frame
variable {others : Row → Bool}

theorem filter_update {selects : Row → Prop} [DecidablePred selects] {change : Row → Row}
    (keeps : ∀ row, key (change row) = key row) (table : Table Row Key key)
    (apart : ∀ row ∈ table.rows, selects row → others row = false ∧ others (change row) = false) :
    (table.update selects change keeps).rows.filter others = table.rows.filter others := by
  rw [update_rows, List.filter_map]
  have same (row : Row) (member : row ∈ table.rows) :
      (others ∘ fun row => if selects row then change row else row) row = others row := by
    by_cases selected : selects row
    · simp [selected, (apart row member selected).1, (apart row member selected).2]
    · simp [selected]
  rw [List.filter_congr same]
  refine List.map_congr_left (fun row member => ?_) |>.trans (List.map_id _)
  obtain ⟨member, kept⟩ := List.mem_filter.mp member
  refine if_neg fun selected => ?_
  rw [(apart row member selected).1] at kept
  cases kept

theorem filter_update_sublist {selects : Row → Prop} [DecidablePred selects] {change : Row → Row}
    (keeps : ∀ row, key (change row) = key row) (table : Table Row Key key)
    (closed : ∀ row, selects row → others (change row) = false) :
    ((table.update selects change keeps).rows.filter others).Sublist (table.rows.filter others) := by
  rw [update_rows]
  induction table.rows with
  | nil => exact .slnil
  | cons head rows ih =>
    rw [List.map_cons]
    by_cases selected : selects head
    · rw [if_pos selected, List.filter_cons_of_neg (by simp [closed head selected])]
      exact ih.trans ((List.sublist_cons_self head rows).filter others)
    · rw [if_neg selected, List.filter_cons, List.filter_cons]
      split
      next => exact ih.cons_cons _
      next => exact ih

theorem filter_delete {selects : Row → Prop} [DecidablePred selects] (table : Table Row Key key)
    (apart : ∀ row ∈ table.rows, selects row → others row = false) :
    (table.delete selects).rows.filter others = table.rows.filter others := by
  rw [delete_rows, List.filter_filter]
  refine List.filter_congr fun row member => ?_
  by_cases selected : selects row <;> simp [selected]
  exact apart row member selected

theorem filter_insert [DecidableEq Key] {row : Row} {table after : Table Row Key key}
    (inserted : table.insert row = some after) (apart : others row = false) :
    after.rows.filter others = table.rows.filter others := by
  rw [(insert_eq_some inserted).1, List.filter_append]
  simp [apart]

end frame

/-! What a statement does to the row under a key. -/

section get
variable [DecidableEq Key]

theorem get_eq_some {table : Table Row Key key} {k : Key} {row : Row} :
    table.get k = some row ↔ row ∈ table.rows ∧ key row = some k := by
  constructor
  · intro found
    exact ⟨List.mem_of_find?_eq_some found, by simpa using List.find?_some found⟩
  · rintro ⟨member, keyed⟩
    rw [get, ← List.head?_filter, filter_key member keyed]
    rfl

theorem get_eq_none {table : Table Row Key key} {k : Key} : table.get k = none ↔ ¬ table.Taken k := by
  simp [get, Taken]

theorem get_update {selects : Row → Prop} [DecidablePred selects] {change : Row → Row}
    (keeps : ∀ row, key (change row) = key row) (table : Table Row Key key) (k : Key) :
    (table.update selects change keeps).get k = (table.get k).map fun row =>
      if selects row then change row else row := by
  have same : (fun row : Row => decide (key row = some k)) ∘ (fun row =>
    if selects row then change row else row) =
      fun row => decide (key row = some k) := by
    funext row
    by_cases selected : selects row <;> simp [selected, keeps]
  rw [get, update_rows, List.find?_map, same]
  rfl

theorem get_delete {selects : Row → Prop} [DecidablePred selects] (table : Table Row Key key) (k : Key) :
    (table.delete selects).get k = (table.get k).filter fun row => ¬ selects row := by
  ext row
  rw [get_eq_some, delete_rows, List.mem_filter, Option.filter_eq_some_iff, get_eq_some]
  tauto

theorem get_upsert (row : Row) (change : Row → Row) (keeps : ∀ row, key (change row) = key row)
    (table : Table Row Key key) (k : Key) :
    (table.upsert row change keeps).get k =
      if key row = some k then some ((table.get k).elim row change) else table.get k := by
  rw [get, upsert_rows]
  by_cases own : key row = some k
  · rw [if_pos own]
    cases held : table.get k with
    | none =>
      have fresh : ¬ table.Taken k := get_eq_none.mp held
      rw [if_pos (by rw [own]; rintro _ ⟨⟩; exact fresh), List.find?_append, ← get, held]
      simp [own]
    | some old =>
      have taken : ¬ ∀ other ∈ key row, ¬ table.Taken other := by
        intro free
        rw [get_eq_none.mpr (free k own)] at held
        cases held
      rw [if_neg taken]
      have updated : (table.update (fun other => key other = key row) change keeps).get k = _ :=
        get_update keeps table k
      rw [get, update_rows] at updated
      rw [updated, held, Option.map_some, if_pos]
      · rfl
      · rw [own]; exact (get_eq_some.mp held).2
  · rw [if_neg own]
    split
    · rw [List.find?_append]
      simp [own, get]
    · have updated : (table.update (fun other => key other = key row) change keeps).get k = _ :=
        get_update keeps table k
      rw [get, update_rows] at updated
      rw [updated]
      cases held : table.get k with
      | none => rfl
      | some old =>
        have other : key old ≠ key row := by rw [(get_eq_some.mp held).2]; exact fun same => own same.symm
        rw [Option.map_some, if_neg other]

end get
end Table
end TokenPak.Library
