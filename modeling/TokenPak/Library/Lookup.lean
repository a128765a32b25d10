import Mathlib.Data.List.Perm.Basic
import Mathlib.Data.List.Nodup

/-! What is found under a key in a list of entries. -/

namespace TokenPak.Library
variable {Held : Type} {entries others : List (String × Held)} {key : String}

theorem lookup_some_iff (distinct : (entries.map Prod.fst).Nodup) {held : Held} :
    entries.lookup key = some held ↔ (key, held) ∈ entries := by
  induction entries with
  | nil => simp
  | cons entry entries ih =>
    obtain ⟨first, value⟩ := entry
    rw [List.map_cons, List.nodup_cons] at distinct
    by_cases same : key = first
    · subst same
      have gone : (key, held) ∉ entries := fun there => distinct.1 (List.mem_map.mpr ⟨_, there, rfl⟩)
      simp [gone, eq_comm]
    · have apart : (key == first) = false := beq_eq_false_iff_ne.mpr same
      simp [List.lookup_cons, apart, same, ih distinct.2]

theorem lookup_perm (distinct : (entries.map Prod.fst).Nodup) (perm : entries.Perm others) :
    entries.lookup key = others.lookup key := by
  have also : (others.map Prod.fst).Nodup := (perm.map Prod.fst).nodup_iff.mp distinct
  apply Option.ext
  intro held
  rw [lookup_some_iff distinct, lookup_some_iff also, perm.mem_iff]

theorem lookup_map_values {Image : Type} (image : Held → Image) :
    (entries.map fun entry => (entry.1, image entry.2)).lookup key = (entries.lookup key).map image := by
  induction entries with
  | nil => rfl
  | cons entry entries ih =>
    rw [List.map_cons, List.lookup_cons, List.lookup_cons, ih]
    cases key == entry.1 <;> rfl

/-- Another value for a key that is there, in its place. -/
def replace (key : String) (held : Held) (entries : List (String × Held)) : List (String × Held) :=
  entries.map fun entry => if entry.1 = key then (entry.1, held) else entry

/-- The same keys in the same order, with the same values under all keys but one. -/
def SameBut (key : String) (entries others : List (String × Held)) : Prop :=
  List.Forall₂ (fun entry other => entry.1 = other.1 ∧ (entry.1 ≠ key → entry.2 = other.2)) entries others

theorem sameBut_replace (key : String) (held : Held) (entries : List (String × Held)) :
    SameBut key entries (replace key held entries) := by
  induction entries with
  | nil => exact .nil
  | cons entry entries ih =>
    apply List.Forall₂.cons _ ih
    by_cases same : entry.1 = key
    · simp [same]
    · simp [same]

theorem lookup_replace {old : Held} (held : Held) (found : entries.lookup key = some old) :
    (replace key held entries).lookup key = some held := by
  induction entries with
  | nil => simp at found
  | cons entry entries ih =>
    rw [replace, List.map_cons, List.lookup_cons]
    by_cases same : entry.1 = key
    · simp [same]
    · have apart : (key == entry.1) = false := beq_eq_false_iff_ne.mpr (Ne.symm same)
      rw [List.lookup_cons, apart] at found
      rw [if_neg same, apart]
      exact ih found

theorem SameBut.lookup {other : String} (same : SameBut key entries others) (apart : other ≠ key) :
    entries.lookup other = others.lookup other := by
  induction same with
  | nil => rfl
  | @cons entry twin entries others first _ ih =>
    rw [List.lookup_cons, List.lookup_cons, ih, ← first.1]
    cases hit : other == entry.1 with
    | false => rfl
    | true => rw [first.2 fun is => apart ((beq_iff_eq.mp hit).trans is)]

end TokenPak.Library
