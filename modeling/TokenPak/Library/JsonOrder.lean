import Mathlib.Data.String.Basic
import TokenPak.Library.JsonText
import TokenPak.Library.StableSort

/-! JSON values up to the order of keys. Values are alike when they differ in the order of the keys
of their objects alone, which is when they are equal once all keys are sorted. -/

namespace TokenPak.Library.Json
open StableSort

variable {N S : Type} [LinearOrder S]

/-! The keys of all objects in order. -/
mutual
def sortKeys : Json N S → Json N S
  | .null => .null
  | .bool value => .bool value
  | .number value => .number value
  | .string value => .string value
  | .array items => .array (sortItems items)
  | .object entries => .object (sortBy Prod.fst (sortValues entries))

def sortItems : List (Json N S) → List (Json N S)
  | [] => []
  | item :: items => item.sortKeys :: sortItems items

def sortValues : List (S × Json N S) → List (S × Json N S)
  | [] => []
  | (key, value) :: entries => (key, value.sortKeys) :: sortValues entries
end

mutual
def Alike : Json N S → Json N S → Prop
  | .null, other => other = .null
  | .bool value, other => other = .bool value
  | .number value, other => other = .number value
  | .string value, other => other = .string value
  | .array items, other => ∃ others, other = .array others ∧ AlikeItems items others
  | .object entries, other =>
      ∃ others ordered, other = .object others ∧ others.Perm ordered ∧ AlikeEntries entries ordered

def AlikeItems : List (Json N S) → List (Json N S) → Prop
  | [], others => others = []
  | item :: items, others => ∃ other rest, others = other :: rest ∧ item.Alike other ∧ AlikeItems items rest

def AlikeEntries : List (S × Json N S) → List (S × Json N S) → Prop
  | [], others => others = []
  | (key, value) :: entries, others =>
    ∃ other rest, others = (key, other) :: rest ∧ value.Alike other ∧ AlikeEntries entries rest
end

theorem sortItems_eq (items : List (Json N S)) : sortItems items = items.map sortKeys := by
  induction items with
  | nil => rfl
  | cons item items ih => rw [sortItems, ih, List.map_cons]

theorem sortValues_eq (entries : List (S × Json N S)) :
    sortValues entries = entries.map fun entry => (entry.1, entry.2.sortKeys) := by
  induction entries with
  | nil => rfl
  | cons entry entries ih => rw [sortValues, ih, List.map_cons]

theorem keys_sortValues (entries : List (S × Json N S)) :
    (sortValues entries).map Prod.fst = entries.map Prod.fst := by
  rw [sortValues_eq, List.map_map]
  rfl

theorem sortValues_perm {entries others : List (S × Json N S)} (perm : entries.Perm others) :
    (sortValues entries).Perm (sortValues others) := by
  rw [sortValues_eq, sortValues_eq]
  exact perm.map _

theorem exists_perm_of_sortValues {entries others : List (S × Json N S)}
    (perm : (sortValues entries).Perm (sortValues others)) :
    ∃ ordered, others.Perm ordered ∧ sortValues entries = sortValues ordered := by
  rw [sortValues_eq others] at perm
  obtain ⟨ordered, ordering, same⟩ := exists_perm_map perm
  exact ⟨ordered, ordering, same.trans (sortValues_eq ordered).symm⟩

theorem sortBy_values_iff {entries others : List (S × Json N S)}
    (distinct : (entries.map Prod.fst).Nodup) :
    sortBy Prod.fst (sortValues entries) = sortBy Prod.fst (sortValues others) ↔
      ∃ ordered, others.Perm ordered ∧ sortValues entries = sortValues ordered := by
  constructor
  · intro same
    apply exists_perm_of_sortValues
    have perm : (sortBy Prod.fst (sortValues entries)).Perm (sortValues entries) := sortBy_perm
    rw [same] at perm
    exact perm.symm.trans sortBy_perm
  · rintro ⟨ordered, perm, same⟩
    apply sortBy_of_perm
    · rwa [keys_sortValues]
    · rw [same]
      exact sortValues_perm perm.symm

mutual
/-- Values are alike when they are equal once their keys are sorted. -/
theorem alike_iff :
    (value : Json N S) → {other : Json N S} → value.Proper →
    (value.Alike other ↔ value.sortKeys = other.sortKeys)
  | .null, other, _ | .bool _, other, _ | .number _, other, _ | .string _, other, _ => by
    cases other <;> simp [Alike, sortKeys, eq_comm]
  | .array items, other, proper => by
    cases other <;> simp [Alike, sortKeys, alikeItems_iff items proper]
  | .object entries, other, proper => by
    cases other with
    | object others =>
      simp only [Alike, sortKeys, Json.object.injEq]
      rw [sortBy_values_iff proper.1]
      constructor
      · rintro ⟨_, ordered, rfl, perm, alike⟩
        exact ⟨ordered, perm, (alikeEntries_iff entries proper.2).mp alike⟩
      · rintro ⟨ordered, perm, same⟩
        exact ⟨others, ordered, rfl, perm, (alikeEntries_iff entries proper.2).mpr same⟩
    | _ => simp [Alike, sortKeys]

theorem alikeItems_iff : (items : List (Json N S)) → {others : List (Json N S)} → ProperItems items →
    (AlikeItems items others ↔ sortItems items = sortItems others)
  | [], others, _ => by cases others <;> simp [AlikeItems, sortItems]
  | item :: items, others, proper => by
    cases others with
    | nil => simp [AlikeItems, sortItems]
    | cons other others =>
        simp [AlikeItems, sortItems, alike_iff item proper.1, alikeItems_iff items proper.2]

theorem alikeEntries_iff : (entries : List (S × Json N S)) → {others : List (S × Json N S)} →
    ProperEntries entries →
    (AlikeEntries entries others ↔ sortValues entries = sortValues others)
  | [], others, _ => by cases others <;> simp [AlikeEntries, sortValues]
  | (key, value) :: entries, others, proper => by
    cases others with
    | nil => simp [AlikeEntries, sortValues]
    | cons entry others =>
      obtain ⟨name, other⟩ := entry
      simp only [AlikeEntries, sortValues, alike_iff value proper.1,
        alikeEntries_iff entries proper.2, List.cons.injEq, Prod.mk.injEq]
      constructor
      · rintro ⟨_, _, ⟨⟨rfl, rfl⟩, rfl⟩, same, rest⟩
        exact ⟨⟨rfl, same⟩, rest⟩
      · rintro ⟨⟨rfl, same⟩, rest⟩
        exact ⟨other, others, ⟨⟨rfl, rfl⟩, rfl⟩, same, rest⟩
end

section Sorted
variable {entries : List (S × Json N S)}

theorem perm_sortKeys (entries : List (S × Json N S)) :
    (sortBy Prod.fst (sortValues entries)).Perm (sortValues entries) :=
  sortBy_perm

theorem nodup_sortKeys (distinct : (entries.map Prod.fst).Nodup) :
    ((sortBy Prod.fst (sortValues entries)).map Prod.fst).Nodup := by
  rw [((perm_sortKeys entries).map Prod.fst).nodup_iff, keys_sortValues]
  exact distinct

theorem lookup_sortKeys {entries : List (String × Json N)} (distinct : (entries.map Prod.fst).Nodup)
    (key : String) :
    (sortBy Prod.fst (sortValues entries)).lookup key = (entries.lookup key).map sortKeys := by
  rw [lookup_perm (nodup_sortKeys distinct) (perm_sortKeys entries), sortValues_eq, lookup_map_values]

mutual
theorem proper_sortKeys : (value : Json N S) → value.Proper → value.sortKeys.Proper
  | .null, proper | .bool _, proper | .number _, proper | .string _, proper => proper
  | .array items, proper => properItems_sortItems items proper
  | .object entries, proper => by
    refine ⟨nodup_sortKeys proper.1, ?_⟩
    rw [properEntries_iff]
    intro entry member
    exact properEntries_iff.mp (properEntries_sortValues entries proper.2) entry ((perm_sortKeys entries).mem_iff.mp member)

theorem properItems_sortItems : (items : List (Json N S)) → ProperItems items → ProperItems (sortItems items)
  | [], _ => trivial
  | item :: items, proper => ⟨proper_sortKeys item proper.1, properItems_sortItems items proper.2⟩

theorem properEntries_sortValues : (entries : List (S × Json N S)) → ProperEntries entries →
    ProperEntries (sortValues entries)
  | [], _ => trivial
  | (_, value) :: entries, proper =>
      ⟨proper_sortKeys value proper.1, properEntries_sortValues entries proper.2⟩
end

mutual
theorem sortKeys_sortKeys : (value : Json N S) → value.Proper → value.sortKeys.sortKeys = value.sortKeys
  | .null, _ | .bool _, _ | .number _, _ | .string _, _ => rfl
  | .array items, proper => by rw [sortKeys, sortKeys, sortItems_sortItems items proper]
  | .object entries, proper => by
    rw [sortKeys, sortKeys]
    congr 1
    apply sortBy_of_perm
    · rw [keys_sortValues]
      exact nodup_sortKeys proper.1
    · have perm := sortValues_perm (perm_sortKeys entries)
      rwa [sortValues_sortValues entries proper.2] at perm

theorem sortItems_sortItems :
    (items : List (Json N S)) → ProperItems items → sortItems (sortItems items) = sortItems items
  | [], _ => rfl
  | item :: items, proper => by
    rw [sortItems, sortItems, sortKeys_sortKeys item proper.1, sortItems_sortItems items proper.2]

theorem sortValues_sortValues : (entries : List (S × Json N S)) → ProperEntries entries →
    sortValues (sortValues entries) = sortValues entries
  | [], _ => rfl
  | (_, value) :: entries, proper => by
    rw [sortValues, sortValues, sortKeys_sortKeys value proper.1, sortValues_sortValues entries proper.2]
end

end Sorted
end TokenPak.Library.Json
