import Mathlib.Data.List.Perm.Basic
import Mathlib.Data.List.Sort

/-! Sorting by a key. Items of one key keep their order, so the items of each key, in their order,
determine the sorted list. -/

namespace TokenPak.Library.StableSort
variable {Item Key : Type} {items others : List Item}

theorem exists_perm_map {Image : Type} {image : Item → Image} {images : List Image}
    (perm : images.Perm (items.map image)) :
    ∃ ordered, items.Perm ordered ∧ images = ordered.map image := by
  have related : Relation.Comp List.Perm (List.Forall₂ fun image' item => image' = image item) images items :=
    ⟨_, perm, by rw [List.forall₂_map_left_iff]; exact List.forall₂_same.mpr fun _ _ => rfl⟩
  rw [← List.forall₂_comp_perm_eq_perm_comp_forall₂] at related
  obtain ⟨ordered, same, ordering⟩ := related
  refine ⟨ordered, ordering.symm, ?_⟩
  rw [← List.forall₂_eq_eq_eq, List.forall₂_map_right_iff]
  exact same

variable [LinearOrder Key] {key : Item → Key}

def Before (key : Item → Key) (first second : Item) : Prop := key first ≤ key second

instance (key : Item → Key) : DecidableRel (Before key) := fun _ _ => inferInstanceAs (Decidable (_ ≤ _))

instance : Std.Total (Before key) := ⟨fun _ _ => le_total _ _⟩

instance : IsTrans Item (Before key) := ⟨fun _ _ _ => le_trans⟩

def sortBy (key : Item → Key) (items : List Item) : List Item := items.insertionSort (Before key)

theorem sortBy_perm : (sortBy key items).Perm items := items.perm_insertionSort _

theorem pairwise_sortBy : (sortBy key items).Pairwise (Before key) := items.pairwise_insertionSort _

/-- The sort is stable. -/
theorem filter_sortBy (k : Key) : (sortBy key items).filter (key · = k) = items.filter (key · = k) := by
  have alike : (items.filter (key · = k)).Pairwise (Before key) := by
    apply List.pairwise_of_forall_mem_list
    intro first here second there
    have start : key first = k := by simpa using (List.mem_filter.mp here).2
    have stop : key second = k := by simpa using (List.mem_filter.mp there).2
    exact (start.trans stop.symm).le
  have inside : (items.filter (key · = k)).Sublist ((sortBy key items).filter (key · = k)) := by
    have sub := (List.sublist_insertionSort alike List.filter_sublist).filter (key · = k)
    simpa only [List.filter_filter, Bool.and_self, sortBy] using sub
  exact (inside.eq_of_length (sortBy_perm.filter _).length_eq.symm).symm

/-- Sorted lists are equal when they have the same items of each key in the same order. -/
theorem eq_of_filter (sorted : items.Pairwise (Before key)) (ordered : others.Pairwise (Before key))
    (same : ∀ k, items.filter (key · = k) = others.filter (key · = k)) : items = others := by
  induction items generalizing others with
  | nil =>
    cases others with
    | nil => rfl
    | cons other others => simpa using same (key other)
  | cons item items ih =>
    cases others with
    | nil => simpa using same (key item)
    | cons other others =>
      obtain ⟨below, rest_sorted⟩ := List.pairwise_cons.mp sorted
      obtain ⟨above, rest_ordered⟩ := List.pairwise_cons.mp ordered
      have member : item ∈ (other :: others).filter (key · = key item) := by
        rw [← same]
        simp
      have reverse : other ∈ (item :: items).filter (key · = key other) := by
        rw [same]
        simp
      have least : key other ≤ key item := by
        rcases List.mem_cons.mp (List.mem_of_mem_filter member) with rfl | behind
        · exact le_rfl
        · exact above item behind
      have greatest : key item ≤ key other := by
        rcases List.mem_cons.mp (List.mem_of_mem_filter reverse) with rfl | behind
        · exact le_rfl
        · exact below other behind
      have level : key other = key item := le_antisymm least greatest
      have heads := same (key item)
      rw [List.filter_cons_of_pos (by simp), List.filter_cons_of_pos (by simpa using level)] at heads
      obtain ⟨rfl, _⟩ := List.cons.inj heads
      congr 1
      apply ih rest_sorted rest_ordered
      intro k
      have filtered := same k
      by_cases here : key item = k
      · rw [List.filter_cons_of_pos (by simpa using here),
          List.filter_cons_of_pos (by simpa using here)] at filtered
        exact (List.cons.inj filtered).2
      · rwa [List.filter_cons_of_neg (by simpa using here),
          List.filter_cons_of_neg (by simpa using here)] at filtered

theorem sortBy_eq_iff :
    sortBy key items = sortBy key others ↔ ∀ k,
    items.filter (key · = k) = others.filter (key · = k) := by
  constructor
  · intro same k
    rw [← filter_sortBy, same, filter_sortBy]
  · intro same
    apply eq_of_filter pairwise_sortBy pairwise_sortBy
    intro k
    rw [filter_sortBy, filter_sortBy, same]

theorem sortBy_of_perm (distinct : (items.map key).Nodup) (perm : items.Perm others) :
    sortBy key items = sortBy key others := by
  apply List.Perm.eq_of_pairwise _ pairwise_sortBy pairwise_sortBy ((sortBy_perm.trans perm).trans sortBy_perm.symm)
  intro first second here there before behind
  have first_member : first ∈ items := sortBy_perm.mem_iff.mp here
  have second_member : second ∈ items := perm.mem_iff.mpr (sortBy_perm.mem_iff.mp there)
  exact List.inj_on_of_nodup_map distinct first_member second_member (le_antisymm before behind)

theorem sortBy_of_pairwise (sorted : items.Pairwise (Before key)) : sortBy key items = items :=
  sorted.insertionSort_eq

theorem sortBy_filter (test : Item → Bool) :
    sortBy key (items.filter test) = (sortBy key items).filter test := by
  apply eq_of_filter pairwise_sortBy (pairwise_sortBy.filter _)
  intro k
  rw [filter_sortBy, List.filter_filter, List.filter_filter]
  simp only [Bool.and_comm _ (test _)]
  rw [← List.filter_filter, ← List.filter_filter, filter_sortBy]

theorem sortBy_map {Image : Type} (image : Item → Image) {key : Image → Key} :
    sortBy key (items.map image) = (sortBy (fun item => key (image item)) items).map image :=
  (List.map_insertionSort (r := Before fun item =>
    key (image item)) (s := Before key) image items fun _ _ _ _ => Iff.rfl).symm

/-- What is read from its end is sorted the same way only when no two items have the same key. -/
theorem sortBy_reverse_iff (distinct : items.Nodup) :
    sortBy key items.reverse = sortBy key items ↔ (items.map key).Nodup := by
  classical
  have lone : ∀ k, (items.reverse.filter (key · = k) = items.filter (key · = k)) ↔
      (items.map key).count k ≤ 1 := by
    intro k
    rw [List.filter_reverse, List.count_eq_countP, List.countP_map, List.countP_eq_length_filter]
    have apart : (items.filter (key · = k)).Nodup := distinct.filter _
    have same : items.filter ((fun other => other == k) ∘ key) = items.filter (key · = k) := by
      apply List.filter_congr
      intro item _
      exact beq_eq_decide ..
    rw [same]
    generalize items.filter (key · = k) = group at apart
    constructor
    · intro mirrored
      rcases group with _ | ⟨first, _ | ⟨second, rest⟩⟩
      · simp
      · simp
      · exfalso
        have last : (second :: rest).getLast? = some first := by
          have ends := congrArg List.head? mirrored
          rwa [List.head?_reverse, List.getLast?_cons_cons, List.head?_cons] at ends
        exact (List.nodup_cons.mp apart).1 (List.mem_of_getLast? last)
    · intro few
      rcases group with _ | ⟨first, _ | ⟨second, rest⟩⟩
      · rfl
      · rfl
      · simp at few
  rw [sortBy_eq_iff, List.nodup_iff_count_le_one]
  exact forall_congr' lone

end TokenPak.Library.StableSort

/-! Lists whose items are sorted into buckets. The buckets together hold the items of theirs, in
another order. -/

namespace TokenPak.Library.Buckets
variable {Item Bucket : Type} [DecidableEq Bucket] (bucket : Item → Bucket)

def held (items : List Item) (place : Bucket) : List Item := items.filter fun item => bucket item = place

theorem flatMap_held_perm (items : List Item) {places : List Bucket} (distinct : places.Nodup) :
    (places.flatMap (held bucket items)).Perm (items.filter fun item => bucket item ∈ places) := by
  induction places with
  | nil => simp
  | cons place places ih =>
    obtain ⟨fresh, distinct⟩ := List.nodup_cons.mp distinct
    rw [List.flatMap_cons]
    have split := List.filter_append_perm (fun item => decide (bucket item = place))
      (items.filter fun item => bucket item ∈ place :: places)
    have here : (items.filter fun item => bucket item ∈ place :: places).filter (fun item =>
      decide (bucket item = place)) =
        held bucket items place := by
      rw [List.filter_filter]
      apply List.filter_congr
      intro item _
      by_cases same : bucket item = place <;> simp [same]
    have rest : (items.filter fun item => bucket item ∈ place :: places).filter
        (fun item => !decide (bucket item = place)) = items.filter fun item => bucket item ∈ places := by
      rw [List.filter_filter]
      apply List.filter_congr
      intro item _
      by_cases same : bucket item = place <;> simp [same, fresh]
    rw [here, rest] at split
    exact ((ih distinct).append_left _).trans split

end TokenPak.Library.Buckets
