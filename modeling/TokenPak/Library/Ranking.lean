import Mathlib.Data.List.Sort

/-! Candidates ranked by a score, the greatest first, and by a key among equals,
and the rule that only a strict lead decides. -/

namespace TokenPak.Library.Ranking
variable {Item Key : Type} [LinearOrder Key]

/-- The order of a sort by `(-score, key)`. -/
def Before (score : Item → Int) (key : Item → Key) (item other : Item) : Prop :=
  score other < score item ∨ score item = score other ∧ key item ≤ key other

instance (score : Item → Int) (key : Item → Key) : DecidableRel (Before score key) := fun _ _ =>
  inferInstanceAs (Decidable (_ ∨ _))

def ranked (score : Item → Int) (key : Item → Key) (items : List Item) : List Item :=
  items.insertionSort (Before score key)

/-- The first of a ranking, when it is alone or strictly ahead of the second. -/
def leader (score : Item → Int) : List Item → Option Item
  | [] => none
  | [only] => some only
  | best :: next :: _ => if score next < score best then some best else none

variable {score : Item → Int} {key : Item → Key} {items : List Item} {item : Item}

instance : Std.Total (Before score key) := ⟨fun item other => by
  rcases lt_trichotomy (score item) (score other) with less | same | greater
  · exact .inr (.inl less)
  · rcases le_total (key item) (key other) with first | second
    · exact .inl (.inr ⟨same, first⟩)
    · exact .inr (.inr ⟨same.symm, second⟩)
  · exact .inl (.inl greater)⟩

instance : IsTrans Item (Before score key) := ⟨fun first second third ahead next => by
  rcases ahead with less | ⟨same, ordered⟩ <;> rcases next with lower | ⟨equal, further⟩
  · exact .inl (lower.trans less)
  · exact .inl (equal ▸ less)
  · exact .inl (same ▸ lower)
  · exact .inr ⟨same.trans equal, ordered.trans further⟩⟩

theorem Before.le {other : Item} (before : Before score key item other) : score other ≤ score item := by
  rcases before with less | ⟨same, _⟩
  · exact less.le
  · exact same.ge

theorem ranked_perm : (ranked score key items).Perm items := items.perm_insertionSort _

theorem ranked_pairwise : (ranked score key items).Pairwise fun item other => score other ≤ score item :=
  (items.pairwise_insertionSort (Before score key)).imp Before.le

theorem leader_of_pairwise (distinct : items.Nodup)
    (descending : items.Pairwise fun item other => score other ≤ score item) :
    leader score items = some item ↔ item ∈ items ∧ ∀ other ∈ items, other ≠ item →
      score other < score item := by
  match items with
  | [] => simp [leader]
  | [only] =>
    constructor
    · intro led
      obtain rfl : only = item := by simpa [leader] using led
      exact ⟨List.mem_singleton_self _, fun other member differs =>
        absurd (List.mem_singleton.mp member) differs⟩
    · intro lead
      rw [List.mem_singleton.mp lead.1]
      rfl
  | best :: next :: rest =>
    obtain ⟨above, lower⟩ := List.pairwise_cons.mp descending
    have below := (List.pairwise_cons.mp lower).1
    have apart : next ≠ best := fun same => (List.nodup_cons.mp distinct).1 (same ▸ List.mem_cons_self)
    constructor
    · intro led
      by_cases ahead : score next < score best
      · obtain rfl : best = item := by simpa [leader, ahead] using led
        refine ⟨List.mem_cons_self, fun other member differs => ?_⟩
        rcases List.mem_cons.mp ((List.mem_cons.mp member).resolve_left differs) with rfl | further
        · exact ahead
        · exact lt_of_le_of_lt (below other further) ahead
      · simp [leader, ahead] at led
    · intro ⟨member, lead⟩
      -- Any item but the first has the first above it, so it cannot be strictly ahead of all others.
      have first : item = best := by
        by_contra differs
        have tail := (List.mem_cons.mp member).resolve_left differs
        exact absurd (lead best List.mem_cons_self (Ne.symm differs)) (above item tail).not_gt
      subst first
      exact if_pos (lead next (by simp) apart)

/-- The leader of a ranking is the item strictly ahead of every other. -/
theorem leader_ranked (distinct : items.Nodup) :
    leader score (ranked score key items) = some item ↔
      item ∈ items ∧ ∀ other ∈ items, other ≠ item → score other < score item := by
  rw [leader_of_pairwise (ranked_perm.nodup_iff.mpr distinct) ranked_pairwise]
  simp only [ranked_perm.mem_iff]

end TokenPak.Library.Ranking

/-! The items of a list that no other is below. Below each item lies one of them, so that when there
is one alone it is below all others. -/

namespace TokenPak.Library.Minimal
variable {Item : Type} {below : Item → Item → Bool} {items others : List Item} {item : Item}

def minimal (below : Item → Item → Bool) (items : List Item) : List Item :=
  items.filter fun item => ! items.any (below · item)

theorem mem_minimal : item ∈ minimal below items ↔ item ∈ items ∧ ∀ other ∈ items,
    below other item = false := by
  simp [minimal]

theorem minimal_perm (perm : items.Perm others) : (minimal below items).Perm (minimal below others) := by
  have same : (fun item => ! items.any (below · item)) = fun item => ! others.any (below · item) := by
    funext item
    rw [perm.any_eq]
  rw [minimal, minimal, same]
  exact perm.filter _

section Strict
variable (irreflexive : ∀ item, below item item = false)
variable (transitive : ∀ first second third, below first second = true → below second third = true → below first third = true)
include irreflexive transitive

theorem exists_minimal (member : item ∈ items) :
    ∃ least ∈ minimal below items, least = item ∨ below least item = true := by
  -- By induction on the number of items below.
  induction count : (items.filter (below · item)).length using Nat.strongRecOn generalizing item with
  | ind count ih =>
    by_cases lowest : ∀ other ∈ items, below other item = false
    · exact ⟨item, mem_minimal.mpr ⟨member, lowest⟩, .inl rfl⟩
    · obtain ⟨other, there, lower⟩ : ∃ other ∈ items, below other item = true := by simpa using lowest
      have fewer : (items.filter (below · other)).length < (items.filter (below · item)).length := by
        have part : items.filter (below · other) = (items.filter (below · item)).filter (below · other) := by
          rw [List.filter_filter]
          apply List.filter_congr
          intro third _
          by_cases lowest : below third other = true
          · simp [lowest, transitive third other item lowest lower]
          · simp [lowest]
        rw [part]
        apply List.length_filter_lt_length_iff_exists.mpr
        exact ⟨other, List.mem_filter.mpr ⟨there, lower⟩, by simp [irreflexive other]⟩
      obtain ⟨least, minimal, reached⟩ := ih _ (count ▸ fewer) there rfl
      refine ⟨least, minimal, .inr ?_⟩
      rcases reached with rfl | lowest
      · exact lower
      · exact transitive least other item lowest lower

theorem minimal_eq_singleton : minimal below items = [item] ↔
    ∃ before after, items = before ++ item :: after ∧ ∀ other ∈ before ++ after, below item other = true := by
  constructor
  · intro alone
    obtain ⟨before, after, whole, none_before, _, none_after⟩ := List.filter_eq_cons_iff.mp alone
    refine ⟨before, after, whole, ?_⟩
    intro other member
    have inside : other ∈ items := by
      rw [whole]
      rcases List.mem_append.mp member with here | there
      · exact List.mem_append_left _ here
      · exact List.mem_append_right _ (List.mem_cons_of_mem _ there)
    obtain ⟨least, found, reached⟩ := exists_minimal irreflexive transitive inside
    rw [alone, List.mem_singleton] at found
    subst found
    rcases reached with rfl | lower
    · -- The item stands at another place, too, where it is minimal as well.
      exfalso
      have lowest := List.mem_filter.mp (alone ▸ List.mem_singleton_self least : least ∈ minimal below items)
      rcases List.mem_append.mp member with here | there
      · exact none_before least here lowest.2
      · exact List.filter_eq_nil_iff.mp none_after least there lowest.2
    · exact lower
  · rintro ⟨before, after, rfl, least⟩
    have beaten : ∀ other ∈ before ++ after,
        ((before ++ item :: after).any (below · other)) = true :=
      fun other member =>
      List.any_eq_true.mpr ⟨item, by simp, least other member⟩
    apply List.filter_eq_cons_iff.mpr
    refine ⟨before, after, rfl, ?_, ?_, ?_⟩
    · intro other member
      simp [beaten other (List.mem_append_left _ member)]
    · have lowest : ∀ other ∈ before ++ after, below other item = false := by
        intro other member
        by_contra lower
        have back := transitive item other item (least other member) (by simpa using lower)
        rw [irreflexive] at back
        cases back
      simp only [List.any_append, List.any_cons, irreflexive, Bool.false_or, Bool.not_eq_true',
        Bool.or_eq_false_iff, List.any_eq_false]
      exact ⟨fun other member => by simp [lowest other (List.mem_append_left _ member)],
        fun other member => by simp [lowest other (List.mem_append_right _ member)]⟩
    · apply List.filter_eq_nil_iff.mpr
      intro other member
      simp [beaten other (List.mem_append_right _ member)]

end Strict
end TokenPak.Library.Minimal
