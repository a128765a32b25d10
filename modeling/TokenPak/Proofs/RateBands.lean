import Mathlib.Algebra.Order.BigOperators.Group.List
import Mathlib.Data.Set.BooleanAlgebra
import Mathlib.Order.CompletePartialOrder
import TokenPak.Models.Pricing

/-! The selected band is the one that is meant for the fewest contexts. The contexts that a band
matches are a box, with one set of values for each field, none of them empty; the comparison of
bands field by field is strict inclusion of their boxes. -/

namespace TokenPak.Models.Pricing
open Library Minimal

/-- What a comparison of two sets tells: whether it is a subset, and whether a strict one. -/
structure Compares {Value : Type} (told : Bool × Bool) (left right : Set Value) : Prop where
  subset : told.1 = true ↔ left ⊆ right
  strict : left ⊆ right → (told.2 = true ↔ ¬ right ⊆ left)

section Words
variable {lowering : Lowering}

theorem normalized_letters (count : Nat) :
    normalized lowering (String.ofList (List.replicate count 'a')) =
      String.ofList (List.replicate count 'a') := by
  have kept : Text.strip (String.ofList (List.replicate count 'a')) =
      String.ofList (List.replicate count 'a') := by
    cases count with
    | zero => rfl
    | succ count =>
      have solid : Text.isSpace 'a' = false := by decide
      have stays : (List.replicate (count + 1) 'a').dropWhile Text.isSpace =
          List.replicate (count + 1) 'a' := by
        rw [List.replicate_succ, List.dropWhile_cons_of_neg (by simp [solid])]
      rw [Text.strip, String.toList_ofList, stays, List.reverse_replicate, stays, List.reverse_replicate]
  rw [normalized, kept, lowering.letters]

theorem exists_word (values : List String) : ∃ word : Word lowering, word.text ∉ values := by
  have long : String.ofList (List.replicate ((values.map String.length).sum + 1) 'a') ∉ values := by
    intro member
    have bound :=
      List.single_le_sum (fun _ _ =>
        Nat.zero_le _) _ (List.mem_map_of_mem (f := String.length) member)
    rw [String.length_ofList, List.length_replicate] at bound
    omega
  refine ⟨⟨_, ⟨_, normalized_letters _⟩, ?_⟩, long⟩
  intro empty
  have length := congrArg String.length empty
  rw [String.length_ofList, List.length_replicate] at length
  simp at length

def wordSet (selector : Selector lowering) : Set (Word lowering) :=
  {word | selectorMatches selector.values word.text = true}

variable {left right : Selector lowering}

theorem mem_wordSet {word : Word lowering} :
    word ∈ wordSet left ↔ left.values = ["*"] ∨ word.text ∈ left.values := by
  simp [wordSet, selectorMatches]

theorem Selector.plain (differs : left.values ≠ ["*"]) : "*" ∉ left.values := by
  intro star
  obtain ⟨only, same⟩ := List.length_eq_one_iff.mp (left.alone star)
  rw [same, List.mem_singleton] at star
  exact differs (star ▸ same)

theorem Selector.word (differs : left.values ≠ ["*"]) {value : String} (member : value ∈ left.values) :
    ∃ word : Word lowering, word.text = value := by
  obtain ⟨full, normal⟩ :=
    (left.words value member).resolve_left fun star => left.plain differs (star ▸ member)
  exact ⟨⟨value, normal, full⟩, rfl⟩

theorem wordSet_nonempty (selector : Selector lowering) : (wordSet selector).Nonempty := by
  by_cases star : selector.values = ["*"]
  · obtain ⟨word, _⟩ : ∃ word : Word lowering, word.text ∉ [] := exists_word []
    exact ⟨word, mem_wordSet.mpr (.inl star)⟩
  · obtain ⟨value, member⟩ := List.exists_mem_of_ne_nil _ selector.full
    obtain ⟨word, rfl⟩ := selector.word star member
    exact ⟨word, mem_wordSet.mpr (.inr member)⟩

theorem wordSet_subset (differs : right.values ≠ ["*"]) :
    wordSet left ⊆ wordSet right ↔ left.values ≠ ["*"] ∧ left.values ⊆ right.values := by
  constructor
  · intro inside
    have plain : left.values ≠ ["*"] := by
      intro star
      obtain ⟨word, outside⟩ : ∃ word : Word lowering, word.text ∉ right.values := exists_word right.values
      exact (mem_wordSet.mp (inside (mem_wordSet.mpr (.inl star)))).elim differs outside
    refine ⟨plain, ?_⟩
    intro value member
    obtain ⟨word, rfl⟩ := left.word plain member
    exact (mem_wordSet.mp (inside (mem_wordSet.mpr (.inr member)))).resolve_left differs
  · rintro ⟨plain, inside⟩ word member
    exact mem_wordSet.mpr (.inr (inside ((mem_wordSet.mp member).resolve_left plain)))

theorem selectorSubset_compares (left right : Selector lowering) :
    Compares (selectorSubset left.values right.values) (wordSet left) (wordSet right) := by
  by_cases all : right.values = ["*"]
  · have inside : wordSet left ⊆ wordSet right := fun word _ => mem_wordSet.mpr (.inl all)
    by_cases star : left.values = ["*"]
    · have back : wordSet right ⊆ wordSet left := fun word _ => mem_wordSet.mpr (.inl star)
      constructor <;> simp [selectorSubset, all, star, inside, back]
    · have strict : ¬ wordSet right ⊆ wordSet left := by
        rw [wordSet_subset star]
        exact fun back => back.1 all
      constructor <;> simp [selectorSubset, all, star, inside, strict]
  · by_cases star : left.values = ["*"]
    · have outside : ¬ wordSet left ⊆ wordSet right := by
        rw [wordSet_subset all]
        exact fun inside => inside.1 star
      constructor <;> simp [selectorSubset, all, star, outside]
    · constructor <;> simp [selectorSubset, all, star, wordSet_subset]
      tauto

end Words

section Numbers

/-- The cache lifetimes that a context can have. -/
abbrev Ttl := { ttl : Option Nat // ∀ seconds ∈ ttl, 0 < seconds }

def ttlSet (ttl : Option Nat) : Set Ttl := {own | ttl = none ∨ ttl = own.1}

theorem ttlSet_nonempty {ttl : Option Nat} (positive : ∀ seconds ∈ ttl, 0 < seconds) :
    (ttlSet ttl).Nonempty :=
  ⟨⟨ttl, positive⟩, .inr rfl⟩

theorem ttlSubset_compares {left right : Option Nat} (positive : ∀ seconds ∈ left, 0 < seconds)
    (also : ∀ seconds ∈ right, 0 < seconds) :
    Compares (ttlSubset left right) (ttlSet left) (ttlSet right) := by
  have inside_iff {left right : Option Nat} (positive : ∀ seconds ∈ left, 0 < seconds) :
      ttlSet left ⊆ ttlSet right ↔ right = none ∨ left = right := by
    constructor
    · intro inside
      rcases inside (.inr rfl : ⟨left, positive⟩ ∈ ttlSet left) with all | same
      · exact .inl all
      · exact .inr same.symm
    · rintro (rfl | rfl)
      · exact fun _ _ => .inl rfl
      · exact subset_rfl
  constructor
  · simp [ttlSubset, inside_iff positive]
  · rw [inside_iff positive, inside_iff also]
    rintro (rfl | rfl)
    · cases left <;> simp [ttlSubset]
    · simp [ttlSubset]

def rangeSet (min : Nat) (max : Option Nat) : Set (Option Nat) := {tokens | tokensMatch min max tokens = true}

theorem some_mem_rangeSet {min tokens : Nat} {max : Option Nat} :
    some tokens ∈ rangeSet min max ↔ min ≤ tokens ∧ ∀ upper ∈ max, tokens < upper := by
  cases max <;> simp [rangeSet, tokensMatch]

theorem none_mem_rangeSet {min : Nat} {max : Option Nat} :
    none ∈ rangeSet min max ↔ min = 0 ∧ max = none := by
  cases max <;> simp [rangeSet, tokensMatch]

variable {min least : Nat} {max upper : Option Nat}

theorem rangeSet_nonempty (range : ∀ upper ∈ max, min < upper) : (rangeSet min max).Nonempty :=
  ⟨some min, some_mem_rangeSet.mpr ⟨Nat.le_refl _, range⟩⟩

theorem rangeSet_subset (range : ∀ upper ∈ max, min < upper) :
    rangeSet min max ⊆ rangeSet least upper ↔ least ≤ min ∧ ∀ limit ∈ upper, ∃ bound ∈ max,
      bound ≤ limit := by
  constructor
  · intro inside
    obtain ⟨lower, _⟩ := some_mem_rangeSet.mp (inside (some_mem_rangeSet.mpr ⟨Nat.le_refl min, range⟩))
    refine ⟨lower, ?_⟩
    intro limit given
    cases max with
    | none =>
      -- A number of tokens from the limit on is in the one set alone.
      have reached :=
        some_mem_rangeSet.mp (inside (some_mem_rangeSet.mpr ⟨Nat.le_max_left min limit, by simp⟩))
      exact absurd (reached.2 limit given) (by omega)
    | some bound =>
      refine ⟨bound, rfl, ?_⟩
      have below := range bound rfl
      have member : some (bound - 1) ∈ rangeSet min (some bound) :=
        some_mem_rangeSet.mpr ⟨by omega, by simp; omega⟩
      have reached := (some_mem_rangeSet.mp (inside member)).2 limit given
      omega
  · rintro ⟨lower, limited⟩ tokens member
    cases tokens with
    | none =>
      obtain ⟨rfl, rfl⟩ := none_mem_rangeSet.mp member
      refine none_mem_rangeSet.mpr ⟨by omega, Option.eq_none_iff_forall_not_mem.mpr ?_⟩
      intro limit given
      obtain ⟨bound, none, _⟩ := limited limit given
      cases none
    | some tokens =>
      obtain ⟨reached, bounded⟩ := some_mem_rangeSet.mp member
      refine some_mem_rangeSet.mpr ⟨by omega, ?_⟩
      intro limit given
      obtain ⟨bound, own, within⟩ := limited limit given
      exact Nat.lt_of_lt_of_le (bounded bound own) within

end Numbers

section Boxes
variable {lowering : Lowering} {Details : Type} {band other : RateBand lowering Details}

theorem rangeSubset_compares (band other : RateBand lowering Details) : Compares (rangeSubset band other)
    (rangeSet band.minInputTokens band.maxInputTokens)
    (rangeSet other.minInputTokens other.maxInputTokens) := by
  constructor
  · rw [rangeSet_subset band.range, rangeSubset]
    cases band.maxInputTokens <;> cases other.maxInputTokens <;> simp
  · rw [rangeSet_subset band.range, rangeSet_subset other.range, rangeSubset]
    cases band.maxInputTokens <;> cases other.maxInputTokens <;> simp
    omega

def fields (context : PricingContext lowering) :
    Option Nat × Word lowering × Word lowering × Word lowering × Word lowering × Ttl :=
  (context.inputTokens, context.inputModality, context.outputModality, context.serviceTier, context.region,
    ⟨context.cacheTtlSeconds, context.ttl_positive⟩)

theorem fields_surjective : Function.Surjective (@fields lowering) := by
  rintro ⟨tokens, input, output, tier, region, ttl⟩
  exact ⟨⟨tokens, input, output, tier, region, ttl.1, ttl.2⟩, rfl⟩

def matchSet (band : RateBand lowering Details) : Set (PricingContext lowering) :=
  {context | band.matches context = true}

def box (band : RateBand lowering Details) :
    Set (Option Nat × Word lowering × Word lowering × Word lowering × Word lowering × Ttl) :=
  rangeSet band.minInputTokens band.maxInputTokens ×ˢ wordSet band.inputModalities ×ˢ wordSet band.outputModalities ×ˢ
    wordSet band.serviceTiers ×ˢ wordSet band.regions ×ˢ ttlSet band.cacheTtlSeconds

theorem matchSet_eq (band : RateBand lowering Details) : matchSet band = Set.preimage fields (box band) := by
  ext context
  simp [matchSet, box, fields, RateBand.matches, rangeSet, wordSet, ttlSet, and_assoc]

theorem matchSet_subset : matchSet band ⊆ matchSet other ↔ box band ⊆ box other := by
  rw [matchSet_eq, matchSet_eq, fields_surjective.preimage_subset_preimage_iff]

theorem prod_subset {First Second : Type} {left right : Set First} {low high : Set Second}
    (first : left.Nonempty) (second : low.Nonempty) :
    left ×ˢ low ⊆ right ×ˢ high ↔ left ⊆ right ∧ low ⊆ high := by
  rw [Set.prod_subset_prod_iff]
  simp [first.ne_empty, second.ne_empty]

/-- Boxes are included in each other field by field. -/
theorem box_subset (band other : RateBand lowering Details) : box band ⊆ box other ↔
    rangeSet band.minInputTokens band.maxInputTokens ⊆ rangeSet other.minInputTokens other.maxInputTokens ∧
    wordSet band.inputModalities ⊆ wordSet other.inputModalities ∧
      wordSet band.outputModalities ⊆ wordSet other.outputModalities ∧
    wordSet band.serviceTiers ⊆ wordSet other.serviceTiers ∧ wordSet band.regions ⊆ wordSet other.regions ∧
    ttlSet band.cacheTtlSeconds ⊆ ttlSet other.cacheTtlSeconds := by
  have ttl := ttlSet_nonempty band.ttl_positive
  have regions := wordSet_nonempty band.regions
  have tiers := wordSet_nonempty band.serviceTiers
  have outputs := wordSet_nonempty band.outputModalities
  have inputs := wordSet_nonempty band.inputModalities
  have range := rangeSet_nonempty band.range
  rw [box, box, prod_subset range (inputs.prod (outputs.prod (tiers.prod (regions.prod ttl)))),
    prod_subset inputs (outputs.prod (tiers.prod (regions.prod ttl))),
      prod_subset outputs (tiers.prod (regions.prod ttl)),
    prod_subset tiers (regions.prod ttl), prod_subset regions ttl]

/-- A band is more specific than another when it is meant for strictly fewer contexts. -/
theorem isMoreSpecificThan_iff (band other : RateBand lowering Details) :
    band.isMoreSpecificThan other = true ↔ matchSet band ⊂ matchSet other := by
  have range := rangeSubset_compares band other
  have inputs := selectorSubset_compares band.inputModalities other.inputModalities
  have outputs := selectorSubset_compares band.outputModalities other.outputModalities
  have tiers := selectorSubset_compares band.serviceTiers other.serviceTiers
  have regions := selectorSubset_compares band.regions other.regions
  have ttl := ttlSubset_compares band.ttl_positive other.ttl_positive
  rw [ssubset_iff_subset_not_subset, matchSet_subset, matchSet_subset, box_subset band other,
    box_subset other band]
  simp only [RateBand.isMoreSpecificThan, List.all_cons, List.all_nil, List.any_cons, List.any_nil,
    Bool.and_eq_true, Bool.or_eq_true,
    Bool.and_true, Bool.or_false, range.subset, inputs.subset, outputs.subset, tiers.subset, regions.subset, ttl.subset]
  constructor
  · rintro ⟨⟨input, output, tier, region, lifetime, tokens⟩, strict⟩
    rw [range.strict tokens, inputs.strict input, outputs.strict output, tiers.strict tier,
      regions.strict region,
      ttl.strict lifetime] at strict
    refine ⟨⟨tokens, input, output, tier, region, lifetime⟩, ?_⟩
    tauto
  · rintro ⟨⟨tokens, input, output, tier, region, lifetime⟩, strict⟩
    rw [range.strict tokens, inputs.strict input, outputs.strict output, tiers.strict tier,
      regions.strict region, ttl.strict lifetime]
    refine ⟨⟨input, output, tier, region, lifetime, tokens⟩, ?_⟩
    tauto

theorem isMoreSpecificThan_irrefl (band : RateBand lowering Details) :
    band.isMoreSpecificThan band = false := by
  by_contra specific
  exact ssubset_irrefl _ ((isMoreSpecificThan_iff band band).mp (by simpa using specific))

theorem isMoreSpecificThan_trans (first second third : RateBand lowering Details)
    (ahead : first.isMoreSpecificThan second = true)
    (next : second.isMoreSpecificThan third = true) : first.isMoreSpecificThan third = true :=
  (isMoreSpecificThan_iff _ _).mpr (((isMoreSpecificThan_iff _ _).mp ahead).trans ((isMoreSpecificThan_iff _ _).mp next))

end Boxes

section Selection
variable {lowering : Lowering} {Details : Type} {bands others : List (RateBand lowering Details)}
  {context : PricingContext lowering}
variable {band : RateBand lowering Details}

/-- The band stands in the list, matches, and is meant for strictly fewer contexts than every other
band of the list that matches. -/
def Best (bands : List (RateBand lowering Details)) (context : PricingContext lowering)
    (band : RateBand lowering Details) : Prop :=
  ∃ before after, bands = before ++ band :: after ∧ context ∈ matchSet band ∧
    ∀ other ∈ before ++ after, context ∈ matchSet other → matchSet band ⊂ matchSet other

theorem minimal_filter :
    minimal RateBand.isMoreSpecificThan (bands.filter (·.matches context)) = [band] ↔
    Best bands context band := by
  rw [minimal_eq_singleton isMoreSpecificThan_irrefl isMoreSpecificThan_trans]
  constructor
  · rintro ⟨before, after, whole, least⟩
    obtain ⟨front, rest, rfl, rfl, same⟩ := List.filter_eq_append_iff.mp whole
    obtain ⟨front', back, rfl, outside, matched, rfl⟩ := List.filter_eq_cons_iff.mp same
    refine ⟨front ++ front', back, by simp, matched, ?_⟩
    intro other member matching
    apply (isMoreSpecificThan_iff band other).mp
    apply least
    rcases List.mem_append.mp member with ahead | behind
    · rcases List.mem_append.mp ahead with first | second
      · exact List.mem_append_left _ (List.mem_filter.mpr ⟨first, matching⟩)
      · exact absurd matching (outside other second)
    · exact List.mem_append_right _ (List.mem_filter.mpr ⟨behind, matching⟩)
  · rintro ⟨before, after, rfl, matched, least⟩
    refine ⟨before.filter (·.matches context), after.filter (·.matches context), ?_, ?_⟩
    · rw [List.filter_append, List.filter_cons, if_pos (show band.matches context = true from matched)]
    · intro other member
      rw [← List.filter_append] at member
      obtain ⟨inside, matching⟩ := List.mem_filter.mp member
      exact (isMoreSpecificThan_iff band other).mpr (least other inside matching)

theorem selected_ok {best : List (RateBand lowering Details)} :
    selected best = .ok (some band) ↔ best = [band] := by
  unfold selected
  split
  · simp
  · next several => simpa using several band

theorem selected_several {best : List (RateBand lowering Details)}
    (several : ∀ band, best ≠ [band]) : selected best =
    .error ("ambiguous pricing rate bands: " ++
      ", ".intercalate ((best.map RateBand.bandId).insertionSort (· ≤ ·))) := by
  unfold selected
  split
  · next band => exact absurd rfl (several band)
  · rfl

theorem selected_perm {best rest : List (RateBand lowering Details)} (perm : best.Perm rest) :
    selected best = selected rest := by
  have names : (best.map RateBand.bandId).insertionSort (· ≤ ·) =
      (rest.map RateBand.bandId).insertionSort (· ≤ ·) := by
    apply List.Perm.eq_of_pairwise' (List.pairwise_insertionSort _ _) (List.pairwise_insertionSort _ _)
    exact ((List.perm_insertionSort _ _).trans (perm.map _)).trans (List.perm_insertionSort _ _).symm
  by_cases one : ∃ band, best = [band]
  · obtain ⟨band, rfl⟩ := one
    rw [List.singleton_perm.mp perm]
  · have several : ∀ band, best ≠ [band] := not_exists.mp one
    have also : ∀ band, rest ≠ [band] := fun band same => several band (List.perm_singleton.mp (same ▸ perm))
    rw [selected_several several, selected_several also, names]

theorem filter_eq_nil : bands.filter (·.matches context) = [] ↔ ∀ band ∈ bands, context ∉ matchSet band := by
  simp [matchSet]

theorem selectRateBand_ok : selectRateBand bands (some context) = .ok (some band) ↔
    Best bands context band := by
  rw [← minimal_filter, ← selected_ok]
  simp only [selectRateBand, List.isEmpty_iff]
  split
  · next none_matches => simp [none_matches, minimal, selected]
  · rfl

theorem selectRateBand_none : selectRateBand bands (some context) = .ok none ↔ ∀ band ∈ bands,
    context ∉ matchSet band := by
  rw [← filter_eq_nil]
  simp only [selectRateBand, List.isEmpty_iff]
  split
  · next none_matches => simp [none_matches]
  · next some_match =>
    refine iff_of_false ?_ some_match
    intro nothing
    unfold selected at nothing
    split at nothing <;> cases nothing

theorem selectRateBand_perm (perm : bands.Perm others) :
    selectRateBand others (some context) = selectRateBand bands (some context) := by
  have candidates := perm.filter (·.matches context)
  have empty : (bands.filter (·.matches context)).isEmpty = (others.filter (·.matches context)).isEmpty := by
    rw [Bool.eq_iff_iff, List.isEmpty_iff, List.isEmpty_iff]
    exact ⟨fun same => (same ▸ candidates).nil_eq.symm, fun same => (same ▸ candidates.symm).nil_eq.symm⟩
  simp only [selectRateBand, empty, selected_perm (minimal_perm candidates)]

/-- A band is more specific than another when it is meant for strictly fewer contexts. The selection
gives the band that is meant for strictly fewer contexts than every other one that matches, nothing
when none matches, and an error in all other cases, in whatever order the bands come. -/
theorem rate_band_selection (bands : List (RateBand lowering Details)) (context : PricingContext lowering) :
    (∀ band other : RateBand lowering Details, band.isMoreSpecificThan other = true ↔
      matchSet band ⊂ matchSet other) ∧
    (∀ band, selectRateBand bands (some context) = .ok (some band) ↔ Best bands context band) ∧
    (selectRateBand bands (some context) = .ok none ↔ ∀ band ∈ bands, context ∉ matchSet band) ∧
    ((∃ message, selectRateBand bands (some context) = .error message) ↔
      (∃ band ∈ bands, context ∈ matchSet band) ∧ ¬ ∃ band, Best bands context band) ∧
    ∀ others, bands.Perm others →
      selectRateBand others (some context) = selectRateBand bands (some context) := by
  refine ⟨isMoreSpecificThan_iff, fun band => selectRateBand_ok, selectRateBand_none, ?_,
    fun others => selectRateBand_perm⟩
  have matching : (∃ band ∈ bands, context ∈ matchSet band) ↔
      selectRateBand bands (some context) ≠ .ok none := by
    rw [ne_eq, selectRateBand_none]
    simp
  rw [matching]
  simp only [← selectRateBand_ok]
  cases selectRateBand bands (some context) with
  | error message => simp
  | ok found => cases found <;> simp

end Selection
end TokenPak.Models.Pricing
