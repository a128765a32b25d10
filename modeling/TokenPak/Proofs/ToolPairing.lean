import TokenPak.Compression.Dedup
import TokenPak.Library.JsonText

/-! Which turns a deduplication takes out, and when a call and its result stay together. The
first pass leaves one turn of each hash, the second looks at the turns that are left: to keep the
last, it takes out those with a similar one behind; to keep the first, each turn that is still
there takes out the first similar one behind it. -/

namespace TokenPak.Compression.Dedup
open Library

section Exact
variable {Hash : Type} [DecidableEq Hash] {keys : List Hash} {hash : Hash} {p : Nat}

/-- The turn that the first pass leaves of those with its hash. -/
def Stands (keep : Keep) (keys : List Hash) (p : Nat) : Prop :=
  ∃ hash, keys[p]? = some hash ∧
    match keep with
    | .last => ∀ q, p < q → keys[q]? ≠ some hash
    | .first => ∀ q, q < p → keys[q]? ≠ some hash

theorem seenHashes_snoc (keys : List Hash) (hash : Hash) :
    seenHashes (keys ++ [hash]) = (seenHashes keys).set hash keys.length := by
  simp [seenHashes, List.zipIdx_append]

theorem firstSeen_snoc (keys : List Hash) (hash : Hash) : firstSeen (keys ++ [hash]) =
    if ((firstSeen keys).get hash).isNone then (firstSeen keys).set hash keys.length else firstSeen keys := by
  simp [firstSeen, List.zipIdx_append]

omit [DecidableEq Hash] in
theorem getElem?_snoc (keys : List Hash) (other : Hash) (q : Nat) :
    (keys ++ [other])[q]? = some hash ↔ keys[q]? = some hash ∨ q = keys.length ∧ other = hash := by
  rcases Nat.lt_trichotomy q keys.length with before | here | behind
  · rw [List.getElem?_append_left before]
    simp [Nat.ne_of_lt before]
  · subst here
    simp
  · have none_here : keys[q]? = none := List.getElem?_eq_none (by omega)
    have none_there : (keys ++ [other])[q]? = none := List.getElem?_eq_none (by simp; omega)
    simp [none_here, none_there, Nat.ne_of_gt behind]

omit [DecidableEq Hash] in
theorem lt_of_getElem? (found : keys[p]? = some hash) : p < keys.length :=
  (List.getElem?_eq_some_iff.mp found).1

theorem get_seenHashes (keys : List Hash) (hash : Hash) (p : Nat) : (seenHashes keys).get hash = some p ↔
    keys[p]? = some hash ∧ ∀ q, p < q → keys[q]? ≠ some hash := by
  induction keys using List.reverseRecOn generalizing p with
  | nil => simp [seenHashes, Dict.get, Dict.empty]
  | append_singleton keys other ih =>
    rw [seenHashes_snoc]
    simp only [ne_eq, getElem?_snoc, not_or, not_and]
    by_cases same : other = hash
    · subst same
      rw [Dict.get_set_self, Option.some_inj]
      constructor
      · intro last
        subst last
        refine ⟨.inr ⟨rfl, rfl⟩, fun q behind => ⟨fun found => ?_, fun here => ?_⟩⟩
        · exact absurd (lt_of_getElem? found) (by omega)
        · omega
      · rintro ⟨found, none_behind⟩
        rcases found with before | ⟨last, -⟩
        · exact absurd rfl ((none_behind keys.length (lt_of_getElem? before)).2 rfl)
        · exact last.symm
    · rw [Dict.get_set_of_ne (Ne.symm same), ih]
      simp [same]

theorem get_firstSeen (keys : List Hash) (hash : Hash) (p : Nat) : (firstSeen keys).get hash = some p ↔
    keys[p]? = some hash ∧ ∀ q, q < p → keys[q]? ≠ some hash := by
  induction keys using List.reverseRecOn generalizing p with
  | nil => simp [firstSeen, Dict.get, Dict.empty]
  | append_singleton keys other ih =>
    rw [firstSeen_snoc]
    simp only [ne_eq, getElem?_snoc, not_or, not_and]
    by_cases same : other = hash
    · subst same
      cases held : (firstSeen keys).get other with
      | some first =>
        obtain ⟨found, fresh⟩ := (ih first).mp held
        have inside := lt_of_getElem? found
        rw [if_neg (by simp), held, Option.some_inj]
        constructor
        · intro here
          subst here
          exact ⟨.inl found, fun q before => ⟨fresh q before, by omega⟩⟩
        · rintro ⟨there, none_before⟩
          rcases Nat.lt_trichotomy first p with before | here | behind
          · exact absurd found (none_before first before).1
          · exact here
          · rcases there with there | ⟨last, -⟩
            · exact absurd there (fresh p behind)
            · omega
      | none =>
        have absent (q : Nat) : keys[q]? ≠ some other := by
          intro found
          -- The least place of the hash would have been recorded.
          have some_place : ∃ place, keys[place]? = some other := ⟨q, found⟩
          classical
          have least :=
            (ih (Nat.find some_place)).mpr ⟨Nat.find_spec some_place, fun r before =>
              Nat.find_min some_place before⟩
          rw [held] at least
          cases least
        rw [if_pos (by simp), Dict.get_set_self, Option.some_inj]
        constructor
        · intro here
          subst here
          exact ⟨.inr ⟨rfl, rfl⟩, fun q before => ⟨absent q, by omega⟩⟩
        · rintro ⟨there, _⟩
          rcases there with there | ⟨last, -⟩
          · exact absurd there (absent p)
          · exact last.symm
    · have unchanged : (if ((firstSeen keys).get other).isNone then (firstSeen keys).set other keys.length
          else firstSeen keys).get hash = (firstSeen keys).get hash := by
        split
        · exact Dict.get_set_of_ne (Ne.symm same)
        · rfl
      rw [unchanged, ih]
      simp [same]

theorem mem_values_iff {dict : Dict Hash Nat} : p ∈ dict.values ↔ ∃ hash, dict.get hash = some p := by
  constructor
  · intro member
    obtain ⟨⟨hash, place⟩, inside, rfl⟩ := List.mem_map.mp member
    exact ⟨hash, Dict.get_of_mem inside⟩
  · intro ⟨hash, found⟩
    exact Dict.mem_values found

theorem mem_exactKeep (keep : Keep) : p ∈ exactKeep keep keys ↔ Stands keep keys p := by
  cases keep with
  | last => simp only [exactKeep, mem_values_iff, get_seenHashes, Stands]
  | first => simp only [exactKeep, mem_values_iff, get_firstSeen, Stands]

theorem mem_afterExact (keep : Keep) : p ∈ afterExact keep keys ↔ Stands keep keys p := by
  rw [afterExact, List.mem_filter, List.mem_range, decide_eq_true_eq, mem_exactKeep]
  constructor
  · intro kept
    exact kept.2
  · intro stands
    exact ⟨stands.elim fun _ here => lt_of_getElem? here.1, stands⟩

end Exact

section Near

/-- The one that is still there takes out the first of its rivals that nobody before it took out. -/
def Spoils (rival : Nat → Nat → Prop) (i j : Nat) : Prop :=
  rival i j ∧ (∀ h, h < i → ¬ Spoils rival h i) ∧ (∀ h, h < i → ¬ Spoils rival h j) ∧
    ∀ k, i < k → k < j → rival i k → ∃ h, ∃ _ : h < i, Spoils rival h k
termination_by i

variable {F : Type} [Ratios F] {threshold : F} {turns : List Turn} {i j n : Nat}

theorem lt_of_similar (found : similar threshold turns i j = true) : i < turns.length ∧ j < turns.length := by
  unfold similar at found
  split at found
  next first second => exact ⟨(List.getElem?_eq_some_iff.mp first).1, (List.getElem?_eq_some_iff.mp second).1⟩
  next => cases found

/-- The pairs of which the second pass takes one out. -/
def Matching (threshold : F) (turns : List Turn) (i j : Nat) : Prop :=
  i < j ∧ similar threshold turns i j = true

def droppedUpTo (keep : Keep) (threshold : F) (turns : List Turn) (n : Nat) : List Nat :=
  (List.range n).foldl (dropStep keep threshold turns) []

theorem droppedUpTo_succ (keep : Keep) : droppedUpTo keep threshold turns (n + 1) =
    dropStep keep threshold turns (droppedUpTo keep threshold turns n) n := by
  simp [droppedUpTo, List.range_succ]

theorem dropStep_cases (keep : Keep) (threshold : F) (turns : List Turn) (drop : List Nat) (i : Nat) :
    i ∈ drop ∧ dropStep keep threshold turns drop i = drop ∨
    i ∉ drop ∧ (∀ j, Matching threshold turns i j → j ∈ drop) ∧ dropStep keep threshold turns drop i = drop ∨
    i ∉ drop ∧ ∃ j, Matching threshold turns i j ∧ j ∉ drop ∧
      (∀ k, k < j → Matching threshold turns i k → k ∈ drop) ∧
      dropStep keep threshold turns drop i = (match keep with | .last => i | .first => j) :: drop := by
  unfold dropStep
  by_cases gone : i ∈ drop
  · exact .inl ⟨gone, if_pos gone⟩
  · rw [if_neg gone]
    split
    next unmatched =>
      refine .inr (.inl ⟨gone, ?_, rfl⟩)
      intro j ⟨behind, alike⟩
      have inside := (lt_of_similar alike).2
      by_contra there
      have other := List.find?_range'_eq_none.mp unmatched j behind (by omega)
      simp [there, alike] at other
    next j found =>
      obtain ⟨matched, inside, before⟩ := List.find?_range'_eq_some.mp found
      simp only [Bool.and_eq_true, decide_eq_true_eq] at matched
      have behind := (List.mem_range'_1.mp inside).1
      refine .inr (.inr ⟨gone, j, ⟨behind, matched.2⟩, matched.1, ?_, rfl⟩)
      intro k earlier ⟨between, alike⟩
      by_contra there
      have other := before k between earlier
      simp [there, alike] at other

theorem mem_droppedUpTo_last (n i : Nat) :
    i ∈ droppedUpTo .last threshold turns n ↔ i < n ∧ ∃ j, Matching threshold turns i j := by
  induction n generalizing i with
  | zero => simp [droppedUpTo]
  | succ n ih =>
    rw [droppedUpTo_succ]
    rcases dropStep_cases .last threshold turns (droppedUpTo .last threshold turns n) n with
      ⟨gone, -⟩ | ⟨-, unmatched, same⟩ | ⟨-, j, matched, -, -, same⟩
    · exact absurd ((ih n).mp gone).1 (Nat.lt_irrefl n)
    · rw [same, ih]
      constructor
      · intro ⟨before, matched⟩
        exact ⟨by omega, matched⟩
      · intro ⟨upTo, j, matched⟩
        rcases Nat.lt_succ_iff_lt_or_eq.mp upTo with before | here
        · exact ⟨before, j, matched⟩
        · subst here
          -- Only earlier ones are gone, and its match is behind it.
          have gone := (ih j).mp (unmatched j matched)
          exact absurd gone.1 (Nat.lt_asymm matched.1)
    · rw [same, List.mem_cons, ih]
      constructor
      · intro either
        rcases either with here | ⟨before, others⟩
        · subst here
          exact ⟨Nat.lt_succ_self i, j, matched⟩
        · exact ⟨by omega, others⟩
      · intro ⟨upTo, others⟩
        rcases Nat.lt_succ_iff_lt_or_eq.mp upTo with before | here
        · exact .inr ⟨before, others⟩
        · exact .inl here

theorem mem_droppedUpTo_first (n j : Nat) :
    j ∈ droppedUpTo .first threshold turns n ↔ ∃ i, i < n ∧ Spoils (Matching threshold turns) i j := by
  induction n generalizing j with
  | zero => simp [droppedUpTo]
  | succ n ih =>
    have split (j : Nat) : (∃ i, i < n + 1 ∧ Spoils (Matching threshold turns) i j) ↔
        j ∈ droppedUpTo .first threshold turns n ∨ Spoils (Matching threshold turns) n j := by
      rw [ih]
      constructor
      · intro ⟨i, upTo, spoils⟩
        rcases Nat.lt_succ_iff_lt_or_eq.mp upTo with before | here
        · exact .inl ⟨i, before, spoils⟩
        · exact .inr (here ▸ spoils)
      · intro either
        rcases either with ⟨i, before, spoils⟩ | spoils
        · exact ⟨i, by omega, spoils⟩
        · exact ⟨n, by omega, spoils⟩
    have earlier {k : Nat} (gone : k ∉ droppedUpTo .first threshold turns n) (h : Nat) (before : h < n) :
        ¬ Spoils (Matching threshold turns) h k := fun spoils => gone ((ih k).mpr ⟨h, before, spoils⟩)
    rw [split, droppedUpTo_succ]
    rcases dropStep_cases .first threshold turns (droppedUpTo .first threshold turns n) n with
      ⟨gone, same⟩ | ⟨-, unmatched, same⟩ | ⟨there, other, matched, fresh, least, same⟩
    · rw [same]
      refine ⟨.inl, fun either => either.elim id fun spoils => ?_⟩
      rw [Spoils] at spoils
      obtain ⟨h, before, taken⟩ := (ih n).mp gone
      exact absurd taken (spoils.2.1 h before)
    · rw [same]
      refine ⟨.inl, fun either => either.elim id fun spoils => ?_⟩
      rw [Spoils] at spoils
      exact unmatched j spoils.1
    · rw [same, List.mem_cons, or_comm]
      apply or_congr_right
      constructor
      · intro here
        subst here
        rw [Spoils]
        refine ⟨matched, earlier there, earlier fresh, fun k _ between rival => ?_⟩
        obtain ⟨h, before, spoils⟩ := (ih k).mp (least k between rival)
        exact ⟨h, before, spoils⟩
      · intro spoils
        rw [Spoils] at spoils
        obtain ⟨rival, -, untaken, firsts⟩ := spoils
        rcases Nat.lt_trichotomy j other with before | here | behind
        · obtain ⟨h, lower, taken⟩ := (ih j).mp (least j before rival)
          exact absurd taken (untaken h lower)
        · exact here
        · obtain ⟨h, lower, taken⟩ := firsts other matched.1 behind matched
          exact absurd taken (earlier fresh h lower)

end Near

section Places
variable {R S : Nat → Nat → Prop} {places : List Nat} {a b p q : Nat}

theorem lt_iff_of_sorted (sorted : places.Pairwise (· < ·)) (first : places[a]? = some p)
    (second : places[b]? = some q) :
    a < b ↔ p < q := by
  obtain ⟨insideA, rfl⟩ := List.getElem?_eq_some_iff.mp first
  obtain ⟨insideB, rfl⟩ := List.getElem?_eq_some_iff.mp second
  have ordered := List.pairwise_iff_getElem.mp sorted
  constructor
  · intro before
    exact ordered a b insideA insideB before
  · intro lower
    rcases Nat.lt_trichotomy a b with before | here | behind
    · exact before
    · subst here
      exact absurd lower (Nat.lt_irrefl _)
    · exact absurd (ordered b a insideB insideA behind) (by omega)

/-- Who takes out whom does not depend on whether the turns are counted before or after the first pass. -/
theorem spoils_places (sorted : places.Pairwise (· < ·))
    (agree : ∀ a b p q, places[a]? = some p → places[b]? = some q → (R a b ↔ S p q))
    (inside : ∀ p q, S p q → p ∈ places ∧ q ∈ places) (a : Nat) :
    ∀ b p q, places[a]? = some p → places[b]? = some q → (Spoils R a b ↔ Spoils S p q) := by
  induction a using Nat.strongRecOn with
  | ind a ih =>
    intro b p q first second
    have taken (b q : Nat) (second : places[b]? = some q) :
        (∃ h, h < a ∧ Spoils R h b) ↔ ∃ h, h < p ∧ Spoils S h q := by
      constructor
      · intro ⟨h, before, spoils⟩
        have short : h < places.length := Nat.lt_trans before (List.getElem?_eq_some_iff.mp first).1
        have place : places[h]? = some places[h] := List.getElem?_eq_getElem short
        exact ⟨places[h], (lt_iff_of_sorted sorted place first).mp before,
          (ih h before b _ q place second).mp spoils⟩
      · intro ⟨h, lower, spoils⟩
        have rival : S h q := by
          rw [Spoils] at spoils
          exact spoils.1
        obtain ⟨c, place⟩ := List.mem_iff_getElem?.mp (inside h q rival).1
        have before := (lt_iff_of_sorted sorted place first).mpr lower
        exact ⟨c, before, (ih c before b h q place second).mpr spoils⟩
    have untaken (b q : Nat) (second : places[b]? = some q) :
        (∀ h, h < a → ¬ Spoils R h b) ↔ ∀ h, h < p → ¬ Spoils S h q := by
      have both := not_congr (taken b q second)
      simpa only [not_exists, not_and] using both
    rw [Spoils, Spoils, agree a b p q first second, untaken a p first, untaken b q second]
    refine and_congr_right fun _ => and_congr_right fun _ => and_congr_right fun _ => ?_
    constructor
    · intro firsts k lower upper rival
      obtain ⟨c, place⟩ := List.mem_iff_getElem?.mp (inside p k rival).2
      obtain ⟨h, before, spoils⟩ := firsts c ((lt_iff_of_sorted sorted first place).mpr lower)
        ((lt_iff_of_sorted sorted place second).mpr upper) ((agree a c p k first place).mpr rival)
      obtain ⟨h, before, spoils⟩ := (taken c k place).mp ⟨h, before, spoils⟩
      exact ⟨h, before, spoils⟩
    · intro firsts k behind before rival
      have short : k < places.length := Nat.lt_trans before (List.getElem?_eq_some_iff.mp second).1
      have place : places[k]? = some places[k] := List.getElem?_eq_getElem short
      obtain ⟨h, lower, spoils⟩ := firsts places[k] ((lt_iff_of_sorted sorted first place).mp behind)
        ((lt_iff_of_sorted sorted place second).mp before) ((agree a k p places[k] first place).mp rival)
      obtain ⟨h, lower, spoils⟩ := (taken k places[k] place).mpr ⟨h, lower, spoils⟩
      exact ⟨h, lower, spoils⟩

theorem getElem?_filterMap_places {Item : Type} {items : List Item}
    (inside : ∀ p ∈ places, p < items.length) (a : Nat) :
    (places.filterMap (items[·]?))[a]? = places[a]?.bind (items[·]?) := by
  induction places generalizing a with
  | nil => simp
  | cons p places ih =>
    have short : p < items.length := inside p List.mem_cons_self
    have found : items[p]? = some items[p] := List.getElem?_eq_getElem short
    rw [List.filterMap_cons_some found]
    cases a with
    | zero => simp [found]
    | succ a => simpa using ih (fun q member => inside q (List.mem_cons_of_mem p member)) a

end Places

section Kept
variable {F Hash : Type} [Ratios F] [DecidableEq Hash] {sha256 : String → Hash} {threshold : F}
  {turns : List Turn} {p q : Nat}

/-- Two turns that the first pass leaves, of one role and with similar texts, at a threshold that can
be met by different texts. -/
def Rivals (sha256 : String → Hash) (keep : Keep) (threshold : F) (turns : List Turn) (p q : Nat) : Prop :=
  Ratios.atLeast threshold Ratios.one = false ∧ Stands keep (turns.map (key sha256)) p ∧
    Stands keep (turns.map (key sha256)) q ∧ p < q ∧ similar threshold turns p q = true

/-- A turn gives way to another: one with its hash, or one that is similar. -/
def Displaced (sha256 : String → Hash) (keep : Keep) (threshold : F) (turns : List Turn) (p : Nat) : Prop :=
  ¬ Stands keep (turns.map (key sha256)) p ∨
    match keep with
    | .last => ∃ q, Rivals sha256 keep threshold turns p q
    | .first => ∃ q, Spoils (Rivals sha256 keep threshold turns) q p

theorem afterExact_sorted (keep : Keep) (keys : List Hash) : (afterExact keep keys).Pairwise (· < ·) :=
  List.pairwise_lt_range.filter _

omit [DecidableEq Hash] in
theorem Stands.lt {keep : Keep} (stands : Stands keep (turns.map (key sha256)) p) : p < turns.length := by
  obtain ⟨hash, found, -⟩ := stands
  simpa using lt_of_getElem? found

theorem keptPlaces_sorted (keep : Keep) : (keptPlaces sha256 keep threshold turns).Pairwise (· < ·) := by
  simp only [keptPlaces]
  split
  · exact afterExact_sorted keep _
  · have sorted : ((afterExact keep (turns.map (key sha256))).zipIdx.map Prod.fst).Pairwise (· < ·) := by
      rw [List.zipIdx_map_fst]
      exact afterExact_sorted keep _
    exact List.Pairwise.sublist (List.filter_sublist.map Prod.fst) sorted

def leftTurns (sha256 : String → Hash) (keep : Keep) (turns : List Turn) : List Turn :=
  (afterExact keep (turns.map (key sha256))).filterMap (turns[·]?)

theorem getElem?_leftTurns {keep : Keep} {a : Nat}
    (place : (afterExact keep (turns.map (key sha256)))[a]? = some p) :
    (leftTurns sha256 keep turns)[a]? = turns[p]? := by
  have inside : ∀ p ∈ afterExact keep (turns.map (key sha256)), p < turns.length :=
    fun p member => ((mem_afterExact keep).mp member).lt
  rw [leftTurns, getElem?_filterMap_places inside, place]
  rfl

theorem matching_iff_rivals {keep : Keep} (low : Ratios.atLeast threshold Ratios.one = false) {a b : Nat}
    (first : (afterExact keep (turns.map (key sha256)))[a]? = some p)
    (second : (afterExact keep (turns.map (key sha256)))[b]? = some q) :
    Matching threshold (leftTurns sha256 keep turns) a b ↔ Rivals sha256 keep threshold turns p q := by
  have alike : similar threshold (leftTurns sha256 keep turns) a b = similar threshold turns p q := by
    simp only [similar, getElem?_leftTurns first, getElem?_leftTurns second]
  have standsP := (mem_afterExact keep).mp (List.mem_iff_getElem?.mpr ⟨a, first⟩)
  have standsQ := (mem_afterExact keep).mp (List.mem_iff_getElem?.mpr ⟨b, second⟩)
  simp only [Matching, Rivals, alike, low, standsP, standsQ,
    lt_iff_of_sorted (afterExact_sorted keep _) first second, true_and]

theorem length_leftTurns (keep : Keep) :
    (leftTurns sha256 keep turns).length = (afterExact keep (turns.map (key sha256))).length := by
  apply List.filterMap_length_eq_length.mpr
  intro p member
  have short := ((mem_afterExact keep).mp member).lt
  simp [short]

theorem mem_dropped {keep : Keep} (low : Ratios.atLeast threshold Ratios.one = false) {a : Nat}
    (place : (afterExact keep (turns.map (key sha256)))[a]? = some p) :
    a ∈ dropped keep threshold (leftTurns sha256 keep turns) ↔ Displaced sha256 keep threshold turns p := by
  have stands := (mem_afterExact keep).mp (List.mem_iff_getElem?.mpr ⟨a, place⟩)
  have inside {b : Nat} (short : b < (leftTurns sha256 keep turns).length) :
      ∃ q, (afterExact keep (turns.map (key sha256)))[b]? = some q := by
    rw [length_leftTurns] at short
    exact ⟨_, List.getElem?_eq_getElem short⟩
  simp only [Displaced, stands, not_true, false_or]
  change a ∈ droppedUpTo keep threshold (leftTurns sha256 keep turns) _ ↔ _
  cases keep with
  | last =>
    rw [mem_droppedUpTo_last]
    constructor
    · intro ⟨_, b, matching⟩
      obtain ⟨q, second⟩ := inside (lt_of_similar matching.2).2
      exact ⟨q, (matching_iff_rivals low place second).mp matching⟩
    · intro ⟨q, rivals⟩
      obtain ⟨b, second⟩ := List.mem_iff_getElem?.mp ((mem_afterExact .last).mpr rivals.2.2.1)
      have matching := (matching_iff_rivals low place second).mpr rivals
      exact ⟨(lt_of_similar matching.2).1, b, matching⟩
  | first =>
    have same (b q : Nat) (other : (afterExact .first (turns.map (key sha256)))[b]? = some q) :
        Spoils (Matching threshold (leftTurns sha256 .first turns)) b a ↔
          Spoils (Rivals sha256 .first threshold turns) q p :=
      spoils_places (afterExact_sorted .first _) (fun _ _ _ _ => matching_iff_rivals low)
        (fun _ _ rivals =>
          ⟨(mem_afterExact _).mpr rivals.2.1,
          (mem_afterExact _).mpr rivals.2.2.1⟩) b a q p other place
    rw [mem_droppedUpTo_first]
    constructor
    · intro ⟨b, short, spoils⟩
      obtain ⟨q, other⟩ := inside short
      exact ⟨q, (same b q other).mp spoils⟩
    · intro ⟨q, spoils⟩
      have rivals : Rivals sha256 .first threshold turns q p := by
        rw [Spoils] at spoils
        exact spoils.1
      obtain ⟨b, other⟩ := List.mem_iff_getElem?.mp ((mem_afterExact .first).mpr rivals.2.1)
      have matching := (matching_iff_rivals low other place).mpr rivals
      exact ⟨b, (lt_of_similar matching.2).1, (same b q other).mpr spoils⟩

theorem not_rivals_of_few {keep : Keep} (few : (afterExact keep (turns.map (key sha256))).length < 2) :
    ¬ Rivals sha256 keep threshold turns p q := by
  intro ⟨_, standsP, standsQ, before, _⟩
  obtain ⟨a, first⟩ := List.mem_iff_getElem?.mp ((mem_afterExact keep).mpr standsP)
  obtain ⟨b, second⟩ := List.mem_iff_getElem?.mp ((mem_afterExact keep).mpr standsQ)
  have order := (lt_iff_of_sorted (afterExact_sorted keep _) first second).mpr before
  have short := (List.getElem?_eq_some_iff.mp second).1
  omega

/-- Both passes leave exactly the turns that give way to no other. -/
theorem mem_keptPlaces (keep : Keep) : p ∈ keptPlaces sha256 keep threshold turns ↔
    p < turns.length ∧ ¬ Displaced sha256 keep threshold turns p := by
  have exact_only (none_rival : ∀ p q, ¬ Rivals sha256 keep threshold turns p q) :
      p ∈ afterExact keep (turns.map (key sha256)) ↔
          p < turns.length ∧ ¬ Displaced sha256 keep threshold turns p := by
    have unspoilt (q : Nat) : ¬ Spoils (Rivals sha256 keep threshold turns) q p := by
      intro spoils
      rw [Spoils] at spoils
      exact none_rival q p spoils.1
    rw [mem_afterExact]
    constructor
    · intro stands
      refine ⟨stands.lt, fun displaced => ?_⟩
      rcases displaced with fallen | near
      · exact fallen stands
      · cases keep with
        | last => exact near.elim fun q rivals => none_rival p q rivals
        | first => exact near.elim unspoilt
    · intro ⟨_, staying⟩
      by_contra fallen
      exact staying (.inl fallen)
  simp only [keptPlaces]
  split
  next only =>
    apply exact_only
    intro p q
    rcases only with high | few
    · intro ⟨low, _⟩
      rw [high] at low
      cases low
    · exact not_rivals_of_few few
  next both =>
    have low : Ratios.atLeast threshold Ratios.one = false := by
      by_contra high
      exact both (.inl (by simpa using high))
    simp only [List.mem_map, List.mem_filter, Prod.exists, exists_and_right, exists_eq_right,
      decide_eq_true_eq,
      List.mk_mem_zipIdx_iff_getElem?]
    constructor
    · intro ⟨a, place, staying⟩
      have stands := (mem_afterExact keep).mp (List.mem_iff_getElem?.mpr ⟨a, place⟩)
      exact ⟨stands.lt, fun displaced => staying ((mem_dropped low place).mpr displaced)⟩
    · intro ⟨_, staying⟩
      have stands : Stands keep (turns.map (key sha256)) p := by
        by_contra fallen
        exact staying (.inl fallen)
      obtain ⟨a, place⟩ := List.mem_iff_getElem?.mp ((mem_afterExact keep).mpr stands)
      exact ⟨a, place, fun gone => staying ((mem_dropped low place).mp gone)⟩

end Kept

section Conversations
variable {N F Hash : Type} [Numerals N] [Ratios F] [DecidableEq Hash] {str : Json N → String}
  {sha256 : String → Hash}
variable {keep : Keep} {threshold : F} {messages : List (Message N)} {turns : List Turn}

/-- The deduplication returns a conversation in which results follow their calls, and has taken out
neither a call without its result nor a result without its call. -/
structure Intact (str : Json N → String) (sha256 : String → Hash) (keep : Keep) (threshold : F)
    (messages : List (Message N)) : Prop where
  follows : ∃ kept, dedupMessages str sha256 keep threshold messages = some kept ∧ Follows kept
  together : ∀ turns, messages.mapM (turn str) = some turns → ∀ i j, Paired messages i j →
    (i ∈ keptPlaces sha256 keep threshold turns ↔ j ∈ keptPlaces sha256 keep threshold turns)

theorem length_turns (made : messages.mapM (turn str) = some turns) : turns.length = messages.length := by
  induction messages generalizing turns with
  | nil =>
    cases made
    rfl
  | cons message messages ih =>
    rw [List.mapM_cons] at made
    obtain ⟨first, _, others⟩ := Option.bind_eq_some_iff.mp made
    obtain ⟨rest, found, same⟩ := Option.bind_eq_some_iff.mp others
    cases same
    simp [ih found]

theorem follows_of_together (valid : Follows messages) (made : messages.mapM (turn str) = some turns)
    (together : ∀ i j, Paired messages i j →
      (i ∈ keptPlaces sha256 keep threshold turns ↔ j ∈ keptPlaces sha256 keep threshold turns)) :
    Follows ((keptPlaces sha256 keep threshold turns).filterMap (messages[·]?)) := by
  have inside : ∀ p ∈ keptPlaces sha256 keep threshold turns, p < messages.length := by
    intro p member
    rw [← length_turns made]
    exact ((mem_keptPlaces keep).mp member).1
  have at_place (a : Nat) : ((keptPlaces sha256 keep threshold turns).filterMap (messages[·]?))[a]? =
      (keptPlaces sha256 keep threshold turns)[a]?.bind (messages[·]?) := getElem?_filterMap_places inside a
  intro b answer found id named
  rw [at_place] at found
  obtain ⟨j, place, here⟩ := Option.bind_eq_some_iff.mp found
  obtain ⟨i, caller, before, there, called⟩ := valid j answer here id named
  have paired : Paired messages i j := ⟨before, caller, answer, id, there, here, called, named⟩
  have kept := (together i j paired).mpr (List.mem_iff_getElem?.mpr ⟨b, place⟩)
  obtain ⟨a, first⟩ := List.mem_iff_getElem?.mp kept
  refine ⟨a, caller, (lt_iff_of_sorted (keptPlaces_sorted keep) first place).mpr before, ?_, called⟩
  rw [at_place, first]
  exact there

def asking (id : String) : Message Int :=
  ⟨[("role", .string "assistant"), ("content", .string ""),
    ("tool_calls", .array [.object [("id", .string id)]])], by simp⟩

def answering (id text : String) : Message Int :=
  ⟨[("role", .string "tool"), ("content", .string text), ("tool_call_id", .string id)], by simp⟩

theorem calls_asking (id : String) : calls (asking id) = [.string id] := rfl

theorem results_asking (id : String) : results (asking id) = [] := rfl

theorem results_answering (id text : String) : results (answering id text) = [.string id] := rfl

theorem turn_asking (id : String) : turn (fun _ => "") (asking id) = some ⟨"assistant", ""⟩ := rfl

theorem turn_answering (id text : String) :
    turn (fun _ => "") (answering id text) = some ⟨"tool", text⟩ :=
  rfl

def twoCalls : List (Message Int) :=
  [asking "a", answering "a" "sunny today", asking "b", answering "b" "heavy rain"]

theorem twoCalls_follows : Follows twoCalls := by
  intro j answer found id named
  match j with
  | 0 =>
    cases found
    rw [results_asking] at named
    cases named
  | 1 =>
    cases found
    rw [results_answering, List.mem_singleton] at named
    exact ⟨0, asking "a", by decide, rfl, by rw [calls_asking, named]; exact List.mem_singleton_self _⟩
  | 2 =>
    cases found
    rw [results_asking] at named
    cases named
  | 3 =>
    cases found
    rw [results_answering, List.mem_singleton] at named
    exact ⟨2, asking "b", by decide, rfl, by rw [calls_asking, named]; exact List.mem_singleton_self _⟩

def twoTurns : List Turn :=
  [⟨"assistant", ""⟩, ⟨"tool", "sunny today"⟩, ⟨"assistant", ""⟩, ⟨"tool", "heavy rain"⟩]

theorem twoCalls_turns : twoCalls.mapM (turn fun _ => "") = some twoTurns := by
  simp only [twoCalls, List.mapM_cons, List.mapM_nil, turn_asking, turn_answering]
  rfl

end Conversations
end TokenPak.Compression.Dedup
