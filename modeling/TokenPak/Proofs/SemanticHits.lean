import Mathlib.Data.List.Induction
import TokenPak.Cache.SemanticCache

/-! What a hit of the semantic cache says. Each entry that is there was stored by a call that no
later one replaced, invalidated or cleared. Normalisation keeps what is compared of a query when
its letters and digits are those of ASCII, and the key of model and provider tells them apart when
the separator is not part of their names. -/

namespace TokenPak.Cache.SemanticCache
open Library Text

section Words
variable {unicode : Unicode} {query other : String}

def AsciiWords (unicode : Unicode) (query : String) : Prop :=
  ∀ c ∈ unicode.lower (collapse (strip query).toList), unicode.isAlnum c = true → isAsciiAlnum c = true

theorem asciiWords_of_all {unicode : Unicode} {query : String}
    (all : (unicode.lower (collapse (strip query).toList)).all (fun c => !unicode.isAlnum c ||
      isAsciiAlnum c) = true) :
    AsciiWords unicode query := by
  intro c member letter
  simpa [letter] using List.all_eq_true.mp all c member

theorem mem_of_mem_removeFillers {c : Char} (before : Option Char) (passing : Nat) (text : List Char)
    (member : c ∈ removeFillers unicode before passing text) : c ∈ text := by
  induction text generalizing before passing with
  | nil => exact member
  | cons first rest ih =>
    unfold removeFillers at member
    split at member
    · exact List.mem_cons_of_mem _ (ih _ _ member)
    · split at member
      · exact List.mem_cons_of_mem _ (ih _ _ member)
      · rcases List.mem_cons.mp member with same | there
        · exact same ▸ List.mem_cons_self
        · exact List.mem_cons_of_mem _ (ih _ _ there)

theorem tokenize_normalise (ascii : AsciiWords unicode query) :
    tokenize (normalise unicode query) = wordSet unicode query := by
  have same : (plain unicode query).filter (fun c => isAsciiAlnum c || decide (c = ' ')) =
      (plain unicode query).filter fun c => unicode.isAlnum c || decide (c = ' ') := by
    apply List.filter_congr
    intro c member
    have inside := mem_of_mem_removeFillers none 0 _ member
    have equal : isAsciiAlnum c = unicode.isAlnum c := by
      cases letter : unicode.isAlnum c with
      | true => exact ascii c inside letter
      | false =>
        by_contra other
        have plain_letter : isAsciiAlnum c = true := by simpa using other
        have range : 'a' ≤ c ∧ c ≤ 'z' ∨ '0' ≤ c ∧ c ≤ '9' := by simpa [isAsciiAlnum] using plain_letter
        rw [unicode.ascii c range] at letter
        cases letter
    rw [equal]
  rw [tokenize, normalise, split_strip, String.toList_ofList, split_collapse, wordSet, same]

theorem filter_mem_self (words : List (List Char)) : words.filter (· ∈ words) = words :=
  List.filter_eq_self.mpr fun _ member => decide_eq_true member

theorem jaccard_self {F : Type} [Ratios F] {words : List (List Char)} (distinct : words.Nodup) :
    jaccard F words words = Ratios.one := by
  unfold jaccard
  split
  · rfl
  next some_words =>
    have nonempty : words ≠ [] := fun empty => some_words ⟨empty, empty⟩
    have whole : (words ++ words).dedup.length = words.length := by
      have same : (words ++ words).dedup.Perm words := by
        apply (List.perm_ext_iff_of_nodup (List.nodup_dedup _) distinct).mpr
        intro word
        simp
      exact same.length_eq
    rw [filter_mem_self, whole]
    exact Ratios.divide_self _ (List.length_pos_iff.mpr nonempty)

end Words

section Features
variable {first second : Features}

/-- Names without the separator are told apart. -/
theorem features_of_key (apart : '\x1f' ∉ first.model.toList ∧ '\x1f' ∉ second.model.toList ∨
      '\x1f' ∉ first.provider.toList ∧ '\x1f' ∉ second.provider.toList)
    (same : featuresKey first = featuresKey second) : first = second := by
  have named (features : Features) (one : ¬ (features.model = "" ∧ features.provider = "")) :
      (featuresKey features).toList = features.model.toList ++ '\x1f' :: features.provider.toList := by
    simp [featuresKey, if_neg one, String.toList_append]
  have unnamed {features : Features} (none_given : features.model = "" ∧ features.provider = "") :
      (featuresKey features).toList = [] := by
    simp [featuresKey, if_pos none_given]
  have keys := congrArg String.toList same
  have equal (parts : first.model = second.model ∧ first.provider = second.provider) : first = second := by
    cases first
    cases second
    simpa using parts
  by_cases empty : first.model = "" ∧ first.provider = ""
  · by_cases other : second.model = "" ∧ second.provider = ""
    · exact equal ⟨empty.1.trans other.1.symm, empty.2.trans other.2.symm⟩
    · rw [unnamed empty, named second other] at keys
      simp at keys
  · by_cases other : second.model = "" ∧ second.provider = ""
    · rw [unnamed other, named first empty] at keys
      simp at keys
    · rw [named first empty, named second other] at keys
      have parts : first.model.toList = second.model.toList ∧
          first.provider.toList = second.provider.toList := by
        rcases apart with ⟨left, right⟩ | ⟨left, right⟩
        · exact split_at_first keys left right
        · exact split_at_last keys left right
      exact equal ⟨String.toList_inj.mp parts.1, String.toList_inj.mp parts.2⟩

end Features

section Runs
variable {Time Bytes F : Type} [LinearOrder Time] [Ratios F] {unicode : Unicode} {sha256 : String → String}
variable {config : Config Time F} {calls : List (Call Time Bytes)} {cache : Store Time Bytes}
  {entry : Entry Time Bytes}

/-- A call that takes the answer to a query away. -/
def Removes (unicode : Unicode) (query : String) (format : Format) (features : Features) :
    Call Time Bytes → Prop
  | .store _ other _ _ otherFormat otherFeatures =>
    normalise unicode other = normalise unicode query ∧ otherFormat = format ∧ otherFeatures = features
  | .lookup _ _ _ _ => False
  | .invalidate other => normalise unicode other = normalise unicode query
  | .clear => True

/-- The entry was stored by a call that no later one has undone. -/
def Stands (unicode : Unicode) (sha256 : String → String) (calls : List (Call Time Bytes)) (key : String)
    (entry : Entry Time Bytes) : Prop :=
  ∃ before after now query response contentType format features,
    calls = before ++ .store now query response contentType format features :: after ∧
      key = storeKey unicode sha256 query format features ∧
      entry = newEntry unicode sha256 now query response contentType format features ∧
      ∀ call ∈ after, ¬ Removes unicode query format features call

variable {key query : String} {now : Time} {format : Format} {features : Features}

omit [LinearOrder Time] [Ratios F] in
theorem Stands.later {call : Call Time Bytes} (stands : Stands unicode sha256 calls key entry)
    (kept : ∀ now query response contentType format features,
      key = storeKey unicode sha256 query format features →
      entry = newEntry unicode sha256 now query response contentType format features →
      ¬ Removes unicode query format features call) :
    Stands unicode sha256 (calls ++ [call]) key entry := by
  obtain ⟨before, after, now, query, response, contentType, format, features, whole, named, made,
      since⟩ :=
    stands
  refine ⟨before, after ++ [call], now, query, response, contentType, format, features,
    by simp [whole], named, made, ?_⟩
  intro other member
  rcases List.mem_append.mp member with earlier | last
  · exact since other earlier
  · rw [List.mem_singleton.mp last]
    exact kept now query response contentType format features named made

omit [Ratios F] in
theorem evicted_get (found : (evictExpired config cache now).get key = some entry) :
    cache.get key = some entry ∧ ¬ config.expiresAt entry.createdAt < now := by
  obtain ⟨before, live⟩ := Dict.get_filter.mp found
  exact ⟨before, by simpa using live⟩

theorem lookup_cache
    (found : (lookup unicode sha256 config cache now query format features).2.get key = some entry) :
    cache.get key = some entry := by
  simp only [lookup] at found
  split at found
  · exact found
  · split at found
    · exact (evicted_get found).1
    · split at found
      · split at found
        · exact (evicted_get found).1
        · exact (evicted_get found).1
      · exact (evicted_get found).1

omit [LinearOrder Time] [Ratios F] in
theorem store_get {response : Bytes} {contentType : String}
    (found : (store unicode sha256 config cache now query response contentType format features).get key = some entry) :
    key = storeKey unicode sha256 query format features ∧
        entry = newEntry unicode sha256 now query response contentType format features ∨
      key ≠ storeKey unicode sha256 query format features ∧ cache.get key = some entry := by
  simp only [store] at found
  split at found
  · cases found
  · by_cases here : key = storeKey unicode sha256 query format features
    · subst here
      rw [Dict.get_set_self] at found
      exact .inl ⟨rfl, (Option.some.inj found).symm⟩
    · rw [Dict.get_set_of_ne here] at found
      have before := Dict.get_of_dropOldest found
      rw [Dict.get_pop_of_ne here] at before
      exact .inr ⟨here, before⟩

theorem run_snoc (call : Call Time Bytes) : run unicode sha256 config (calls ++ [call]) =
    step unicode sha256 config (run unicode sha256 config calls) call := by
  simp [run, List.foldl_append]

theorem run_stands (calls : List (Call Time Bytes)) (key : String) (entry : Entry Time Bytes)
    (found : (run unicode sha256 config calls).get key = some entry) :
    Stands unicode sha256 calls key entry := by
  induction calls using List.reverseRecOn generalizing key entry with
  | nil => cases found
  | append_singleton calls call ih =>
    rw [run_snoc] at found
    cases call with
    | store now query response contentType format features =>
      rcases store_get found with ⟨named, made⟩ | ⟨apart, before⟩
      · exact ⟨calls, [], now, query, response, contentType, format, features, rfl, named, made, by simp⟩
      · apply (ih key entry before).later
        intro _ other _ _ otherFormat otherFeatures named _ ⟨sameQuery, sameFormat, sameFeatures⟩
        apply apart
        rw [named, ← sameFormat, ← sameFeatures, storeKey, storeKey, sameQuery]
    | lookup now query format features =>
      apply (ih key entry (lookup_cache found)).later
      intro _ _ _ _ _ _ _ _ removes
      exact removes
    | invalidate query =>
      obtain ⟨before, left⟩ := Dict.get_filter.mp found
      apply (ih key entry before).later
      intro _ other _ _ _ _ named _ same
      have same_text : normalise unicode query = normalise unicode other := same
      rw [decide_eq_true_eq] at left
      apply left
      rw [List.isPrefixOf_iff_prefix, named, storeKey, same_text]
      simp only [String.toList_append, List.append_assoc]
      exact List.prefix_append_right_inj _ |>.mpr (List.prefix_append _ _)
    | clear => cases found

omit [LinearOrder Time] in
theorem bestMatch_score (words : List (List Char)) (entries : List (Entry Time Bytes))
    {best : Entry Time Bytes} {score : F}
    (found : bestMatch words entries = (some best, score)) :
    best ∈ entries ∧ score = jaccard F words (tokenize best.queryNormalized) := by
  induction entries using List.reverseRecOn generalizing best score with
  | nil => cases found
  | append_singleton entries entry ih =>
    simp only [bestMatch, List.foldl_append, List.foldl_cons, List.foldl_nil] at found
    split at found
    · obtain ⟨member, same⟩ := ih found
      exact ⟨List.mem_append_left _ member, same⟩
    · cases found
      exact ⟨List.mem_append_right _ List.mem_cons_self, rfl⟩

theorem lookup_hit
    (hit : (lookup unicode sha256 config cache now query format features).1.entry = some entry) :
    (∃ key, cache.get key = some entry) ∧ ¬ config.expiresAt entry.createdAt < now ∧
      entry.wireFormat = format ∧
      featuresKey entry.keyFeatures = featuresKey features ∧
      ((entry.queryHash = sha256 (normalise unicode query) ∨
        entry.queryNormalized = normalise unicode query) ∨
        Ratios.atLeast (jaccard F (tokenize (normalise unicode query)) (tokenize entry.queryNormalized))
          config.similarityThreshold = true) := by
  have among (member : entry ∈ (evictExpired config cache now).values.filter fun entry =>
      decide (entry.wireFormat = format ∧ featuresKey entry.keyFeatures = featuresKey features)) :
      (∃ key, cache.get key = some entry) ∧ ¬ config.expiresAt entry.createdAt < now ∧
        entry.wireFormat = format ∧
        featuresKey entry.keyFeatures = featuresKey features := by
    obtain ⟨inside, matching⟩ := List.mem_filter.mp member
    obtain ⟨⟨key, held⟩, there, rfl⟩ := List.mem_map.mp inside
    obtain ⟨before, live⟩ := evicted_get (Dict.get_of_mem there)
    rw [decide_eq_true_eq] at matching
    exact ⟨⟨key, before⟩, live, matching.1, matching.2⟩
  simp only [lookup] at hit
  split at hit
  · cases hit
  · split at hit
    next found =>
      cases hit
      obtain ⟨live, fresh, sameFormat, sameKey⟩ := among (List.mem_of_find?_eq_some found)
      exact ⟨live, fresh, sameFormat, sameKey, .inl (by simpa using List.find?_some found)⟩
    next =>
      split at hit
      next best score found =>
        split at hit
        next reached =>
          cases hit
          obtain ⟨member, same⟩ := bestMatch_score _ _ found
          obtain ⟨live, fresh, sameFormat, sameKey⟩ := among member
          exact ⟨live, fresh, sameFormat, sameKey, .inr (same ▸ reached)⟩
        next => cases hit
      next => cases hit

/-- What is asked of the calls that store something. -/
def Storing (test : String → Features → Prop) : Call Time Bytes → Prop
  | .store _ query _ _ _ features => test query features
  | _ => True

end Runs

section Cases

/-- Letters of two scripts, of which one has no case. -/
def twoScripts : Unicode where
  lower text := text.map Char.toLower
  isAlnum c := isAsciiAlnum c || 0x4e00 ≤ c.toNat && c.toNat ≤ 0x9fff
  ascii c range := by
    have letter : isAsciiAlnum c = true := by simpa [isAsciiAlnum] using range
    simp [letter]

def fiveMinutes : Config Nat Rat := ⟨true, (· + 300), 9 / 10, 100⟩

def asked (query : String) : Call Nat Unit := .store 0 query () "application/json" .json ⟨"m", "p"⟩

def answer (stored query : String) : Option (Entry Nat Unit) :=
  (lookup twoScripts id fiveMinutes (run twoScripts id fiveMinutes [asked stored]) 1 query .json ⟨"m", "p"⟩).1.entry

end Cases
end TokenPak.Cache.SemanticCache
