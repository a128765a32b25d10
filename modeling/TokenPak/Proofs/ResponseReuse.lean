import Mathlib.Algebra.Order.Field.Basic
import TokenPak.Library.JsonText
import TokenPak.Optimization.CacheStage
import TokenPak.Proofs.SemanticHits

/-! What the stage attaches to a request. Each entry of a session's cache was recorded in that
session, and all caches have the one lifetime of the policies. The keys leave out the system prompt,
the tools and whatever is no text, and a cache keeps the threshold of the route that came first. -/

namespace TokenPak.Optimization.CacheStage
open Library Text Cache.SemanticCache

section Requests
variable {N : Type} [Numerals N]

def bodyField (ctx : Context N) (name : String) : Json N :=
  match ctx.body with
  | some (.object data) => field data name .null
  | _ => .null

/-- The items of a request that its query text is taken from. -/
def conversation (ctx : Context N) : List (Json N) :=
  match (ctx.canonical.map Canonical.messages).getD [], ctx.body with
  | [], some (.object data) =>
    match rawInput data with
    | .array items => items
    | _ => []
  | messages, _ => messages

def hasText : Json N → Bool
  | .object block => Json.truthy (field block "text" (.string ""))
  | _ => false

/-- What an item says by other means than texts. -/
def nonText : Json N → List (Json N)
  | .string _ => []
  | .object message =>
    let calls := ["tool_calls", "function_call"].filterMap (Json.toDict message).get
    match (Json.toDict message).get "content" with
    | some (.string _) => calls
    | some (.array blocks) => blocks.filter (fun block => ! hasText block) ++ calls
    | _ => [.object message]
  | other => [other]

def ofSystem : Json N → Bool
  | .object message =>
    match field message "role" .null with
    | .string role => role = "system" || role = "developer"
    | _ => false
  | _ => false

/-- The parts of a request that are in no key as a whole. -/
structure Unkeyed (N : Type) where
  sourceFormat : String
  system : Json N
  instructions : Json N
  systemMessages : List (Json N)
  tools : Json N
  nonText : List (Json N)

def unkeyed (ctx : Context N) : Unkeyed N where
  sourceFormat := ctx.canonical.elim "" Canonical.sourceFormat
  system := ctx.canonical.elim (bodyField ctx "system") Canonical.system
  instructions := bodyField ctx "instructions"
  systemMessages := (conversation ctx).filter ofSystem
  tools := ctx.canonical.elim (bodyField ctx "tools") fun canonical => canonical.tools.elim .null .array
  nonText := (conversation ctx).flatMap nonText

end Requests

section Runs
variable {N Time Bytes F : Type} [Numerals N] [LinearOrder Time] [Ratios F]
variable {str : Json N → String} {unicode : Unicode} {sha256 : String → String} {plus : Time → Nat → Time}
variable {calls : List (Call N Time Bytes)} {call : Call N Time Bytes} {stage : Stage Time Bytes F}

theorem threshold_le (key : String) : (responseReuseThresholds.lookup key).getD 96 ≤ 100 := by
  have all : ∀ entry ∈ responseReuseThresholds, entry.2 ≤ 100 := by decide
  cases found : responseReuseThresholds.lookup key with
  | none => simp
  | some percent =>
    obtain ⟨before, after, whole, _⟩ := List.lookup_eq_some_iff.mp found
    apply all (key, percent)
    simp [whole]

def similarity (F : Type) [Ratios F] (unicode : Unicode) (text other : String) : F :=
  jaccard F (tokenize (normalise unicode text)) (tokenize (normalise unicode other))

structure Recorded (str : Json N → String) (unicode : Unicode) (calls : List (Call N Time Bytes))
    (since : Time)
    (ctx : Context N) (query : String) (response : Bytes) : Prop where
  called : .record since ctx (some response) ∈ calls
  semantic : routeKey unicode ctx.route ∉ losslessRoutes
  asked : extractQueryText str ctx = some query

structure Kept (str : Json N → String) (unicode : Unicode) (sha256 : String → String)
    (plus : Time → Nat → Time)
    (calls : List (Call N Time Bytes)) (scopeKey : String)
    (held : Config Time F × Store Time Bytes) : Prop where
  lifetime : held.1.expiresAt = fun created => plus created 300
  recorded : ∀ key entry, held.2.get key = some entry → ∃ since ctx query response,
    Recorded str unicode calls since ctx query response ∧ makeScopeKey ctx = scopeKey ∧
      entry = newEntry unicode sha256 since query response "application/json" .json (extractModelFeatures ctx)

def AllKept (str : Json N → String) (unicode : Unicode) (sha256 : String → String) (plus : Time → Nat → Time)
    (calls : List (Call N Time Bytes)) (stage : Stage Time Bytes F) : Prop :=
  ∀ scopeKey held, stage.get scopeKey = some held → Kept str unicode sha256 plus calls scopeKey held

omit [LinearOrder Time] [Ratios F] in
theorem Kept.later {scopeKey : String} {held : Config Time F × Store Time Bytes}
    (kept : Kept str unicode sha256 plus calls scopeKey held) (call : Call N Time Bytes) :
    Kept str unicode sha256 plus (calls ++ [call]) scopeKey held := by
  constructor
  · exact kept.lifetime
  · intro key entry found
    obtain ⟨since, ctx, query, response, recorded, same⟩ := kept.recorded key entry found
    exact ⟨since, ctx, query, response, ⟨List.mem_append_left _ recorded.called, recorded.semantic,
      recorded.asked⟩, same⟩

omit [LinearOrder Time] in
/-- Whichever route brings it into being, a cache has the lifetime of all policies. -/
theorem AllKept.getOrCreate (all : AllKept str unicode sha256 plus calls stage)
    (route : Option String) (scopeKey : String) :
    Kept str unicode sha256 plus calls scopeKey
      (getOrCreateCache plus stage scopeKey (getCachePolicyForRoute F unicode route)) := by
  cases found : stage.get scopeKey with
  | some held =>
    rw [getOrCreateCache, found]
    exact all scopeKey held found
  | none =>
    rw [getOrCreateCache, found]
    constructor
    · rfl
    · intro key entry there
      cases there

omit [LinearOrder Time] [Ratios F] in
theorem AllKept.set {scopeKey : String} {held : Config Time F × Store Time Bytes}
    (all : AllKept str unicode sha256 plus calls stage)
    (kept : Kept str unicode sha256 plus calls scopeKey held) :
    AllKept str unicode sha256 plus calls (stage.set scopeKey held) := by
  intro other there found
  by_cases same : other = scopeKey
  · subst same
    rw [Dict.get_set_self] at found
    cases found
    exact kept
  · rw [Dict.get_set_of_ne same] at found
    exact all other there found

theorem AllKept.step (all : AllKept str unicode sha256 plus calls stage) (call : Call N Time Bytes) :
    AllKept str unicode sha256 plus (calls ++ [call]) (step str unicode sha256 plus stage call) := by
  have still : AllKept str unicode sha256 plus (calls ++ [call]) stage :=
    fun scopeKey held found => (all scopeKey held found).later call
  cases call with
  | apply now ctx =>
    simp only [CacheStage.step, apply]
    cases text : extractQueryText str ctx with
    | none => exact still
    | some query =>
      by_cases empty : query = ""
      · simpa [empty] using still
      · simp only [if_neg empty]
        apply still.set
        have kept := still.getOrCreate ctx.route (makeScopeKey ctx)
        exact ⟨kept.lifetime, fun key entry found => kept.recorded key entry (lookup_cache found)⟩
  | record now ctx response =>
    simp only [CacheStage.step, record]
    split
    · exact still
    next semantic =>
      cases text : extractQueryText str ctx with
      | none => exact still
      | some query =>
        by_cases empty : query = ""
        · simpa [empty] using still
        · simp only [if_neg empty]
          apply still.set
          have kept := still.getOrCreate ctx.route (makeScopeKey ctx)
          have remembered : routeKey unicode ctx.route ∉ losslessRoutes := by
            simpa [getCachePolicyForRoute] using semantic
          cases response with
          | none => exact kept
          | some response =>
            constructor
            · exact kept.lifetime
            · intro key entry found
              rcases store_get found with ⟨_, made⟩ | ⟨_, before⟩
              · exact ⟨now, ctx, query, response, ⟨List.mem_append_right _ List.mem_cons_self,
                  remembered, text⟩, rfl, made⟩
              · exact kept.recorded key entry before

theorem run_kept (calls : List (Call N Time Bytes)) :
    AllKept (F := F) str unicode sha256 plus calls (run str unicode sha256 plus calls) := by
  induction calls using List.reverseRecOn with
  | nil =>
    intro scopeKey held found
    cases found
  | append_singleton calls call ih =>
    have next : run (F := F) str unicode sha256 plus (calls ++ [call]) =
        CacheStage.step str unicode sha256 plus (run str unicode sha256 plus calls) call := by
      simp [run, List.foldl_append]
    rw [next]
    exact ih.step call

theorem apply_attached {now : Time} {ctx : Context N} {entry : Entry Time Bytes}
    (attached : (apply str unicode sha256 plus stage now ctx).1 = some entry) :
    ∃ query, extractQueryText str ctx = some query ∧
      (lookup unicode sha256
        (getOrCreateCache plus stage (makeScopeKey ctx) (getCachePolicyForRoute F unicode ctx.route)).1
        (getOrCreateCache plus stage (makeScopeKey ctx) (getCachePolicyForRoute F unicode ctx.route)).2
        now query .json (extractModelFeatures ctx)).1.entry = some entry := by
  simp only [apply] at attached
  cases text : extractQueryText str ctx with
  | none =>
    rw [text] at attached
    cases attached
  | some query =>
    simp only [text] at attached
    split at attached
    · cases attached
    · split at attached
      · exact ⟨query, rfl, attached⟩
      · cases attached

/-- What a response that is attached to a request has to be. -/
def Honours (F : Type) [Ratios F] (str : Json N → String) (unicode : Unicode) (plus : Time → Nat → Time)
    (calls : List (Call N Time Bytes)) (now : Time) (ctx : Context N) (attached : Bytes) : Prop :=
  ∃ since original query asked, Recorded str unicode calls since original query attached ∧
    extractQueryText str ctx = some asked ∧ makeScopeKey original = makeScopeKey ctx ∧
    ¬ plus since (getCachePolicyForRoute F unicode ctx.route).ttlSeconds < now ∧
    extractModelFeatures original = extractModelFeatures ctx ∧ unkeyed original = unkeyed ctx ∧
    Ratios.atLeast (similarity F unicode asked query)
      (getCachePolicyForRoute F unicode ctx.route).similarityThreshold = true

/-- For every sequence of calls and every apply behind it, a response that is attached honours the
request, if the session's cache was created under a threshold that is no lower than the route's, if
the responses of the session that could be taken for an answer were recorded for requests with the
same parts beside the keys, and if no model or no provider has the separator in its name. -/
theorem reuse_honours (inj : Function.Injective sha256)
    (trans : ∀ a b c : F, Ratios.atLeast a b = true → Ratios.atLeast b c = true → Ratios.atLeast a c = true)
    (reach : ∀ percent, percent ≤ 100 → Ratios.atLeast (Ratios.one : F) (Ratios.divide percent 100) = true)
    (calls : List (Call N Time Bytes)) (now : Time) (ctx : Context N) (entry : Entry Time Bytes)
    (strict : ∀ config cache, (run (F := F) str unicode sha256 plus calls).get (makeScopeKey ctx) =
      some (config, cache) →
      Ratios.atLeast config.similarityThreshold (getCachePolicyForRoute F unicode ctx.route).similarityThreshold = true)
    (alike : ∀ since original query asked response, Recorded str unicode calls since original query response →
      extractQueryText str ctx = some asked → makeScopeKey original = makeScopeKey ctx →
      ¬ plus since (getCachePolicyForRoute F unicode ctx.route).ttlSeconds < now →
      extractModelFeatures original = extractModelFeatures ctx →
      Ratios.atLeast (similarity F unicode asked query)
        (getCachePolicyForRoute F unicode ctx.route).similarityThreshold = true →
      unkeyed original = unkeyed ctx)
    (apart : (∀ since original response, .record since original response ∈ calls →
          '\x1f' ∉ (extractModelFeatures original).model.toList) ∧ '\x1f' ∉ (extractModelFeatures ctx).model.toList ∨
        (∀ since original response, .record since original response ∈ calls →
          '\x1f' ∉ (extractModelFeatures original).provider.toList) ∧ '\x1f' ∉ (extractModelFeatures ctx).provider.toList)
    (attached : (apply (F := F) str unicode sha256 plus (run str unicode sha256 plus calls) now ctx).1 = some entry) :
    Honours F str unicode plus calls now ctx entry.response := by
  obtain ⟨asked, text, hit⟩ := apply_attached attached
  obtain ⟨⟨key, live⟩, fresh, _, sameKey, near⟩ := lookup_hit hit
  cases found : (run (F := F) str unicode sha256 plus calls).get (makeScopeKey ctx) with
  | none =>
    rw [getOrCreateCache, found] at live
    cases live
  | some held =>
    obtain ⟨config, cache⟩ := held
    have kept := run_kept calls (makeScopeKey ctx) (config, cache) found
    rw [getOrCreateCache, found] at live fresh near
    obtain ⟨since, original, query, response, recorded, scope, made⟩ := kept.recorded key entry live
    subst made
    have names : extractModelFeatures original = extractModelFeatures ctx := by
      apply features_of_key _ sameKey
      rcases apart with ⟨all, this⟩ | ⟨all, this⟩
      · exact .inl ⟨all _ _ _ recorded.called, this⟩
      · exact .inr ⟨all _ _ _ recorded.called, this⟩
    have timely : ¬ plus since 300 < now := by
      have lifetime : config.expiresAt = fun created => plus created 300 := kept.lifetime
      simpa [lifetime, newEntry] using fresh
    have similar : Ratios.atLeast (similarity F unicode asked query)
        (getCachePolicyForRoute F unicode ctx.route).similarityThreshold = true := by
      rcases near with same | reached
      · have texts : normalise unicode query = normalise unicode asked := by
          rcases same with hashes | texts
          · exact inj hashes
          · exact texts
        have distinct : (tokenize (normalise unicode asked)).Nodup := List.nodup_dedup _
        rw [similarity, texts, jaccard_self distinct]
        exact reach _ (threshold_le _)
      · exact trans _ _ _ reached (strict config cache found)
    exact ⟨since, original, query, asked, recorded, text, scope, timely, names,
      alike since original query asked response recorded text scope timely names similar, similar⟩

end Runs

section Cases

/-- A request of one session and one model, without a canonical form. -/
def saying (instructions text route : String) : Context Int where
  requestId := "r"
  body :=
    some (.object [("model", .string "m"), ("instructions", .string instructions),
      ("input", .string text)])
  canonical := none
  platform := none
  route := some route
  headers := [("X-Session-Id", "s")]

def recorded (first : Context Int) : List (Call Int Nat String) := [.record 0 first (some "yes")]

/-- What the second request gets when a response was recorded for the first. -/
def reused (first second : Context Int) : Option (Entry Nat String) :=
  (apply (F := Rat) (fun _ =>
    "") twoScripts id (· + ·) (run (fun _ => "") twoScripts id (· + ·) (recorded first)) 1 second).1

theorem recorded_iff {first original : Context Int} {since : Nat} {query response : String}
    (there : Recorded (fun _ => "") twoScripts (recorded first) since original query response) :
    original = first ∧ extractQueryText (fun _ => "") first = some query := by
  have same := List.mem_singleton.mp there.called
  cases same
  exact ⟨rfl, there.asked⟩

theorem reuse_honours_same_request :
    ∃ entry, reused (saying "Be brief." "capital of France" "status_check")
        (saying "Be brief." "Capital of France, please" "status_check") = some entry ∧
      Honours Rat (fun _ => "") twoScripts (· + ·)
        (recorded (saying "Be brief." "capital of France" "status_check")) 1
        (saying "Be brief." "Capital of France, please" "status_check") entry.response := by
  have found : (reused (saying "Be brief." "capital of France" "status_check")
      (saying "Be brief." "Capital of France, please" "status_check")).isSome = true := by decide +kernel
  have first : ((run (F := Rat) (fun _ => "") twoScripts id (· + ·)
      (recorded (saying "Be brief." "capital of France" "status_check"))).get "s").map (·.1.similarityThreshold) =
        some (94 / 100) := by
    decide +kernel
  obtain ⟨entry, attached⟩ := Option.isSome_iff_exists.mp found
  refine ⟨entry, attached, ?_⟩
  have inj : Function.Injective (id : String → String) := fun _ _ => id
  apply reuse_honours inj _ _ _ _ _ entry _ _ _ attached
  · intro a b c higher lower
    exact decide_eq_true (le_trans (of_decide_eq_true lower) (of_decide_eq_true higher))
  · intro percent small
    have below : (percent : Rat) / 100 ≤ 1 := by
      rw [div_le_one (by decide)]
      exact_mod_cast small
    exact decide_eq_true below
  · intro config cache held
    have session : makeScopeKey (saying "Be brief." "Capital of France, please" "status_check") =
        "s" := by
      decide +kernel
    rw [session] at held
    rw [held] at first
    have threshold : config.similarityThreshold = 94 / 100 := Option.some.inj first
    rw [threshold]
    decide +kernel
  · intro since original query asked response there _ _ _ _ _
    rw [(recorded_iff there).1]
    rfl
  · refine .inl ⟨?_, by decide +kernel⟩
    intro since original response called
    cases List.mem_singleton.mp called
    decide +kernel

/-- In a session that another route began, a request gets a response below its own threshold; and
for the same text it gets one for other instructions. -/
theorem reused_for_another_request :
    (∃ entry, reused (saying "" "a b c d e f g h j k l m n o p q" "status_check")
        (saying "" "a b c d e f g h j k l m n o p q r" "configuration_inspection") = some entry ∧
      ¬ Honours Rat (fun _ => "") twoScripts (· + ·)
        (recorded (saying "" "a b c d e f g h j k l m n o p q" "status_check")) 1
        (saying "" "a b c d e f g h j k l m n o p q r" "configuration_inspection") entry.response) ∧
    ∃ entry, reused (saying "Say yes." "Ready?" "status_check")
    (saying "Say no." "Ready?" "status_check") = some entry ∧
      ¬ Honours Rat (fun _ => "") twoScripts (· + ·) (recorded (saying "Say yes." "Ready?" "status_check")) 1
        (saying "Say no." "Ready?" "status_check") entry.response := by
  constructor
  · have found : (reused (saying "" "a b c d e f g h j k l m n o p q" "status_check")
        (saying "" "a b c d e f g h j k l m n o p q r" "configuration_inspection")).isSome = true := by decide +kernel
    obtain ⟨entry, attached⟩ := Option.isSome_iff_exists.mp found
    refine ⟨entry, attached, ?_⟩
    intro ⟨since, original, query, asked, there, text, _, _, _, _, similar⟩
    have texts : extractQueryText (fun _ => "") (saying "" "a b c d e f g h j k l m n o p q" "status_check") =
          some "a b c d e f g h j k l m n o p q" ∧
        extractQueryText (fun _ => "")
          (saying "" "a b c d e f g h j k l m n o p q r" "configuration_inspection") =
          some "a b c d e f g h j k l m n o p q r" := by decide +kernel
    have first := (recorded_iff there).2
    rw [texts.1] at first
    rw [texts.2] at text
    cases first
    cases text
    have below : Ratios.atLeast (similarity Rat twoScripts "a b c d e f g h j k l m n o p q r"
        "a b c d e f g h j k l m n o p q") (getCachePolicyForRoute Rat twoScripts
          (saying "" "a b c d e f g h j k l m n o p q r" "configuration_inspection").route).similarityThreshold = false := by
      decide +kernel
    rw [below] at similar
    cases similar
  · have found : (reused (saying "Say yes." "Ready?" "status_check") (saying "Say no." "Ready?" "status_check")).isSome =
        true := by
      decide +kernel
    obtain ⟨entry, attached⟩ := Option.isSome_iff_exists.mp found
    refine ⟨entry, attached, ?_⟩
    intro ⟨since, original, query, asked, there, _, _, _, _, same, _⟩
    rw [(recorded_iff there).1] at same
    have instructions := congrArg Unkeyed.instructions same
    have told (text : String) : bodyField (saying text "Ready?" "status_check") "instructions" =
        .string text :=
      rfl
    simp only [unkeyed, told] at instructions
    injection instructions with texts
    exact absurd texts (by decide)

end Cases
end TokenPak.Optimization.CacheStage
