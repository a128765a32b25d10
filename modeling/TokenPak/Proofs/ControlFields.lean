import TokenPak.Library.JsonSound
import TokenPak.Proxy.CachePipeline

/-! Which control fields reach the provider. Each of them is popped by one function, for the
providers and values that this function looks at; a field beside them goes on as it came. -/

namespace TokenPak.Proxy.CachePipeline
open Library

section Objects
variable {N : Type} {data : JsonObject N}

def ProperObject (data : JsonObject N) : Prop := ∀ entry ∈ data.entries, entry.2.Proper

theorem toDict_entries (data : JsonObject N) : Json.toDict data.entries = data := by
  have same : (Json.toDict data.entries).entries = data.entries := Json.collapse_of_nodup data.unique
  cases built : Json.toDict data.entries
  rw [built] at same
  cases data
  cases same
  rfl

theorem ProperObject.pop (proper : ProperObject data) (key : String) : ProperObject (data.pop key) :=
  fun entry member => proper entry (List.mem_of_mem_filter member)

theorem ProperObject.set {value : Json N} (proper : ProperObject data) (key : String) (own : value.Proper) :
    ProperObject (data.set key value) := by
  intro entry member
  have either : entry ∈ data.entries ∨ entry = (key, value) := Dict.mem_entries_set member
  rcases either with before | same
  · exact proper entry before
  · rw [same]
    exact own

theorem finalRef_of_silent {cacheRef : Option String}
    (silent : ¬ ∃ text, cacheRef = some text ∧ text ≠ "") (value : Json N) :
    finalRef cacheRef value = value := by
  cases cacheRef with
  | none => rfl
  | some text =>
    apply if_pos
    by_contra full
    exact silent ⟨text, rfl, full⟩

/-- The object without some of the control fields; the others are as they were. -/
structure Without (own : List String) (data after : JsonObject N) : Prop where
  proper : ProperObject after
  gone : ∀ field ∈ own, after.get field = none
  kept : ∀ field ∈ controlFields, field ∉ own → after.get field = data.get field

theorem Without.pop (proper : ProperObject data) (key : String) : Without [key] data (data.pop key) where
  proper := proper.pop key
  gone field member := by
    rw [List.mem_singleton.mp member]
    exact Dict.get_pop_self data key
  kept field _ other := Dict.get_pop_of_ne (by simpa using other)

theorem Without.set {own : List String} {after : JsonObject N} {key : String} {value : Json N}
    (without : Without own data after) (within : ∀ field ∈ own, field ∈ controlFields)
    (uncontrolled : key ∉ controlFields)
    (valid : value.Proper) : Without own data (after.set key value) := by
  have same : ∀ field ∈ controlFields, (after.set key value).get field = after.get field := by
    intro field control
    apply Dict.get_set_of_ne
    intro named
    exact uncontrolled (named ▸ control)
  refine ⟨without.proper.set key valid, fun field member => ?_, fun field control other => ?_⟩
  · rw [same field (within field member)]
    exact without.gone field member
  · rw [same field control]
    exact without.kept field control other

theorem properItems_insertIdx {items : List (Json N)} {item : Json N} {index : Nat}
    (proper : Json.ProperItems items)
    (valid : item.Proper) : Json.ProperItems (items.insertIdx index item) := by
  rw [Json.properItems_iff] at proper ⊢
  intro other member
  rcases List.eq_or_mem_of_mem_insertIdx member with same | there
  · exact same ▸ valid
  · exact proper other there

theorem cachePoint_proper : (cachePoint : Json N).Proper := by
  simp [cachePoint, Json.Proper, Json.ProperEntries]

theorem properItems_marked {messages : List (Json N)} (checkpoints : List Int)
    (proper : Json.ProperItems messages) :
    Json.ProperItems
      (checkpoints.foldl (fun messages index =>
          messages.insertIdx (index + 1).toNat cachePoint) messages) := by
  induction checkpoints generalizing messages with
  | nil => exact proper
  | cons index checkpoints ih => exact ih (properItems_insertIdx proper cachePoint_proper)

end Objects

section Bodies
variable {N : Type} [Numerals N] {body out : List Char} {data : JsonObject N} {headers : Headers}
  {provider : Provider}

theorem parseObject_encode (proper : ProperObject data) : parseObject N (encode data) = some data := by
  have whole : (Json.object data.entries).Proper := ⟨data.unique, Json.properEntries_iff.mpr proper⟩
  have read : Json.loads (encode data) = some (Json.object data.entries) := Json.loads_dumps whole
  simp only [parseObject, read, toDict_entries]

theorem parseObject_proper (held : parseObject N body = some data) : ProperObject data := by
  unfold parseObject at held
  split at held
  next entries read =>
    cases held
    obtain ⟨⟨_, proper⟩, _⟩ := Json.loads_sound read
    intro entry member
    exact Json.properEntries_iff.mp proper entry (Json.mem_collapse member)
  · cases held

theorem ne_nil_of_parseObject (held : parseObject N body = some data) : body ≠ [] := by
  intro empty
  subst empty
  simp [parseObject, Json.loads_nil] at held

/-- The body was written anew from such an object. -/
def Rewritten (own : List String) (data : JsonObject N) (out : List Char) : Prop :=
  ∃ after : JsonObject N, out = encode after ∧ Without own data after

theorem headerOr_text (first second : String) :
    (∃ text, headerOr headers first second = some text ∧ text ≠ "") ↔
      headers.HasText first ∨ headers.HasText second := by
  unfold headerOr Headers.HasText
  cases found : headers first with
  | none => simp
  | some text =>
    by_cases empty : text = ""
    · simp [empty]
    · simp [empty]

def NamesContent (headers : Headers) (data : JsonObject N) : Prop :=
  headers.HasText "x-tokenpak-cache-ref" ∨ headers.HasText "X-TokenPak-Cache-Ref" ∨
    ∃ value, data.get "tokenpak_cache_object_ref" = some value ∧ value ≠ .null

theorem injectGemini_rewritten (held : parseObject N body = some data) (names : NamesContent headers data) :
    Rewritten ["tokenpak_cache_object_ref"] data (injectGeminiCacheRef N .gemini headers body) := by
  have proper := parseObject_proper held
  have popped := Without.pop proper "tokenpak_cache_object_ref"
  have content {value : Json N} (valid : value.Proper) : Rewritten ["tokenpak_cache_object_ref"] data
      (encode ((data.pop "tokenpak_cache_object_ref").set "cachedContent" value)) :=
    ⟨_, rfl, popped.set (by decide) (by decide) valid⟩
  simp only [injectGeminiCacheRef, ne_eq, not_true_eq_false, if_false, ne_nil_of_parseObject held, held]
  by_cases header : ∃ text,
    headerOr headers "x-tokenpak-cache-ref" "X-TokenPak-Cache-Ref" = some text ∧ text ≠ ""
  · obtain ⟨text, found, full⟩ := header
    have final (value : Json N) : finalRef (some text) value = .string text := if_neg full
    simp only [found, final, Json.truthy, full, ne_eq, not_false_eq_true, decide_true,
      not_true_eq_false, if_false]
    exact content trivial
  · obtain ⟨value, found, present⟩ : ∃ value, data.get "tokenpak_cache_object_ref" = some value ∧
        value ≠ .null := by
      rcases names with first | second | field
      · exact absurd ((headerOr_text _ _).mpr (.inl first)) header
      · exact absurd ((headerOr_text _ _).mpr (.inr second)) header
      · exact field
    have final := finalRef_of_silent header value
    have valid : value.Proper := proper _ (Dict.mem_entries found)
    simp only [found, Option.getD_some, final]
    split
    · exact ⟨_, rfl, popped⟩
    · exact content valid

theorem injectGemini_same (held : parseObject N body = some data) (unnamed : ¬ NamesContent headers data) :
    injectGeminiCacheRef N .gemini headers body = body := by
  simp only [NamesContent, not_or, not_exists, not_and, not_not] at unnamed
  obtain ⟨first, second, field⟩ := unnamed
  have null : (data.get "tokenpak_cache_object_ref").getD .null = .null := by
    cases found : data.get "tokenpak_cache_object_ref" with
    | none => rfl
    | some value => exact field value found
  have header : ¬ ∃ text,
      headerOr headers "x-tokenpak-cache-ref" "X-TokenPak-Cache-Ref" = some text ∧ text ≠ "" := by
    rw [headerOr_text]
    exact not_or.mpr ⟨first, second⟩
  have silent := finalRef_of_silent header (.null : Json N)
  simp only [injectGeminiCacheRef, ne_eq, not_true_eq_false, if_false, ne_nil_of_parseObject held,
    held, null, silent,
    Json.truthy, Bool.false_eq_true, not_false_eq_true, if_true]

theorem extractBedrockCheckpoints_body (data : JsonObject N) :
    (extractBedrockCheckpoints data).2 = data.pop "tokenpak_checkpoints" := by
  unfold extractBedrockCheckpoints
  simp only
  split <;> rfl

theorem injectBedrock_rewritten (held : parseObject N body = some data) :
    Rewritten ["tokenpak_checkpoints"] data (injectBedrockCheckpoints N .bedrock body) := by
  have proper := parseObject_proper held
  have popped := Without.pop proper "tokenpak_checkpoints"
  simp only [injectBedrockCheckpoints, ne_eq, not_true_eq_false, if_false, ne_nil_of_parseObject held, held]
  generalize extracted : extractBedrockCheckpoints data = result
  obtain ⟨checkpoints, after⟩ := result
  have same : after = data.pop "tokenpak_checkpoints" := by
    have whole := extractBedrockCheckpoints_body data
    rwa [extracted] at whole
  subst same
  simp only
  split
  · exact ⟨_, rfl, popped⟩
  · split
    · exact ⟨_, rfl, popped⟩
    next messages _ found =>
      have listed : Json.ProperItems messages := by
        cases stored : (data.pop "tokenpak_checkpoints").get "messages" with
        | none =>
          rw [stored, Option.getD_none] at found
          cases found
          trivial
        | some value =>
          rw [stored, Option.getD_some] at found
          have valid := proper.pop "tokenpak_checkpoints" _ (Dict.mem_entries stored)
          rw [found] at valid
          exact valid
      exact ⟨_, rfl, popped.set (by decide) (by decide) (properItems_marked checkpoints listed)⟩
    · exact ⟨_, rfl, popped⟩

theorem selectAnthropic_rewritten (held : parseObject N body = some data) :
    Rewritten (if headers.HasText "x-tokenpak-cache-mode" then [] else ["tokenpak_cache_mode"]) data
      (encode (selectAnthropicCacheMode headers data).2) := by
  have proper := parseObject_proper held
  cases found : headers "x-tokenpak-cache-mode" with
  | none =>
    have silent : ¬ headers.HasText "x-tokenpak-cache-mode" := fun ⟨_, held, _⟩ => by simp [found] at held
    rw [if_neg silent]
    simp only [selectAnthropicCacheMode, found]
    exact ⟨_, rfl, Without.pop proper _⟩
  | some text =>
    by_cases empty : text = ""
    · have silent : ¬ headers.HasText "x-tokenpak-cache-mode" := fun ⟨_, held, full⟩ => full (by simp_all)
      rw [if_neg silent]
      simp only [selectAnthropicCacheMode, found, empty, if_true]
      exact ⟨_, rfl, Without.pop proper _⟩
    · have named : headers.HasText "x-tokenpak-cache-mode" := ⟨text, found, empty⟩
      rw [if_pos named]
      simp only [selectAnthropicCacheMode, found, empty, if_false]
      exact ⟨data, rfl, proper, by simp, fun _ _ _ => rfl⟩

/-- The text gives a reason to look for hints in the body. -/
def Hinted (headers : Headers) (body : List Char) : Prop :=
  headers.HasText "x-tokenpak-cache-key" ∨ headers.HasText "x-tokenpak-cache-retention" ∨
    "tokenpak_cache".toList <:+: body

theorem injectPrompt_rewritten (held : parseObject N body = some data) (hinted : Hinted headers body) :
    Rewritten ["tokenpak_cache_hint",
      "tokenpak_cache_retention"] data (injectPromptCacheKey N provider headers body) := by
  have proper := parseObject_proper held
  let after := (data.pop "tokenpak_cache_hint").pop "tokenpak_cache_retention"
  have valid : ProperObject after := (proper.pop _).pop _
  have gone : ∀ field ∈ ["tokenpak_cache_hint", "tokenpak_cache_retention"], after.get field = none := by
    intro field member
    simp only [List.mem_cons, List.not_mem_nil, or_false] at member
    rcases member with rfl | rfl
    · exact Dict.get_pop_none (Dict.get_pop_self data _)
    · exact Dict.get_pop_self _ _
  have kept : ∀ field ∈ controlFields, field ∉ ["tokenpak_cache_hint", "tokenpak_cache_retention"] →
      after.get field = data.get field := by
    intro field _ other
    simp only [List.mem_cons, List.not_mem_nil, or_false, not_or] at other
    rw [Dict.get_pop_of_ne other.2, Dict.get_pop_of_ne other.1]
  have popped : Without ["tokenpak_cache_hint", "tokenpak_cache_retention"] data after := ⟨valid, gone, kept⟩
  have keyed (key : String) : Without ["tokenpak_cache_hint", "tokenpak_cache_retention"] data
      (after.set "prompt_cache_key" (.string key)) :=
    popped.set (by decide) (by decide) trivial
  have looked : ¬ (¬ (headers.HasText "x-tokenpak-cache-key" ∨ headers.HasText "x-tokenpak-cache-retention") ∧
      ¬ "tokenpak_cache".toList <:+: body) := by
    intro ⟨unnamed, unspelled⟩
    rcases hinted with key | retention | spelled
    · exact unnamed (.inl key)
    · exact unnamed (.inr retention)
    · exact unspelled spelled
  simp only [injectPromptCacheKey, ne_nil_of_parseObject held, if_false, if_neg looked, held,
    extractCacheHints]
  split
  · exact ⟨_, rfl, popped⟩
  next key _ =>
    split
    · exact ⟨_, rfl, popped⟩
    · split
      · split
        · split
          · exact ⟨_, rfl, keyed key⟩
          · exact ⟨_, rfl, (keyed key).set (by decide) (by decide) trivial⟩
        · exact ⟨_, rfl, keyed key⟩
      · split
        · exact ⟨_, rfl, keyed key⟩
        · exact ⟨_, rfl, popped⟩

theorem injectPrompt_same (unhinted : ¬ Hinted headers body) :
    injectPromptCacheKey N provider headers body = body := by
  simp only [Hinted, not_or] at unhinted
  obtain ⟨key, retention, spelled⟩ := unhinted
  unfold injectPromptCacheKey
  split
  · rfl
  · exact if_pos ⟨not_or.mpr ⟨key, retention⟩, spelled⟩

theorem stripped_of_held (held : parseObject N body = some data) :
    Stripped N body ↔ ∀ field ∈ controlFields, data.get field = none := by
  simp only [Stripped, held]

theorem stripped_prompt (held : parseObject N body = some data) :
    Stripped N (injectPromptCacheKey N provider headers body) ↔
      data.get "tokenpak_cache_mode" = none ∧ data.get "tokenpak_cache_object_ref" = none ∧
        data.get "tokenpak_checkpoints" = none ∧
        ((data.get "tokenpak_cache_hint" = none ∧ data.get "tokenpak_cache_retention" = none) ∨
            Hinted headers body) := by
  by_cases hinted : Hinted headers body
  · have rewritten : Rewritten ["tokenpak_cache_hint", "tokenpak_cache_retention"] data
        (injectPromptCacheKey N provider headers body) := injectPrompt_rewritten held hinted
    obtain ⟨after, same, without⟩ := rewritten
    have mode := without.kept "tokenpak_cache_mode" (by decide) (by decide)
    have ref := without.kept "tokenpak_cache_object_ref" (by decide) (by decide)
    have checkpoints := without.kept "tokenpak_checkpoints" (by decide) (by decide)
    have hint := without.gone "tokenpak_cache_hint" (by decide)
    have retention := without.gone "tokenpak_cache_retention" (by decide)
    rw [same, stripped_of_held (parseObject_encode without.proper)]
    simp [controlFields, mode, ref, checkpoints, hint, retention, hinted]
  · rw [injectPrompt_same hinted, stripped_of_held held]
    simp [controlFields, hinted]

/-- A hint in an object that was just written stands in the text. -/
theorem hinted_encode {field : String} {value : Json N}
    (spelled : "tokenpak_cache".toList <:+: Json.printString true field)
    (found : data.get field = some value) : Hinted headers (encode data) := by
  let style : Json.Style := ⟨true, true⟩
  have written : Json.printString style.ascii field <:+: (Json.object data.entries).print style :=
    Json.key_infix_print (Dict.mem_entries found)
  have reached : "tokenpak_cache".toList <:+: encode data := List.IsInfix.trans spelled written
  unfold Hinted
  exact Or.inr (Or.inr reached)

theorem hint_spelled : "tokenpak_cache".toList <:+: Json.printString true "tokenpak_cache_hint" :=
  ⟨"\"".toList, "_hint\"".toList, by decide +kernel⟩

theorem retention_spelled : "tokenpak_cache".toList <:+: Json.printString true "tokenpak_cache_retention" :=
  ⟨"\"".toList, "_retention\"".toList, by decide +kernel⟩

/-- Behind a function that wrote the body anew, the hints are found. -/
theorem stripped_rewritten {own : List String} (rewritten : Rewritten own data out) :
    Stripped N (injectPromptCacheKey N provider headers out) ↔
      ∀ field ∈ ["tokenpak_cache_mode", "tokenpak_cache_object_ref", "tokenpak_checkpoints"],
        field ∈ own ∨ data.get field = none := by
  obtain ⟨after, rfl, without⟩ := rewritten
  have fate (field : String) (control : field ∈ controlFields) :
      after.get field = none ↔ field ∈ own ∨ data.get field = none := by
    by_cases member : field ∈ own
    · simp [member, without.gone field member]
    · simp [member, without.kept field control member]
  have hints : (after.get "tokenpak_cache_hint" = none ∧ after.get "tokenpak_cache_retention" = none) ∨
      Hinted headers (encode after) := by
    cases first : after.get "tokenpak_cache_hint" with
    | some value => exact .inr (hinted_encode hint_spelled first)
    | none =>
      cases second : after.get "tokenpak_cache_retention" with
      | some value => exact .inr (hinted_encode retention_spelled second)
      | none => exact .inl ⟨rfl, rfl⟩
  rw [stripped_prompt (parseObject_encode without.proper), fate _ (by decide), fate _ (by decide),
    fate _ (by decide)]
  simp [hints]

/-- The fields that a request may carry so that none of them goes on to its provider. -/
structure Strippable (provider : Provider) (headers : Headers) (body : List Char)
    (data : JsonObject N) : Prop where
  mode : data.get "tokenpak_cache_mode" = none ∨ provider = .anthropic ∧
    ¬ headers.HasText "x-tokenpak-cache-mode"
  ref : data.get "tokenpak_cache_object_ref" = none ∨ provider = .gemini ∧ NamesContent headers data
  checkpoints : data.get "tokenpak_checkpoints" = none ∨ provider = .bedrock
  hints : (data.get "tokenpak_cache_hint" = none ∧ data.get "tokenpak_cache_retention" = none) ∨
    Hinted headers body ∨
    provider = .anthropic ∨ provider = .bedrock ∨ provider = .gemini ∧ NamesContent headers data

omit [Numerals N] in
theorem strippable_iff : Strippable provider headers body data ↔
    (data.get "tokenpak_cache_mode" = none ∨ provider = .anthropic ∧
      ¬ headers.HasText "x-tokenpak-cache-mode") ∧
      (data.get "tokenpak_cache_object_ref" = none ∨ provider = .gemini ∧ NamesContent headers data) ∧
      (data.get "tokenpak_checkpoints" = none ∨ provider = .bedrock) ∧
      ((data.get "tokenpak_cache_hint" = none ∧ data.get "tokenpak_cache_retention" = none) ∨
        Hinted headers body ∨
        provider = .anthropic ∨ provider = .bedrock ∨ provider = .gemini ∧ NamesContent headers data) :=
  ⟨fun ⟨mode, ref, checkpoints, hints⟩ => ⟨mode, ref, checkpoints, hints⟩,
    fun ⟨mode, ref, checkpoints, hints⟩ => ⟨mode, ref, checkpoints, hints⟩⟩

theorem injectGemini_other (other : provider ≠ .gemini) :
    injectGeminiCacheRef N provider headers body = body :=
  if_pos other

theorem injectBedrock_other (other : provider ≠ .bedrock) :
    injectBedrockCheckpoints N provider body = body :=
  if_pos other

theorem pipeline_anthropic (held : parseObject N body = some data) : pipeline N .anthropic headers body =
    injectPromptCacheKey N .anthropic headers (encode (selectAnthropicCacheMode headers data).2) := by
  simp only [pipeline, held]
  rw [injectGemini_other (by decide), injectBedrock_other (by decide)]

theorem pipeline_other (other : provider ≠ .anthropic) : pipeline N provider headers body =
    injectPromptCacheKey N provider headers
      (injectBedrockCheckpoints N provider (injectGeminiCacheRef N provider headers body)) := by
  unfold pipeline
  split
  · exact absurd rfl other
  · rfl

/-- For every provider, every set of headers and every body that is an object: the request goes on
without control fields exactly when each of those it carries is one that its provider's functions
take out. -/
theorem control_fields_stripped_iff (held : parseObject N body = some data) :
    Stripped N (pipeline N provider headers body) ↔ Strippable provider headers body data := by
  rw [strippable_iff]
  by_cases anthropic : provider = .anthropic
  · subst anthropic
    rw [pipeline_anthropic held]
    have rewritten : Rewritten (if headers.HasText "x-tokenpak-cache-mode" then []
      else ["tokenpak_cache_mode"]) data
        (encode (selectAnthropicCacheMode headers data).2) := selectAnthropic_rewritten held
    by_cases named : headers.HasText "x-tokenpak-cache-mode"
    · rw [if_pos named] at rewritten
      rw [stripped_rewritten rewritten]
      simp [named]
    · rw [if_neg named] at rewritten
      rw [stripped_rewritten rewritten]
      simp [named]
  · rw [pipeline_other anthropic]
    by_cases gemini : provider = .gemini
    · subst gemini
      rw [injectBedrock_other (by decide)]
      by_cases names : NamesContent headers data
      · rw [stripped_rewritten (injectGemini_rewritten held names)]
        simp [names]
      · rw [injectGemini_same held names, stripped_prompt held]
        simp [names]
    · rw [injectGemini_other gemini]
      by_cases bedrock : provider = .bedrock
      · subst bedrock
        rw [stripped_rewritten (injectBedrock_rewritten held)]
        simp
      · rw [injectBedrock_other bedrock, stripped_prompt held]
        simp [anthropic, gemini, bedrock]

/-- A client that asks for a cache key of its own. -/
def hintedBody : List Char := "\x7b\"tokenpak_cache_hint\": \"docs\"\x7d".toList

def hintedData : JsonObject Int := ⟨[("tokenpak_cache_hint", .string "docs")], by decide⟩

theorem hintedBody_held : parseObject Int hintedBody = some hintedData := by
  have written : hintedBody = encode hintedData := by decide +kernel
  rw [written]
  apply parseObject_encode
  intro entry member
  rw [List.mem_singleton.mp member]
  exact trivial

theorem hintedBody_hinted : Hinted (fun _ => none) hintedBody := by
  have spelled : "tokenpak_cache".toList <:+: hintedBody := by decide +kernel
  unfold Hinted
  exact Or.inr (Or.inr spelled)

theorem hintedBody_strippable : Strippable .openai (fun _ => none) hintedBody hintedData := by
  have absent : ∀ field ∈ ["tokenpak_cache_mode", "tokenpak_cache_object_ref", "tokenpak_checkpoints"],
      hintedData.get field = none := by decide +kernel
  rw [strippable_iff]
  exact ⟨.inl (absent _ (by simp)), .inl (absent _ (by simp)), .inl (absent _ (by simp)),
    .inr (.inl hintedBody_hinted)⟩

theorem control_fields_stripped_hint : Stripped Int (pipeline Int .openai (fun _ => none) hintedBody) := by
  rw [control_fields_stripped_iff hintedBody_held]
  exact hintedBody_strippable

def modeBody : List Char := "\x7b\"tokenpak_cache_mode\": \"auto\"\x7d".toList

def modeData : JsonObject Int := ⟨[("tokenpak_cache_mode", .string "auto")], by decide⟩

theorem modeBody_held : parseObject Int modeBody = some modeData := by
  have written : modeBody = encode modeData := by decide +kernel
  rw [written]
  apply parseObject_encode
  intro entry member
  rw [List.mem_singleton.mp member]
  exact trivial

def modeHeaders : Headers := fun name => if name = "x-tokenpak-cache-mode" then some "auto" else none

theorem modeBody_sent : pipeline Int .anthropic modeHeaders modeBody = modeBody := by decide +kernel

theorem modeBody_unstripped : ¬ Stripped Int modeBody := by
  rw [stripped_of_held modeBody_held]
  intro stripped
  have gone : modeData.get "tokenpak_cache_mode" = none := stripped "tokenpak_cache_mode" (by decide)
  have there : (modeData.get "tokenpak_cache_mode").isSome = true := by decide +kernel
  rw [gone] at there
  cases there

/-- With the header there, the mode of the body is not popped. -/
theorem control_field_forwarded : parseObject Int modeBody = some modeData ∧
    ¬ Stripped Int (pipeline Int .anthropic modeHeaders modeBody) := by
  constructor
  · exact modeBody_held
  · rw [modeBody_sent]
    exact modeBody_unstripped

end Bodies
end TokenPak.Proxy.CachePipeline
