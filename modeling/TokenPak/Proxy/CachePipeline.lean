import Mathlib.Data.List.Infix
import Mathlib.Data.List.Sort
import TokenPak.Library.Json

/-! The cache pipeline of the proxy: for each provider a function that turns the cache hints
of the client, from headers or from control fields of the body, into what the provider
understands. -/

namespace TokenPak.Proxy.CachePipeline
open Library

inductive Provider where
  | anthropic | openai | gemini | groq | xai | fireworks | together | azureOpenai | bedrock | codex | voyage | jina | unknown
  deriving DecidableEq

inductive CacheMode where
  | auto | explicit
  deriving DecidableEq

abbrev Headers := String → Option String

def headerOr (headers : Headers) (first second : String) : Option String :=
  match headers first with
  | some text => if text = "" then headers second else some text
  | none => headers second

def Headers.HasText (headers : Headers) (name : String) : Prop := ∃ text, headers name = some text ∧ text ≠ ""

instance (headers : Headers) (name : String) : Decidable (headers.HasText name) :=
  match found : headers name with
  | none => isFalse fun ⟨_, held, _⟩ => by simp [found] at held
  | some text =>
    if empty : text = "" then isFalse fun ⟨_, held, full⟩ => full (by simp_all)
    else isTrue ⟨text, found, empty⟩

section Bodies
variable {N : Type} [Numerals N]

abbrev JsonObject (N : Type) := Dict String (Json N)

def parseObject (N : Type) [Numerals N] (body : List Char) : Option (JsonObject N) :=
  match (Json.loads body : Option (Json N)) with
  | some (.object entries) => some (Json.toDict entries)
  | _ => none

def encode (data : JsonObject N) : List Char := Json.dumps ⟨true, true⟩ (.object data.entries)

/-- `_select_anthropic_cache_mode`, with the body after its pop. -/
def selectAnthropicCacheMode (headers : Headers) (data : JsonObject N) : CacheMode × JsonObject N :=
  let (hint, data) := match headers "x-tokenpak-cache-mode" with
    | some text =>
      if text = "" then (data.get "tokenpak_cache_mode", data.pop "tokenpak_cache_mode")
        else (some (.string text), data)
    | none => (data.get "tokenpak_cache_mode", data.pop "tokenpak_cache_mode")
  let mode : CacheMode := match hint with
    | some (.string "explicit") => .explicit
    | some (.string "auto") => .auto
    | _ =>
      match data.get "messages" with
      | some (.array messages) => if 2 < messages.length then .auto else .explicit
      | _ => .explicit
  (mode, data)

/-- A reference from the headers, if it has a text, and else the one from the body. -/
def finalRef (cacheRef : Option String) (bodyRef : Json N) : Json N :=
  match cacheRef with
  | some text => if text = "" then bodyRef else .string text
  | none => bodyRef

/-- `_inject_gemini_cache_ref` -/
def injectGeminiCacheRef (N : Type) [Numerals N] (provider : Provider) (headers : Headers)
    (body : List Char) : List Char :=
  if provider ≠ .gemini then body
  else if body = [] then body
  else
    match parseObject N body with
    | none => body
    | some data =>
      let cacheRef := headerOr headers "x-tokenpak-cache-ref" "X-TokenPak-Cache-Ref"
      -- A field that is null is popped like any other and then looks as if it had not been there.
      let bodyRef := (data.get "tokenpak_cache_object_ref").getD .null
      let data := data.pop "tokenpak_cache_object_ref"
      if ¬ (finalRef cacheRef bodyRef).truthy then
        match bodyRef with
        | .null => body
        | _ => encode data
      else encode (data.set "cachedContent" (finalRef cacheRef bodyRef))

/-- The integers among the values of the source language; truth values are integers too. -/
def integer? : Json N → Option Int
  | .number value => Numerals.integer? value
  | .bool value => some (if value then 1 else 0)
  | _ => none

/-- `_extract_bedrock_checkpoints`, with the body after its pop. -/
def extractBedrockCheckpoints (data : JsonObject N) : List Int × JsonObject N :=
  let checkpoints := (data.get "tokenpak_checkpoints").getD (.array [])
  let data := data.pop "tokenpak_checkpoints"
  match checkpoints, (data.get "messages").getD (.array []) with
  | .array checkpoints, .array messages =>
    let valid :=
      (checkpoints.filterMap integer?).filter fun index => 0 ≤ index ∧
        index ≤ (messages.length : Int) - 1
    (valid.dedup.insertionSort (· ≥ ·), data)
  | _, _ => ([], data)

def cachePoint : Json N := .object [("cachePoint", .object [("type", .string "default")])]

/-- `_inject_bedrock_checkpoints` -/
def injectBedrockCheckpoints (N : Type) [Numerals N] (provider : Provider) (body : List Char) : List Char :=
  if provider ≠ .bedrock then body
  else if body = [] then body
  else
    match parseObject N body with
    | none => body
    | some data =>
      let (checkpoints, data) := extractBedrockCheckpoints data
      if checkpoints = [] then encode data
      else
        match (data.get "messages").getD (.array []) with
        | .array [] => encode data
        | .array messages =>
          let marked :=
            checkpoints.foldl (fun messages index =>
              messages.insertIdx (index + 1).toNat cachePoint) messages
          encode (data.set "messages" (.array marked))
        | _ => encode data

/-- `_extract_cache_hints`, with the body after its pops. -/
def extractCacheHints (headers : Headers) (data : JsonObject N) :
    Option String × Option String × JsonObject N :=
  let hint (header : String) (value : Option (Json N)) := match headers header, value with
    | none, some (.string text) => some text
    | found, _ => found
  (hint "x-tokenpak-cache-key" (data.get "tokenpak_cache_hint"),
    hint "x-tokenpak-cache-retention" (data.get "tokenpak_cache_retention"),
    (data.pop "tokenpak_cache_hint").pop "tokenpak_cache_retention")

/-- `_inject_prompt_cache_key` -/
def injectPromptCacheKey (N : Type) [Numerals N] (provider : Provider) (headers : Headers)
    (body : List Char) : List Char :=
  if body = [] then body
  else if ¬ (headers.HasText "x-tokenpak-cache-key" ∨ headers.HasText "x-tokenpak-cache-retention") ∧
      ¬ "tokenpak_cache".toList <:+: body then body
  else
    match parseObject N body with
    | none => body
    | some data =>
      let (cacheKey, cacheRetention, data) := extractCacheHints headers data
      match cacheKey with
      | none => encode data
      | some key =>
        if key = "" then encode data
        else if provider = .openai ∨ provider = .azureOpenai ∨ provider = .codex then
          let data := data.set "prompt_cache_key" (.string key)
          match cacheRetention with
          | some retention =>
            if retention = "" then encode data
              else encode (data.set "prompt_cache_retention" (.string retention))
          | none => encode data
        else if provider = .xai then encode (data.set "prompt_cache_key" (.string key))
        else encode data

/-- The functions in the order in which the module has them, each for the requests it is for. The
mode is selected on the parsed body of an Anthropic request, which is then encoded again. -/
def pipeline (N : Type) [Numerals N] (provider : Provider) (headers : Headers) (body : List Char) :
    List Char :=
  let body := match provider, parseObject N body with
    | .anthropic, some data => encode (selectAnthropicCacheMode headers data).2
    | _, _ => body
  injectPromptCacheKey N provider headers (injectBedrockCheckpoints N provider (injectGeminiCacheRef N provider headers body))

def controlFields : List String :=
  ["tokenpak_cache_mode", "tokenpak_cache_object_ref", "tokenpak_checkpoints", "tokenpak_cache_hint",
    "tokenpak_cache_retention"]

/-- The body is an object without control fields. -/
def Stripped (N : Type) [Numerals N] (body : List Char) : Prop :=
  match parseObject N body with
  | some data => ∀ field ∈ controlFields, data.get field = none
  | none => False

end Bodies
end TokenPak.Proxy.CachePipeline
