import TokenPak.Library.Json
import TokenPak.SpendGuard.Media
import TokenPak.SpendGuard.RollingCaps

/-! The projection of tokens and cost for one request. Text is counted by its length, media by the
sizes and pages that are read from them; the answer is as long as the request allows. -/

namespace TokenPak.SpendGuard.Estimator
open Library

/-- The rates of the catalogue, in dollars for a million tokens; none is negative. -/
structure Rates where
  input : ℚ
  output : ℚ
  cached : ℚ
  input_nonneg : 0 ≤ input
  output_nonneg : 0 ≤ output
  cached_nonneg : 0 ≤ cached

/-- The conversions of the source language, where they may raise, and what is read from the encoded
data of an image or a document. -/
structure Builtins (N : Type) where
  str : Json N → String
  int : Json N → Option Int
  float : Int → Option ℚ
  floats : Floats
  digit : Char → Option Nat
  imageDimensions : List (String × Json N) → Option Media.Size
  pages : List (String × Json N) → Option Nat
  getRates : String → Rates
  float_nonneg : ∀ n q, float n = some q → 0 ≤ n → 0 ≤ q

/-- `round(value, digits)`, halves to the even neighbour. -/
def roundTo (digits : Nat) (value : ℚ) : ℚ :=
  let scaled := value * 10 ^ digits
  let rest := scaled - ⌊scaled⌋
  (if rest < 1 / 2 ∨ rest = 1 / 2 ∧ ⌊scaled⌋ % 2 = 0 then ⌊scaled⌋ else ⌊scaled⌋ + 1 : ℤ) / 10 ^ digits

section Counting
variable {N : Type} [Numerals N] (builtins : Builtins N)

def charsPerToken : Nat := 4

/-- `_count_text_tokens` of a text. -/
def countText (text : String) : Nat := if text = "" then 0 else max 1 (text.length / charsPerToken)

/-- `_count_text_tokens` of any value: `len` raises on a number. -/
def countTextTokens (value : Json N) : Option Nat :=
  if ¬ value.truthy then some 0
  else match value with
    | .string text => some (countText text)
    | .array items => some (max 1 (items.length / charsPerToken))
    | .object entries => some (max 1 (entries.length / charsPerToken))
    | _ => none

/-- The tokens of a value printed with blanks and as it is. -/
def countDumped (value : Json N) : Nat := countText (String.ofList (value.dumps ⟨true, false⟩))

/-- The first of some keys with a true value, and `null` without one. -/
def firstOf (keys : List String) (entries : List (String × Json N)) : Json N :=
  (keys.findSome? fun key => (entries.lookup key).filter Json.truthy).getD .null

/-- `image_tokens` of a block -/
def imageTokens (entries : List (String × Json N)) (model : String) (anthropic : Bool) : Nat :=
  let detail := (entries.lookup "detail").filter Json.truthy
  Media.imageTokens builtins.floats builtins.digit (builtins.imageDimensions entries) model
    (detail.elim "auto" builtins.str) anthropic

/-- `document_tokens` of a block; the number of its pages may be beyond the limits of `int`. -/
def documentTokens (entries : List (String × Json N)) (model : String) (anthropic : Bool) : Option Nat :=
  (builtins.pages entries).map fun pages =>
    Media.documentTokens builtins.floats builtins.digit pages model anthropic

def toolKinds : List String := ["tool_use", "server_tool_use", "function_call", "custom_tool_call"]
def imageKinds : List String := ["image", "input_image", "image_url"]
def documentKinds : List String := ["document", "input_file", "file"]
def textKinds : List String := ["text", "input_text", "output_text", "summary_text"]
def controlKeys : List String := ["cache_control", "signature", "type"]

def kindOf (entries : List (String × Json N)) : String :=
  match entries.lookup "type" with
  | some (.string kind) => kind
  | _ => ""

omit [Numerals N] in
theorem sizeOf_lookup {key : String} {entries : List (String × Json N)} {value : Json N}
    (found : entries.lookup key = some value) : sizeOf value < sizeOf entries := by
  induction entries with
  | nil => cases found
  | cons entry entries ih =>
    obtain ⟨other, held⟩ := entry
    rw [List.lookup_cons] at found
    split at found
    · cases found
      simp only [List.cons.sizeOf_spec, Prod.mk.sizeOf_spec]
      omega
    · have smaller := ih found
      simp only [List.cons.sizeOf_spec]
      omega

/-- `_content_tokens` -/
def contentTokens (model : String) (anthropic : Bool) (value : Json N) : Option Nat :=
  match value with
  | .string text => some (countText text)
  | .null => some 0
  | .bool _ | .number _ => some (countText (builtins.str value))
  | .array items => do
    let counts ← items.attach.mapM fun item => contentTokens model anthropic item.1
    return counts.sum
  | .object entries =>
    let kind := kindOf entries
    if kind ∈ toolKinds then some (countDumped value)
    else if kind ∈ imageKinds then some (imageTokens builtins entries model anthropic)
    else if kind ∈ documentKinds then
      match _source : entries.lookup "source" with
      | some (.object inner) =>
        if kindOf inner = "text" then countTextTokens ((inner.lookup "data").getD .null)
        else if kindOf inner = "content" then
          match _content : inner.lookup "content" with
          | some child => contentTokens model anthropic child
          | none => some 0
        else documentTokens builtins entries model anthropic
      | _ => documentTokens builtins entries model anthropic
    else if kind ∈ textKinds then countTextTokens (firstOf ["text"] entries)
    else if kind = "thinking" then countTextTokens (firstOf ["thinking", "text"] entries)
    else if kind = "redacted_thinking" then countTextTokens (firstOf ["data", "text"] entries)
    else do
      let counts ← entries.attach.mapM fun entry =>
        if entry.1.1 ∈ controlKeys then some 0
        else (contentTokens model anthropic entry.1.2).map (countText entry.1.1 + ·)
      return counts.sum
termination_by sizeOf value
decreasing_by
  · have smaller := List.sizeOf_lt_of_mem item.2
    simp only [Json.array.sizeOf_spec]
    omega
  · have inside := sizeOf_lookup _content
    have outside := sizeOf_lookup _source
    simp only [Json.object.sizeOf_spec] at outside ⊢
    omega
  · have smaller := List.sizeOf_lt_of_mem entry.2
    obtain ⟨⟨key, child⟩, member⟩ := entry
    simp only [Json.object.sizeOf_spec, Prod.mk.sizeOf_spec] at smaller ⊢
    omega

/-- The cached and the fresh tokens of a part of a request. -/
structure Counts where
  cached : Nat
  fresh : Nat

def Counts.add (left right : Counts) : Counts := ⟨left.cached + right.cached, left.fresh + right.fresh⟩

def Counts.sum (counts : List Counts) : Counts := counts.foldl Counts.add ⟨0, 0⟩

def systemTokens : Json N → Option Nat
  | .string text => some (countText text)
  | .array blocks => do
    let counts ← blocks.mapM fun block => match block with
      | .object entries => countTextTokens (firstOf ["text"] entries)
      | _ => some 0
    return counts.sum
  | _ => some 0

def blockTokens (model : String) : Json N → Option Counts
  | .object entries => do
    let tokens ← contentTokens builtins model true (.object entries)
    return if ((entries.lookup "cache_control").getD .null).truthy then ⟨tokens, 0⟩ else ⟨0, tokens⟩
  | _ => some ⟨0, 0⟩

def messageTokens (model : String) : Json N → Option Counts
  | .object entries =>
    match entries.lookup "content" with
    | some (.string text) => some ⟨0, countText text⟩
    | some (.array blocks) => (blocks.mapM (blockTokens builtins model)).map Counts.sum
    | _ => some ⟨0, 0⟩
  | _ => some ⟨0, 0⟩

/-- What a loop runs through: a text or an object has nothing but texts in it, and a number raises. -/
def iterated (value : Json N) : Option (List (Json N)) :=
  if ¬ value.truthy then some []
  else match value with
    | .array items => some items
    | .string text => some (text.toList.map fun c => .string (String.singleton c))
    | .object entries => some (entries.map fun entry => .string entry.1)
    | _ => none

/-- `_walk_anthropic_body` -/
def walkAnthropicBody (body : List (String × Json N)) (model : String) : Option Counts := do
  let system ← systemTokens ((body.lookup "system").getD .null)
  let messages ← iterated ((body.lookup "messages").getD .null)
  let named := if model ≠ "" then model
    else if ((body.lookup "model").getD .null).truthy then builtins.str ((body.lookup "model").getD .null) else ""
  let counts ← messages.mapM (messageTokens builtins named)
  let tools := match body.lookup "tools" with
    | some (.array (tool :: tools)) => countDumped (.array (tool :: tools))
    | _ => 0
  return Counts.sum counts |>.add ⟨system + tools, 0⟩

/-- `structural_tokens` -/
def structuralTokens (body : List (String × Json N)) (model : String) : Option Counts :=
  if (body.lookup "messages").isSome then walkAnthropicBody builtins body model
  else do
    let instructions ← contentTokens builtins model false ((body.lookup "instructions").getD .null)
    let tools := (body.lookup "tools").getD .null
    let input ← contentTokens builtins model false ((body.lookup "input").getD .null)
    let prompt ← if (body.lookup "input").isSome then some 0
      else contentTokens builtins model false ((body.lookup "prompt").getD .null)
    return ⟨instructions + (if tools.truthy then countDumped tools else 0), input + prompt⟩

/-- A request body: its text, and what `json.loads` makes of it where it does not raise. -/
structure Body (N : Type) where
  text : String
  json : Option (Json N)

def Body.fields (body : Body N) : List (String × Json N) :=
  match body.json with
  | some (.object entries) => entries
  | _ => []

def Body.tokens (body : Body N) (model : String) : Option Counts :=
  if body.fields = [] then some ⟨0, countText body.text⟩ else structuralTokens builtins body.fields model

/-- The input that is projected: what was counted, and no less than the fallback. -/
def Counts.projectedInput (counts : Counts) (fallbackSessionTokens : Int) : Int :=
  max (counts.cached + counts.fresh) (max 0 fallbackSessionTokens)

def defaultOutputTokens : Int := 4096

/-- The first limit with a true value, converted as it is. -/
def outputTokens (fields : List (String × Json N)) : Option Int :=
  match firstOf ["max_tokens", "max_output_tokens", "max_completion_tokens"] fields with
  | .null => some defaultOutputTokens
  | limit => builtins.int limit

/-- `estimate`; it has no answer where it raises. -/
def estimate (body : Body N) (model : String) (fallbackSessionTokens : Int) : Option RiskEstimate := do
  let rates := builtins.getRates model
  let counts ← body.tokens builtins model
  let projectedInput := counts.projectedInput fallbackSessionTokens
  let fresh := projectedInput - counts.cached
  let hitRatio : ℚ := if projectedInput ≠ 0 then counts.cached / projectedInput else 0
  let projectedOutput ← outputTokens builtins body.fields
  let cachedPriced ← builtins.float counts.cached
  let freshPriced ← builtins.float fresh
  let outputPriced ← builtins.float projectedOutput
  let cost := cachedPriced * rates.cached / 1000000 + freshPriced * rates.input / 1000000 +
    outputPriced * rates.output / 1000000
  return { model, currentContextTokens := counts.cached, requestTokens := fresh, projectedInputTokens := projectedInput
           projectedOutputTokens := projectedOutput, projectedCostUsd := roundTo 6 cost, cacheHitRatio := roundTo 4 hitRatio }

end Counting
end TokenPak.SpendGuard.Estimator
