import Mathlib.Data.List.Infix
import TokenPak.Library.Json
import TokenPak.Library.Lookup
import TokenPak.Library.Text
import TokenPak.Library.Traversal

/-! The compaction of a request. An adapter turns the body into a canonical request and back; the
texts of the older messages are shortened in between, as far as their risk class and the compilation
mode allow it. What raises gives nothing. -/

namespace TokenPak.Compression.Pipeline
open Library

/-- `CanonicalRequest` -/
structure CanonicalRequest (N : Type) where
  model : String
  system : Json N
  messages : List (Json N)
  tools : Option (List (Json N))
  generation : List (String × Json N)
  stream : Bool
  rawExtra : List (String × Json N)
  sourceFormat : String

/-- `FormatAdapter`, as far as the compaction uses it. -/
structure FormatAdapter (N Body : Type) where
  sourceFormat : String
  normalize : Body → Option (CanonicalRequest N)
  denormalize : CanonicalRequest N → Option Body
  extractRequestTokens : Body → Option Nat

structure Config where
  compactThresholdTokens : Int
  compactMaxTokens : Int
  compilationMode : String
  compactMaxChars : Int
  compactCacheSize : Int
  shadowEnabled : Bool

/-- What the compaction calls outside its package. A validation that raises gives nothing. -/
structure Builtins (N Hash : Type) where
  hash : String → Hash
  countTokens : Json N → Option Nat
  validate : String → String → Option Bool

section Texts

/-- `_COMPACT_CACHE` and `_COMPACT_CACHE_ORDER` -/
structure CompactCache (Hash : Type) where
  texts : Dict Hash String
  order : List Hash

/-- The text up to the end of the first match of `[.!?](?:\s|$)`. -/
def firstSentence : List Char → Option (List Char)
  | [] => none
  | [c] => if c ∈ ['.', '!', '?'] then some [c] else none
  | c :: d :: rest =>
    if c ∈ ['.', '!', '?'] ∧ Text.isSpace d then some [c, d] else (firstSentence (d :: rest)).map (c :: ·)

/-- `text[:bound]` -/
def sliceTo (bound : Int) (text : List Char) : List Char :=
  if 0 ≤ bound then text.take bound.toNat else text.take (text.length - bound.natAbs)

def beforeLastBlank (text : List Char) : List Char :=
  if ' ' ∈ text then ((text.reverse.dropWhile (· ≠ ' ')).drop 1).reverse else text

/-- `_shadow_validate` -/
def shadowValidate {N Hash : Type} (config : Config) (builtins : Builtins N Hash)
    (original compressed : String) : Bool :=
  if ! config.shadowEnabled then true
  else if compressed = "" ∨ original = "" then true
  else (builtins.validate original compressed).getD true

/-- The part of `compact_text` behind the cache. -/
def shorten {N Hash : Type} (config : Config) (builtins : Builtins N Hash) (text : String) : String :=
  let words := [' '].intercalate (Text.split text.toList)
  let sentence := match firstSentence words with
    | some found => (Text.strip (String.ofList found)).toList
    | none => words
  let cut := if (sentence.length : Int) > config.compactMaxChars
    then beforeLastBlank (sliceTo config.compactMaxChars sentence) ++ ['…'] else sentence
  if config.shadowEnabled ∧ config.compilationMode = "aggressive" ∧
    ¬ shadowValidate config builtins text (String.ofList cut)
  then text else String.ofList cut

/-- `compact_text` -/
def compactText {N Hash : Type} [DecidableEq Hash] (config : Config) (builtins : Builtins N Hash)
    (text : String)
    (cache : CompactCache Hash) : String × CompactCache Hash :=
  if text = "" then (text, cache) else
  let key := builtins.hash text
  match cache.texts.get key with
  | some known => (known, cache)
  | none =>
    let short := shorten config builtins text
    let texts := cache.texts.set key short
    let order := cache.order ++ [key]
    if (order.length : Int) > config.compactCacheSize then (short,
      ⟨texts.popAll (order.take 1), order.drop 1⟩)
    else (short, ⟨texts, order⟩)

end Texts

section Risk
variable {N : Type}

/-- `PROTECTED_MARKERS` -/
def protectedMarkers : List String :=
  ["SOUL.md", "AGENTS.md", "IDENTITY.md", "USER.md", "TOOLS.md", "HEARTBEAT.md", "MEMORY.md", "BOOTSTRAP.md",
    "You are", "Your role is", "## Core Truths", "## Boundaries", "## Response Mode", "## Safety", "## Vibe",
    "\"type\": \"function\"", "\"parameters\":", "\"required\":",
    "## Runtime", "## Workspace Files", "## Silent Replies", "## Heartbeats", "## Messaging"]

/-- `is_protected_content` -/
def isProtectedContent (text : List Char) : Bool :=
  if text.length < 50 then false else 2 ≤ protectedMarkers.countP fun marker => marker.toList <:+: text

inductive Risk where
  | narrative | «protected» | config | code
  deriving DecidableEq

/-- `content_text.count("    ")` -/
def countIndents : List Char → Nat
  | ' ' :: ' ' :: ' ' :: ' ' :: rest => countIndents rest + 1
  | _ :: rest => countIndents rest
  | [] => 0

def partText : Json N → Option String
  | .object entries =>
    match entries.lookup "text" with
    | some (.string text) => some text
    | _ => none
  | _ => none

def contentText : Json N → Option String
  | .array parts => some ("\n".intercalate (parts.filterMap partText))
  | .string text => some text
  | _ => none

def isString (text : String) : Option (Json N) → Bool
  | some (.string value) => value = text
  | _ => false

/-- A set can only be asked for a value that has a hash. -/
def hashable : Option (Json N) → Bool
  | some (.array _) => false
  | some (.object _) => false
  | _ => true

/-- `classify_message_risk` -/
def classifyMessageRisk (message : List (String × Json N)) : Option Risk :=
  let role := message.lookup "role"
  match contentText ((message.lookup "content").getD (.string "")) with
  | none => some .narrative
  | some text =>
    if ! hashable role then none
    else if isString "system" role || isString "developer" role then some .«protected»
    else if isProtectedContent text.toList then some .«protected»
    else if isString "tool" role || isString "tool_result" (message.lookup "type") then some .config
    else if "```".toList <:+: text.toList ∨ 5 < countIndents text.toList then some .code
    else some .narrative

/-- `can_compress` -/
def canCompress (risk : Risk) (mode : String) : Bool :=
  if mode = "strict" ∨ mode = "safe" then false
  else if risk = .«protected» then false
  else if mode = "hybrid" then risk = .narrative
  else true

end Risk

section Requests
variable {N Hash Body : Type} [DecidableEq Hash] (config : Config) (builtins : Builtins N Hash)

/-- What the loop counts and caches on its way. -/
structure Tally (Hash : Type) where
  protectedTokens : Nat
  cache : CompactCache Hash

def contentTokens : Json N → Option Nat
  | .string text => builtins.countTokens (.string text)
  | .array parts => (parts.filterMap fun part => match part with
    | .object entries => entries.lookup "text"
    | _ => none).foldlM (fun total text => (builtins.countTokens text).map (total + ·)) 0
  | _ => some 0

/-- A message that is passed by; its tokens count as protected. -/
def passBy (entries : List (String × Json N)) (tally : Tally Hash) : Option (Json N × Tally Hash) :=
  (contentTokens builtins ((entries.lookup "content").getD (.string ""))).map fun tokens =>
    (.object entries, { tally with protectedTokens := tally.protectedTokens + tokens })

def compactPart (_ : Nat) (part : Json N) (tally : Tally Hash) : Option (Json N × Tally Hash) :=
  match part with
  | .object entries =>
    match entries.lookup "text" with
    | some (.string text) =>
      let (short, cache) := compactText config builtins text tally.cache
      some (.object (replace "text" (.string short) entries), { tally with cache := cache })
    | _ => some (part, tally)
  | _ => some (part, tally)

def compactContent (entries : List (String × Json N)) (tally : Tally Hash) : Option (Json N × Tally Hash) :=
  match entries.lookup "content" with
  | some (.string text) =>
    let (short, cache) := compactText config builtins text tally.cache
    some (.object (replace "content" (.string short) entries), { tally with cache := cache })
  | some (.array parts) =>
    (thread (compactPart config builtins) 0 parts tally).map fun found =>
      (.object (replace "content" (.array found.1) entries), found.2)
  | _ => some (.object entries, tally)

def compactMessage (keepFrom : Nat) (lastUser : Option Nat) (i : Nat) (message : Json N)
    (tally : Tally Hash) :
    Option (Json N × Tally Hash) :=
  match message with
  | .object entries =>
    if keepFrom ≤ i then
      match classifyMessageRisk entries with
      | none => none
      | some .«protected» => passBy builtins entries tally
      | some _ => some (message, tally)
    else if isString "user" (entries.lookup "role") ∧ lastUser = some i then some (message, tally)
    else
      match classifyMessageRisk entries with
      | none => none
      | some risk => if canCompress risk config.compilationMode then compactContent config builtins entries tally
        else passBy builtins entries tally
  | _ => some (message, tally)

def isUser : Json N → Bool
  | .object entries => isString "user" (entries.lookup "role")
  | _ => false

/-- `last_user_idx` -/
def lastUserIndex (messages : List (Json N)) : Option Nat :=
  messages.zipIdx.foldl (fun last entry => if isUser entry.1 then some entry.2 else last) none

def systemTokens : Json N → Option Nat
  | .string text => builtins.countTokens (.string text)
  | .array parts =>
      (parts.filterMap partText).foldlM (fun total text =>
        (builtins.countTokens (.string text)).map (total + ·)) 0
  | _ => some 0

structure Outcome (Body : Type) where
  body : Body
  sentTokens : Nat
  originalTokens : Nat
  protectedTokens : Nat

def compactMessages (canonical : CanonicalRequest N) (tally : Tally Hash) :
    Option (List (Json N) × Tally Hash) :=
  thread (compactMessage config builtins (canonical.messages.length - 2) (lastUserIndex canonical.messages)) 0 canonical.messages tally

/-- `compact_request_body`, with the cache before and after it. -/
def compactRequestBody (adapter : FormatAdapter N Body) (body : Body) (cache : CompactCache Hash) :
    Option (Outcome Body × CompactCache Hash) :=
  if adapter.sourceFormat = "passthrough" then
    (adapter.extractRequestTokens body).map fun tokens => (⟨body, tokens, tokens, 0⟩, cache)
  else
    match adapter.normalize body with
    | none => some (⟨body, 0, 0, 0⟩, cache)
    | some canonical => do
      let originalTokens ← adapter.extractRequestTokens body
      if (originalTokens : Int) < config.compactThresholdTokens then return (⟨body, originalTokens,
        originalTokens, 0⟩, cache)
      if 0 < config.compactMaxTokens ∧ (originalTokens : Int) > config.compactMaxTokens then
        return (⟨body, originalTokens, originalTokens, 0⟩, cache)
      if config.compilationMode = "strict" then return (⟨body, originalTokens, originalTokens,
        originalTokens⟩, cache)
      let protectedTokens ← systemTokens builtins canonical.system
      let (messages, tally) ← compactMessages config builtins canonical ⟨protectedTokens, cache⟩
      match adapter.denormalize { canonical with messages := messages } with
      | none => return (⟨body, originalTokens, originalTokens, tally.protectedTokens⟩, tally.cache)
      | some newBody =>
        let sentTokens ← adapter.extractRequestTokens newBody
        return (⟨newBody, sentTokens, originalTokens, tally.protectedTokens⟩, tally.cache)

end Requests
end TokenPak.Compression.Pipeline
