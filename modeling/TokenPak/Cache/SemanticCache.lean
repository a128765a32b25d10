import Mathlib.Data.List.Dedup
import TokenPak.Library.Dict
import TokenPak.Library.FloatRange
import TokenPak.Library.Text

/-! The semantic cache: answers to queries, found again for queries with the same or nearly the
same words, of one wire format and one model and provider. Each call reads the clock once. -/

namespace TokenPak.Cache.SemanticCache
open Library Text

/-- What the code uses of the characters beyond ASCII. -/
structure Unicode where
  lower : List Char → List Char
  isAlnum : Char → Bool
  ascii : ∀ c, 'a' ≤ c ∧ c ≤ 'z' ∨ '0' ≤ c ∧ c ≤ '9' → isAlnum c = true

section Words

/-- The alternatives of `_FILLER_RE`, in their order. -/
def fillers : List (List Char) :=
  ["please", "kindly", "could you", "can you", "would you", "hey", "hi", "hello", "thanks",
    "thank you", "just", "really",
    "very", "so", "also", "actually", "basically"].map String.toList

/-- A character of the text against one of the pattern, without regard to case. -/
def folds (c pattern : Char) : Bool :=
  c = pattern || 'A' ≤ c && c ≤ 'Z' && c.toNat + 32 = pattern.toNat || pattern = 'i' &&
    (c = 'İ' || c = 'ı') ||
    pattern = 's' && c = 'ſ' || pattern = 'k' && c.toNat = 0x212a

def startsWith : List Char → List Char → Bool
  | [], _ => true
  | _ :: _, [] => false
  | pattern :: word, c :: text => folds c pattern && startsWith word text

variable (unicode : Unicode)

def isWord : Option Char → Bool
  | some c => unicode.isAlnum c || c = '_'
  | none => false

/-- The length of the filler that stands here as a word, behind a character or at the beginning. -/
def fillerLength (before : Option Char) (text : List Char) : Option Nat :=
  if isWord unicode before = isWord unicode text.head? then none
  else
    (fillers.find? fun word =>
      startsWith word text && isWord unicode text[word.length - 1]? != isWord unicode text[word.length]?).map List.length

/-- `_FILLER_RE.sub`: a filler that was found is passed over to its end. -/
def removeFillers (before : Option Char) (passing : Nat) : List Char → List Char
  | [] => []
  | c :: rest =>
    match passing with
    | more + 1 => removeFillers (some c) more rest
    | 0 =>
      match fillerLength unicode before (c :: rest) with
      | some length => removeFillers (some c) (length - 1) rest
      | none => c :: removeFillers (some c) 0 rest

/-- The text in lower case, with single blanks and without fillers. -/
def plain (query : String) : List Char :=
  removeFillers unicode none 0 (unicode.lower (collapse (strip query).toList))

def isAsciiAlnum (c : Char) : Bool := 'a' ≤ c && c ≤ 'z' || '0' ≤ c && c ≤ '9'

/-- `_normalise` -/
def normalise (query : String) : String :=
  strip (String.ofList (collapse ((plain unicode query).filter fun c => isAsciiAlnum c || c = ' ')))

/-- `_tokenize` -/
def tokenize (text : String) : List (List Char) := (split text.toList).dedup

/-- `_jaccard` -/
def jaccard (F : Type) [Ratios F] (a b : List (List Char)) : F :=
  if a = [] ∧ b = [] then Ratios.one
  else Ratios.divide (a.filter (· ∈ b)).length (a ++ b).dedup.length

/-- The words of a query as a reader of any script sees them. -/
def wordSet (query : String) : List (List Char) :=
  (split ((plain unicode query).filter fun c => unicode.isAlnum c || c = ' ')).dedup

end Words

inductive Format where
  | json | sse
  deriving DecidableEq

def Format.text : Format → String
  | .json => "json"
  | .sse => "sse"

/-- The names of model and provider, empty where none is given. -/
structure Features where
  model : String
  provider : String
  deriving DecidableEq

/-- `_features_key` -/
def featuresKey (features : Features) : String :=
  if features.model = "" ∧ features.provider = "" then "" else features.model ++ "\x1f" ++ features.provider

structure Entry (Time Bytes : Type) where
  queryNormalized : String
  queryHash : String
  response : Bytes
  contentType : String
  wireFormat : Format
  createdAt : Time
  keyFeatures : Features

structure Config (Time F : Type) where
  enabled : Bool
  expiresAt : Time → Time
  similarityThreshold : F
  maxEntries : Nat

abbrev Store (Time Bytes : Type) := Dict String (Entry Time Bytes)

inductive Strategy where
  | disabled | exact | jaccard | none
  deriving DecidableEq

structure Lookup (Time Bytes F : Type) where
  entry : Option (Entry Time Bytes)
  similarity : F
  matchStrategy : Strategy

section Calls
variable {Time Bytes F : Type} [LinearOrder Time] (unicode : Unicode) (sha256 : String → String)

def storeKey (query : String) (format : Format) (features : Features) : String :=
  sha256 (normalise unicode query) ++ ":" ++ format.text ++
    (if featuresKey features = "" then "" else ":" ++ featuresKey features)

def newEntry (now : Time) (query : String) (response : Bytes) (contentType : String) (format : Format)
    (features : Features) : Entry Time Bytes :=
  ⟨normalise unicode query, sha256 (normalise unicode query), response, contentType, format, now, features⟩

/-- `store`. Without room for an entry the loop empties the cache and then raises. -/
def store (config : Config Time F) (cache : Store Time Bytes) (now : Time) (query : String) (response : Bytes)
    (contentType : String) (format : Format) (features : Features) : Store Time Bytes :=
  let key := storeKey unicode sha256 query format features
  let others := cache.pop key
  if config.maxEntries = 0 then Dict.empty
  else
    (others.dropOldest (others.entries.length + 1 - config.maxEntries)).set key
      (newEntry unicode sha256 now query response contentType format features)

/-- `invalidate` -/
def invalidate (cache : Store Time Bytes) (query : String) : Store Time Bytes :=
  cache.filter fun entry => ¬ (sha256 (normalise unicode query) ++ ":").toList.isPrefixOf entry.1.toList

/-- `_evict_expired` -/
def evictExpired (config : Config Time F) (cache : Store Time Bytes) (now : Time) : Store Time Bytes :=
  cache.filter fun entry => ¬ config.expiresAt entry.2.createdAt < now

/-- The entry with the greatest score above zero, the first of several, and its score. -/
def bestMatch [Ratios F] (words : List (List Char)) (entries : List (Entry Time Bytes)) :
    Option (Entry Time Bytes) × F :=
  entries.foldl (fun best entry =>
    let score := jaccard F words (tokenize entry.queryNormalized)
    if Ratios.atLeast best.2 score then best else (some entry, score)) (none, Ratios.zero)

/-- `lookup`: the answer and the cache afterwards. -/
def lookup [Ratios F] (config : Config Time F) (cache : Store Time Bytes) (now : Time) (query : String)
    (format : Format) (features : Features) : Lookup Time Bytes F × Store Time Bytes :=
  if ¬ config.enabled then (⟨none, Ratios.zero, .disabled⟩, cache)
  else
    let cache := evictExpired config cache now
    let normalised := normalise unicode query
    let entries := cache.values.filter fun entry =>
      entry.wireFormat = format ∧ featuresKey entry.keyFeatures = featuresKey features
    match entries.find? fun entry => entry.queryHash = sha256 normalised ∨
        entry.queryNormalized = normalised with
    | some entry => (⟨some entry, Ratios.one, .exact⟩, cache)
    | none =>
      match bestMatch (tokenize normalised) entries with
      | (some best, score) =>
        if Ratios.atLeast score config.similarityThreshold then (⟨some best, score, .jaccard⟩, cache)
        else (⟨none, score, .none⟩, cache)
      | (none, score) => (⟨none, score, .none⟩, cache)

inductive Call (Time Bytes : Type) where
  | store (now : Time) (query : String) (response : Bytes) (contentType : String) (format : Format) (features : Features)
  | lookup (now : Time) (query : String) (format : Format) (features : Features)
  | invalidate (query : String)
  | clear

def step [Ratios F] (config : Config Time F) (cache : Store Time Bytes) : Call Time Bytes → Store Time Bytes
  | .store now query response contentType format features =>
    store unicode sha256 config cache now query response contentType format features
  | .lookup now query format features => (lookup unicode sha256 config cache now query format features).2
  | .invalidate query => invalidate unicode sha256 cache query
  | .clear => Dict.empty

def run [Ratios F] (config : Config Time F) (calls : List (Call Time Bytes)) : Store Time Bytes :=
  calls.foldl (step unicode sha256 config) Dict.empty

end Calls
end TokenPak.Cache.SemanticCache
