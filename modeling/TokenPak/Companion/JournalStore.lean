import Mathlib.Algebra.Order.Ring.Int
import TokenPak.Library.Json

/-! The savings in the journal of the companion. Savings events are journal entries, and an entry is
kept once for each session, type and content hash. The arithmetic of costs, the printing of a cost
and the conversions of JSON values to numbers are parameters, and so is the hash. The times of
entries are left out. -/

namespace TokenPak.Companion.JournalStore
open Library

structure Entry (Hash : Type) where
  sessionId : String
  entryType : String
  content : List Char
  metadataJson : List Char
  contentHash : Hash
  deriving DecidableEq

structure Numbers (N F : Type) where
  ofInt : Int → N
  ofFloat : F → N
  /-- `int`, which may raise. -/
  toInt : Json N → Option Int
  /-- `float` -/
  toFloat : Json N → Option F
  /-- `float(max(0.0, cost))` -/
  clip : F → F
  zero : F
  add : F → F → F
  round : F → F
  /-- The text of an event. -/
  content : String → Int → F → List Char

/-- A call of `record_savings` without extra fields. -/
structure SavingsCall (F : Type) where
  sessionId : String
  tool : String
  tokensAvoided : Int
  costAvoidedUsd : F
  modelHint : Option String

structure Bucket (F : Type) where
  tokensAvoided : Int
  costAvoidedUsd : F
  events : Nat

structure Savings (F : Type) where
  tokensAvoided : Int
  costAvoidedUsd : F
  byTool : Dict String (Bucket F)

def companionSavings : String := "companion_savings"

section Writing
variable {N F Hash : Type} [Numerals N] [DecidableEq Hash] (numbers : Numbers N F) (sha256 : List Char → Hash)

def separator : Char := '\x1f'

def emptyObject : List Char := ['\x7b', '\x7d']

def entryContentHash (entryType : String) (content metadataJson : List Char) : Hash :=
  sha256 (entryType.toList ++ separator :: content ++ separator :: if metadataJson =
    [] then emptyObject else metadataJson)

/-- The layout of `json.dumps` by default. -/
def style : Json.Style := ⟨true, true⟩

/-- `INSERT OR IGNORE` with the unique index on session, type and hash. -/
def addEntry (sessionId entryType : String) (content : List Char) (metadata : Json N)
    (entries : List (Entry Hash)) : List (Entry Hash) :=
  let metadataJson := metadata.dumps style
  let contentHash := entryContentHash sha256 entryType content metadataJson
  if entries.any fun entry => decide (entry.sessionId = sessionId ∧ entry.entryType = entryType ∧
    entry.contentHash = contentHash) then entries
  else entries ++ [⟨sessionId, entryType, content, metadataJson, contentHash⟩]

def savingsMetadata (call : SavingsCall F) : Json N :=
  .object ([("tool", Json.string call.tool),
    ("tokens_avoided", .number (numbers.ofInt (max 0 call.tokensAvoided))),
    ("cost_avoided_usd", .number (numbers.ofFloat (numbers.clip call.costAvoidedUsd)))] ++
    match call.modelHint with
    | some hint => if hint = "" then [] else [("model_hint", .string hint)]
    | none => [])

def recordSavings (call : SavingsCall F) (entries : List (Entry Hash)) : List (Entry Hash) :=
  addEntry sha256 call.sessionId companionSavings
    (numbers.content call.tool (max 0 call.tokensAvoided) (numbers.clip call.costAvoidedUsd))
      (savingsMetadata numbers call) entries

end Writing

section Reading
variable {N F Hash : Type} [Numerals N] (numbers : Numbers N F)

/-- `convert(m.get(key, default) or default)` -/
def reading {Amount : Type} (convert : Json N → Option Amount) (default : Amount)
    (held : Option (Json N)) : Option Amount :=
  match held with
  | none => some default
  | some value => if value.truthy then convert value else some default

def toolOf (held : Option (Json N)) : Option String :=
  match held with
  | none => some "unknown"
  | some (.string tool) => some tool
  | some _ => none

/-- One row of `session_savings`; a row that raises is `none`. -/
def tally (savings : Savings F) (metadataJson : List Char) : Option (Savings F) :=
  match (Json.loads (if metadataJson = [] then emptyObject else metadataJson) : Option (Json N)) with
  | none => some savings
  | some (.object m) => do
    let tool ← toolOf (m.lookup "tool")
    let tok ← reading numbers.toInt 0 (m.lookup "tokens_avoided")
    let cost ← reading numbers.toFloat numbers.zero (m.lookup "cost_avoided_usd")
    let bucket := (savings.byTool.get tool).getD ⟨0, numbers.zero, 0⟩
    some {
      tokensAvoided := savings.tokensAvoided + tok
      costAvoidedUsd := numbers.add savings.costAvoidedUsd cost
      byTool := savings.byTool.set tool ⟨bucket.tokensAvoided + tok, numbers.add bucket.costAvoidedUsd cost, bucket.events + 1⟩ }
  | some _ => none

def noSavings : Savings F := ⟨0, numbers.zero, .empty⟩

def sessionSavings (sessionId : String) (entries : List (Entry Hash)) : Option (Savings F) :=
  let rows :=
    (entries.filter fun entry => decide (entry.sessionId = sessionId ∧
      entry.entryType = companionSavings)).map Entry.metadataJson
  (rows.foldlM (tally numbers) (noSavings numbers)).map fun savings =>
    { savings with costAvoidedUsd := numbers.round savings.costAvoidedUsd }

end Reading

end TokenPak.Companion.JournalStore
