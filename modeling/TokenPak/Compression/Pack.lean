import Mathlib.Algebra.Ring.Int.Defs
import TokenPak.Compression.Pipeline
import TokenPak.Library.StableSort

/-! Packing blocks into a token budget, with a report of every decision. The token counter is the built-in
one. Case folding, the comparison of qualities and their printing are parameters; the time that is
reported is left out. -/

namespace TokenPak.Compression.Pack
open Library StableSort
open Pipeline (sliceTo)

structure PackBlock (Q : Type) where
  id : String
  type : String
  content : List Char
  priority : String
  quality : Option Q
  maxTokens : Option Int
  deriving DecidableEq

structure Reading (Q : Type) where
  lower : String → String
  less : Q → Q → Bool
  twoDecimals : Q → String

inductive Action
  | kept | compacted | removed | truncated
  deriving DecidableEq

structure Decision (Q : Type) where
  blockId : String
  blockType : String
  action : Action
  reason : String
  method : Option String
  priority : String
  tokensBefore : Int
  tokensAfter : Int
  quality : Option Q
  deriving DecidableEq

structure CompileReport (Q : Type) where
  inputBlocks : Nat
  outputBlocks : Nat
  inputTokens : Int
  outputTokens : Int
  budget : Int
  decisions : List (Decision Q)
  finalOrder : List String

structure CompiledResult (Q : Type) where
  text : List Char
  report : CompileReport Q

/-- A block with the text and the tokens it has so far. -/
structure Held (Q : Type) where
  block : PackBlock Q
  text : List Char
  tokens : Int
  deriving DecidableEq

structure ContextPack (Q : Type) where
  budget : Int
  qualityThreshold : Q
  separator : List Char
  blocks : List (PackBlock Q)

def countTokens (text : List Char) : Int := max 1 ((text.length / 4 : Nat) : Int)

def truncateToTokens (text : List Char) (maxTokens : Int) : List Char :=
  sliceTo (maxTokens * 4) text ++ if (text.length : Int) > maxTokens * 4 then ['.', '.', '.'] else []

/-- Digits from the last one on, in groups of three. -/
def withCommas : List Char → List Char
  | a :: b :: c :: d :: rest => a :: b :: c :: ',' :: withCommas (d :: rest)
  | digits => digits

def formatted (n : Int) : String :=
  String.ofList ((if n < 0 then ['-'] else []) ++ (withCommas (Nat.repr n.natAbs).toList.reverse).reverse)

def exceededBlockBudget (cap : Int) : String := "exceeded block budget (max " ++ (formatted cap ++ ")")

def conversationBudgetExceeded : String := "conversation budget exceeded"

def overTotalBudget : String := "over total budget — dropped lowest priority block"

def withinBudget (priority : String) : String :=
  if priority = "critical" then "critical priority" else priority ++ " priority — within budget"

variable {Q : Type} (reading : Reading Q)

def belowQualityThreshold (quality threshold : Q) : String :=
  "below quality threshold (" ++ (reading.twoDecimals quality ++ " < " ++ reading.twoDecimals threshold ++ ")")

def priorityRank (priority : String) : Nat :=
  let key := reading.lower priority
  if key = "critical" then 0 else if key = "high" then 1 else if key = "medium" then 2
    else if key = "low" then 3 else 99

def PackBlock.rank (block : PackBlock Q) : Nat := priorityRank reading block.priority

/-- A dictionary over the block ids; the last block of an id counts. -/
def byId {Value : Type} (value : PackBlock Q → Nat → Value) (blocks : List (PackBlock Q)) :
    Dict String Value :=
  (blocks.zipIdx.map fun entry => (entry.1.id, value entry.1 entry.2)).foldl (fun dict entry =>
    dict.set entry.1 entry.2) .empty

/-- `sorted(items, key=key, reverse=True)`: equal items keep their order. -/
def sortByDescending {Item : Type} (key : Item → Nat) (items : List Item) : List Item :=
  (sortBy key items.reverse).reverse

namespace ContextPack
variable (pack : ContextPack Q)

def blockTokens : Dict String Int := byId (fun block _ => countTokens block.content) pack.blocks

def lowQuality (block : PackBlock Q) : Option Q :=
  block.quality.filter fun quality => reading.less quality pack.qualityThreshold

/-- The loop over the ordered blocks, for one of them. -/
def screen (block : PackBlock Q) : List (Decision Q) × List (Held Q) :=
  let rawTokens := (pack.blockTokens.get block.id).getD 0
  match pack.lowQuality reading block with
  | some quality =>
    ([⟨block.id, block.type, .removed, belowQualityThreshold reading quality pack.qualityThreshold, none,
      block.priority, rawTokens, 0, block.quality⟩], [])
  | none =>
    match block.maxTokens with
    | some cap =>
      if rawTokens > cap then
        let text := truncateToTokens block.content cap
        ([⟨block.id, block.type, .compacted, exceededBlockBudget cap, some "extractive_truncation",
            block.priority, rawTokens, countTokens text, none⟩],
          [⟨block, text, countTokens text⟩])
      else ([], [⟨block, block.content, rawTokens⟩])
    | none => ([], [⟨block, block.content, rawTokens⟩])

def ordered : List (PackBlock Q) := sortBy (PackBlock.rank reading) pack.blocks

def screened : List (Decision Q) := (pack.ordered reading).flatMap fun block => (pack.screen reading block).1

def keptBlocks : List (Held Q) := (pack.ordered reading).flatMap fun block => (pack.screen reading block).2

/-- The priorities whose blocks are cut, as they are written. -/
def isFirm (block : PackBlock Q) : Bool := block.priority ∈ ["critical", "high"]

def enforce (runningTotal : Int) : List (Held Q) → List (Held Q) × List (Decision Q)
  | [] => ([], [])
  | held :: rest =>
    if runningTotal + held.tokens ≤ pack.budget then
      let after := enforce (runningTotal + held.tokens) rest
      (held :: after.1, after.2)
    else
      let remaining := pack.budget - runningTotal
      if remaining > 0 ∧ isFirm held.block = true then
        let truncated := truncateToTokens held.text remaining
        let after := enforce (runningTotal + countTokens truncated) rest
        (⟨held.block, truncated, countTokens truncated⟩ :: after.1,
          ⟨held.block.id, held.block.type, .truncated, conversationBudgetExceeded, none,
            held.block.priority, held.tokens, countTokens truncated, none⟩ :: after.2)
      else
        let after := enforce runningTotal rest
        (after.1,
          ⟨held.block.id, held.block.type, .removed, overTotalBudget, none, held.block.priority,
            held.tokens, 0, held.block.quality⟩ :: after.2)

def keptByPrio : List (Held Q) :=
  sortByDescending (fun held => held.block.rank reading) (pack.keptBlocks reading)

def enforced : List (Held Q) × List (Decision Q) := pack.enforce 0 (pack.keptByPrio reading).reverse

def finalKept : List (Held Q) := (pack.enforced reading).1

def quietlyKept (held : Held Q) : Decision Q :=
  ⟨held.block.id, held.block.type, .kept, withinBudget held.block.priority, none,
    held.block.priority, (pack.blockTokens.get held.block.id).getD 0, held.tokens, held.block.quality⟩

def decisionsMade : List (Decision Q) :=
  let decisions := pack.screened reading ++ (pack.enforced reading).2
  decisions ++ ((pack.finalKept reading).filter fun held =>
    decide (held.block.id ∉ decisions.map Decision.blockId)).map pack.quietlyKept

def priorityIdx : Dict String Nat := byId (fun block _ => block.rank reading) pack.blocks

def originalOrder : Dict String Nat := byId (fun _ index => index) pack.blocks

def finalSorted : List (Held Q) :=
  sortBy (fun held => (pack.priorityIdx reading |>.get held.block.id).getD 0)
    (pack.finalKept reading)

def decisions : List (Decision Q) :=
  sortBy (fun decision => (pack.originalOrder.get decision.blockId).getD 999)
    (pack.decisionsMade reading)

def compile : CompiledResult Q where
  text := pack.separator.intercalate ((pack.finalSorted reading).map Held.text)
  report := {
    inputBlocks := pack.blocks.length
    outputBlocks := (pack.finalSorted reading).length
    inputTokens := pack.blockTokens.values.sum
    outputTokens := ((pack.finalSorted reading).map Held.tokens).sum
    budget := pack.budget
    decisions := pack.decisions reading
    finalOrder := (pack.finalSorted reading).map fun held => held.block.id }

end ContextPack

end TokenPak.Compression.Pack
