import Mathlib.Algebra.GroupWithZero.Nat
import TokenPak.Library.StableSort

/-! Token allocation with the built-in counter. Texts are lists of letters; the fields of components
and items that are not read or written are kept as they are, so that an evidence object and a
dictionary are the same kind of item. -/

namespace TokenPak.Telemetry
open Library.StableSort

def countTokens (text : List Char) : Nat := max 1 (text.length / 4)

/-- `text[:stop]` -/
def upTo (text : List Char) (stop : Int) : List Char :=
  text.take (if 0 ≤ stop then stop.toNat else text.length - stop.natAbs)

def dots : List Char := ['.', '.', '.']

def truncateTokens (text : List Char) (maxTokens : Int) : List Char :=
  upTo text (maxTokens * 4) ++ if maxTokens * 4 < text.length then dots else []

variable {Score Other : Type} [LinearOrder Score] [Zero Score]

structure Item (Score Other : Type) where
  text : Option (List Char)
  score : Option Score
  rest : Other

def Item.shown (item : Item Score Other) : List Char := item.text.getD []

def Item.rank (item : Item Score Other) : Score := item.score.getD 0

/-- A component; `rest` are its other fields. -/
structure Component (Score Other : Type) where
  text : Option (List Char)
  items : Option (List (Item Score Other))
  rest : List Other

def Component.shown (comp : Component Score Other) : List Char := comp.text.getD []

/-- A dictionary without fields counts as none. -/
def Component.isEmpty (comp : Component Score Other) : Bool :=
  comp.text.isNone && comp.items.isNone && comp.rest.isEmpty

/-- `_component_tokens` -/
def Component.tokens (comp : Component Score Other) : Nat :=
  match comp.items with
  | some items => (items.map fun item => countTokens item.shown).sum
  | none => countTokens comp.shown

abbrev Components (Score Other : Type) := List (String × Component Score Other)

/-- `_total_used` -/
def totalUsed (components : Components Score Other) : Nat := (components.map fun entry => entry.2.tokens).sum

/-- The parts of the configuration that allocation reads. `keepShare count` is `int(count * keep_pct)`. -/
structure Budgeter where
  totalTokens : Int
  trimOrder : List String
  recentKeepTurns : Int
  keepShare : Nat → Int
  evidenceMaxSpanTokens : Int

/-- `text.split("\n\n")` -/
def splitTurns : List Char → List (List Char)
  | [] => [[]]
  | '\n' :: '\n' :: rest => [] :: splitTurns rest
  | c :: rest =>
    match splitTurns rest with
    | [] => [[c]]
    | turn :: turns => (c :: turn) :: turns

/-- `turns[-keep:]` -/
def lastTurns (turns : List (List Char)) (keep : Int) : List (List Char) :=
  if 0 < keep then turns.drop (turns.length - keep.toNat) else turns.drop keep.natAbs

/-- Evidence with the highest scores first; items of one score keep their order. -/
def byScore (items : List (Item Score Other)) : List (Item Score Other) :=
  sortBy (fun item => OrderDual.toDual item.rank) items

def omittedSchemas : List Char :=
  "[tool schemas omitted — send ref only; request full schemas if needed]".toList

section Actions
variable (budgeter : Budgeter) (space : Char → Bool)

/-- Keep the last turns; `space` tells the letters that `str.strip` removes. -/
def trimHistory (recent : Component Score Other) : Component Score Other :=
  if recent.isEmpty then recent
  else
    let turns := (splitTurns recent.shown).filter fun turn => turn.any fun c => ! space c
    if budgeter.recentKeepTurns < turns.length then
      { recent with text := some (['\n', '\n'].intercalate (lastTurns turns budgeter.recentKeepTurns)) }
    else recent

def trimItems (change : List (Item Score Other) → List (Item Score Other))
    (evidence : Component Score Other) : Component Score Other :=
  match evidence.items with
  | some (item :: items) => { evidence with items := some (change (item :: items)) }
  | _ => evidence

def trimEvidenceByScore : Component Score Other → Component Score Other :=
  trimItems fun items => (byScore items).take (max 1 (budgeter.keepShare items.length)).toNat

def Item.truncated (span : Int) (item : Item Score Other) : Item Score Other :=
  { item with text := some (truncateTokens item.shown span) }

def trimEvidenceVerbosity : Component Score Other → Component Score Other :=
  trimItems fun items => items.map (Item.truncated budgeter.evidenceMaxSpanTokens)

def trimSkills (tools : Component Score Other) : Component Score Other :=
  if 200 < countTokens tools.shown then { tools with text := some omittedSchemas } else tools

/-- Halve the recent text; the loop of the code visits the evidence too, and leaves it alone. -/
def trimProseBackground (recent : Component Score Other) : Component Score Other :=
  if recent.isEmpty then recent
  else { recent with text := some (truncateTokens recent.shown (countTokens recent.shown / 2 : Nat)) }

def trimComponent (action key : String) : Component Score Other → Component Score Other :=
  if action = "older_history" ∧ key = "recent" then trimHistory budgeter space
  else if action = "low_score_evidence" ∧ key = "evidence" then trimEvidenceByScore budgeter
  else if action = "verbose_evidence" ∧ key = "evidence" then trimEvidenceVerbosity budgeter
  else if action = "nonessential_skills" ∧ key = "tools" then trimSkills
  else if action = "prose_background" ∧ key = "recent" then trimProseBackground
  else id

def trim (action : String) (components : Components Score Other) : Components Score Other :=
  components.map fun entry => (entry.1, trimComponent budgeter space action entry.1 entry.2)

def bestItem (components : Components Score Other) : Components Score Other :=
  components.map fun entry =>
    (entry.1, if entry.1 = "evidence" then trimItems (fun items => (byScore items).take 1) entry.2
      else entry.2)

def Budgeter.fits (components : Components Score Other) : Bool :=
  (totalUsed components : Int) ≤ budgeter.totalTokens

/-- The actions in order, until the budget is met. -/
def trimmed (components : Components Score Other) : Components Score Other :=
  budgeter.trimOrder.foldl (fun found action => if budgeter.fits found then found
    else trim budgeter space action found) components

/-- `Budgeter.allocate` -/
def allocate (components : Components Score Other) : Components Score Other :=
  let found := trimmed budgeter space components
  if budgeter.fits found then found else bestItem found

end Actions
end TokenPak.Telemetry
