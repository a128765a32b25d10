import TokenPak.Library.JsonText
import TokenPak.Library.Text

/-! The instruction table: long texts that come again are replaced by a tag with an id, and a
tag by the text of its entry. Ids are given by hand or drawn from a counter. -/

namespace TokenPak.Compression.InstructionTable
open Library

section Messages
variable {Other : Type}

/-- A part of a message's content; the functions look at texts, every other value stays as it is. -/
inductive Part (Other : Type) where
  | dict (fields : Dict String (String ⊕ Other))
  | other (value : Other)

inductive Value (Other : Type) where
  | text (value : String)
  | parts (items : List (Part Other))
  | other (value : Other)

abbrev Message (Other : Type) := Dict String (Value Other)

def Part.text? : Part Other → Option String
  | .dict fields =>
    match fields.get "text" with
    | some (.inl text) => some text
    | _ => none
  | .other _ => none

def Part.mapText (f : String → String) : Part Other → Part Other
  | .dict fields =>
    match fields.get "text" with
    | some (.inl text) => .dict (fields.set "text" (.inl (f text)))
    | _ => .dict fields
  | .other value => .other value

def texts (message : Message Other) : List String :=
  match message.get "content" with
  | some (.text text) => [text]
  | some (.parts items) => items.filterMap Part.text?
  | _ => []

def mapTexts (f : String → String) (message : Message Other) : Message Other :=
  match message.get "content" with
  | some (.text text) => message.set "content" (.text (f text))
  | some (.parts items) => message.set "content" (.parts (items.map (Part.mapText f)))
  | _ => message

end Messages

structure Item where
  text : String
  seenCount : Nat
  id : Option String
  deriving DecidableEq

/-- The id of an item, which does not count when it is empty. -/
def Item.named (item : Item) : Option String :=
  match item.id with
  | some id => if id = "" then none else some id
  | none => none

structure Table (Hash : Type) where
  minTokens : Nat
  minOccurrences : Nat
  nextId : Nat
  entries : Dict String String
  observed : Dict Hash Item

def estimateTokens (text : String) : Nat := max 1 (text.length / 4)

def Blank (text : String) : Prop := Text.strip text = ""

instance (text : String) : Decidable (Blank text) := inferInstanceAs (Decidable (_ = _))

def policyId (nextId : Nat) : String :=
  let digits := printNatural nextId
  "POLICY_" ++ String.ofList (if digits.length < 2 then '0' :: digits else digits)

def tag (id : String) : String := "[INSTRUCTION:" ++ id ++ "]"

section Tables
variable {Hash : Type} [DecidableEq Hash] (sha256 : String → Hash)

/-- One step of `_apply_manual_entries`; a value that is no text is passed over. -/
def applyManualEntry (table : Table Hash) (entry : String × Option String) : Table Hash :=
  match entry.2 with
  | none => table
  | some text =>
    if Blank text then table
    else
      { table with
        entries := table.entries.set entry.1 text
        observed := table.observed.set (sha256 text) ⟨text, max 2 table.minOccurrences, some entry.1⟩ }

/-- A new table, without a file from earlier. -/
def init (minTokens minOccurrences : Int) (manualEntries : Dict String (Option String)) : Table Hash :=
  manualEntries.entries.foldl (applyManualEntry sha256)
    ⟨(max 1 minTokens).toNat, (max 2 minOccurrences).toNat, 1, Dict.empty, Dict.empty⟩

/-- `_observe_text` -/
def observeText (table : Table Hash) (text : String) : Table Hash :=
  if Blank text then table
  else if estimateTokens text < table.minTokens then table
  else
    match table.observed.get (sha256 text) with
    | none => { table with observed := table.observed.set (sha256 text) ⟨text, 1, none⟩ }
    | some item =>
      let item := { item with seenCount := item.seenCount + 1 }
      if item.named.isSome then { table with observed := table.observed.set (sha256 text) item }
      else if table.minOccurrences ≤ item.seenCount then
        { table with
          nextId := table.nextId + 1
          entries := table.entries.set (policyId table.nextId) item.text
          observed := table.observed.set (sha256 text) { item with id := some (policyId table.nextId) } }
      else { table with observed := table.observed.set (sha256 text) item }

def idOf (table : Table Hash) (text : String) : Option String :=
  (table.observed.get (sha256 text)).bind Item.named

/-- `_compress_text` -/
def compressText (table : Table Hash) (text : String) : String :=
  match idOf sha256 table text with
  | none => text
  | some id => tag id

structure Stats where
  replacementsById : Dict String Nat
  tokensSavedById : Dict String Nat

/-- What `_compress_text` records of a replacement. -/
def recordReplacement (table : Table Hash) (stats : Stats) (text : String) : Stats :=
  match idOf sha256 table text with
  | none => stats
  | some id =>
    let saved := estimateTokens text - estimateTokens (tag id)
    ⟨stats.replacementsById.set id ((stats.replacementsById.get id).getD 0 + 1),
      stats.tokensSavedById.set id ((stats.tokensSavedById.get id).getD 0 + saved)⟩

/-- `_expand_text` -/
def expandText (entries : Dict String String) (text : String) : String :=
  if "[INSTRUCTION:".toList <+: text.toList ∧ "]".toList <:+ text.toList then
    match entries.get (String.ofList ((text.toList.drop 13).dropLast)) with
    | none => text
    | some full => full
  else text

variable {Other : Type}

structure Call (Other : Type) where
  messages : List (Message Other)
  contextBudgetTight : Bool

def observeMessages (table : Table Hash) (messages : List (Message Other)) : Table Hash :=
  (messages.flatMap texts).foldl (observeText sha256) table

/-- `compress_messages`: the messages, what was recorded of them, and the table afterwards. -/
def compressMessages (table : Table Hash) (call : Call Other) : (List (Message Other) × Stats) × Table Hash :=
  let table := observeMessages sha256 table call.messages
  if call.contextBudgetTight then
    ((call.messages.map (mapTexts (compressText sha256 table)),
      (call.messages.flatMap texts).foldl (recordReplacement sha256 table) ⟨Dict.empty, Dict.empty⟩), table)
  else ((call.messages, ⟨Dict.empty, Dict.empty⟩), table)

/-- `expand_messages` -/
def expandMessages (table : Table Hash) (messages : List (Message Other)) : List (Message Other) :=
  messages.map (mapTexts (expandText table.entries))

def runCalls (table : Table Hash) (calls : List (Call Other)) : Table Hash :=
  calls.foldl (fun table call => (compressMessages sha256 table call).2) table

end Tables
end TokenPak.Compression.InstructionTable
