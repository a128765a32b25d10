import TokenPak.Companion.PreSend

/-! What a flush makes of the files of the pending directory, whatever is in them. Decoding, conversion
of numbers and binding to a database each raise exceptions of their own, and only some of them are caught.
There are no errors of the file system and one worker at a time. -/

namespace TokenPak.Companion.PendingFiles
open Library PreSend

/-- Texts of the source language are sequences of code points, surrogates among them. -/
abbrev PyStr := List (Fin 0x110000)

def PyStr.of (text : String) : PyStr := text.toList.map fun c => Fin.ofNat 0x110000 c.toNat

/-- A text without lone surrogates. -/
def PyStr.Encodes (text : PyStr) : Prop := ∀ c ∈ text, c.val.isValidChar

instance (text : PyStr) : Decidable text.Encodes :=
  decidable_of_iff (text.all fun c => decide c.val.isValidChar)
    (by simp only [PyStr.Encodes, List.all_eq_true, decide_eq_true_eq])

def PyStr.encode (text : PyStr) : Option String :=
  if text.Encodes then some (String.ofList (text.map fun c => Char.ofNat c.val)) else none

/-- The classes of exceptions that files can cause. Those of the decoders are `ValueError`s. -/
inductive Raised where
  | valueError
  | typeError
  | overflowError
  | recursionError
  deriving DecidableEq

/-- Those that `_read_pre_send_events` catches. -/
def Raised.caught : Raised → Bool
  | .valueError => true
  | .typeError => true
  | .overflowError => false
  | .recursionError => false

inductive PyFloat (F : Type) where
  | finite (value : F)
  | infinite
  | nan

inductive Value (F : Type) where
  | none
  | bool (value : Bool)
  | int (value : Int)
  | float (value : PyFloat F)
  | str (value : PyStr)
  | list (items : List (Value F))
  | dict (entries : List (PyStr × Value F))

/-- What the source language brings along: `json.loads` for bytes and for texts, and conversions of
numbers. An integer may be too large for a float, and a text may be no number. -/
structure Builtins (F : Type) where
  loads : List UInt8 → Except Raised (Value F)
  loadsText : PyStr → Except Raised (Value F)
  floatOfInt : Int → Option F
  floatOfText : PyStr → Option (PyFloat F)
  intOfText : PyStr → Option Int
  trunc : F → Int

section Numbers
variable {F : Type} [LinearOrder F] [Zero F] [One F] (builtins : Builtins F)

/-- `float` -/
def toFloat : Value F → Except Raised (PyFloat F)
  | .int n =>
    match builtins.floatOfInt n with
    | some x => .ok (.finite x)
    | none => .error .overflowError
  | .bool b => .ok (.finite (if b then 1 else 0))
  | .float x => .ok x
  | .str text =>
    match builtins.floatOfText text with
    | some x => .ok x
    | none => .error .valueError
  | _ => .error .typeError

/-- `int` -/
def toInt : Value F → Except Raised Int
  | .int n => .ok n
  | .bool b => .ok (if b then 1 else 0)
  | .float (.finite x) => .ok (builtins.trunc x)
  | .float .infinite => .error .overflowError
  | .float .nan => .error .valueError
  | .str text =>
    match builtins.intOfText text with
    | some n => .ok n
    | none => .error .valueError
  | _ => .error .typeError

/-- A number that is finite and not negative. -/
def clean : PyFloat F → Except Raised F
  | .finite x => if x < 0 then .error .valueError else .ok x
  | _ => .error .valueError

/-- Equal to the version `1`, which `True` and `1.0` are as well. -/
def isVersion : Value F → Bool
  | .int n => n = 1
  | .bool b => b
  | .float (.finite x) => x = 1
  | _ => false

end Numbers

def preSendEventMaxBytes : Nat := 64 * 1024

structure Event (F : Type) where
  eventId : PyStr
  timestamp : F
  date : PyStr
  sessionId : PyStr
  entryType : PyStr
  content : PyStr
  metadataJson : PyStr
  cost : Option (Nat × F)

/-- The parts of an event that are checked before its metadata is decoded, and those that are still
to be converted. -/
structure Head (F : Type) where
  eventId : PyStr
  sessionId : PyStr
  date : PyStr
  entryType : PyStr
  content : PyStr
  metadataJson : PyStr
  timestamp : Value F
  cost : Value F

section Parsing
variable {F : Type} [LinearOrder F] [Zero F] [One F]

/-- `dict.get` with a default. -/
def lookup (entries : List (PyStr × Value F)) (key : String) (default : Value F) : Value F :=
  ((entries.find? fun entry => entry.1 = PyStr.of key).map Prod.snd).getD default

def string : Value F → Option PyStr
  | .str text => some text
  | _ => none

def nonempty (value : Value F) : Option PyStr := (string value).filter (· ≠ [])

/-- The checks up to the one of the journal; each of them raises a `ValueError`. -/
def head (name : PyStr) : Value F → Option (Head F)
  | .dict event => do
    guard (isVersion (lookup event "version" .none))
    let eventId ← nonempty (lookup event "event_id" .none)
    guard (name = eventId ++ PyStr.of ".json")
    let sessionId ← nonempty (lookup event "session_id" .none)
    let date ← nonempty (lookup event "date" .none)
    let journal ← match lookup event "journal" .none with
      | .dict journal => some journal
      | _ => none
    let entryType ← nonempty (lookup journal "entry_type" .none)
    let content ← string (lookup journal "content" .none)
    let metadataJson ← string (lookup journal "metadata_json" .none)
    return { eventId, sessionId, date, entryType, content, metadataJson,
             timestamp := lookup event "timestamp" (.int (-1)), cost := lookup event "cost" .none }
  | _ => none

def isDict : Value F → Bool
  | .dict _ => true
  | _ => false

variable (builtins : Builtins F)

def parseCost : Value F → Except Raised (Option (Nat × F))
  | .none => .ok none
  | .dict cost => do
    let tokensEst ← toInt builtins (lookup cost "input_tokens" (.int (-1)))
    let costEst ← toFloat builtins (lookup cost "estimated_cost" (.int (-1)))
    if tokensEst < 0 then throw .valueError
    let costEst ← clean costEst
    return some (tokensEst.toNat, costEst)
  | _ => .error .valueError

/-- The part of `_parse_pre_send_event` behind the checks of the strings. -/
def parseTail (head : Head F) : Except Raised (Event F) := do
  let metadata ← builtins.loadsText head.metadataJson
  if ¬ isDict metadata then throw .valueError
  let timestamp ← clean (← toFloat builtins head.timestamp)
  let cost ← parseCost builtins head.cost
  return { eventId := head.eventId, timestamp, date := head.date, sessionId := head.sessionId, entryType := head.entryType,
           content := head.content, metadataJson := head.metadataJson, cost }

/-- `_parse_pre_send_event` -/
def parsePreSendEvent (name : PyStr) (payload : List UInt8) : Except Raised (Event F) := do
  if preSendEventMaxBytes < payload.length then throw .valueError
  let event ← builtins.loads payload
  match head name event with
  | none => throw .valueError
  | some head => parseTail builtins head

end Parsing

section Flush
variable {F Hash : Type}

/-- The part of an event that the journal takes. -/
def Event.entry (event : Event F) : Option (PreSend.Event F F) := do
  let sessionId ← event.sessionId.encode
  let entryType ← event.entryType.encode
  let content ← event.content.encode
  let metadataJson ← event.metadataJson.encode
  return { eventId := "", timestamp := event.timestamp, date := "", sessionId, entryType, content, metadataJson, cost := none }

def fitsInteger (n : Nat) : Bool := n < 2 ^ 63

/-- The part of an event with a cost that the budget takes. -/
def Event.charge (event : Event F) : Option (PreSend.Event F F) := do
  let cost ← event.cost
  let date ← event.date.encode
  let sessionId ← event.sessionId.encode
  if fitsInteger cost.1 then
    some { eventId := "", timestamp := event.timestamp, date, sessionId, entryType := "", content := "", metadataJson := "",
           cost := some cost }
  else none

/-- The pending directory, the one of invalid files, and both databases. -/
structure Spool (F Hash : Type) where
  pending : Dict PyStr (List UInt8)
  invalid : Dict PyStr (List UInt8)
  sessions : Dict String F
  entries : List (Entry F Hash)
  estimates : Dict (String × String) (Estimate F F)

/-- What has been read: the names of the events with them, and the names of the other files. -/
structure Found (F : Type) where
  events : List (PyStr × Event F)
  invalid : List (PyStr × List UInt8)

def invalidName (name : PyStr) : PyStr := name ++ PyStr.of ".invalid"

/-- `_quarantine_invalid_pre_send_events` -/
def Spool.quarantine (spool : Spool F Hash) (files : List (PyStr × List UInt8)) : Spool F Hash :=
  { spool with
    pending := spool.pending.popAll (files.map Prod.fst)
    invalid := files.foldl (fun invalid file => invalid.set (invalidName file.1) file.2) spool.invalid }

def Spool.remove (spool : Spool F Hash) (names : List PyStr) : Spool F Hash :=
  { spool with pending := spool.pending.popAll names }

variable [LinearOrder F]

def Event.before (first second : Event F) : Bool :=
  first.timestamp < second.timestamp || first.timestamp = second.timestamp && first.eventId ≤ second.eventId

def sortedFiles (files : Dict PyStr (List UInt8)) : List (PyStr × List UInt8) :=
  files.entries.insertionSort fun first second => first.1 ≤ second.1

variable [Zero F] [One F] (builtins : Builtins F)

/-- `_read_pre_send_events` -/
def readPreSendEvents : List (PyStr × List UInt8) → Except Raised (Found F)
  | [] => .ok ⟨[], []⟩
  | (name, payload) :: files =>
    match parsePreSendEvent builtins name payload with
    | .ok event => do
      let found ← readPreSendEvents files
      return { found with events := (name, event) :: found.events }
    | .error raised =>
      if raised.caught then do
        let found ← readPreSendEvents files
        return { found with invalid := (name, payload) :: found.invalid }
      else .error raised

variable [DecidableEq Hash] (sha256 : String → Hash) (round6 : F → F)

def Spool.journal (spool : Spool F Hash) (events : List (PreSend.Event F F)) : Spool F Hash :=
  { spool with
    sessions := events.foldl insertSession spool.sessions
    entries := events.foldl (insertEntry sha256) spool.entries }

def Spool.budget (spool : Spool F Hash) (events : List (PreSend.Event F F)) : Spool F Hash :=
  { spool with estimates := events.foldl (upsertEstimate round6) spool.estimates }

/-- `flush_pre_send_events`, with the number of removed files. -/
def flushPreSendEvents (spool : Spool F Hash) : Except Raised (Spool F Hash × Nat) := do
  let found ← readPreSendEvents builtins (sortedFiles spool.pending)
  let quarantined := spool.quarantine found.invalid
  if found.events = [] then return (quarantined, 0)
  let events := (found.events.map Prod.snd).insertionSort fun first second => first.before second
  -- A transaction that raises is rolled back.
  match events.mapM Event.entry with
  | none => return (quarantined, 0)
  | some rows =>
    let journaled := quarantined.journal sha256 rows
    match (events.filter (·.cost.isSome)).mapM Event.charge with
    | none => return (journaled, 0)
    | some charges =>
      return ((journaled.budget round6 charges).remove (found.events.map Prod.fst), found.events.length)

/-- `daily_spend_with_pending`, of which only the reading of the events depends on the files. -/
def dailySpendWithPending {Cost : Type} (total : List (Event F) → Cost) (spool : Spool F Hash) :
    Except Raised Cost := do
  let found ← readPreSendEvents builtins (sortedFiles spool.pending)
  return total (found.events.map Prod.snd)

end Flush
end TokenPak.Companion.PendingFiles
