import TokenPak.Library.Json
import TokenPak.Library.Lines

/-! Transcript parsing (`companion/transcript/parser.py`). The JSON reader, the token counter and
the texts of values that are not texts are parameters; an uncaught exception is `none`. -/

namespace TokenPak.Companion.Transcript
open Library

abbrev Object (N : Type) := List (String × Json N)

/-- What reading a JSON text comes to. Deep nesting and long integers raise exceptions that are no
decoding errors. -/
inductive Loaded (N : Type) where
  | value (value : Json N)
  | decodeError
  | raised

/-- `key` tells which values are one key of a dictionary, if they can be keys at all. -/
structure Builtins (N Key : Type) where
  loads : List Char → Loaded N
  repr : Json N → String
  countTokens : String → Option Nat
  key : Json N → Key

structure TranscriptMessage (N : Type) where
  type : Json N
  role : Json N
  content : String
  tokensEst : Nat
  timestamp : Json N
  toolCalls : List (Object N)
  raw : Object N

structure TranscriptSummary (N Key : Type) where
  messageCount : Nat
  totalChars : Nat
  tokensEst : Nat
  roleCounts : Dict Key Nat
  messages : List (TranscriptMessage N)
  parseErrors : Nat

section Values
variable {N : Type}

def get (obj : Object N) (name : String) (default : Json N) : Json N := (obj.lookup name).getD default

def equals (value : Json N) (text : String) : Bool :=
  match value with
  | .string held => held = text
  | _ => false

/-- Lists and dictionaries cannot be keys of a dictionary. -/
def isHashable : Json N → Bool
  | .array _ => false
  | .object _ => false
  | _ => true

def asText : Json N → Option String
  | .string text => some text
  | _ => none

/-- Joining raises on a value that is not a text. -/
def joinLines (parts : List (Json N)) : Option String := (parts.mapM asText).map ("\n".intercalate ·)

def firstText (obj : Object N) (names : List String) : Option String :=
  names.findSome? fun name => ((obj.lookup name).bind asText).filter (· ≠ "")

/-- What a loop goes through: the items of a list, the letters of a text, the keys of a dictionary. -/
def iterate : Json N → Option (List (Json N))
  | .array items => some items
  | .string text => some (text.toList.map fun c => .string (String.singleton c))
  | .object entries => some (entries.map fun entry => .string entry.1)
  | _ => none

def extractRole (obj : Object N) : Json N :=
  let msgType := get obj "type" (.string "")
  if equals msgType "user" then
    match get obj "message" (.object []) with
    | .object msg => get msg "role" (.string "user")
    | _ => .string "user"
  else if equals msgType "assistant" then
    match get obj "message" (.object []) with
    | .object msg => get msg "role" (.string "assistant")
    | _ => .string "assistant"
  else msgType

def toolUse : Json N → Option (Object N)
  | .object block => if equals (get block "type" .null) "tool_use" then some block else none
  | _ => none

def extractToolCalls (obj : Object N) : List (Object N) :=
  if equals (get obj "type" .null) "assistant" then
    match get obj "message" (.object []) with
    | .object msg =>
      match get msg "content" (.array []) with
      | .array content => content.filterMap toolUse
      | _ => []
    | _ => []
  else []

end Values

section Contents
variable {N Key : Type} [Numerals N] (builtins : Builtins N Key)

/-- `str(value)` -/
def str : Json N → String
  | .string text => text
  | value => builtins.repr value

/-- `json.dumps(value, ensure_ascii=False)` -/
def dumps (value : Json N) : String := String.ofList (Json.dumps ⟨true, false⟩ value)

def kept (value : Json N) : List (Json N) := if value.truthy then [value] else []

def resultText : Json N → Option (Json N)
  | .object result => some (get result "text" (.string ""))
  | _ => none

def blockParts : Json N → Option (List (Json N))
  | .string text => some [.string text]
  | .object block =>
    let blockType := get block "type" (.string "")
    if equals blockType "text" then some (kept (get block "text" (.string "")))
    else if equals blockType "thinking" then some (kept (get block "thinking" (.string "")))
    else if equals blockType "tool_use" then
      some [.string ("[tool_use:" ++ str builtins (get block "name" (.string "")) ++ "] " ++
        dumps (get block "input" (.object [])))]
    else if equals blockType "tool_result" then
      match get block "content" (.string "") with
      | .array results => (joinLines (results.filterMap resultText)).map fun text => kept (.string text)
      | value => some (if value.truthy then [.string (str builtins value)] else [])
    else if equals blockType "image" then some [.string "[image]"]
    else some (((asText (get block "text" (get block "content" (.string "")))).filter (· ≠ "")).toList.map Json.string)
  | _ => some []

def flattenContentBlocks (blocks : List (Json N)) : Option String :=
  match blocks.mapM (blockParts builtins) with
  | some parts => joinLines (parts.flatten.filter Json.truthy)
  | none => none

/-- `added`, which may be no true value. -/
def added (att : Object N) : Json N :=
  if (get att "addedLines" .null).truthy then get att "addedLines" .null else get att "addedNames" .null

def attachmentText (att : Object N) : Option String :=
  match firstText att ["content", "text"] with
  | some text => some text
  | none =>
    if (added att).truthy then (iterate (added att)).map fun items =>
      "\n".intercalate (items.map (str builtins))
    else some (dumps (.object att))

def extractContent (obj : Object N) : Option String :=
  let msgType := get obj "type" (.string "")
  if equals msgType "queue-operation" then some (str builtins (get obj "content" (.string "")))
  else if equals msgType "user" || equals msgType "assistant" then
    match get obj "message" (.object []) with
    | .object msg =>
      match get msg "content" (.string "") with
      | .string content => some content
      | .array blocks => flattenContentBlocks builtins blocks
      | _ => some ""
    | _ => some ""
  else if equals msgType "attachment" then
    match get obj "attachment" (.object []) with
    | .object att => attachmentText builtins att
    | att => some (str builtins att)
  else if equals msgType "last-prompt" then some (str builtins (get obj "lastPrompt" (.string "")))
  else if equals msgType "ai-title" then some (str builtins (get obj "title" (get obj "content" (.string ""))))
  else some ((firstText obj ["content", "text", "data"]).getD "")

def message (obj : Object N) : Option (TranscriptMessage N) :=
  let msgType := get obj "type" (.string "unknown")
  if isHashable msgType then
    match extractContent builtins obj with
    | some content =>
      match if content = "" then some 0 else builtins.countTokens content with
      | some tokens =>
        some
          { type := msgType, role := extractRole obj, content, tokensEst := tokens, timestamp := get obj "timestamp" (.string ""),
            toolCalls := extractToolCalls obj, raw := obj }
      | none => none
    | none => none
  else none

end Contents

section Parsing
variable {N Key : Type} [Numerals N] [DecidableEq Key] (builtins : Builtins N Key)

def emptySummary : TranscriptSummary N Key := ⟨0, 0, 0, Dict.empty, [], 0⟩

def record (summary : TranscriptSummary N Key) (msg : TranscriptMessage N) : TranscriptSummary N Key :=
  { summary with
    totalChars := summary.totalChars + msg.content.length
    tokensEst := summary.tokensEst + msg.tokensEst
    roleCounts :=
      summary.roleCounts.set (builtins.key msg.type)
        ((summary.roleCounts.get (builtins.key msg.type)).getD 0 + 1)
    messages := summary.messages ++ [msg] }

/-- What a line that is not blank does. A value that is no dictionary has no `get`. -/
def parseLine (summary : TranscriptSummary N Key) (line : List Char) : Option (TranscriptSummary N Key) :=
  match builtins.loads line with
  | .value (.object obj) => (message builtins obj).map (record builtins summary)
  | .value _ => none
  | .decodeError => some { summary with parseErrors := summary.parseErrors + 1 }
  | .raised => none

def readLine (summary : TranscriptSummary N Key) (line : List Char) : Option (TranscriptSummary N Key) :=
  let line := Lines.trim Text.isSpace line
  if line = [] then some summary else parseLine builtins summary line

/-- The text of a file is what it holds once it is decoded; a path may lead to no file. -/
def parseTranscript (file : Option (List Char)) : Option (TranscriptSummary N Key) :=
  match file with
  | none => some emptySummary
  | some text =>
    match (Lines.splitlines (Lines.translate text)).foldlM (readLine builtins) emptySummary with
    | some summary => some { summary with messageCount := summary.messages.length }
    | none => none

end Parsing
end TokenPak.Companion.Transcript
