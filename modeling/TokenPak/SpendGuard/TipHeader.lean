import TokenPak.Library.Json
import TokenPak.Library.Text

/-! The `[TIP: ...]` header of a prompt: how it is parsed, which directives it gives, and how it is
taken out of the body of a request. -/

namespace TokenPak.SpendGuard.TipHeader
open Library

/-- Conversions of the source language: `float` of a text, `int` of a float, which may raise, the
number of tokens that a number and its unit stand for, and `lower`. -/
structure Builtins (F : Type) where
  float : List Char → Option F
  int : F → Except Bool Int
  tokens : List Char → Option Int
  lower : List Char → List Char

inductive AllowScope where
  | once | fifteenMinutes | session
  deriving DecidableEq

structure TIPDirective (F : Type) where
  raw : List Char
  allowScope : Option AllowScope
  bypass : Bool
  maxCostUsd : Option F
  maxTokens : Option Int
  estimateOnly : Bool
  cancel : Bool
  reason : Option (List Char)
  unknownKeys : List (List Char)

section Handlers
variable {F : Type} (builtins : Builtins F)

def on (value : List Char) : Bool := value ∈ ["on".toList, "true".toList, "1".toList]
def onOrYes (value : List Char) : Bool := on value || value = "yes".toList
def offOrNo (value : List Char) : Bool := value ∈ ["off".toList, "false".toList, "0".toList, "no".toList]

def stripped (text : List Char) : List Char := (Text.strip (String.ofList text)).toList

def setAllow (directive : TIPDirective F) : Option (List Char) → TIPDirective F
  | none => directive
  | some value =>
    if value = "once".toList then { directive with allowScope := some .once }
    else if value = "15m".toList then { directive with allowScope := some .fifteenMinutes }
    else if value = "session".toList ∨ on value then { directive with allowScope := some .session }
    else directive

def setBypass (directive : TIPDirective F) : Option (List Char) → TIPDirective F
  | none => { directive with bypass := true }
  | some value =>
    if onOrYes value then { directive with bypass := true }
    else if offOrNo value then { directive with bypass := false }
    else directive

/-- An amount, a number of tokens with a unit, or a bare number. None when the conversion raises
more than a `ValueError`. -/
def setMax (directive : TIPDirective F) : Option (List Char) → Option (TIPDirective F)
  | none => some directive
  | some value =>
    if value = [] then some directive
    else
      match stripped value with
      | '$' :: amount =>
        match builtins.float amount with
        | some cost => some { directive with maxCostUsd := some cost }
        | none => some directive
      | value =>
        match builtins.tokens (builtins.lower value) with
        | some tokens => some { directive with maxTokens := some tokens }
        | none =>
          match builtins.float value with
          | none => some directive
          | some number =>
            match builtins.int number with
            | .ok tokens => some { directive with maxTokens := some tokens }
            | .error valueError => if valueError then some directive else none

def setEstimate (directive : TIPDirective F) : Option (List Char) → TIPDirective F
  | none => { directive with estimateOnly := true }
  | some value => if onOrYes value then { directive with estimateOnly := true } else directive

def setCancel (directive : TIPDirective F) : Option (List Char) → TIPDirective F
  | none => { directive with cancel := true }
  | some value => if onOrYes value then { directive with cancel := true } else directive

/-- Quotes that are left around a reason are taken off. -/
def unquote (text : List Char) : List Char :=
  if text.head? = some '"' ∧ text.getLast? = some '"' ∨ text.head? = some '\'' ∧
    text.getLast? = some '\'' then text.tail.dropLast
  else text

def setReason (directive : TIPDirective F) : Option (List Char) → TIPDirective F
  | none => directive
  | some value => { directive with reason := some (unquote (stripped value)) }

/-- `DIRECTIVE_REGISTRY` -/
def handle (directive : TIPDirective F) (entry : List Char × Option (List Char)) : TIPDirective F :=
  let (key, value) := entry
  if key = "allow".toList then setAllow directive value
  else if key = "bypass".toList then setBypass directive value
  else if key = "max".toList then
    (setMax builtins directive value).getD { directive with unknownKeys := directive.unknownKeys ++ [key ++ "=parse_error".toList] }
  else if key = "estimate".toList then setEstimate directive value
  else if key = "cancel".toList then setCancel directive value
  else if key = "reason".toList then setReason directive value
  else { directive with unknownKeys := directive.unknownKeys ++ [key] }

end Handlers

section Parser

/-- The letters that a pattern without case accepts for an `i`. -/
def isTip (t i p : Char) : Bool :=
  (t = 'T' || t = 't') && (i = 'I' || i = 'i' || i = 'İ' || i = 'ı') && (p = 'P' || p = 'p')

/-- The header at the beginning of a text, what stands inside of it, and the text behind it. Blanks
around it belong to it. -/
structure TipMatch where
  whole : List Char
  inside : List Char
  remainder : List Char
  deriving DecidableEq

/-- `_TIP_RE` -/
def matchTip (text : List Char) : Option TipMatch :=
  match text.dropWhile Text.isSpace with
  | '[' :: t :: i :: p :: ':' :: body =>
    if isTip t i p then
      match (body.dropWhile Text.isSpace).dropWhile (· ≠ ']') with
      | _ :: behind =>
        some {
          whole := text.take (text.length - (behind.dropWhile Text.isSpace).length)
          inside := (body.dropWhile Text.isSpace).takeWhile (· ≠ ']')
          remainder := behind.dropWhile Text.isSpace }
      | [] => none
    else none
  | _ => none

def isKeyChar (c : Char) : Bool := ('a' ≤ c && c ≤ 'z') || ('A' ≤ c && c ≤ 'Z') || c = '_'

def isBareChar (c : Char) : Bool := !Text.isSpace c && c ≠ ']'

/-- The value behind an equals sign, and the rest: between quotes, or up to the next blank. -/
def scanBare (text : List Char) : Option (List Char × List Char) :=
  if text.takeWhile isBareChar = [] then none else some (text.takeWhile isBareChar, text.dropWhile isBareChar)

def scanValue (text : List Char) : Option (List Char × List Char) :=
  match text with
  | '"' :: quoted =>
      if '"' ∈ quoted then some (quoted.takeWhile (· ≠ '"'), (quoted.dropWhile (· ≠ '"')).tail)
        else scanBare text
  | '\'' :: quoted =>
      if '\'' ∈ quoted then some (quoted.takeWhile (· ≠ '\''), (quoted.dropWhile (· ≠ '\'')).tail)
        else scanBare text
  | _ => scanBare text

/-- What a key is followed by: an equals sign counts only with a value behind it. -/
def scanRest (text : List Char) : Option (List Char) × List Char :=
  match text with
  | '=' :: behind =>
    match scanValue behind with
    | some (value, rest) => (some value, rest)
    | none => (none, text)
  | _ => (none, text)

/-- `finditer` of `_KV_RE`: keys with the values that are captured, in as many rounds as there are
characters. -/
def keyValues : Nat → List Char → List (List Char × Option (List Char))
  | 0, _ => []
  | rounds + 1, text =>
    match text.dropWhile (!isKeyChar ·) with
    | [] => []
    | start =>
      let (value, rest) := scanRest (start.dropWhile isKeyChar)
      (start.takeWhile isKeyChar, value) :: keyValues rounds rest

def lowerKey (key : List Char) : List Char := key.map Text.lowerChar

/-- The keys in lower case, with their values: an empty one counts as none. -/
def directives (inside : List Char) : List (List Char × Option (List Char)) :=
  (keyValues inside.length inside).map fun entry => (lowerKey entry.1, entry.2.filter (· ≠ []))

variable {F : Type} (builtins : Builtins F)

def TIPDirective.blank (raw : List Char) : TIPDirective F :=
  ⟨raw, none, false, none, none, false, false, none, []⟩

/-- `parse_tip_header` -/
def parseTipHeader (text : List Char) : Option (TIPDirective F) × List Char :=
  match matchTip text with
  | none => (none, text)
  | some found =>
    (some ((directives (stripped found.inside)).foldl (handle builtins) (.blank (stripped found.whole))), found.remainder)

end Parser

section Bodies
variable {F N : Type} (builtins : Builtins F)

/-- What a part of a body gives: no user's text, a text without a header, or the directive and the
part without the header. -/
inductive Inspected (F Part : Type) where
  | absent
  | plain
  | found (directive : TIPDirective F) (part : Part)

def Inspected.map {Part Whole : Type} (build : Part → Whole) : Inspected F Part → Inspected F Whole
  | .absent => .absent
  | .plain => .plain
  | .found directive part => .found directive (build part)

def setField (entries : List (String × Json N)) (key : String) (value : Json N) : List (String × Json N) :=
  ((Json.toDict entries).set key value).entries

/-- The value of a key is one of these texts. -/
def hasText (entries : List (String × Json N)) (key : String) (texts : List String) : Bool :=
  match entries.lookup key with
  | some (.string text) => text ∈ texts
  | _ => false

def inspectText (text : String) : Inspected F String :=
  match parseTipHeader builtins text.toList with
  | (none, _) => .plain
  | (some directive, remainder) => .found directive (String.ofList remainder)

/-- The text of a block. Any other value is turned into a text that no header begins: that of a list
begins with a bracket and the text of its first item. -/
def inspectBlock (entries : List (String × Json N)) : Inspected F (List (String × Json N)) :=
  match entries.lookup "text" with
  | some (.string text) => (inspectText builtins text).map fun rest => setField entries "text" (.string rest)
  | _ => .plain

def inspectBlocks (kinds : List String) : List (Json N) → Inspected F (List (Json N))
  | [] => .absent
  | .object entries :: blocks =>
    if hasText entries "type" kinds then (inspectBlock builtins entries).map fun entries =>
      .object entries :: blocks
    else (inspectBlocks kinds blocks).map fun blocks => .object entries :: blocks
  | block :: blocks => (inspectBlocks kinds blocks).map fun blocks => block :: blocks

def inspectContent (kinds : List String) : Json N → Inspected F (Json N)
  | .string text => (inspectText builtins text).map Json.string
  | .array blocks => (inspectBlocks builtins kinds blocks).map Json.array
  | _ => .absent

def isUser : Json N → Bool
  | .object entries => hasText entries "role" ["user"]
  | _ => false

def inspectMessage (kinds : List String) : Json N → Inspected F (Json N)
  | .object entries =>
    match entries.lookup "content" with
    | some content =>
        (inspectContent builtins kinds content).map fun content =>
          .object (setField entries "content" content)
    | none => .absent
  | _ => .absent

def inspectMessages (kinds : List String) : List (Json N) → Inspected F (List (Json N))
  | [] => .absent
  | message :: messages =>
    if messages.any isUser then (inspectMessages kinds messages).map fun messages => message :: messages
    else if isUser message then (inspectMessage builtins kinds message).map fun message => message :: messages
    else .absent

def inspectInput (entries : List (String × Json N)) : Inspected F (List (String × Json N)) :=
  match entries.lookup "input" with
  | some (.string text) => (inspectText builtins text).map fun rest => setField entries "input" (.string rest)
  | some (.array items) =>
    (inspectMessages builtins ["input_text", "text"] items).map fun items =>
      setField entries "input" (.array items)
  | _ => .absent

/-- The messages, and the input where they have no text of the user. -/
def inspectObject (entries : List (String × Json N)) : Inspected F (List (String × Json N)) :=
  match entries.lookup "messages" with
  | some (.array messages) =>
    match inspectMessages builtins ["text"] messages with
    | .absent => inspectInput builtins entries
    | .plain => .plain
    | .found directive messages => .found directive (setField entries "messages" (.array messages))
  | _ => inspectInput builtins entries

/-- `parse_and_strip_tip_header`. A body that is no JSON text is looked at as it is. -/
def parseAndStripTipHeader (N : Type) [Numerals N] (body : List Char) : Option (TIPDirective F) × List Char :=
  match (Json.loads body : Option (Json N)) with
  | none =>
    match parseTipHeader builtins body with
    | (none, _) => (none, body)
    | (some directive, remainder) => (some directive, remainder)
  | some (.object entries) =>
    match inspectObject builtins entries with
    | .found directive entries => (some directive, Json.dumps ⟨true, true⟩ (.object entries))
    | _ => (none, body)
  | some _ => (none, body)

end Bodies
end TokenPak.SpendGuard.TipHeader
