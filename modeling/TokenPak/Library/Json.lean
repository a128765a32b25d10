import Mathlib.Data.List.TakeWhile
import TokenPak.Library.Dict

/-! JSON texts: the values, the printer and the parser of the source language's standard
library. Numbers are those of any type that can be printed as a JSON number and read back;
strings are sequences of Unicode scalar values, so a text with a lone surrogate escape is
refused. An object keeps its entries in the order of the text, one for each key. -/

namespace TokenPak.Library

section Numbers

def isDigit (c : Char) : Bool := '0' ≤ c && c ≤ '9'

def scanNatural : List Char → Option (List Char × List Char)
  | '0' :: rest => some (['0'], rest)
  | c :: rest => if isDigit c then some (c :: rest.takeWhile isDigit, rest.dropWhile isDigit) else none
  | [] => none

def scanInteger : List Char → Option (List Char × List Char)
  | '-' :: rest => (scanNatural rest).map fun found => ('-' :: found.1, found.2)
  | text => scanNatural text

/-- A point without digits behind it is not part of the number. -/
def scanFraction : List Char → List Char × List Char
  | '.' :: rest =>
    if rest.takeWhile isDigit = [] then ([], '.' :: rest)
      else ('.' :: rest.takeWhile isDigit, rest.dropWhile isDigit)
  | text => ([], text)

def scanSign : List Char → List Char × List Char
  | '+' :: rest => (['+'], rest)
  | '-' :: rest => (['-'], rest)
  | text => ([], text)

def scanExponent : List Char → List Char × List Char
  | [] => ([], [])
  | c :: rest =>
    if (c = 'e' ∨ c = 'E') ∧ (scanSign rest).2.takeWhile isDigit ≠ [] then
      (c :: ((scanSign rest).1 ++ (scanSign rest).2.takeWhile isDigit), (scanSign rest).2.dropWhile isDigit)
    else ([], c :: rest)

def numberWords : List (List Char) := ["NaN".toList, "Infinity".toList, "-Infinity".toList]

def scanNumber (text : List Char) : Option (List Char × List Char) :=
  match scanInteger text with
  | some (whole, rest) =>
    let fraction := scanFraction rest
    let exponent := scanExponent fraction.2
    some (whole ++ fraction.1 ++ exponent.1, exponent.2)
  | none => (numberWords.find? (·.isPrefixOf text)).map fun word => (word, text.drop word.length)

end Numbers

/-- Numbers that a JSON text can carry: each is printed as one number of the grammar, and read
back as itself. Some are zero, some are integers. -/
class Numerals (N : Type) where
  print : N → List Char
  read : List Char → N
  isZero : N → Bool
  integer? : N → Option Int
  scan_print : ∀ n, scanNumber (print n) = some (print n, [])
  read_print : ∀ n, read (print n) = n

/-- A value, with numbers and texts of some types. -/
inductive Json (N : Type) (S : Type := String) where
  | null
  | bool (value : Bool)
  | number (value : N)
  | string (value : S)
  | array (items : List (Json N S))
  | object (entries : List (S × Json N S))

namespace Json
variable {N : Type}

/-- How a text is laid out: with a blank behind commas and colons or without, and with
characters beyond ASCII escaped or as they are. -/
structure Style where
  spaced : Bool
  ascii : Bool

section Strings

def hexDigit (n : Nat) : Char := "0123456789abcdef".toList.getD n '0'

def hexValue (c : Char) : Option Nat :=
  if '0' ≤ c ∧ c ≤ '9' then some (c.toNat - '0'.toNat)
  else if 'a' ≤ c ∧ c ≤ 'f' then some (c.toNat - 'a'.toNat + 10)
  else if 'A' ≤ c ∧ c ≤ 'F' then some (c.toNat - 'A'.toNat + 10)
  else none

def unitEscape (n : Nat) : List Char :=
  ['\\', 'u', hexDigit (n / 0x1000 % 16), hexDigit (n / 0x100 % 16), hexDigit (n / 0x10 % 16),
    hexDigit (n % 16)]

def codeUnits (n : Nat) : List Nat :=
  if n < 0x10000 then [n] else [0xd800 + (n - 0x10000) / 0x400 % 0x400, 0xdc00 + (n - 0x10000) % 0x400]

def shortEscapes : List (Char × Char) :=
  [('"', '"'), ('\\', '\\'), ('\n', 'n'), ('\r', 'r'), ('\t', 't'), ('\x0c', 'f'), ('\x08', 'b')]

def escape (ascii : Bool) (c : Char) : List Char :=
  match shortEscapes.find? (·.1 = c) with
  | some short => ['\\', short.2]
  | none => if c < ' ' ∨ ascii = true ∧ '~' < c then (codeUnits c.toNat).flatMap unitEscape else [c]

def printString (ascii : Bool) (text : String) : List Char :=
  '"' :: text.toList.flatMap (escape ascii) ++ ['"']

/-- What a backslash and the character behind it stand for. -/
def unescape (c : Char) : Option Nat :=
  if c = '/' then some '/'.toNat else (shortEscapes.find? (·.2 = c)).map (·.1.toNat)

/-- The code unit of an escape. -/
def escapedUnit (a b c d : Char) : Option Nat :=
  match hexValue a, hexValue b, hexValue c, hexValue d with
  | some a, some b, some c, some d => some (((a * 16 + b) * 16 + c) * 16 + d)
  | _, _, _, _ => none

/-- The code units of a string behind its opening quote, up to its closing one. -/
def scanUnits : List Char → Option (List Nat × List Char)
  | [] => none
  | '"' :: rest => some ([], rest)
  | '\\' :: 'u' :: a :: b :: c :: d :: rest =>
    match hexValue a, hexValue b, hexValue c, hexValue d with
    | some a, some b, some c, some d =>
      (scanUnits rest).map fun found => ((((a * 16 + b) * 16 + c) * 16 + d) :: found.1, found.2)
    | _, _, _, _ => none
  | '\\' :: c :: rest =>
    match unescape c with
    | some unit => (scanUnits rest).map fun found => (unit :: found.1, found.2)
    | none => none
  | c :: rest =>
      if c < ' ' ∨ c = '\\' then none else (scanUnits rest).map fun found =>
        (c.toNat :: found.1, found.2)

def isHigh (n : Nat) : Bool := 0xd800 ≤ n && n < 0xdc00
def isLow (n : Nat) : Bool := 0xdc00 ≤ n && n < 0xe000

/-- Pairs of surrogates are joined; one that stands alone is refused. -/
def joinUnits : List Nat → Option (List Char)
  | [] => some []
  | unit :: units =>
    if isHigh unit then
      match units with
      | low :: rest =>
        if isLow low then
          (joinUnits rest).map fun text =>
            Char.ofNat (0x10000 + (unit - 0xd800) * 0x400 + (low - 0xdc00)) :: text
        else none
      | [] => none
    else if isLow unit then none
    else (joinUnits units).map fun text => Char.ofNat unit :: text

/-- No surrogate is escaped in the text but in a pair, behind a high one that waits or
not. The standard library reads a lone one too, as a code point of its own. -/
def pairedFrom (high : Bool) : List Char → Bool
  | '\\' :: 'u' :: a :: b :: c :: d :: rest =>
    match escapedUnit a b c d with
    | some unit => isLow unit == high && pairedFrom (isHigh unit) rest
    | none => !high && pairedFrom false rest
  | '\\' :: _ :: rest => !high && pairedFrom false rest
  | _ :: rest => !high && pairedFrom false rest
  | [] => !high

def paired (text : List Char) : Bool := pairedFrom false text

def scanString (text : List Char) : Option (String × List Char) :=
  (scanUnits text).bind fun found => (joinUnits found.1).map fun chars => (String.ofList chars, found.2)

end Strings

/-- A dictionary from the entries of a text: the last value of a key counts, in its first place. -/
def toDict {Value : Type} (entries : List (String × Value)) : Dict String Value :=
  entries.foldl (fun dict entry => dict.set entry.1 entry.2) Dict.empty

def collapse {Value : Type} (entries : List (String × Value)) : List (String × Value) :=
  (toDict entries).entries

/-- The values that the source language takes for false. -/
def truthy [Numerals N] : Json N → Bool
  | .null => false
  | .bool value => value
  | .number value => ! Numerals.isZero value
  | .string value => value ≠ ""
  | .array items => ! items.isEmpty
  | .object entries => ! entries.isEmpty

section Printing
variable [Numerals N] (style : Style)

def Style.comma : List Char := if style.spaced then [',', ' '] else [',']
def Style.colon : List Char := if style.spaced then [':', ' '] else [':']

mutual
def print : Json N → List Char
  | .null => "null".toList
  | .bool true => "true".toList
  | .bool false => "false".toList
  | .number value => Numerals.print value
  | .string value => printString style.ascii value
  | .array [] => ['[', ']']
  | .array (item :: items) => '[' :: (print item ++ printItems items)
  | .object [] => ['\x7b', '\x7d']
  | .object ((key, value) :: entries) =>
    '\x7b' :: (printString style.ascii key ++ style.colon ++ print value ++ printEntries entries)

def printItems : List (Json N) → List Char
  | [] => [']']
  | item :: items => style.comma ++ print item ++ printItems items

def printEntries : List (String × Json N) → List Char
  | [] => ['\x7d']
  | (key, value) :: entries =>
    style.comma ++ printString style.ascii key ++ style.colon ++ print value ++ printEntries entries
end

end Printing

section Parsing
variable [Numerals N]

def isBlank (c : Char) : Bool := c = ' ' || c = '\t' || c = '\n' || c = '\r'

def skip (text : List Char) : List Char := text.dropWhile isBlank

def parseWord (text : List Char) : Option (Json N × List Char) :=
  if "null".toList.isPrefixOf text then some (.null, text.drop 4)
  else if "true".toList.isPrefixOf text then some (.bool true, text.drop 4)
  else if "false".toList.isPrefixOf text then some (.bool false, text.drop 5)
  else (scanNumber text).map fun found => (.number (Numerals.read found.1), found.2)

mutual
/-- The value at the beginning of a text. Every bracket takes two rounds and needs its
counterpart, so a text of a value has at least as many characters as rounds. -/
def parseValue : Nat → List Char → Option (Json N × List Char)
  | 0, _ => none
  | _ + 1, '"' :: text => (scanString text).map fun found => (.string found.1, found.2)
  | rounds + 1, '[' :: text =>
    match skip text with
    | ']' :: rest => some (.array [], rest)
    | text => (parseItems rounds text).map fun found => (.array found.1, found.2)
  | rounds + 1, '\x7b' :: text =>
    match skip text with
    | '\x7d' :: rest => some (.object [], rest)
    | text => (parseEntries rounds text).map fun found => (.object (collapse found.1), found.2)
  | _ + 1, text => parseWord text

def parseItems : Nat → List Char → Option (List (Json N) × List Char)
  | 0, _ => none
  | rounds + 1, text =>
    match parseValue rounds text with
    | none => none
    | some (item, rest) =>
      match skip rest with
      | ',' :: rest => (parseItems rounds (skip rest)).map fun found => (item :: found.1, found.2)
      | ']' :: rest => some ([item], rest)
      | _ => none

def parseEntries : Nat → List Char → Option (List (String × Json N) × List Char)
  | 0, _ => none
  | rounds + 1, '"' :: text =>
    match scanString text with
    | none => none
    | some (key, rest) =>
      match skip rest with
      | ':' :: rest =>
        match parseValue rounds (skip rest) with
        | none => none
        | some (value, rest) =>
          match skip rest with
          | ',' :: rest =>
              (parseEntries rounds (skip rest)).map fun found => ((key, value) :: found.1, found.2)
          | '\x7d' :: rest => some ([(key, value)], rest)
          | _ => none
      | _ => none
  | _ + 1, _ => none
end

/-- `json.loads` -/
def loads (text : List Char) : Option (Json N) :=
  match parseValue (text.length + 1) (skip text) with
  | some (value, rest) => if skip rest = [] then some value else none
  | none => none

end Parsing

/-- `json.dumps` -/
def dumps [Numerals N] (style : Style) (value : Json N) : List Char := value.print style

end Json
end TokenPak.Library
