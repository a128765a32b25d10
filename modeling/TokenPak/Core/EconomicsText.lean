import Mathlib.Data.List.Sort
import TokenPak.Core.SessionEconomics
import TokenPak.Library.Json

/-! The JSON text of a payload: every object with its keys in order, nothing spaced, and characters
beyond ASCII escaped. The interpreter neither prints nor reads an integer with too many digits. -/

namespace TokenPak.Core.Contracts
open Library

namespace Value
variable {F : Type}

mutual
/-- `sort_keys` -/
def sorted : Value F → Value F
  | .list items => .list (sortedItems items)
  | .dict entries => .dict ((sortedEntries entries).insertionSort fun first second => first.1 ≤ second.1)
  | value => value

def sortedItems : List (Value F) → List (Value F)
  | [] => []
  | item :: items => sorted item :: sortedItems items

def sortedEntries : List (String × Value F) → List (String × Value F)
  | [] => []
  | (key, value) :: entries => (key, sorted value) :: sortedEntries entries
end

mutual
/-- The integers of a value are printed, and read, within the limit of the interpreter. -/
def fits (printable : Int → Bool) : Value F → Bool
  | .number (.int n) => printable n
  | .list items => fitsItems printable items
  | .dict entries => fitsEntries printable entries
  | _ => true

def fitsItems (printable : Int → Bool) : List (Value F) → Bool
  | [] => true
  | item :: items => fits printable item && fitsItems printable items

def fitsEntries (printable : Int → Bool) : List (String × Value F) → Bool
  | [] => true
  | (_, value) :: entries => fits printable value && fitsEntries printable entries
end

mutual
/-- Lone surrogates, which no record carries, are no part of the values that are printed. -/
def encode : Value F → Option (Json (Number F))
  | .null => some .null
  | .bool value => some (.bool value)
  | .number value => some (.number value)
  | .str text => some (.string text)
  | .surrogates _ => none
  | .list items => (encodeItems items).map Json.array
  | .dict entries => (encodeEntries entries).map Json.object

def encodeItems : List (Value F) → Option (List (Json (Number F)))
  | [] => some []
  | item :: items => do return (← encode item) :: (← encodeItems items)

def encodeEntries : List (String × Value F) → Option (List (String × Json (Number F)))
  | [] => some []
  | (key, value) :: entries => do return (key, ← encode value) :: (← encodeEntries entries)
end

mutual
def ofJson : Json (Number F) → Value F
  | .null => .null
  | .bool value => .bool value
  | .number value => .number value
  | .string text => .str text
  | .array items => .list (ofItems items)
  | .object entries => .dict (ofEntries entries)

def ofItems : List (Json (Number F)) → List (Value F)
  | [] => []
  | item :: items => ofJson item :: ofItems items

def ofEntries : List (String × Json (Number F)) → List (String × Value F)
  | [] => []
  | (key, value) :: entries => (key, ofJson value) :: ofEntries entries
end

end Value

namespace SessionEconomics
variable {F : Type} [Numerals (Number F)] {builtins : Builtins F}

/-- Separators without blanks, and escapes. -/
def compact : Json.Style := ⟨false, true⟩

/-- `to_json` -/
def toJson (printable : Int → Bool) (payload : SessionEconomics builtins) : Except Raised (List Char) :=
  match payload.toDict.sorted.encode with
  | some json => if payload.toDict.fits printable then .ok (json.dumps compact) else .error .valueError
  | none => .error .valueError

/-- `from_json`: an integer that is too long is no JSON error. -/
def fromJson (builtins : Builtins F) (printable : Int → Bool) (raw : List Char) :
    Except Raised (SessionEconomics builtins) :=
  match Json.loads raw with
  | none => contract "invalid session-economics JSON"
  | some json =>
      if (Value.ofJson json).fits printable then fromDict builtins (Value.ofJson json)
        else .error .valueError

end SessionEconomics
end TokenPak.Core.Contracts
