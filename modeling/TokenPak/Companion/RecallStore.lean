import Mathlib.Data.Prod.Lex
import Mathlib.Data.String.Basic
import TokenPak.Library.Base64
import TokenPak.Library.StableSort

/-! Listing the paks of the recall store, page by page. The store compares texts by their code points. -/

namespace TokenPak.Companion.RecallStore
open Library StableSort

structure PakRow where
  pakId : String
  pakType : String
  project : Option String
  topic : Option String
  sourceType : String
  authority : String
  title : String
  summary : String
  contentHash : String
  createdAt : String
  updatedAt : String
  supersededBy : Option String
  deriving DecidableEq

/-- A limit that is no whole number is `none`. -/
structure PakListFilters where
  project : Option String
  pakType : Option String
  limit : Option Int
  cursor : Option String

structure PakListResult where
  items : List PakRow
  nextCursor : Option String
  limit : Nat
  truncated : Bool
  deriving DecidableEq

def listLimitDefault : Nat := 100
def listLimitMax : Nat := 100

/-- The texts of `ValueError`. -/
inductive CursorError
  | empty
  | undecodable
  | missingSeparator
  deriving DecidableEq

def cursorSep : Char := '|'

def utf8 (text : String) : List UInt8 := text.toByteArray.data.toList

def utf8Decode (bytes : List UInt8) : Option String := String.fromUTF8? ⟨bytes.toArray⟩

def encodeCursor (updatedAt pakId : String) : String :=
  String.ofList (Base64.stripPads (Base64.encode (utf8 (updatedAt ++ String.singleton cursorSep ++ pakId))))

/-- `raw.split("|", 1)` when there are two parts. -/
def splitOnce (raw : List Char) : Option (List Char × List Char) :=
  match raw.dropWhile (· ≠ cursorSep) with
  | [] => none
  | _ :: rest => some (raw.takeWhile (· ≠ cursorSep), rest)

def decodeCursor (cursor : String) : Except CursorError (String × String) :=
  if cursor = "" then .error .empty
  else if cursor.toList.any fun c => decide (c.toNat ≥ 128) then .error .undecodable
  else
    match (Base64.decode (Base64.addPads cursor.toList)).bind utf8Decode with
    | none => .error .undecodable
    | some raw =>
      match splitOnce raw.toList with
      | none => .error .missingSeparator
      | some parts => .ok (String.ofList parts.1, String.ofList parts.2)

/-- Newest first, and the larger id first among rows of one time. -/
abbrev ListKey := (String ×ₗ String)ᵒᵈ

def keyOf (updatedAt pakId : String) : ListKey := OrderDual.toDual (toLex (updatedAt, pakId))

def PakRow.key (row : PakRow) : ListKey := keyOf row.updatedAt row.pakId

def effectiveLimit (limit : Option Int) : Nat :=
  let raw :=
    match limit with
    | some number => if number > 0 then number.toNat else listLimitDefault
    | none => listLimitDefault
  min raw listLimitMax

def matchesFilters (project pakType : Option String) (row : PakRow) : Bool :=
  (match project with
    | none => true
    | some project => decide (row.project = some project)) &&
  (match pakType with
    | none => true
    | some pakType => decide (row.pakType = pakType))

/-- `updated_at < ? OR (updated_at = ? AND pak_id < ?)` -/
def beyondCursor (cursor : Option (String × String)) (row : PakRow) : Bool :=
  match cursor with
  | none => true
  | some (time, id) => decide (row.updatedAt < time ∨ (row.updatedAt = time ∧ row.pakId < id))

def givenCursor (cursor : Option String) : Except CursorError (Option (String × String)) :=
  match cursor with
  | none => .ok none
  | some cursor => if cursor = "" then .ok none else (decodeCursor cursor).map some

/-- The page of the rows that were fetched, one more than the limit. -/
def cutPage (limit : Nat) (rows : List PakRow) : PakListResult :=
  let truncated := decide (rows.length > limit)
  let items := if truncated then rows.take limit else rows
  let nextCursor :=
    if truncated then items.getLast?.map fun last => encodeCursor last.updatedAt last.pakId else none
  ⟨items, nextCursor, limit, truncated⟩

def listPaks (paks : List PakRow) (filters : PakListFilters) : Except CursorError PakListResult :=
  let limit := effectiveLimit filters.limit
  (givenCursor filters.cursor).map fun cursor =>
    let found :=
      (paks.filter fun row => matchesFilters filters.project filters.pakType row).filter fun row =>
        beyondCursor cursor row
    cutPage limit ((sortBy PakRow.key found).take (limit + 1))

/-- A caller that follows the cursors: each call sees a table and has a limit of its own. The rows of each
page, and the cursor that is left. -/
def followCursors (project pakType : Option String) : List (List PakRow × Option Int) → Option String →
    Except CursorError (List (List PakRow) × Option String)
  | [], cursor => .ok ([], cursor)
  | (paks, limit) :: visits, cursor => do
    let result ← listPaks paks ⟨project, pakType, limit, cursor⟩
    match result.nextCursor with
    | none => return ([result.items], none)
    | some next =>
      let rest ← followCursors project pakType visits (some next)
      return (result.items :: rest.1, rest.2)

end TokenPak.Companion.RecallStore
