import Mathlib.Data.List.Dedup
import TokenPak.Library.Json
import TokenPak.Library.FloatRange

/-! Deduplication of the turns of a conversation: first the exact duplicates, by a hash of
role and text, then the near ones of one role, by their overlap in runs of four characters. -/

namespace TokenPak.Compression.Dedup
open Library

section Texts
variable {N : Type} [Numerals N]

abbrev Message (N : Type) := Dict String (Json N)

def role (message : Message N) : String :=
  match message.get "role" with
  | some (.string text) => text
  | _ => ""

/-- The text of a block of the content. The join fails on a text that is no string; `str` gives the
texts of the other values. -/
def blockText (str : Json N → String) : Json N → Option String
  | .object entries =>
    match (Json.toDict entries).get "type" with
    | some (.string "text") =>
      match (Json.toDict entries).get "text" with
      | some (.string text) => some text
      | some _ => none
      | none => some ""
    | _ => some (String.ofList (Json.dumps ⟨true, false⟩ (.object entries)))
  | .string text => some text
  | other => some (str other)

/-- `_content_to_str` -/
def contentToStr (str : Json N → String) : Json N → Option String
  | .string text => some text
  | .array blocks => (blocks.mapM (blockText str)).map (String.intercalate "\n")
  | other => some (String.ofList (Json.dumps ⟨true, false⟩ other))

end Texts

structure Turn where
  role : String
  text : String

def turn {N : Type} [Numerals N] (str : Json N → String) (message : Message N) : Option Turn :=
  (contentToStr str ((message.get "content").getD (.string ""))).map fun text => ⟨role message, text⟩

def ngrams (n : Nat) (text : List Char) : List (List Char) :=
  if text.length < n then []
  else ((List.range (text.length - n + 1)).map fun i => (text.drop i).take n).dedup

/-- `_jaccard` -/
def jaccard (F : Type) [Ratios F] (a b : String) : F :=
  let sa := ngrams 4 a.toList
  let sb := ngrams 4 b.toList
  if sa = [] ∧ sb = [] then Ratios.one
  else if sa = [] ∨ sb = [] then Ratios.zero
  else Ratios.divide (sa.filter (· ∈ sb)).length (sa ++ sb).dedup.length

inductive Keep where
  | first | last
  deriving DecidableEq

section Passes
variable {F Hash : Type} [Ratios F] [DecidableEq Hash]

def key (sha256 : String → Hash) (turn : Turn) : Hash := sha256 (turn.role ++ ":" ++ turn.text)

def seenHashes (keys : List Hash) : Dict Hash Nat :=
  keys.zipIdx.foldl (fun seen entry => seen.set entry.1 entry.2) Dict.empty

def firstSeen (keys : List Hash) : Dict Hash Nat :=
  keys.zipIdx.foldl (fun seen entry => if (seen.get entry.1).isNone then seen.set entry.1 entry.2
    else seen) Dict.empty

def exactKeep (keep : Keep) (keys : List Hash) : List Nat :=
  match keep with
  | .last => (seenHashes keys).values
  | .first => (firstSeen keys).values

/-- The places of the turns that are left by the first pass. -/
def afterExact (keep : Keep) (keys : List Hash) : List Nat :=
  (List.range keys.length).filter (· ∈ exactKeep keep keys)

def similar (threshold : F) (turns : List Turn) (i j : Nat) : Bool :=
  match turns[i]?, turns[j]? with
  | some a, some b => a.role = b.role && Ratios.atLeast (jaccard F a.text b.text) threshold
  | _, _ => false

/-- One round of the second pass; the search ends at the first match. -/
def dropStep (keep : Keep) (threshold : F) (turns : List Turn) (drop : List Nat) (i : Nat) : List Nat :=
  if i ∈ drop then drop
  else
    match (List.range' (i + 1) (turns.length - (i + 1))).find? (fun j => j ∉ drop &&
        similar threshold turns i j) with
    | none => drop
    | some j => (match keep with | .last => i | .first => j) :: drop

def dropped (keep : Keep) (threshold : F) (turns : List Turn) : List Nat :=
  (List.range turns.length).foldl (dropStep keep threshold turns) []

def keptPlaces (sha256 : String → Hash) (keep : Keep) (threshold : F) (turns : List Turn) : List Nat :=
  let after := afterExact keep (turns.map (key sha256))
  if Ratios.atLeast threshold Ratios.one ∨ after.length < 2 then after
  else
    let drop := dropped keep threshold (after.filterMap (turns[·]?))
    (after.zipIdx.filter fun entry => entry.2 ∉ drop).map Prod.fst

/-- `dedup_messages`; it raises where a text cannot be made. -/
def dedupMessages {N : Type} [Numerals N] (str : Json N → String) (sha256 : String → Hash)
    (keep : Keep) (threshold : F)
    (messages : List (Message N)) : Option (List (Message N)) :=
  (messages.mapM (turn str)).map fun turns =>
    (keptPlaces sha256 keep threshold turns).filterMap (messages[·]?)

end Passes

section Tools
variable {N : Type}

def fieldOf (field : String) (test : Dict String (Json N) → Bool) : Option (Json N) → List (Json N)
  | some (.array items) => items.filterMap fun
    | .object entries => if test (Json.toDict entries) then (Json.toDict entries).get field else none
    | _ => none
  | _ => []

def typed (name : String) (block : Dict String (Json N)) : Bool :=
  match block.get "type" with
  | some (.string text) => text = name
  | _ => false

/-- The ids of the tool calls that an assistant message carries, beside its content or in it. -/
def calls (message : Message N) : List (Json N) :=
  if role message = "assistant" then
    fieldOf "id" (fun _ => true) (message.get "tool_calls") ++ fieldOf "id" (typed "tool_use")
      (message.get "content")
  else []

def results (message : Message N) : List (Json N) :=
  (if role message = "tool" then (message.get "tool_call_id").toList else []) ++
    fieldOf "tool_use_id" (typed "tool_result") (message.get "content")

/-- Each tool result follows an assistant message that carries the call with its id. -/
def Follows (messages : List (Message N)) : Prop :=
  ∀ (j : Nat) (answer : Message N), messages[j]? = some answer → ∀ id ∈ results answer,
    ∃ (i : Nat) (caller : Message N), i < j ∧ messages[i]? = some caller ∧ id ∈ calls caller

def Paired (messages : List (Message N)) (i j : Nat) : Prop :=
  i < j ∧ ∃ caller answer id, messages[i]? = some caller ∧ messages[j]? = some answer ∧ id ∈ calls caller ∧
    id ∈ results answer

end Tools
end TokenPak.Compression.Dedup
