import TokenPak.Library.JsonOrder
import TokenPak.Library.Machine

/-! The registry of tool schemas. It puts the tools of a request in order and freezes them, so that
requests with the same tools get the same text. A body that the parser refuses stays as it is; what
the source raises on gives nothing. Bodies have no lone surrogate escapes: with tools, the source
raises on them when it encodes the hash or the new body. -/

namespace TokenPak.Proxy.ToolSchemaRegistry
open Library StableSort

section Helpers
variable {N : Type}

/-- `_normalize_schema` -/
def normalizeSchema (schema : Json N) : Json N := schema.sortKeys

/-- The key of the sort; only objects have one. -/
def sortKey : Json N → Option (Json N)
  | .object entries => some ((entries.lookup "name").getD (.string ""))
  | _ => none

def isString : Json N → Bool
  | .string _ => true
  | _ => false

def toolName (tool : Json N) : String :=
  match sortKey tool with
  | some (.string name) => name
  | _ => ""

/-- A sort by keys that are not all strings. It raises where keys cannot be compared. -/
structure MixedSort (N : Type) where
  sort : List (Json N) → Option (List (Json N))
  perm : ∀ tools sorted, sort tools = some sorted → sorted.Perm tools

/-- `_normalize_tools` -/
def normalizeTools (mixed : MixedSort N) (tools : List (Json N)) : Option (List (Json N)) :=
  let normalized := tools.map normalizeSchema
  match normalized.mapM sortKey with
  | none => none
  | some keys => if keys.all isString then some (sortBy toolName normalized) else mixed.sort normalized

def compact : Json.Style := ⟨false, false⟩

/-- `_serialize` -/
def serialize [Numerals N] (tools : List (Json N)) : List Char := (Json.array tools).sortKeys.dumps compact

end Helpers

/-- The text of a request. -/
structure Body where
  text : List Char
  paired : Json.paired text = true

structure Frozen (N Hash : Type) where
  tools : List (Json N)
  text : List Char
  hash : Hash

/-- `ToolSchemaRegistry` -/
structure Registry (N Hash : Type) where
  frozen : Option (Frozen N Hash)

section Requests
variable {N Hash : Type} [Numerals N] [DecidableEq Hash]

def Registry.new : Registry N Hash := ⟨none⟩

def setTools (data : List (String × Json N)) (tools : List (Json N)) : List (String × Json N) :=
  data.map fun entry => if entry.1 = "tools" then (entry.1, .array tools) else entry

/-- The locked part of a request: its tools, in order, are frozen when they are the first ones or
others than the frozen ones. -/
def freeze (sha256 : List Char → Hash) (registry : Registry N Hash) (normalized : List (Json N)) :
    Frozen N Hash × Bool :=
  let fresh : Frozen N Hash := ⟨normalized, serialize normalized, sha256 (serialize normalized)⟩
  match registry.frozen with
  | none => (fresh, false)
  | some frozen => if fresh.hash ≠ frozen.hash then (fresh, true) else (frozen, false)

/-- `normalize_request` -/
def normalizeRequest (mixed : MixedSort N) (sha256 : List Char → Hash) (registry : Registry N Hash)
    (body : Body) : Option ((List Char × Bool) × Registry N Hash) :=
  match (Json.loads body.text : Option (Json N)) with
  | none => some ((body.text, false), registry)
  | some (.object data) =>
    match data.lookup "tools" with
    | some (.array (tool :: tools)) =>
      (normalizeTools mixed (tool :: tools)).map fun normalized =>
        let (frozen, changed) := freeze sha256 registry normalized
        (((Json.object (setTools data frozen.tools)).dumps compact, changed), ⟨some frozen⟩)
    | _ => some ((body.text, false), registry)
  | some _ => none

/-- A request that raises leaves the registry as it is. -/
def act (mixed : MixedSort N) (sha256 : List Char → Hash) (registry : Registry N Hash) (body : Body) :
    Registry N Hash :=
  match normalizeRequest mixed sha256 registry body with
  | some (_, after) => after
  | none => registry

end Requests
end TokenPak.Proxy.ToolSchemaRegistry
