import TokenPak.Cache.SemanticCache
import TokenPak.Library.Json

/-! The semantic cache as a stage in front of the upstream call: one cache for each session, which
the first request of the session brings into being under the policy of its route. Responses are kept
as their JSON texts. -/

namespace TokenPak.Optimization.CacheStage
open Library Text Cache.SemanticCache

structure Canonical (N : Type) where
  model : String
  system : Json N
  messages : List (Json N)
  tools : Option (List (Json N))
  sourceFormat : String

/-- What the stage reads of a request; the body is what `json.loads` makes of it, if it does not raise. -/
structure Context (N : Type) where
  requestId : String
  body : Option (Json N)
  canonical : Option (Canonical N)
  platform : Option String
  route : Option String
  headers : List (String × String)

section Keys
variable {N : Type} [Numerals N] (str : Json N → String)

def field (entries : List (String × Json N)) (name : String) (default : Json N) : Json N :=
  ((Json.toDict entries).get name).getD default

/-- `_normalize` -/
def normalizeText (text : String) : String := strip (String.ofList (collapse text.toList))

/-- The text of a block, unless it is empty. A text that is no string fails the join. -/
def blockText : Json N → Option (List String)
  | .object block =>
    let text := field block "text" (.string "")
    if Json.truthy text then
      match text with
      | .string text => some [text]
      | _ => none
    else some []
  | _ => some []

/-- The texts of a canonical message; `str` gives the texts of roles that are no strings. -/
def messageTexts : Json N → Option (List String)
  | .object message =>
    let role := match field message "role" (.string "") with
      | .string role => role
      | other => str other
    match field message "content" (.string "") with
    | .string content => some [role ++ ": " ++ content]
    | .array blocks => (blocks.mapM blockText).map List.flatten
    | _ => some []
  | _ => none

def itemBlock : Json N → Option (List String)
  | .object block =>
    match field block "text" (.string "") with
    | .string text => some [text]
    | _ => none
  | _ => some []

def itemTexts : Json N → Option (List String)
  | .string text => some [text]
  | .object item =>
    match field item "content" (.string "") with
    | .string content => some [content]
    | .array blocks => (blocks.mapM itemBlock).map List.flatten
    | _ => some []
  | _ => some []

/-- `data.get("input") or data.get("messages")` -/
def rawInput (data : List (String × Json N)) : Json N :=
  let input := field data "input" .null
  if Json.truthy input then input else field data "messages" .null

def bodyText : Option (Json N) → String
  | some (.object data) =>
    match rawInput data with
    | .string text => normalizeText text
    | .array items =>
        ((items.mapM itemTexts).map fun texts =>
          normalizeText (String.intercalate " " texts.flatten)).getD ""
    | _ => ""
  | _ => ""

/-- `extract_query_text`, unless it raises. -/
def extractQueryText (ctx : Context N) : Option String :=
  match ctx.canonical with
  | some canonical =>
    if canonical.messages ≠ [] then
      (canonical.messages.mapM (messageTexts str)).map fun texts =>
        normalizeText (String.intercalate " " texts.flatten)
    else some (bodyText ctx.body)
  | none => some (bodyText ctx.body)

def bodyModel : Option (Json N) → Features
  | some (.object data) =>
    match field data "model" .null with
    | .string model => ⟨model, ""⟩
    | _ => ⟨"", ""⟩
  | _ => ⟨"", ""⟩

/-- `extract_model_features` -/
def extractModelFeatures (ctx : Context N) : Features :=
  match ctx.canonical with
  | some canonical =>
      if canonical.model ≠ "" then ⟨canonical.model, canonical.sourceFormat⟩ else bodyModel ctx.body
  | none => bodyModel ctx.body

/-- The session headers, as they are and with `title` and `upper`. -/
def sessionHeaders : List String :=
  ["x-session-id", "X-Session-Id", "X-SESSION-ID",
    "x-claude-code-session-id", "X-Claude-Code-Session-Id", "X-CLAUDE-CODE-SESSION-ID",
    "x-openclaw-session", "X-Openclaw-Session", "X-OPENCLAW-SESSION",
    "x-request-session", "X-Request-Session", "X-REQUEST-SESSION"]

/-- `make_scope_key` -/
def makeScopeKey (ctx : Context N) : String :=
  match (sessionHeaders.filterMap fun name => ctx.headers.lookup name).find? (· ≠ "") with
  | some session => session
  | none =>
    match ctx.platform with
    | some platform => if platform ≠ "" then platform ++ ":" ++ ctx.requestId else ctx.requestId
    | none => ctx.requestId

end Keys

section Policies
variable (F : Type) [Ratios F]

/-- The fields of `CachePolicy` that depend on the route or that the stage reads. -/
structure CachePolicy (F : Type) where
  semanticEnabled : Bool
  ttlSeconds : Nat
  similarityThreshold : F
  allowResponseReuse : Bool

def losslessRoutes : List String :=
  ["code_generation", "code_edit", "code_review", "debugging", "test_failure", "log_analysis",
    "git_diff_review",
    "shell_command_analysis"]

def responseReuseThresholds : List (String × Nat) :=
  [("status_check", 94), ("configuration_inspection", 97), ("summarization", 96)]

variable (unicode : Unicode)

/-- `(route or "unknown").lower()` -/
def routeKey (route : Option String) : String :=
  let name := match route with
    | some name => if name = "" then "unknown" else name
    | none => "unknown"
  String.ofList (unicode.lower name.toList)

/-- `get_cache_policy_for_route` -/
def getCachePolicyForRoute (route : Option String) : CachePolicy F :=
  let key := routeKey unicode route
  { semanticEnabled := key ∉ losslessRoutes
    ttlSeconds := 300
    similarityThreshold := Ratios.divide ((responseReuseThresholds.lookup key).getD 96) 100
    allowResponseReuse := (responseReuseThresholds.lookup key).isSome }

end Policies

/-- The caches by scope keys, each with the configuration that it was created with. -/
abbrev Stage (Time Bytes F : Type) := Dict String (Config Time F × Store Time Bytes)

inductive Call (N Time Bytes : Type) where
  | apply (now : Time) (ctx : Context N)
  | record (now : Time) (ctx : Context N) (response : Option Bytes)

section Calls
variable {N Time Bytes F : Type} [Numerals N] [LinearOrder Time] [Ratios F]
variable (str : Json N → String) (unicode : Unicode) (sha256 : String → String) (plus : Time → Nat → Time)

/-- `_get_or_create_cache`: the policy counts for a new cache only. -/
def getOrCreateCache (stage : Stage Time Bytes F) (scopeKey : String) (policy : CachePolicy F) :
    Config Time F × Store Time Bytes :=
  (stage.get scopeKey).getD (⟨true, fun created => plus created policy.ttlSeconds,
    policy.similarityThreshold, 100⟩, Dict.empty)

/-- `apply`: the entry whose response is attached, if one is. -/
def apply (stage : Stage Time Bytes F) (now : Time) (ctx : Context N) :
    Option (Entry Time Bytes) × Stage Time Bytes F :=
  let policy := getCachePolicyForRoute F unicode ctx.route
  match extractQueryText str ctx with
  | none => (none, stage)
  | some queryText =>
    if queryText = "" then (none, stage)
    else
      let (config, cache) := getOrCreateCache plus stage (makeScopeKey ctx) policy
      let (answer, after) := lookup unicode sha256 config cache now queryText .json (extractModelFeatures ctx)
      (if policy.allowResponseReuse then answer.entry else none, stage.set (makeScopeKey ctx) (config, after))

/-- `record`, of a response that `json.dumps` makes bytes of, if it does not raise. -/
def record (stage : Stage Time Bytes F) (now : Time) (ctx : Context N) (response : Option Bytes) :
    Stage Time Bytes F :=
  let policy := getCachePolicyForRoute F unicode ctx.route
  if ¬ policy.semanticEnabled then stage
  else
    match extractQueryText str ctx with
    | none => stage
    | some queryText =>
      if queryText = "" then stage
      else
        let (config, cache) := getOrCreateCache plus stage (makeScopeKey ctx) policy
        stage.set (makeScopeKey ctx)
          (config, match response with
            | some response =>
              store unicode sha256 config cache now queryText response "application/json" .json (extractModelFeatures ctx)
            | none => cache)

def step (stage : Stage Time Bytes F) : Call N Time Bytes → Stage Time Bytes F
  | .apply now ctx => (apply str unicode sha256 plus stage now ctx).2
  | .record now ctx response => record str unicode sha256 plus stage now ctx response

def run (calls : List (Call N Time Bytes)) : Stage Time Bytes F :=
  calls.foldl (step str unicode sha256 plus) Dict.empty

end Calls
end TokenPak.Optimization.CacheStage
