import TokenPak.Library.Dict

/-! Credential selection at request time. How Python shows a text and a tuple, which only messages
do, is a parameter. -/

namespace TokenPak.Creds
open Library

structure Credential where
  id : String
  platform : String
  kind : String
  source : String
  provider : String
  refreshOwner : String
  expiresAt : Option Int
  accountHint : Option String
  scopeHosts : List String
  secretRef : Option String
  deriving DecidableEq

def kindOauth : String := "oauth"

def Credential.isStale (cred : Credential) (now graceSeconds : Int) : Bool :=
  match cred.expiresAt with
  | none => false
  | some expiry => cred.kind = kindOauth && decide (expiry - graceSeconds ≤ now)

structure RouteContext where
  destinationHost : String
  callerIdentity : Option String
  explicitTag : Option String

inductive Layer where
  | explicit | rule | platformDefault
  deriving DecidableEq

structure RouteDecision where
  credential : Credential
  reason : String
  layer : Layer
  deriving DecidableEq

inductive RouterError where
  | noRoute (message : String)
  | ambiguousRoute (message : String)
  deriving DecidableEq

/-- One row of routes.toml; an empty list of patterns matches everything. -/
structure Rule where
  credId : String
  callers : List String
  destinations : List String

section Fnmatch

inductive Piece where
  | star
  | question
  | letter (c : Char)
  | set (negated : Bool) (ranges : List (Char × Char))

def Piece.accepts : Piece → Char → Bool
  | .star, _ | .question, _ => true
  | .letter own, c => own = c
  | .set negated ranges, c => negated != ranges.any fun range => decide (range.1 ≤ c) && decide (c ≤ range.2)

def ranges : List Char → List (Char × Char)
  | first :: '-' :: last :: rest => (first, last) :: ranges rest
  | c :: rest => (c, c) :: ranges rest
  | [] => []

/-- A set behind its opening bracket, and what follows. A bracket that closes at once is a letter of
the set. -/
def bracket (text : List Char) : Option (Piece × List Char) :=
  let negated := text.head? = some '!'
  let inner := if negated then text.drop 1 else text
  let first := if inner.head? = some ']' then 1 else 0
  match (inner.drop first).dropWhile (· ≠ ']') with
  | [] => none
  | _ :: rest =>
      some (.set negated (ranges (inner.take first ++ (inner.drop first).takeWhile (· ≠ ']'))),
        rest)

/-- The pieces of a pattern of at most `fuel` letters. -/
def pieces : (fuel : Nat) → List Char → List Piece
  | 0, _ | _, [] => []
  | fuel + 1, c :: rest =>
    match c with
    | '*' => .star :: pieces fuel rest
    | '?' => .question :: pieces fuel rest
    | '[' =>
      match bracket rest with
      | some (piece, rest) => piece :: pieces fuel rest
      | none => .letter '[' :: pieces fuel rest
    | c => .letter c :: pieces fuel rest

def matchesPieces : List Piece → List Char → Bool
  | [], text => text.isEmpty
  | .star :: pattern, text => text.tails.any fun rest => matchesPieces pattern rest
  | piece :: pattern, text =>
    match text with
    | [] => false
    | c :: rest => piece.accepts c && matchesPieces pattern rest

/-- `fnmatch.fnmatchcase` -/
def fnmatchcase (name pattern : String) : Bool :=
  matchesPieces (pieces pattern.length pattern.toList) name.toList

end Fnmatch

/-- `_rule_matches` -/
def ruleMatches (ctx : RouteContext) (rule : Rule) : Bool :=
  (rule.destinations.isEmpty || rule.destinations.any (fnmatchcase ctx.destinationHost)) &&
    (rule.callers.isEmpty ||
      match ctx.callerIdentity.filter (· ≠ "") with
      | none => false
      | some caller => rule.callers.any (fnmatchcase caller))

def hostMatches (requestHost scopeHost : String) : Bool :=
  scopeHost = requestHost ||
    (scopeHost.toList.head? = some '.' && scopeHost.toList.isSuffixOf requestHost.toList)

def Credential.covers (host : String) (cred : Credential) : Bool := cred.scopeHosts.any (hostMatches host)

/-- `repr` of a text, and `str` of a tuple of texts. -/
structure Texts where
  repr : String → String
  tuple : List String → String

variable (texts : Texts) (ctx : RouteContext) (creds : List Credential) (rules : List Rule) (now : Int)

def byTag (tag : String) : Except RouterError RouteDecision :=
  match creds.filter (·.id = tag) with
  | [] => .error (.noRoute s!"explicit credential tag {texts.repr tag} is not known (no provider has discovered it)")
  | [cred] => .ok ⟨cred, s!"explicit tag {texts.repr tag}", .explicit⟩
  | matched =>
    let sources := ", ".intercalate (matched.map Credential.source)
    .error (.ambiguousRoute s!"explicit tag {texts.repr tag} matches {matched.length} credentials ({sources})")

/-- The dictionary of the credentials: of those that share an id it holds the last. -/
def byId : Dict String Credential := creds.foldl (fun dict cred => dict.set cred.id cred) Dict.empty

def byRule (rule : Rule) : Except RouterError RouteDecision :=
  let shown (patterns : List String) : String := if patterns.isEmpty then "*" else texts.tuple patterns
  match (byId creds).get rule.credId with
  | none => .error (.noRoute s!"routes.toml rule points at {texts.repr rule.credId} but no provider has discovered that id")
  | some cred =>
      .ok ⟨cred, s!"rule matched (callers={shown rule.callers}, dests={shown rule.destinations})",
        .rule⟩

def preferHealthy (found : List Credential) : List Credential :=
  let healthy := found.filter fun cred => ! cred.isStale now 0
  if healthy.isEmpty then found else healthy

/-- The third layer: the credentials whose scope covers the host. -/
def byPlatform : Except RouterError RouteDecision :=
  let found := creds.filter (Credential.covers ctx.destinationHost)
  match preferHealthy now found with
  | [] => .error (.noRoute
      s!"no credential scope covers host {texts.repr ctx.destinationHost} (tried {creds.length} discovered credentials)")
  | [chosen] =>
    let stale := if chosen.isStale now 0 then " (stale — no healthy alternative)" else ""
    .ok ⟨chosen, s!"platform default for {ctx.destinationHost}{stale}", .platformDefault⟩
  | candidates =>
    let ids := ", ".intercalate ((candidates.map Credential.id).mergeSort fun id other => decide (id ≤ other))
    .error (.ambiguousRoute (s!"{candidates.length} credentials match host {texts.repr ctx.destinationHost}: {ids}. " ++
      "Disambiguate with an explicit tag or add a rule to routes.toml."))

/-- The three layers; the first that applies decides. -/
def select : Except RouterError RouteDecision :=
  match ctx.explicitTag.filter (· ≠ "") with
  | some tag => byTag texts creds tag
  | none =>
    match rules.find? (ruleMatches ctx) with
    | some rule => byRule texts creds rule
    | none => byPlatform texts ctx creds now

end TokenPak.Creds
