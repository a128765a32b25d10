import Mathlib.Data.Rat.Defs
import TokenPak.Library.Text
import TokenPak.Library.Transaction

/-! The session-economics contract: records that are checked when they are built, and their JSON
values. A record carries the checks that it passed. The schema version and the advisory of a payload
are always the same and no fields here. -/

namespace TokenPak.Core.Contracts
open Library

inductive ValueState where
  | observed | estimated | noData | unavailable | error
  deriving DecidableEq

inductive CostBasis where
  | providerBill | rateCard | subscription | unknown
  deriving DecidableEq

inductive PriceFreshness where
  | fresh | stale | unknown
  deriving DecidableEq

inductive BurnSlope where
  | unknown | down | flat | up
  deriving DecidableEq

inductive CacheState where
  | warm | expired | unknown
  deriving DecidableEq

inductive RunwayStatus where
  | available | learning | unavailable | error
  deriving DecidableEq

inductive BindingConstraint where
  | budget | contextSoft | contextHard | rollingCap | unknown
  deriving DecidableEq

inductive GuardState where
  | allow | amber | softBlock | hardStop | unknown
  deriving DecidableEq

inductive ForecastStatus where
  | learning | available | unavailable | error
  deriving DecidableEq

inductive DriftState where
  | stable | drifting | unknown
  deriving DecidableEq

inductive TimeForecastStatus where
  | unknown | learning | insufficientData | available | unavailable
  deriving DecidableEq

inductive TimeForecastStreamMode where
  | streaming | nonStreaming | unknown
  deriving DecidableEq

/-- Members with their values, which tell them apart. -/
class Enumeration (E : Type) where
  members : List E
  label : E → String
  find_label : ∀ member, members.find? (fun other => label other = label member) = some member

instance : Enumeration ValueState where
  members := [.observed, .estimated, .noData, .unavailable, .error]
  label
    | .observed => "observed"
    | .estimated => "estimated"
    | .noData => "no_data"
    | .unavailable => "unavailable"
    | .error => "error"
  find_label member := by cases member <;> rfl

instance : Enumeration CostBasis where
  members := [.providerBill, .rateCard, .subscription, .unknown]
  label
    | .providerBill => "provider_bill"
    | .rateCard => "rate_card"
    | .subscription => "subscription"
    | .unknown => "unknown"
  find_label member := by cases member <;> rfl

instance : Enumeration PriceFreshness where
  members := [.fresh, .stale, .unknown]
  label
    | .fresh => "fresh"
    | .stale => "stale"
    | .unknown => "unknown"
  find_label member := by cases member <;> rfl

instance : Enumeration BurnSlope where
  members := [.unknown, .down, .flat, .up]
  label
    | .unknown => "unknown"
    | .down => "down"
    | .flat => "flat"
    | .up => "up"
  find_label member := by cases member <;> rfl

instance : Enumeration CacheState where
  members := [.warm, .expired, .unknown]
  label
    | .warm => "warm"
    | .expired => "expired"
    | .unknown => "unknown"
  find_label member := by cases member <;> rfl

instance : Enumeration RunwayStatus where
  members := [.available, .learning, .unavailable, .error]
  label
    | .available => "available"
    | .learning => "learning"
    | .unavailable => "unavailable"
    | .error => "error"
  find_label member := by cases member <;> rfl

instance : Enumeration BindingConstraint where
  members := [.budget, .contextSoft, .contextHard, .rollingCap, .unknown]
  label
    | .budget => "budget"
    | .contextSoft => "context_soft"
    | .contextHard => "context_hard"
    | .rollingCap => "rolling_cap"
    | .unknown => "unknown"
  find_label member := by cases member <;> rfl

instance : Enumeration GuardState where
  members := [.allow, .amber, .softBlock, .hardStop, .unknown]
  label
    | .allow => "allow"
    | .amber => "amber"
    | .softBlock => "soft_block"
    | .hardStop => "hard_stop"
    | .unknown => "unknown"
  find_label member := by cases member <;> rfl

instance : Enumeration ForecastStatus where
  members := [.learning, .available, .unavailable, .error]
  label
    | .learning => "learning"
    | .available => "available"
    | .unavailable => "unavailable"
    | .error => "error"
  find_label member := by cases member <;> rfl

instance : Enumeration DriftState where
  members := [.stable, .drifting, .unknown]
  label
    | .stable => "stable"
    | .drifting => "drifting"
    | .unknown => "unknown"
  find_label member := by cases member <;> rfl

instance : Enumeration TimeForecastStatus where
  members := [.unknown, .learning, .insufficientData, .available, .unavailable]
  label
    | .unknown => "unknown"
    | .learning => "learning"
    | .insufficientData => "insufficient_data"
    | .available => "available"
    | .unavailable => "unavailable"
  find_label member := by cases member <;> rfl

instance : Enumeration TimeForecastStreamMode where
  members := [.streaming, .nonStreaming, .unknown]
  label
    | .streaming => "streaming"
    | .nonStreaming => "non_streaming"
    | .unknown => "unknown"
  find_label member := by cases member <;> rfl

/-- What decoding may raise: the contract's own errors, and those of the conversions it uses. -/
inductive Raised where
  | contract (text : String)
  | version (text : String)
  | overflowError
  | valueError
  deriving DecidableEq

def Raised.isContract : Raised → Bool
  | .contract _ => true
  | .version _ => true
  | .overflowError => false
  | .valueError => false

inductive Number (F : Type) where
  | int (n : Int)
  | float (x : F)
  | nonFinite
  deriving DecidableEq

/-- The values of decoded JSON texts. A text with lone surrogates is kept as its code points. -/
inductive Value (F : Type) where
  | null
  | bool (value : Bool)
  | number (value : Number F)
  | str (text : String)
  | surrogates (points : List Nat)
  | list (items : List (Value F))
  | dict (entries : List (String × Value F))

/-- What the source language brings along: the classes of characters, times in ISO format with
whether they name a zone, the conversion of integers to floats, which may be too large, the exact
values of floats, and `repr`, which may raise. -/
structure Builtins (F : Type) where
  category : Char → String
  fromIsoFormat : String → Option Bool
  floatOfInt : Int → Option F
  toRat : F → ℚ
  repr : Value F → Option String

section Validators
variable {F : Type} (builtins : Builtins F)

def contract {α : Type} (text : String) : Except Raised α := .error (.contract text)

/-- `data.get` with `None` for a key that is not there. -/
def get (data : List (String × Value F)) (key : String) : Value F := (data.lookup key).getD .null

def asMapping (value : Value F) (path : String) : Except Raised (List (String × Value F)) :=
  match value with
  | .dict entries => .ok entries
  | _ => contract (path ++ " must be an object")

def oneOf (E : Type) [Enumeration E] (path : String) : String :=
  path ++ " must be one of: " ++ ", ".intercalate ((Enumeration.members : List E).map Enumeration.label)

/-- `_enum` -/
def enum (E : Type) [Enumeration E] (value : Value F) (path : String) : Except Raised E :=
  match value with
  | .str text =>
    match (Enumeration.members : List E).find? fun member => Enumeration.label member = text with
    | some member => .ok member
    | none => contract (oneOf E path)
  | _ => contract (oneOf E path)

def Number.toRat : Number F → ℚ
  | .int n => n
  | .float x => builtins.toRat x
  | .nonFinite => 0

/-- `_number`: an integer is converted to a float on the way. -/
def number (value : Value F) (path : String) : Except Raised (Number F) :=
  match value with
  | .number (.int n) =>
    match builtins.floatOfInt n with
    | none => .error .overflowError
    | some _ => if n < 0 then contract (path ++ " must be finite and non-negative") else .ok (.int n)
  | .number (.float x) =>
      if builtins.toRat x < 0 then contract (path ++ " must be finite and non-negative")
        else .ok (.float x)
  | .number .nonFinite => contract (path ++ " must be finite and non-negative")
  | _ => contract (path ++ " must be numeric")

def boolean (value : Value F) (path : String) : Except Raised Bool :=
  match value with
  | .bool value => .ok value
  | _ => contract (path ++ " must be a boolean")

/-- `_string` -/
def string (value : Value F) (path : String) : Except Raised String :=
  match value with
  | .str text => .ok text
  | .surrogates _ => contract (path ++ " must contain valid Unicode scalar values")
  | _ => contract (path ++ " must be a string")

def nonRenderingSymbols : List Nat := [0x115f, 0x1160, 0x2800, 0x3164, 0xffa0]

def hasVisibleText (text : String) : Bool :=
  text.toList.any fun c =>
    !(Text.isSpace c ||
      ((builtins.category c).toList.head?.any fun major => major ∈ ['C', 'M', 'Z']) ||
      c.toNat ∈ nonRenderingSymbols)

/-- `_non_blank_string` and `_optional_string` of a text that is a string. -/
def nonBlank (text path : String) : Except Raised Unit :=
  ensure (hasVisibleText builtins text = true) (.contract (path ++ " must be non-empty"))

def optionalString (text path : String) : Except Raised Unit :=
  ensure (text = "" ∨ hasVisibleText builtins text = true)
    (.contract (path ++ " must not be whitespace-only"))

/-- `_input_string`: the default stands for a key that is not there. -/
def inputString (data : List (String × Value F)) (key path default : String) : Except Raised String :=
  match data.lookup key with
  | none => .ok default
  | some value => string value path

def requireUnit (unit expected path : String) : Except Raised Unit :=
  ensure (unit = "" ∨ unit = expected)
    (.contract (path ++ ".unit must be '" ++ expected ++ "' when specified"))

def timestamp (text path : String) : Except Raised Unit :=
  match builtins.fromIsoFormat text with
  | none => contract (path ++ " must be an ISO-8601 timestamp")
  | some zoned => ensure (zoned = true) (.contract (path ++ " must include a timezone"))

def construct {R : Type} (check : Except Raised Unit) (build : check = .ok () → R) : Except Raised R :=
  match check, build with
  | .ok (), build => .ok (build rfl)
  | .error raised, _ => .error raised

def ValueState.hasValue (state : ValueState) : Bool := state = .observed ∨ state = .estimated

def Value.isNull : Value F → Bool
  | .null => true
  | _ => false

/-- `{state: value}` of the entries whose text is not empty. -/
def present (entries : List (String × String)) : List (String × Value F) :=
  (entries.filter (·.2 ≠ "")).map fun entry => (entry.1, .str entry.2)

def encodeEnum {E : Type} [Enumeration E] (member : E) : Value F := .str (Enumeration.label member)

end Validators

section Values
variable {F : Type} {builtins : Builtins F}

def checkNumericValue (builtins : Builtins F) (state : ValueState) (value : Value F)
    (source confidence reason unit : String) :
    Except Raised Unit := do
  optionalString builtins source "numeric value.source"
  optionalString builtins confidence "numeric value.confidence"
  optionalString builtins reason "numeric value.reason"
  optionalString builtins unit "numeric value.unit"
  if state.hasValue then
    let _ ← number builtins value "numeric value"
    ensure (hasVisibleText builtins source = true)
      (.contract (Enumeration.label state ++ " numeric value requires source provenance"))
  else ensure (value.isNull = true) (.contract (Enumeration.label state ++ " numeric value must serialize as null"))
  ensure (state = .error → hasVisibleText builtins reason = true)
    (.contract "error numeric value requires a reason")

structure NumericValue (builtins : Builtins F) where
  state : ValueState
  value : Value F
  source : String
  confidence : String
  reason : String
  unit : String
  checked : checkNumericValue builtins state value source confidence reason unit = .ok ()

namespace NumericValue

def toDict (value : NumericValue builtins) : Value F :=
  .dict ([("state", encodeEnum value.state), ("value", value.value)] ++
    present [("source", value.source), ("confidence", value.confidence), ("reason", value.reason), ("unit", value.unit)])

def fromDict (builtins : Builtins F) (raw : Value F) : Except Raised (NumericValue builtins) := do
  let data ← asMapping raw "numeric value"
  let state ← enum ValueState (get data "state") "numeric value.state"
  let source ← inputString data "source" "numeric value.source" ""
  let confidence ← inputString data "confidence" "numeric value.confidence" ""
  let reason ← inputString data "reason" "numeric value.reason" ""
  let unit ← inputString data "unit" "numeric value.unit" ""
  construct _ fun checked => ⟨state, get data "value", source, confidence, reason, unit, checked⟩

end NumericValue

/-- A field of a rate provenance is absent, or a text that shows something. -/
def provenanceText (builtins : Builtins F) (value : Value F) (name : String) : Except Raised Unit :=
  match value with
  | .null => .ok ()
  | .str text =>
    ensure (hasVisibleText builtins text = true)
      (.contract ("rate_provenance." ++ name ++ " must be non-empty when present"))
  | .surrogates _ => contract ("rate_provenance." ++ name ++ " must contain valid Unicode scalar values")
  | _ => contract ("rate_provenance." ++ name ++ " must be a string or null")

def checkRateProvenance (builtins : Builtins F) (catalogVersion effectiveAt source : Value F) :
    Except Raised Unit := do
  provenanceText builtins catalogVersion "catalog_version"
  provenanceText builtins effectiveAt "effective_at"
  provenanceText builtins source "source"
  match effectiveAt with
  | .str text => if text = "" then .ok () else timestamp builtins text "rate_provenance.effective_at"
  | _ => .ok ()

structure RateProvenance (builtins : Builtins F) where
  catalogVersion : Value F
  effectiveAt : Value F
  source : Value F
  freshness : PriceFreshness
  checked : checkRateProvenance builtins catalogVersion effectiveAt source = .ok ()

def visibleValue (builtins : Builtins F) : Value F → Bool
  | .str text => hasVisibleText builtins text
  | _ => false

namespace RateProvenance

def complete (provenance : RateProvenance builtins) : Bool :=
  visibleValue builtins provenance.catalogVersion && visibleValue builtins provenance.effectiveAt &&
    visibleValue builtins provenance.source

def toDict (provenance : RateProvenance builtins) : Value F :=
  .dict [("catalog_version", provenance.catalogVersion), ("effective_at", provenance.effectiveAt),
    ("source", provenance.source),
    ("freshness", encodeEnum provenance.freshness)]

/-- `data.get` with a default of its own. -/
def freshnessOf (data : List (String × Value F)) : Except Raised PriceFreshness :=
  enum PriceFreshness ((data.lookup "freshness").getD (encodeEnum PriceFreshness.unknown)) "rate_provenance.freshness"

def fromDict (builtins : Builtins F) (raw : Value F) : Except Raised (RateProvenance builtins) := do
  let data ← asMapping (if raw.isNull then .dict [] else raw) "rate_provenance"
  let freshness ← freshnessOf data
  construct _ fun checked => ⟨get data "catalog_version", get data "effective_at",
    get data "source", freshness, checked⟩

end RateProvenance

def checkCostBasis (builtins : Builtins F) (state : ValueState) (basis : CostBasis) (source : String)
    (provenance : RateProvenance builtins) : Except Raised Unit :=
  match state with
  | .observed =>
    ensure (basis = .providerBill ∧ hasVisibleText builtins source = true)
      (.contract "observed cost requires provider_bill basis and source")
  | .estimated => do
    ensure (basis = .rateCard) (.contract "estimated cost requires rate_card basis")
    ensure (provenance.complete = true) (.contract "estimated cost requires complete rate provenance")
    ensure (provenance.freshness = .fresh) (.contract "estimated cost requires fresh rate provenance")
  | _ => .ok ()

def checkCostValue (builtins : Builtins F) (state : ValueState) (value : Value F)
    (basis : CostBasis) (source reason : String)
    (provenance : RateProvenance builtins) : Except Raised Unit := do
  optionalString builtins source "cost_usd.source"
  optionalString builtins reason "cost_usd.reason"
  if state.hasValue then
    let _ ← number builtins value "cost_usd.value"
  else ensure (value.isNull = true) (.contract (Enumeration.label state ++ " cost must serialize as null"))
  checkCostBasis builtins state basis source provenance
  ensure (¬ ((basis = .subscription ∨ basis = .unknown) ∧ state.hasValue = true))
    (.contract (Enumeration.label basis ++ " cost basis cannot carry numeric USD"))
  ensure (state = .error → hasVisibleText builtins reason = true) (.contract "error cost requires a reason")

structure CostValue (builtins : Builtins F) where
  state : ValueState
  value : Value F
  basis : CostBasis
  source : String
  reason : String
  rateProvenance : RateProvenance builtins
  checked : checkCostValue builtins state value basis source reason rateProvenance = .ok ()

namespace CostValue

def toDict (cost : CostValue builtins) : Value F :=
  .dict ([("state", encodeEnum cost.state), ("value", cost.value), ("basis", encodeEnum cost.basis),
    ("rate_provenance", cost.rateProvenance.toDict)] ++ present [("source", cost.source), ("reason", cost.reason)])

def basisOf (data : List (String × Value F)) : Except Raised CostBasis :=
  enum CostBasis ((data.lookup "basis").getD (encodeEnum CostBasis.unknown)) "cost_usd.basis"

def fromDict (builtins : Builtins F) (raw : Value F) : Except Raised (CostValue builtins) := do
  let data ← asMapping raw "cost_usd"
  let state ← enum ValueState (get data "state") "cost_usd.state"
  let basis ← basisOf data
  let source ← inputString data "source" "cost_usd.source" ""
  let reason ← inputString data "reason" "cost_usd.reason" ""
  let provenance ← RateProvenance.fromDict builtins (get data "rate_provenance")
  construct _ fun checked => ⟨state, get data "value", basis, source, reason, provenance, checked⟩

end CostValue

def checkFact (value : NumericValue builtins) (name : String) : Except Raised Unit := do
  requireUnit value.unit "tokens" ("facts." ++ name)
  ensure (value.state ≠ .estimated) (.contract ("facts." ++ name ++ " cannot use estimated state"))

def checkSessionFacts (inputTokens outputTokens cacheReadTokens cacheWriteTokens : NumericValue builtins) : Except Raised Unit := do
  checkFact inputTokens "input_tokens"
  checkFact outputTokens "output_tokens"
  checkFact cacheReadTokens "cache_read_tokens"
  checkFact cacheWriteTokens "cache_write_tokens"

structure SessionFacts (builtins : Builtins F) where
  inputTokens : NumericValue builtins
  outputTokens : NumericValue builtins
  cacheReadTokens : NumericValue builtins
  cacheWriteTokens : NumericValue builtins
  costUsd : CostValue builtins
  checked : checkSessionFacts inputTokens outputTokens cacheReadTokens cacheWriteTokens = .ok ()

namespace SessionFacts

def toDict (facts : SessionFacts builtins) : Value F :=
  .dict [("input_tokens", facts.inputTokens.toDict), ("output_tokens", facts.outputTokens.toDict),
    ("cache_read_tokens", facts.cacheReadTokens.toDict),
      ("cache_write_tokens", facts.cacheWriteTokens.toDict),
    ("cost_usd", facts.costUsd.toDict)]

def fromDict (builtins : Builtins F) (raw : Value F) : Except Raised (SessionFacts builtins) := do
  let data ← asMapping raw "facts"
  let inputTokens ← NumericValue.fromDict builtins (get data "input_tokens")
  let outputTokens ← NumericValue.fromDict builtins (get data "output_tokens")
  let cacheReadTokens ← NumericValue.fromDict builtins (get data "cache_read_tokens")
  let cacheWriteTokens ← NumericValue.fromDict builtins (get data "cache_write_tokens")
  let costUsd ← CostValue.fromDict builtins (get data "cost_usd")
  construct _ fun checked => ⟨inputTokens, outputTokens, cacheReadTokens, cacheWriteTokens, costUsd, checked⟩

end SessionFacts

/-- A field that is checked to be an integer without a sign. -/
def count (value : Value F) (text : String) : Except Raised Nat :=
  match value with
  | .number (.int n) => if n < 0 then contract text else .ok n.toNat
  | _ => contract text

def checkCovered (facts : SessionFacts builtins) (observed : Nat) : Except Raised Unit := do
  let expected : ValueState := if observed = 0 then .noData else .observed
  let matching (value : NumericValue builtins) : Except Raised Unit :=
    ensure (value.state = expected) (.contract "recorded_usage facts must match observed coverage")
  matching facts.inputTokens
  matching facts.outputTokens
  matching facts.cacheReadTokens
  matching facts.cacheWriteTokens

def checkRecordedUsage (requestsObserved requestsTotal failedRequests : Value F)
    (facts : SessionFacts builtins) : Except Raised Unit := do
  let observed ← count requestsObserved "recorded_usage.requests_observed must be a non-negative integer"
  let total ← count requestsTotal "recorded_usage.requests_total must be a non-negative integer"
  let failed ← count failedRequests "recorded_usage.failed_requests must be a non-negative integer"
  ensure (max observed failed ≤ total) (.contract "recorded_usage counts exceed requests_total")
  checkCovered facts observed
  ensure (observed = 0 → facts.costUsd.value.isNull = true)
    (.contract "empty recorded_usage cannot contain a cost value")

/-- Provider-observed subtotal with its complete request denominator. -/
structure RecordedUsage (builtins : Builtins F) where
  requestsObserved : Value F
  requestsTotal : Value F
  failedRequests : Value F
  facts : SessionFacts builtins
  checked : checkRecordedUsage requestsObserved requestsTotal failedRequests facts = .ok ()

namespace RecordedUsage

def toDict (usage : RecordedUsage builtins) : Value F :=
  .dict [("requests_observed", usage.requestsObserved), ("requests_total", usage.requestsTotal),
    ("failed_requests", usage.failedRequests), ("facts", usage.facts.toDict)]

def fromDict (builtins : Builtins F) (raw : Value F) : Except Raised (RecordedUsage builtins) := do
  let data ← asMapping raw "recorded_usage"
  let facts ← SessionFacts.fromDict builtins (get data "facts")
  construct _ fun checked =>
    ⟨get data "requests_observed", get data "requests_total", get data "failed_requests", facts, checked⟩

end RecordedUsage

def checkModelRef (builtins : Builtins F) (id effort : String) : Except Raised Unit := do
  nonBlank builtins id "session.model.id"
  nonBlank builtins effort "session.model.effort"

structure ModelRef (builtins : Builtins F) where
  id : String
  effort : String
  checked : checkModelRef builtins id effort = .ok ()

namespace ModelRef

def toDict (model : ModelRef builtins) : Value F :=
  .dict [("id", .str model.id), ("effort", .str model.effort)]

def fromDict (builtins : Builtins F) (raw : Value F) : Except Raised (ModelRef builtins) := do
  let data ← asMapping raw "session.model"
  let id ← inputString data "id" "session.model.id" ""
  let effort ← inputString data "effort" "session.model.effort" "unknown"
  construct _ fun checked => ⟨id, effort, checked⟩

end ModelRef

def checkSessionId (builtins : Builtins F) (id : Value F) (identityState : ValueState) :
    Except Raised Unit := do
  match id with
  | .null => .ok ()
  | .str _ => .ok ()
  | .surrogates _ => contract "session.id must contain valid Unicode scalar values"
  | _ => contract "session.id must be a string or null"
  ensure (identityState ≠ .estimated) (.contract "session identity cannot be estimated")
  if identityState = .observed then
    ensure (visibleValue builtins id = true) (.contract "observed session identity requires a non-empty id")
  else ensure (id.isNull = true) (.contract (Enumeration.label identityState ++ " session identity must be null"))

def checkSessionRef (builtins : Builtins F) (id : Value F) (identityState : ValueState)
    (turnsObserved : Int) (reason : String) :
    Except Raised Unit := do
  optionalString builtins reason "session.reason"
  checkSessionId builtins id identityState
  ensure (0 ≤ turnsObserved) (.contract "session.turns_observed must be a non-negative integer")
  ensure (identityState = .error → hasVisibleText builtins reason = true)
    (.contract "error session identity requires a reason")

structure SessionRef (builtins : Builtins F) where
  id : Value F
  identityState : ValueState
  turnsObserved : Int
  model : ModelRef builtins
  reason : String
  checked : checkSessionRef builtins id identityState turnsObserved reason = .ok ()

namespace SessionRef

def toDict (session : SessionRef builtins) : Value F :=
  .dict ([("id", session.id), ("identity_state", encodeEnum session.identityState),
    ("turns_observed", .number (.int session.turnsObserved)), ("model", session.model.toDict)] ++ present [("reason", session.reason)])

def integer (value : Value F) (text : String) : Except Raised Int :=
  match value with
  | .number (.int n) => .ok n
  | _ => contract text

def fromDict (builtins : Builtins F) (raw : Value F) : Except Raised (SessionRef builtins) := do
  let data ← asMapping raw "session"
  let turns ← integer (get data "turns_observed") "session.turns_observed must be a non-negative integer"
  let identityState ← enum ValueState (get data "identity_state") "session.identity_state"
  let model ← ModelRef.fromDict builtins (get data "model")
  let reason ← inputString data "reason" "session.reason" ""
  construct _ fun checked => ⟨get data "id", identityState, turns, model, reason, checked⟩

end SessionRef

def checkSessionState (contextTokens baseTokens contextGrowthEwma burnTokensPerTurn burnUsdPerTurn idleSeconds cacheTtlSeconds :
    NumericValue builtins) : Except Raised Unit := do
  requireUnit contextTokens.unit "tokens" "state.context_tokens"
  requireUnit baseTokens.unit "tokens" "state.base_tokens"
  requireUnit contextGrowthEwma.unit "tokens/turn" "state.context_growth_ewma"
  requireUnit burnTokensPerTurn.unit "tokens/turn" "state.burn_tokens_per_turn"
  requireUnit burnUsdPerTurn.unit "usd/turn" "state.burn_usd_per_turn"
  requireUnit idleSeconds.unit "seconds" "state.idle_seconds"
  requireUnit cacheTtlSeconds.unit "seconds" "state.cache_ttl_seconds"

structure SessionState (builtins : Builtins F) where
  contextTokens : NumericValue builtins
  baseTokens : NumericValue builtins
  contextGrowthEwma : NumericValue builtins
  burnTokensPerTurn : NumericValue builtins
  burnUsdPerTurn : NumericValue builtins
  burnSlope : BurnSlope
  idleSeconds : NumericValue builtins
  cacheTtlSeconds : NumericValue builtins
  cacheState : CacheState
  checked : checkSessionState contextTokens baseTokens contextGrowthEwma burnTokensPerTurn burnUsdPerTurn idleSeconds cacheTtlSeconds =
    .ok ()

namespace SessionState

def toDict (state : SessionState builtins) : Value F :=
  .dict [("context_tokens", state.contextTokens.toDict), ("base_tokens", state.baseTokens.toDict),
    ("context_growth_ewma", state.contextGrowthEwma.toDict),
      ("burn_tokens_per_turn", state.burnTokensPerTurn.toDict),
    ("burn_usd_per_turn", state.burnUsdPerTurn.toDict), ("burn_slope", encodeEnum state.burnSlope),
    ("idle_seconds", state.idleSeconds.toDict), ("cache_ttl_seconds", state.cacheTtlSeconds.toDict),
    ("cache_state", encodeEnum state.cacheState)]

def fromDict (builtins : Builtins F) (raw : Value F) : Except Raised (SessionState builtins) := do
  let data ← asMapping raw "state"
  let contextTokens ← NumericValue.fromDict builtins (get data "context_tokens")
  let baseTokens ← NumericValue.fromDict builtins (get data "base_tokens")
  let contextGrowthEwma ← NumericValue.fromDict builtins (get data "context_growth_ewma")
  let burnTokensPerTurn ← NumericValue.fromDict builtins (get data "burn_tokens_per_turn")
  let burnUsdPerTurn ← NumericValue.fromDict builtins (get data "burn_usd_per_turn")
  let burnSlope ← enum BurnSlope (get data "burn_slope") "state.burn_slope"
  let idleSeconds ← NumericValue.fromDict builtins (get data "idle_seconds")
  let cacheTtlSeconds ← NumericValue.fromDict builtins (get data "cache_ttl_seconds")
  let cacheState ← enum CacheState (get data "cache_state") "state.cache_state"
  construct _ fun checked => ⟨contextTokens, baseTokens, contextGrowthEwma, burnTokensPerTurn,
    burnUsdPerTurn, burnSlope, idleSeconds,
    cacheTtlSeconds, cacheState, checked⟩

end SessionState

def checkRunwayTurns (status : RunwayStatus) (turns : Value F)
    (bindingConstraint : BindingConstraint) : Except Raised Unit :=
  if status = .available then do
    let _ ← count turns "available runway requires non-negative integer turns"
    ensure (bindingConstraint ≠ .unknown) (.contract "available runway requires a binding constraint")
  else ensure (turns.isNull = true) (.contract (Enumeration.label status ++ " runway turns must be null"))

def Value.isZero : Value F → Bool
  | .number (.int n) => n = 0
  | _ => false

def checkRunway (builtins : Builtins F) (status : RunwayStatus) (turns : Value F)
    (bindingConstraint : BindingConstraint)
    (guardState : GuardState) (reason : String) : Except Raised Unit := do
  optionalString builtins reason "runway.reason"
  checkRunwayTurns status turns bindingConstraint
  ensure (guardState = .hardStop → turns.isNull = true ∨ turns.isZero = true)
    (.contract "hard_stop runway cannot report positive remaining turns")
  ensure (status = .error → hasVisibleText builtins reason = true)
    (.contract "error runway requires a reason")

structure Runway (builtins : Builtins F) where
  status : RunwayStatus
  turns : Value F
  bindingConstraint : BindingConstraint
  guardState : GuardState
  reason : String
  checked : checkRunway builtins status turns bindingConstraint guardState reason = .ok ()

namespace Runway

def toDict (runway : Runway builtins) : Value F :=
  .dict ([("status", encodeEnum runway.status), ("turns", runway.turns),
    ("binding_constraint", encodeEnum runway.bindingConstraint),
    ("guard_state", encodeEnum runway.guardState)] ++ present [("reason", runway.reason)])

def fromDict (builtins : Builtins F) (raw : Value F) : Except Raised (Runway builtins) := do
  let data ← asMapping raw "runway"
  let status ← enum RunwayStatus (get data "status") "runway.status"
  let bindingConstraint ← enum BindingConstraint (get data "binding_constraint") "runway.binding_constraint"
  let guardState ← enum GuardState (get data "guard_state") "runway.guard_state"
  let reason ← inputString data "reason" "runway.reason" ""
  construct _ fun checked => ⟨status, get data "turns", bindingConstraint, guardState, reason, checked⟩

end Runway

def checkIntervalBounds (builtins : Builtins F) (state : ValueState) (low high : Value F)
    (source : String) : Except Raised Unit :=
  if state = .estimated then do
    let least ← number builtins low "interval.low"
    let greatest ← number builtins high "interval.high"
    ensure (least.toRat builtins ≤ greatest.toRat builtins)
      (.contract "interval.low must not exceed interval.high")
    ensure (hasVisibleText builtins source = true) (.contract "estimated interval requires source provenance")
  else ensure (low.isNull = true ∧ high.isNull = true)
    (.contract (Enumeration.label state ++ " interval bounds must be null"))

def checkIntervalEstimate (builtins : Builtins F) (state : ValueState) (low high : Value F)
    (source reason unit : String) :
    Except Raised Unit := do
  optionalString builtins source "interval.source"
  optionalString builtins reason "interval.reason"
  optionalString builtins unit "interval.unit"
  checkIntervalBounds builtins state low high source
  ensure (state ≠ .observed) (.contract "forecast interval cannot be observed")
  ensure (state = .error → hasVisibleText builtins reason = true)
    (.contract "error interval requires a reason")

structure IntervalEstimate (builtins : Builtins F) where
  state : ValueState
  low : Value F
  high : Value F
  source : String
  reason : String
  unit : String
  checked : checkIntervalEstimate builtins state low high source reason unit = .ok ()

namespace IntervalEstimate

def toDict (interval : IntervalEstimate builtins) : Value F :=
  .dict ([("state", encodeEnum interval.state), ("low", interval.low), ("high", interval.high)] ++
    present [("source", interval.source), ("reason", interval.reason), ("unit", interval.unit)])

def fromDict (builtins : Builtins F) (raw : Value F) : Except Raised (IntervalEstimate builtins) := do
  let data ← asMapping raw "interval"
  let state ← enum ValueState (get data "state") "interval.state"
  let source ← inputString data "source" "interval.source" ""
  let reason ← inputString data "reason" "interval.reason" ""
  let unit ← inputString data "unit" "interval.unit" ""
  construct _ fun checked => ⟨state, get data "low", get data "high", source, reason, unit, checked⟩

end IntervalEstimate

def checkMethod (builtins : Builtins F) : Value F → Except Raised Unit
  | .null => .ok ()
  | method => do
    let text ← string method "forecast.coverage.method"
    nonBlank builtins text "forecast.coverage.method"

def checkObserved (builtins : Builtins F) : Value F → Except Raised Unit
  | .null => .ok ()
  | observed => do
    let share ← number builtins observed "forecast.coverage.observed"
    ensure (share.toRat builtins ≤ 1) (.contract "forecast.coverage.observed must be between 0 and 1")

def checkCoverage (builtins : Builtins F) (method observed : Value F) (historyN : Int) :
    Except Raised Unit := do
  checkMethod builtins method
  checkObserved builtins observed
  ensure (0 ≤ historyN) (.contract "forecast.coverage.history_n must be a non-negative integer")

structure Coverage (builtins : Builtins F) where
  method : Value F
  observed : Value F
  historyN : Int
  driftState : DriftState
  checked : checkCoverage builtins method observed historyN = .ok ()

namespace Coverage

def toDict (coverage : Coverage builtins) : Value F :=
  .dict [("method", coverage.method), ("observed", coverage.observed),
    ("history_n", .number (.int coverage.historyN)),
    ("drift_state", encodeEnum coverage.driftState)]

def driftOf (data : List (String × Value F)) : Except Raised DriftState :=
  enum DriftState ((data.lookup "drift_state").getD (encodeEnum DriftState.unknown)) "forecast.coverage.drift_state"

def fromDict (builtins : Builtins F) (raw : Value F) : Except Raised (Coverage builtins) := do
  let data ← asMapping raw "forecast.coverage"
  let historyN ← SessionRef.integer ((data.lookup "history_n").getD (.number (.int 0)))
    "forecast.coverage.history_n must be a non-negative integer"
  let driftState ← driftOf data
  construct _ fun checked => ⟨get data "method", get data "observed", historyN, driftState, checked⟩

end Coverage

def amount (builtins : Builtins F) : Value F → ℚ
  | .number number => number.toRat builtins
  | _ => 0

def truthyText : Value F → Bool
  | .str text => text ≠ ""
  | .surrogates _ => true
  | _ => false

def checkPredictions (remainingTokensLikely50 : IntervalEstimate builtins)
    (remainingTokensCeiling90 : NumericValue builtins)
    (remainingCostUsdLikely50 : IntervalEstimate builtins) (remainingCostUsdCeiling90 : NumericValue builtins)
    (expectedTurns : IntervalEstimate builtins) (coverage : Coverage builtins)
    (predictedBlockProbability : NumericValue builtins) :
    Except Raised Unit := do
  ensure (remainingTokensLikely50.state = .estimated ∧ remainingTokensCeiling90.state = .estimated ∧
    expectedTurns.state = .estimated)
    (.contract "available forecast requires token range, ceiling, and turns")
  ensure (remainingCostUsdLikely50.state = remainingCostUsdCeiling90.state)
    (.contract "forecast cost range and ceiling must share one state")
  ensure (amount builtins remainingTokensLikely50.high ≤ amount builtins remainingTokensCeiling90.value)
    (.contract "90% token ceiling must not be below the likely-50 high")
  ensure (remainingCostUsdLikely50.state = .estimated →
      amount builtins remainingCostUsdLikely50.high ≤ amount builtins remainingCostUsdCeiling90.value)
    (.contract "90% cost ceiling must not be below the likely-50 high")
  ensure (truthyText coverage.method = true ∧ coverage.observed.isNull = false ∧ 0 < coverage.historyN)
    (.contract "available forecast requires observed coverage and positive history")
  ensure (predictedBlockProbability.state = .estimated → amount builtins predictedBlockProbability.value ≤ 1)
    (.contract "predicted block probability must be between 0 and 1")
  ensure (predictedBlockProbability.state ≠ .observed)
    (.contract "predicted block probability cannot be observed")

def checkForecast (builtins : Builtins F) (status : ForecastStatus)
    (remainingTokensLikely50 : IntervalEstimate builtins)
    (remainingTokensCeiling90 : NumericValue builtins) (remainingCostUsdLikely50 : IntervalEstimate builtins)
    (remainingCostUsdCeiling90 : NumericValue builtins) (expectedTurns : IntervalEstimate builtins)
    (coverage : Coverage builtins)
    (predictedBlockProbability : NumericValue builtins) (reason : String) : Except Raised Unit := do
  requireUnit remainingTokensLikely50.unit "tokens" "forecast.remaining_tokens_likely_50"
  requireUnit remainingCostUsdLikely50.unit "usd" "forecast.remaining_cost_usd_likely_50"
  requireUnit expectedTurns.unit "turns" "forecast.expected_turns"
  requireUnit remainingTokensCeiling90.unit "tokens" "forecast.remaining_tokens_ceiling_90"
  requireUnit remainingCostUsdCeiling90.unit "usd" "forecast.remaining_cost_usd_ceiling_90"
  requireUnit predictedBlockProbability.unit "probability" "forecast.predicted_block_probability"
  optionalString builtins reason "forecast.reason"
  if status = .available then
    checkPredictions remainingTokensLikely50 remainingTokensCeiling90 remainingCostUsdLikely50 remainingCostUsdCeiling90 expectedTurns
      coverage predictedBlockProbability
  else
    ensure (∀ state ∈ [remainingTokensLikely50.state, remainingTokensCeiling90.state, expectedTurns.state,
        remainingCostUsdLikely50.state, remainingCostUsdCeiling90.state, predictedBlockProbability.state], state.hasValue = false)
      (.contract (Enumeration.label status ++ " forecast cannot carry predictions"))
  ensure (status = .error → hasVisibleText builtins reason = true)
    (.contract "error forecast requires a reason")

structure Forecast (builtins : Builtins F) where
  status : ForecastStatus
  remainingTokensLikely50 : IntervalEstimate builtins
  remainingTokensCeiling90 : NumericValue builtins
  remainingCostUsdLikely50 : IntervalEstimate builtins
  remainingCostUsdCeiling90 : NumericValue builtins
  expectedTurns : IntervalEstimate builtins
  coverage : Coverage builtins
  predictedBlockProbability : NumericValue builtins
  reason : String
  checked : checkForecast builtins status remainingTokensLikely50 remainingTokensCeiling90 remainingCostUsdLikely50
    remainingCostUsdCeiling90 expectedTurns coverage predictedBlockProbability reason = .ok ()

namespace Forecast

def toDict (forecast : Forecast builtins) : Value F :=
  .dict ([("status", encodeEnum forecast.status),
    ("remaining_tokens_likely_50", forecast.remainingTokensLikely50.toDict),
    ("remaining_tokens_ceiling_90", forecast.remainingTokensCeiling90.toDict),
    ("remaining_cost_usd_likely_50", forecast.remainingCostUsdLikely50.toDict),
    ("remaining_cost_usd_ceiling_90", forecast.remainingCostUsdCeiling90.toDict),
      ("expected_turns", forecast.expectedTurns.toDict),
    ("coverage", forecast.coverage.toDict), ("predicted_block_probability", forecast.predictedBlockProbability.toDict)] ++
    present [("reason", forecast.reason)])

def fromDict (builtins : Builtins F) (raw : Value F) : Except Raised (Forecast builtins) := do
  let data ← asMapping raw "forecast"
  let status ← enum ForecastStatus (get data "status") "forecast.status"
  let remainingTokensLikely50 ← IntervalEstimate.fromDict builtins (get data "remaining_tokens_likely_50")
  let remainingTokensCeiling90 ← NumericValue.fromDict builtins (get data "remaining_tokens_ceiling_90")
  let remainingCostUsdLikely50 ← IntervalEstimate.fromDict builtins (get data "remaining_cost_usd_likely_50")
  let remainingCostUsdCeiling90 ← NumericValue.fromDict builtins (get data "remaining_cost_usd_ceiling_90")
  let expectedTurns ← IntervalEstimate.fromDict builtins (get data "expected_turns")
  let coverage ← Coverage.fromDict builtins (get data "coverage")
  let predictedBlockProbability ← NumericValue.fromDict builtins (get data "predicted_block_probability")
  let reason ← inputString data "reason" "forecast.reason" ""
  construct _ fun checked => ⟨status, remainingTokensLikely50, remainingTokensCeiling90,
    remainingCostUsdLikely50,
    remainingCostUsdCeiling90, expectedTurns, coverage, predictedBlockProbability, reason, checked⟩

end Forecast

structure TimeForecastGate where
  sedr014Landed : Bool
  calibrationEvidencePublished : Bool
  inputsVerifiedTimingFactsOnly : Bool
  deriving DecidableEq

namespace TimeForecastGate

def toDict (gate : TimeForecastGate) : Value F :=
  .dict [("sedr_014_landed", .bool gate.sedr014Landed),
    ("calibration_evidence_published", .bool gate.calibrationEvidencePublished),
    ("inputs_verified_timing_facts_only", .bool gate.inputsVerifiedTimingFactsOnly)]

def fromDict (raw : Value F) : Except Raised TimeForecastGate := do
  let data ← asMapping raw "time_forecast.gate"
  let landed ← boolean (get data "sedr_014_landed") "time_forecast.gate.sedr_014_landed"
  let published ← boolean (get data "calibration_evidence_published") "time_forecast.gate.calibration_evidence_published"
  let verified ← boolean (get data "inputs_verified_timing_facts_only") "time_forecast.gate.inputs_verified_timing_facts_only"
  return ⟨landed, published, verified⟩

end TimeForecastGate

def checkTimeForecastCell (builtins : Builtins F) (model effort : String) : Except Raised Unit := do
  nonBlank builtins model "time_forecast.cell.model"
  nonBlank builtins effort "time_forecast.cell.effort"

structure TimeForecastCell (builtins : Builtins F) where
  model : String
  effort : String
  streamMode : TimeForecastStreamMode
  checked : checkTimeForecastCell builtins model effort = .ok ()

namespace TimeForecastCell

def toDict (cell : TimeForecastCell builtins) : Value F :=
  .dict [("model", .str cell.model), ("effort", .str cell.effort),
    ("stream_mode", encodeEnum cell.streamMode)]

def streamModeOf (data : List (String × Value F)) : Except Raised TimeForecastStreamMode :=
  enum TimeForecastStreamMode ((data.lookup "stream_mode").getD (encodeEnum TimeForecastStreamMode.unknown))
    "time_forecast.cell.stream_mode"

def fromDict (builtins : Builtins F) (raw : Value F) : Except Raised (TimeForecastCell builtins) := do
  let data ← asMapping raw "time_forecast.cell"
  let model ← inputString data "model" "time_forecast.cell.model" ""
  let effort ← inputString data "effort" "time_forecast.cell.effort" "unknown"
  let streamMode ← streamModeOf data
  construct _ fun checked => ⟨model, effort, streamMode, checked⟩

end TimeForecastCell

def TimeForecastStatus.numericNull (status : TimeForecastStatus) : Bool :=
  status = .unknown ∨ status = .insufficientData ∨ status = .unavailable

def checkBand (builtins : Builtins F) (status : TimeForecastStatus)
    (range : Option (IntervalEstimate builtins))
    (ceiling : Option (NumericValue builtins)) : Except Raised Unit :=
  match range, ceiling with
  | some range, some ceiling => do
    ensure (range.state = .estimated) (.contract "populated time_forecast range must be estimated")
    ensure (ceiling.state = .estimated) (.contract "populated time_forecast ceiling must be estimated")
    ensure (amount builtins range.high ≤ amount builtins ceiling.value)
      (.contract "time_forecast 90% ceiling must not be below the likely-50 high")
  | _, _ => contract (Enumeration.label status ++ " time_forecast requires remaining-time range and ceiling")

def checkReceipts (status : TimeForecastStatus) (coverage : Coverage builtins)
    (gate : TimeForecastGate) : Except Raised Unit :=
  if status = .learning ∨ status = .available then do
    ensure (gate.sedr014Landed = true ∧ gate.calibrationEvidencePublished = true ∧
      gate.inputsVerifiedTimingFactsOnly = true)
      (.contract (Enumeration.label status ++ " time_forecast requires all gate receipts to be true"))
    ensure (0 < coverage.historyN)
      (.contract (Enumeration.label status ++ " time_forecast requires positive coverage history"))
    ensure (status = .available → truthyText coverage.method = true ∧ coverage.observed.isNull = false)
      (.contract "available time_forecast requires observed coverage")
  else .ok ()

def checkTimeForecast (builtins : Builtins F) (status : TimeForecastStatus) (basis : String)
    (remainingTimeLikely50Ms : Option (IntervalEstimate builtins))
    (remainingTimeCeiling90Ms : Option (NumericValue builtins))
    (coverage : Coverage builtins) (gate : TimeForecastGate) : Except Raised Unit := do
  ensure (basis = "timing-facts-v1") (.contract "time_forecast.basis must be 'timing-facts-v1'")
  match remainingTimeLikely50Ms with
  | some range => requireUnit range.unit "ms" "time_forecast.remaining_time_likely_50_ms"
  | none => .ok ()
  match remainingTimeCeiling90Ms with
  | some ceiling => requireUnit ceiling.unit "ms" "time_forecast.remaining_time_ceiling_90_ms"
  | none => .ok ()
  if status.numericNull then
    ensure (remainingTimeLikely50Ms.isNone = true ∧ remainingTimeCeiling90Ms.isNone = true)
      (.contract (Enumeration.label status ++ " time_forecast cannot carry numeric remaining-time values"))
  else checkBand builtins status remainingTimeLikely50Ms remainingTimeCeiling90Ms
  checkReceipts status coverage gate

structure TimeForecast (builtins : Builtins F) where
  status : TimeForecastStatus
  basis : String
  remainingTimeLikely50Ms : Option (IntervalEstimate builtins)
  remainingTimeCeiling90Ms : Option (NumericValue builtins)
  coverage : Coverage builtins
  gate : TimeForecastGate
  cell : TimeForecastCell builtins
  checked : checkTimeForecast builtins status basis remainingTimeLikely50Ms remainingTimeCeiling90Ms coverage gate = .ok ()

def optionally {Part : Type} (decode : Value F → Except Raised Part) (raw : Value F) :
    Except Raised (Option Part) :=
  if raw.isNull then .ok none else some <$> decode raw

namespace TimeForecast

def toDict (forecast : TimeForecast builtins) : Value F :=
  .dict [("status", encodeEnum forecast.status), ("basis", .str forecast.basis),
    ("remaining_time_likely_50_ms",
      (forecast.remainingTimeLikely50Ms.map IntervalEstimate.toDict).getD .null),
    ("remaining_time_ceiling_90_ms", (forecast.remainingTimeCeiling90Ms.map NumericValue.toDict).getD .null),
    ("coverage", forecast.coverage.toDict), ("gate", forecast.gate.toDict), ("cell", forecast.cell.toDict)]

def fromDict (builtins : Builtins F) (raw : Value F) : Except Raised (TimeForecast builtins) := do
  let data ← asMapping raw "time_forecast"
  let status ← enum TimeForecastStatus (get data "status") "time_forecast.status"
  let basis ← inputString data "basis" "time_forecast.basis" "timing-facts-v1"
  let range ← optionally (IntervalEstimate.fromDict builtins) (get data "remaining_time_likely_50_ms")
  let ceiling ← optionally (NumericValue.fromDict builtins) (get data "remaining_time_ceiling_90_ms")
  let coverage ← Coverage.fromDict builtins (get data "coverage")
  let gate ← TimeForecastGate.fromDict (get data "gate")
  let cell ← TimeForecastCell.fromDict builtins (get data "cell")
  construct _ fun checked => ⟨status, basis, range, ceiling, coverage, gate, cell, checked⟩

end TimeForecast

def schemaVersion : String := "session-economics/1"

def checkDenominator (session : SessionRef builtins) : Option (RecordedUsage builtins) → Except Raised Unit
  | none => .ok ()
  | some usage => do
    let total ← count usage.requestsTotal "recorded_usage.requests_total must be a non-negative integer"
    ensure ((total : Int) = session.turnsObserved)
      (.contract "recorded_usage denominator must match session turns")

def checkSessionEconomics (builtins : Builtins F) (asOf : String) (session : SessionRef builtins)
    (facts : SessionFacts builtins)
    (state : SessionState builtins) (forecast : Forecast builtins)
    (recordedUsage : Option (RecordedUsage builtins)) :
    Except Raised Unit := do
  timestamp builtins asOf "as_of"
  checkDenominator session recordedUsage
  ensure (state.burnUsdPerTurn.state = .estimated → facts.costUsd.state = .estimated)
    (.contract "estimated USD burn requires fresh rate-card cost provenance")
  ensure (state.burnUsdPerTurn.state = .observed → facts.costUsd.state = .observed)
    (.contract "observed USD burn requires provider-billed cost provenance")
  ensure (forecast.remainingCostUsdLikely50.state = .estimated ∨
    forecast.remainingCostUsdCeiling90.state = .estimated →
      facts.costUsd.state = .estimated)
    (.contract "remaining USD forecast requires fresh rate-card cost provenance")

structure SessionEconomics (builtins : Builtins F) where
  asOf : String
  session : SessionRef builtins
  facts : SessionFacts builtins
  state : SessionState builtins
  runway : Runway builtins
  forecast : Forecast builtins
  timeForecast : TimeForecast builtins
  recordedUsage : Option (RecordedUsage builtins)
  checked : checkSessionEconomics builtins asOf session facts state forecast recordedUsage = .ok ()

namespace SessionEconomics

def toDict (payload : SessionEconomics builtins) : Value F :=
  .dict ([("schema_version", .str schemaVersion), ("as_of", .str payload.asOf),
    ("session", payload.session.toDict),
    ("facts", payload.facts.toDict), ("state", payload.state.toDict), ("runway", payload.runway.toDict),
    ("forecast", payload.forecast.toDict), ("time_forecast", payload.timeForecast.toDict), ("advisory", .null)] ++
    (payload.recordedUsage.map fun usage => ("recorded_usage", usage.toDict)).toList)

/-- A version that is not supported is printed in the error, which may raise by itself. -/
def unsupportedVersion (builtins : Builtins F) (version : Value F) : Except Raised Unit :=
  match builtins.repr version with
  | some text =>
      .error (.version ("unsupported schema_version " ++ text ++ "; expected '" ++ schemaVersion ++
        "'"))
  | none => .error .valueError

def checkVersion (builtins : Builtins F) (version : Value F) : Except Raised Unit :=
  match version with
  | .str text => if text = schemaVersion then .ok () else unsupportedVersion builtins version
  | _ => unsupportedVersion builtins version

def checkAdvisory (data : List (String × Value F)) : Except Raised Unit :=
  match data.lookup "advisory" with
  | none => contract "OSS session economics requires explicit advisory: null"
  | some advisory =>
      ensure (advisory.isNull = true)
        (.contract "OSS session economics cannot accept a non-null advisory")

def fromDict (builtins : Builtins F) (raw : Value F) : Except Raised (SessionEconomics builtins) := do
  let data ← asMapping raw "session economics"
  checkVersion builtins (get data "schema_version")
  checkAdvisory data
  let asOf ← inputString data "as_of" "as_of" ""
  let session ← SessionRef.fromDict builtins (get data "session")
  let facts ← SessionFacts.fromDict builtins (get data "facts")
  let state ← SessionState.fromDict builtins (get data "state")
  let runway ← Runway.fromDict builtins (get data "runway")
  let forecast ← Forecast.fromDict builtins (get data "forecast")
  let timeForecast ← TimeForecast.fromDict builtins (get data "time_forecast")
  let recordedUsage ← optionally (RecordedUsage.fromDict builtins) (get data "recorded_usage")
  construct _ fun checked => ⟨asOf, session, facts, state, runway, forecast, timeForecast,
    recordedUsage, checked⟩

end SessionEconomics
end Values

end TokenPak.Core.Contracts
