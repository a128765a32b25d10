import Mathlib.Algebra.Ring.Int.Defs
import Mathlib.Algebra.Ring.Nat
import TokenPak.Core.SessionEconomics

/-! What decoding a payload may raise. Every check raises an error of the contract, apart from two
conversions: an integer that is too large for a float, and a version that cannot be printed. Parts
are read in order, and a refused part ends the reading. -/

namespace TokenPak.Core.Contracts
open Library

section Escapes
variable {F : Type} {builtins : Builtins F} {α β : Type}

/-- An exception that is none of the contract's. -/
def Escapes (result : Except Raised α) : Prop := ∃ raised, result = .error raised ∧ raised.isContract = false

def Accepted (result : Except Raised α) : Prop := ∃ value, result = .ok value

theorem escapes_bind {first : Except Raised β} {next : β → Except Raised α} :
    Escapes (first >>= next) ↔ Escapes first ∨ ∃ value, first = .ok value ∧ Escapes (next value) := by
  cases first with
  | ok value => simp [Escapes, bind, Except.bind]
  | error raised => simp [Escapes, bind, Except.bind]

@[simp] theorem not_escapes_ok (value : α) : ¬ Escapes (.ok value : Except Raised α) := by simp [Escapes]

@[simp] theorem not_escapes_contract (text : String) : ¬ Escapes (contract text : Except Raised α) := by
  simp [Escapes, contract, Raised.isContract]

@[simp] theorem not_escapes_ensure {condition : Prop} [Decidable condition] (text : String) :
    ¬ Escapes (ensure condition (.contract text)) := by
  unfold ensure
  split
  · exact not_escapes_ok ()
  · exact not_escapes_contract text

@[simp] theorem escapes_construct {check : Except Raised Unit} {build : check = .ok () → α} :
    Escapes (construct check build) ↔ Escapes check := by
  cases check with
  | ok value => simp [construct]
  | error raised => simp [construct, Escapes]

@[simp] theorem not_escapes_asMapping (value : Value F) (path : String) :
    ¬ Escapes (asMapping value path) := by
  cases value <;> simp [asMapping]

theorem asMapping_ok {value : Value F} {path : String} {data : List (String × Value F)} :
    asMapping value path = .ok data ↔ value = .dict data := by
  cases value <;> simp [asMapping, contract]

@[simp] theorem not_escapes_enum (E : Type) [Enumeration E] (value : Value F) (path : String) :
    ¬ Escapes (enum E value path) := by
  unfold enum
  split
  · split
    · exact not_escapes_ok _
    · exact not_escapes_contract _
  · exact not_escapes_contract _

@[simp] theorem not_escapes_string (value : Value F) (path : String) : ¬ Escapes (string value path) := by
  cases value <;> simp [string]

@[simp] theorem not_escapes_inputString (data : List (String × Value F)) (key path default : String) :
    ¬ Escapes (inputString data key path default) := by
  unfold inputString
  split <;> simp

@[simp] theorem not_escapes_boolean (value : Value F) (path : String) : ¬ Escapes (boolean value path) := by
  cases value <;> simp [boolean]

@[simp] theorem not_escapes_nonBlank (text path : String) :
    ¬ Escapes (nonBlank builtins text path) :=
  not_escapes_ensure _

@[simp] theorem not_escapes_optionalString (text path : String) :
    ¬ Escapes (optionalString builtins text path) :=
  not_escapes_ensure _

@[simp] theorem not_escapes_requireUnit (unit expected path : String) :
    ¬ Escapes (requireUnit unit expected path) :=
  not_escapes_ensure _

@[simp] theorem not_escapes_timestamp (text path : String) : ¬ Escapes (timestamp builtins text path) := by
  unfold timestamp
  split
  · exact not_escapes_contract _
  · exact not_escapes_ensure _

@[simp] theorem not_escapes_count (value : Value F) (text : String) : ¬ Escapes (count value text) := by
  unfold count
  split
  · split <;> simp
  · simp

@[simp] theorem not_escapes_integer (value : Value F) (text : String) :
    ¬ Escapes (SessionRef.integer value text) := by
  unfold SessionRef.integer
  split <;> simp

/-- An integer that no float can hold. -/
def TooLarge (builtins : Builtins F) (value : Value F) :
    Prop := ∃ n, value = .number (.int n) ∧ builtins.floatOfInt n = none

@[simp] theorem escapes_number {value : Value F} {path : String} :
    Escapes (number builtins value path) ↔ TooLarge builtins value := by
  unfold number
  split
  · rename_i n
    cases converted : builtins.floatOfInt n with
    | none => simp [Escapes, TooLarge, converted, Raised.isContract]
    | some x =>
      simp only [TooLarge, Value.number.injEq, Number.int.injEq]
      split <;> simp [converted]
  · split <;> simp [TooLarge]
  · simp [TooLarge]
  · rename_i other _ _
    simp only [not_escapes_contract, false_iff, TooLarge, not_exists, not_and]
    intro n same
    exact absurd same (other n)

end Escapes

section Records
variable {F : Type} (builtins : Builtins F)

def Readable (text : String) : Prop := text = "" ∨ hasVisibleText builtins text = true

theorem optionalString_ok {text path : String} {value : Unit} :
    optionalString builtins text path = .ok value ↔ Readable builtins text :=
  ensure_ok

def NumericOversized (raw : Value F) : Prop :=
  ∃ data state source confidence reason unit, raw = .dict data ∧
    enum ValueState (get data "state") "numeric value.state" = .ok state ∧
    inputString data "source" "numeric value.source" "" = .ok source ∧
    inputString data "confidence" "numeric value.confidence" "" = .ok confidence ∧
    inputString data "reason" "numeric value.reason" "" = .ok reason ∧
    inputString data "unit" "numeric value.unit" "" = .ok unit ∧
    Readable builtins source ∧ Readable builtins confidence ∧ Readable builtins reason ∧
      Readable builtins unit ∧
    state.hasValue = true ∧ TooLarge builtins (get data "value")

theorem escapes_checkNumericValue {state : ValueState} {value : Value F}
    {source confidence reason unit : String} :
    Escapes (checkNumericValue builtins state value source confidence reason unit) ↔
      Readable builtins source ∧ Readable builtins confidence ∧ Readable builtins reason ∧
        Readable builtins unit ∧
        state.hasValue = true ∧ TooLarge builtins value := by
  unfold checkNumericValue
  cases carries : state.hasValue with
  | false => simp [escapes_bind, optionalString_ok]
  | true => simp [escapes_bind, optionalString_ok]

variable {raw : Value F}

theorem escapes_numericValue :
    Escapes (NumericValue.fromDict builtins raw) ↔ NumericOversized builtins raw := by
  simp [NumericValue.fromDict, NumericOversized, escapes_bind, asMapping_ok,
    escapes_checkNumericValue, exists_and_left]

@[simp] theorem not_escapes_provenanceText (value : Value F) (name : String) :
    ¬ Escapes (provenanceText builtins value name) := by
  cases value <;> simp [provenanceText]

@[simp] theorem not_escapes_rateProvenance (raw : Value F) :
    ¬ Escapes (RateProvenance.fromDict builtins raw) := by
  simp only [RateProvenance.fromDict, RateProvenance.freshnessOf, escapes_bind,
    not_escapes_asMapping, not_escapes_enum,
    escapes_construct, checkRateProvenance, not_escapes_provenanceText, false_or]
  rintro ⟨data, _, freshness, _, _, _, _, _, _, _, escapes⟩
  revert escapes
  split
  · split <;> simp
  · simp

def CostOversized (raw : Value F) : Prop :=
  ∃ data state source reason,
    raw = .dict data ∧ enum ValueState (get data "state") "cost_usd.state" = .ok state ∧
    Accepted (CostValue.basisOf data) ∧ inputString data "source" "cost_usd.source" "" = .ok source ∧
    inputString data "reason" "cost_usd.reason" "" = .ok reason ∧
    Accepted (RateProvenance.fromDict builtins (get data "rate_provenance")) ∧
    Readable builtins source ∧ Readable builtins reason ∧ state.hasValue = true ∧
      TooLarge builtins (get data "value")

@[simp] theorem not_escapes_checkCostBasis (state : ValueState) (basis : CostBasis) (source : String)
    (provenance : RateProvenance builtins) :
    ¬ Escapes (checkCostBasis builtins state basis source provenance) := by
  cases state <;> simp [checkCostBasis, escapes_bind]

theorem escapes_checkCostValue {state : ValueState} {value : Value F} {basis : CostBasis}
    {source reason : String}
    {provenance : RateProvenance builtins} :
    Escapes (checkCostValue builtins state value basis source reason provenance) ↔
      Readable builtins source ∧ Readable builtins reason ∧ state.hasValue = true ∧
          TooLarge builtins value := by
  unfold checkCostValue
  cases carries : state.hasValue with
  | false => simp [escapes_bind, optionalString_ok]
  | true => simp [escapes_bind, optionalString_ok]

theorem escapes_costValue :
    Escapes (CostValue.fromDict builtins raw) ↔ CostOversized builtins raw := by
  simp [CostValue.fromDict, CostOversized, CostValue.basisOf, Accepted, escapes_bind, asMapping_ok,
    escapes_checkCostValue,
    exists_and_left]

def IntervalOversized (raw : Value F) : Prop :=
  ∃ data source reason unit,
    raw = .dict data ∧ enum ValueState (get data "state") "interval.state" = .ok .estimated ∧
    inputString data "source" "interval.source" "" = .ok source ∧
      inputString data "reason" "interval.reason" "" = .ok reason ∧
    inputString data "unit" "interval.unit" "" = .ok unit ∧
    Readable builtins source ∧ Readable builtins reason ∧ Readable builtins unit ∧
    (TooLarge builtins (get data "low") ∨
      Accepted (number builtins (get data "low") "interval.low") ∧ TooLarge builtins (get data "high"))

theorem escapes_checkIntervalBounds {state : ValueState} {low high : Value F} {source : String} :
    Escapes (checkIntervalBounds builtins state low high source) ↔ state = .estimated ∧
      (TooLarge builtins low ∨ Accepted (number builtins low "interval.low") ∧ TooLarge builtins high) := by
  unfold checkIntervalBounds
  by_cases estimated : state = .estimated
  · simp [estimated, escapes_bind, Accepted]
  · simp [estimated]

theorem escapes_intervalEstimate :
    Escapes (IntervalEstimate.fromDict builtins raw) ↔ IntervalOversized builtins raw := by
  simp [IntervalEstimate.fromDict, IntervalOversized, checkIntervalEstimate, escapes_bind,
    asMapping_ok, escapes_checkIntervalBounds,
    optionalString_ok, exists_and_left]

def CoverageOversized (raw : Value F) : Prop :=
  ∃ data, raw = .dict data ∧
    Accepted (SessionRef.integer ((data.lookup "history_n").getD (.number (.int 0)))
      "forecast.coverage.history_n must be a non-negative integer") ∧
    Accepted (Coverage.driftOf data) ∧ Accepted (checkMethod builtins (get data "method")) ∧
      TooLarge builtins (get data "observed")

@[simp] theorem not_escapes_checkMethod (method : Value F) : ¬ Escapes (checkMethod builtins method) := by
  cases method <;> simp [checkMethod, escapes_bind]

theorem escapes_checkObserved {observed : Value F} :
    Escapes (checkObserved builtins observed) ↔ TooLarge builtins observed := by
  cases observed <;> simp [checkObserved, escapes_bind, TooLarge]

theorem escapes_coverage :
    Escapes (Coverage.fromDict builtins raw) ↔ CoverageOversized builtins raw := by
  simp [Coverage.fromDict, CoverageOversized, Coverage.driftOf, checkCoverage, Accepted,
    escapes_bind, asMapping_ok,
    escapes_checkObserved]

end Records

section Parts
variable {F : Type} (builtins : Builtins F)

/-- A part of a record: that it is accepted, and that it is read up to a number that is too large. -/
structure Part where
  accepted : Prop
  oversized : Prop

/-- The parts are read in order, as long as they are accepted, up to one that is oversized. -/
def Stops : List Part → Prop
  | [] => False
  | part :: rest => part.oversized ∨ part.accepted ∧ Stops rest

def plainPart {α : Type} (result : Except Raised α) : Part := ⟨Accepted result, False⟩

def numericPart (raw : Value F) : Part :=
  ⟨Accepted (NumericValue.fromDict builtins raw), NumericOversized builtins raw⟩

def intervalPart (raw : Value F) : Part :=
  ⟨Accepted (IntervalEstimate.fromDict builtins raw), IntervalOversized builtins raw⟩

def coveragePart (raw : Value F) : Part :=
  ⟨Accepted (Coverage.fromDict builtins raw), CoverageOversized builtins raw⟩

def FactsOversized (raw : Value F) : Prop := ∃ data, raw = .dict data ∧
  Stops [numericPart builtins (get data "input_tokens"), numericPart builtins (get data "output_tokens"),
    numericPart builtins (get data "cache_read_tokens"), numericPart builtins (get data "cache_write_tokens"),
    ⟨Accepted (CostValue.fromDict builtins (get data "cost_usd")), CostOversized builtins (get data "cost_usd")⟩]

def factsPart (raw : Value F) : Part :=
  ⟨Accepted (SessionFacts.fromDict builtins raw), FactsOversized builtins raw⟩

def StateOversized (raw : Value F) : Prop := ∃ data, raw = .dict data ∧
  Stops [numericPart builtins (get data "context_tokens"), numericPart builtins (get data "base_tokens"),
    numericPart builtins (get data "context_growth_ewma"),
      numericPart builtins (get data "burn_tokens_per_turn"),
    numericPart builtins (get data "burn_usd_per_turn"),
      plainPart (enum BurnSlope (get data "burn_slope") "state.burn_slope"),
    numericPart builtins (get data "idle_seconds"), numericPart builtins (get data "cache_ttl_seconds")]

def ForecastOversized (raw : Value F) : Prop := ∃ data, raw = .dict data ∧
  Stops [plainPart (enum ForecastStatus (get data "status") "forecast.status"),
    intervalPart builtins (get data "remaining_tokens_likely_50"),
      numericPart builtins (get data "remaining_tokens_ceiling_90"),
    intervalPart builtins (get data "remaining_cost_usd_likely_50"),
      numericPart builtins (get data "remaining_cost_usd_ceiling_90"),
    intervalPart builtins (get data "expected_turns"), coveragePart builtins (get data "coverage"),
    numericPart builtins (get data "predicted_block_probability")]

def optionalPart {α : Type} (decode : Value F → Except Raised α) (oversized : Value F → Prop)
    (raw : Value F) : Part :=
  ⟨Accepted (optionally decode raw), raw.isNull = false ∧ oversized raw⟩

def TimeOversized (raw : Value F) : Prop := ∃ data, raw = .dict data ∧
  Stops [plainPart (enum TimeForecastStatus (get data "status") "time_forecast.status"),
    plainPart (inputString data "basis" "time_forecast.basis" "timing-facts-v1"),
    optionalPart (IntervalEstimate.fromDict builtins) (IntervalOversized builtins)
      (get data "remaining_time_likely_50_ms"),
    optionalPart (NumericValue.fromDict builtins) (NumericOversized builtins)
      (get data "remaining_time_ceiling_90_ms"),
    coveragePart builtins (get data "coverage")]

def UsageOversized (raw : Value F) :
    Prop := ∃ data, raw = .dict data ∧ FactsOversized builtins (get data "facts")

/-- A version that is not supported and cannot be printed. -/
def Unprintable (version : Value F) : Prop :=
  builtins.repr version = none ∧ ∀ text, version = .str text → text ≠ schemaVersion

/-- The payload is read up to a number that no float can hold, or up to a version that cannot be printed. -/
def Oversized (raw : Value F) : Prop := ∃ data, raw = .dict data ∧
  Stops [⟨Accepted (SessionEconomics.checkVersion builtins (get data "schema_version")),
    Unprintable builtins (get data "schema_version")⟩,
    plainPart (SessionEconomics.checkAdvisory data), plainPart (inputString data "as_of" "as_of" ""),
    plainPart (SessionRef.fromDict builtins (get data "session")), factsPart builtins (get data "facts"),
    ⟨Accepted (SessionState.fromDict builtins (get data "state")),
      StateOversized builtins (get data "state")⟩,
    plainPart (Runway.fromDict builtins (get data "runway")),
    ⟨Accepted (Forecast.fromDict builtins (get data "forecast")),
      ForecastOversized builtins (get data "forecast")⟩,
    ⟨Accepted (TimeForecast.fromDict builtins (get data "time_forecast")),
      TimeOversized builtins (get data "time_forecast")⟩,
    optionalPart (RecordedUsage.fromDict builtins) (UsageOversized builtins) (get data "recorded_usage")]

theorem escapes_part {α β : Type} {part : Except Raised β} {next : β → Except Raised α}
    {oversized : Prop} {rest : List Part}
    (first : Escapes part ↔ oversized)
    (later : ∀ value, part = .ok value → (Escapes (next value) ↔ Stops rest)) :
    Escapes (part >>= next) ↔ Stops (⟨Accepted part, oversized⟩ :: rest) := by
  rw [escapes_bind, first]
  apply or_congr_right
  constructor
  · rintro ⟨value, accepted, escapes⟩
    exact ⟨⟨value, accepted⟩, (later value accepted).mp escapes⟩
  · rintro ⟨⟨value, accepted⟩, stops⟩
    exact ⟨value, accepted, (later value accepted).mpr stops⟩

@[simp] theorem not_escapes_checkFact (value : NumericValue builtins) (name : String) :
    ¬ Escapes (checkFact value name) := by
  simp [checkFact, escapes_bind]

@[simp] theorem not_escapes_checkSessionFacts (input output read write : NumericValue builtins) :
    ¬ Escapes (checkSessionFacts input output read write) := by
  simp [checkSessionFacts, escapes_bind]

variable {raw : Value F}

theorem escapes_mapping {α : Type} {path : String}
    {next : List (String × Value F) → Except Raised α}
    {oversized : List (String × Value F) → Prop}
    (same : ∀ data, Escapes (next data) ↔ oversized data) :
    Escapes (asMapping raw path >>= next) ↔ ∃ data, raw = .dict data ∧ oversized data := by
  simp only [escapes_bind, not_escapes_asMapping, asMapping_ok, false_or, same]

theorem escapes_sessionFacts :
    Escapes (SessionFacts.fromDict builtins raw) ↔ FactsOversized builtins raw := by
  apply escapes_mapping
  intro data
  iterate 4
    apply escapes_part (escapes_numericValue builtins)
    intro _ _
  apply escapes_part (escapes_costValue builtins)
  intro _ _
  simp [Stops]

theorem escapes_plain {α : Type} {result : Except Raised α} (quiet : ¬ Escapes result) :
    Escapes result ↔ False :=
  iff_false_intro quiet

theorem escapes_sessionState :
    Escapes (SessionState.fromDict builtins raw) ↔ StateOversized builtins raw := by
  apply escapes_mapping
  intro data
  iterate 5
    apply escapes_part (escapes_numericValue builtins)
    intro _ _
  apply escapes_part (escapes_plain (not_escapes_enum _ _ _))
  intro _ _
  iterate 2
    apply escapes_part (escapes_numericValue builtins)
    intro _ _
  simp [Stops, escapes_bind, checkSessionState]

@[simp] theorem not_escapes_checkPredictions (range cost turns : IntervalEstimate builtins)
    (ceiling costCeiling probability : NumericValue builtins) (coverage : Coverage builtins) :
    ¬ Escapes (checkPredictions range ceiling cost costCeiling turns coverage probability) := by
  simp [checkPredictions, escapes_bind]

theorem escapes_forecast :
    Escapes (Forecast.fromDict builtins raw) ↔ ForecastOversized builtins raw := by
  apply escapes_mapping
  intro data
  apply escapes_part (escapes_plain (not_escapes_enum _ _ _))
  intro status _
  iterate 2
    apply escapes_part (escapes_intervalEstimate builtins)
    intro _ _
    apply escapes_part (escapes_numericValue builtins)
    intro _ _
  apply escapes_part (escapes_intervalEstimate builtins)
  intro _ _
  apply escapes_part (escapes_coverage builtins)
  intro _ _
  apply escapes_part (escapes_numericValue builtins)
  intro _ _
  by_cases available : status = .available
  · simp [Stops, escapes_bind, checkForecast, available]
  · simp [Stops, escapes_bind, checkForecast, available]

theorem escapes_optionally {α : Type} {decode : Value F → Except Raised α}
    {oversized : Value F → Prop} (same : Escapes (decode raw) ↔ oversized raw) :
    Escapes (optionally decode raw) ↔ raw.isNull = false ∧ oversized raw := by
  unfold optionally
  cases missing : raw.isNull with
  | true => simp
  | false =>
    rw [← same]
    cases decoded : decode raw with
    | ok value => simp
    | error raised => simp [Escapes]

@[simp] theorem not_escapes_checkBand (status : TimeForecastStatus)
    (range : Option (IntervalEstimate builtins))
    (ceiling : Option (NumericValue builtins)) : ¬ Escapes (checkBand builtins status range ceiling) := by
  unfold checkBand
  split
  · simp [escapes_bind]
  · simp

@[simp] theorem not_escapes_checkReceipts (status : TimeForecastStatus)
    (coverage : Coverage builtins) (gate : TimeForecastGate) :
    ¬ Escapes (checkReceipts status coverage gate) := by
  unfold checkReceipts
  split
  · simp [escapes_bind]
  · simp

@[simp] theorem not_escapes_checkTimeForecast (status : TimeForecastStatus) (basis : String)
    (range : Option (IntervalEstimate builtins))
    (ceiling : Option (NumericValue builtins)) (coverage : Coverage builtins) (gate : TimeForecastGate) :
    ¬ Escapes (checkTimeForecast builtins status basis range ceiling coverage gate) := by
  cases null : status.numericNull with
  | false => cases range <;> cases ceiling <;> simp [checkTimeForecast, escapes_bind, null]
  | true => cases range <;> cases ceiling <;> simp [checkTimeForecast, escapes_bind, null]

@[simp] theorem not_escapes_gate (raw : Value F) : ¬ Escapes (TimeForecastGate.fromDict raw) := by
  simp [TimeForecastGate.fromDict, escapes_bind, pure, Except.pure]

@[simp] theorem not_escapes_cell (raw : Value F) : ¬ Escapes (TimeForecastCell.fromDict builtins raw) := by
  simp [TimeForecastCell.fromDict, TimeForecastCell.streamModeOf, escapes_bind, checkTimeForecastCell]

theorem escapes_timeForecast :
    Escapes (TimeForecast.fromDict builtins raw) ↔ TimeOversized builtins raw := by
  apply escapes_mapping
  intro data
  apply escapes_part (escapes_plain (not_escapes_enum _ _ _))
  intro _ _
  apply escapes_part (escapes_plain (not_escapes_inputString _ _ _ _))
  intro _ _
  apply escapes_part (escapes_optionally (escapes_intervalEstimate builtins))
  intro _ _
  apply escapes_part (escapes_optionally (escapes_numericValue builtins))
  intro _ _
  apply escapes_part (escapes_coverage builtins)
  intro _ _
  simp [Stops, escapes_bind]

@[simp] theorem not_escapes_checkCovered (facts : SessionFacts builtins) (observed : Nat) :
    ¬ Escapes (checkCovered facts observed) := by
  simp [checkCovered, escapes_bind]

theorem escapes_recordedUsage :
    Escapes (RecordedUsage.fromDict builtins raw) ↔ UsageOversized builtins raw := by
  apply escapes_mapping
  intro data
  simp [escapes_bind, escapes_sessionFacts, checkRecordedUsage]

@[simp] theorem not_escapes_modelRef (raw : Value F) : ¬ Escapes (ModelRef.fromDict builtins raw) := by
  simp [ModelRef.fromDict, escapes_bind, checkModelRef]

@[simp] theorem not_escapes_checkSessionId (id : Value F) (identityState : ValueState) :
    ¬ Escapes (checkSessionId builtins id identityState) := by
  by_cases observed : identityState = .observed <;> cases id <;> simp [checkSessionId, escapes_bind, observed]

@[simp] theorem not_escapes_sessionRef (raw : Value F) : ¬ Escapes (SessionRef.fromDict builtins raw) := by
  simp [SessionRef.fromDict, escapes_bind, checkSessionRef]

@[simp] theorem not_escapes_checkRunwayTurns (status : RunwayStatus) (turns : Value F)
    (binding : BindingConstraint) :
    ¬ Escapes (checkRunwayTurns status turns binding) := by
  unfold checkRunwayTurns
  split
  · simp [escapes_bind]
  · simp

@[simp] theorem not_escapes_runway (raw : Value F) : ¬ Escapes (Runway.fromDict builtins raw) := by
  simp [Runway.fromDict, escapes_bind, checkRunway]

theorem escapes_unsupportedVersion {version : Value F} :
    Escapes (SessionEconomics.unsupportedVersion builtins version) ↔ builtins.repr version = none := by
  unfold SessionEconomics.unsupportedVersion
  cases shown : builtins.repr version <;> simp [Escapes, Raised.isContract]

theorem escapes_checkVersion {version : Value F} :
    Escapes (SessionEconomics.checkVersion builtins version) ↔ Unprintable builtins version := by
  unfold SessionEconomics.checkVersion Unprintable
  split
  · rename_i text
    by_cases supported : text = schemaVersion
    · simp [supported]
    · simp [supported, escapes_unsupportedVersion]
  · rename_i other
    rw [escapes_unsupportedVersion, iff_self_and]
    intro _ text same
    exact absurd same (other text)

@[simp] theorem not_escapes_checkAdvisory (data : List (String × Value F)) :
    ¬ Escapes (SessionEconomics.checkAdvisory data) := by
  unfold SessionEconomics.checkAdvisory
  split <;> simp

@[simp] theorem not_escapes_checkDenominator (session : SessionRef builtins)
    (usage : Option (RecordedUsage builtins)) :
    ¬ Escapes (checkDenominator session usage) := by
  cases usage <;> simp [checkDenominator, escapes_bind]

theorem escapes_fromDict : Escapes (SessionEconomics.fromDict builtins raw) ↔
    Oversized builtins raw := by
  apply escapes_mapping
  intro data
  apply escapes_part (escapes_checkVersion builtins)
  intro _ _
  apply escapes_part (escapes_plain (not_escapes_checkAdvisory _))
  intro _ _
  apply escapes_part (escapes_plain (not_escapes_inputString _ _ _ _))
  intro _ _
  apply escapes_part (escapes_plain (not_escapes_sessionRef _ _))
  intro _ _
  apply escapes_part (escapes_sessionFacts builtins)
  intro _ _
  apply escapes_part (escapes_sessionState builtins)
  intro _ _
  apply escapes_part (escapes_plain (not_escapes_runway _ _))
  intro _ _
  apply escapes_part (escapes_forecast builtins)
  intro _ _
  apply escapes_part (escapes_timeForecast builtins)
  intro _ _
  apply escapes_part (escapes_optionally (escapes_recordedUsage builtins))
  intro _ _
  simp [Stops, escapes_bind, checkSessionEconomics]

/-- Decoding fails with an error of the contract, unless the payload is read up to an integer that
no float can hold or up to a version that cannot be printed. -/
theorem decoding_errors (raw : Value F) :
    (∀ raised, SessionEconomics.fromDict builtins raw = .error raised → raised.isContract = true) ↔
      ¬ Oversized builtins raw := by
  rw [← escapes_fromDict]
  simp [Escapes]

end Parts

section Examples

/-- Letters are visible, every time names a zone, and an integer from 2 ^ 1024 on is too large for a float. -/
def plainBuiltins : Builtins ℚ where
  category := fun c => if c.isAlphanum then "Ll" else "Po"
  fromIsoFormat := fun _ => some true
  floatOfInt := fun n => if n.natAbs < 2 ^ 1024 then some n else none
  toRat := id
  repr := fun _ => some ""

def hugePayload : Value ℚ :=
  .dict [("schema_version", .str "session-economics/1"), ("advisory", .null),
    ("as_of", .str "2026-08-10T12:02:00Z"),
    ("session", .dict [("id", .str "first"), ("identity_state", .str "observed"),
      ("turns_observed", .number (.int 1)),
      ("model", .dict [("id", .str "large")])]),
    ("facts", .dict [("input_tokens", .dict [("state", .str "observed"), ("value", .number (.int (10 ^ 400))),
      ("source", .str "ledger")])])]

def raisedOf {α : Type} : Except Raised α → Option Raised
  | .error raised => some raised
  | .ok _ => none

theorem eq_of_raisedOf {α : Type} {result : Except Raised α} {raised : Raised}
    (same : raisedOf result = some raised) :
    result = .error raised := by
  cases result with
  | ok value => cases same
  | error other =>
    cases same
    rfl

theorem huge_tokens_overflow : SessionEconomics.fromDict plainBuiltins hugePayload = .error .overflowError :=
  eq_of_raisedOf (by decide +kernel)

end Examples

end TokenPak.Core.Contracts
