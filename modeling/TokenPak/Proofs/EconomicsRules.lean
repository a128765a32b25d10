import TokenPak.Proofs.EconomicsCodec
import TokenPak.Proofs.DecodingErrors

/-! The rules that hold between the fields of a payload. A payload that was built passed its checks,
and the rules are read off them; so an accepted text never carries a number where its state says
that there is none. -/

namespace TokenPak.Core.Contracts
open Library

section Rules
variable {F : Type} {builtins : Builtins F}

def SessionFacts.numerics (facts : SessionFacts builtins) : List (NumericValue builtins) :=
  [facts.inputTokens, facts.outputTokens, facts.cacheReadTokens, facts.cacheWriteTokens]

def SessionState.numerics (state : SessionState builtins) : List (NumericValue builtins) :=
  [state.contextTokens, state.baseTokens, state.contextGrowthEwma, state.burnTokensPerTurn,
    state.burnUsdPerTurn, state.idleSeconds,
    state.cacheTtlSeconds]

def Forecast.numerics (forecast : Forecast builtins) : List (NumericValue builtins) :=
  [forecast.remainingTokensCeiling90, forecast.remainingCostUsdCeiling90, forecast.predictedBlockProbability]

def Forecast.intervals (forecast : Forecast builtins) : List (IntervalEstimate builtins) :=
  [forecast.remainingTokensLikely50, forecast.remainingCostUsdLikely50, forecast.expectedTurns]

namespace SessionEconomics

def allFacts (payload : SessionEconomics builtins) : List (SessionFacts builtins) :=
  payload.facts :: (payload.recordedUsage.map RecordedUsage.facts).toList

def numerics (payload : SessionEconomics builtins) : List (NumericValue builtins) :=
  payload.allFacts.flatMap SessionFacts.numerics ++ payload.state.numerics ++ payload.forecast.numerics ++
    payload.timeForecast.remainingTimeCeiling90Ms.toList

def intervals (payload : SessionEconomics builtins) : List (IntervalEstimate builtins) :=
  payload.forecast.intervals ++ payload.timeForecast.remainingTimeLikely50Ms.toList

def costs (payload : SessionEconomics builtins) : List (CostValue builtins) :=
  payload.allFacts.map SessionFacts.costUsd

end SessionEconomics

/-- The basis that the state of a cost asks for. -/
structure CostValue.Grounded (cost : CostValue builtins) : Prop where
  observed : cost.state = .observed → cost.basis = .providerBill
  estimated : cost.state = .estimated → cost.basis = .rateCard ∧ cost.rateProvenance.complete = true ∧
    cost.rateProvenance.freshness = .fresh
  priceless : cost.basis = .subscription ∨ cost.basis = .unknown → cost.state.hasValue = false

/-- A ceiling is not below the range that it belongs to. -/
def Covers (range : IntervalEstimate builtins) (ceiling : NumericValue builtins) : Prop :=
  range.state.hasValue = true → ceiling.state.hasValue = true →
    amount builtins range.high ≤ amount builtins ceiling.value

structure SessionEconomics.Rules (payload : SessionEconomics builtins) : Prop where
  numeric : ∀ value ∈ payload.numerics, value.state.hasValue = false → value.value = .null
  interval : ∀ interval ∈ payload.intervals, interval.state.hasValue = false →
    interval.low = .null ∧ interval.high = .null
  cost : ∀ cost ∈ payload.costs, cost.state.hasValue = false → cost.value = .null
  turns : payload.runway.status ≠ .available → payload.runway.turns = .null
  basis : ∀ cost ∈ payload.costs, cost.Grounded
  burn : payload.state.burnUsdPerTurn.state.hasValue = true →
    payload.facts.costUsd.state = payload.state.burnUsdPerTurn.state
  priced : payload.forecast.remainingCostUsdLikely50.state.hasValue = true ∨
    payload.forecast.remainingCostUsdCeiling90.state.hasValue = true →
      payload.facts.costUsd.state = .estimated
  tokens : Covers payload.forecast.remainingTokensLikely50 payload.forecast.remainingTokensCeiling90
  usd : Covers payload.forecast.remainingCostUsdLikely50 payload.forecast.remainingCostUsdCeiling90
  time : ∀ range ∈ payload.timeForecast.remainingTimeLikely50Ms,
    ∀ ceiling ∈ payload.timeForecast.remainingTimeCeiling90Ms,
    Covers range ceiling
  denominator : ∀ usage ∈ payload.recordedUsage,
    usage.requestsTotal = .number (.int payload.session.turnsObserved)

theorem hasValue_iff {state : ValueState} :
    state.hasValue = true ↔ state = .observed ∨ state = .estimated := by
  cases state <;> simp [ValueState.hasValue]

theorem NumericValue.unvalued (value : NumericValue builtins)
    (without : value.state.hasValue = false) : value.value = .null := by
  rcases value.carries with ⟨has, _⟩ | ⟨_, null⟩
  · rw [without] at has
    cases has
  · exact null

theorem CostValue.unvalued (cost : CostValue builtins) (without : cost.state.hasValue = false) :
    cost.value = .null := by
  rcases cost.carries with ⟨has, _⟩ | ⟨_, null⟩
  · rw [without] at has
    cases has
  · exact null

theorem IntervalEstimate.unvalued (interval : IntervalEstimate builtins)
    (without : interval.state.hasValue = false) :
    interval.low = .null ∧ interval.high = .null := by
  rcases interval.carries with ⟨estimated, _⟩ | ⟨_, null⟩
  · rw [estimated] at without
    cases without
  · exact null

theorem IntervalEstimate.not_observed (interval : IntervalEstimate builtins) :
    interval.state ≠ .observed := by
  have checked := interval.checked
  simp only [checkIntervalEstimate, except_bind_ok, ensure_ok] at checked
  obtain ⟨_, _, _, _, _, _, _, _, _, unobserved, _⟩ := checked
  exact unobserved

theorem CostValue.grounded (cost : CostValue builtins) : cost.Grounded := by
  have checked : ∃ result,
    checkCostBasis builtins cost.state cost.basis cost.source cost.rateProvenance = .ok result ∧
      ¬ ((cost.basis = .subscription ∨ cost.basis = .unknown) ∧ cost.state.hasValue = true) := by
    have checked := cost.checked
    cases has : cost.state.hasValue with
    | false =>
      simp only [checkCostValue, has, Bool.false_eq_true, if_false, except_bind_ok, ensure_ok] at checked
      obtain ⟨_, _, _, _, _, _, result, based, _, priceless, _⟩ := checked
      exact ⟨result, based, by simp⟩
    | true =>
      simp only [checkCostValue, has, if_true, except_bind_ok, ensure_ok] at checked
      obtain ⟨_, _, _, _, _, _, result, based, _, priceless, _⟩ := checked
      exact ⟨result, based, by simpa using priceless⟩
  obtain ⟨result, based, priceless⟩ := checked
  refine ⟨?_, ?_, ?_⟩
  · intro observed
    rw [observed, checkCostBasis, ensure_ok] at based
    exact based.1
  · intro estimated
    simp only [estimated, checkCostBasis, except_bind_ok, ensure_ok] at based
    obtain ⟨_, card, _, complete, fresh⟩ := based
    exact ⟨card, complete, fresh⟩
  · intro without
    cases has : cost.state.hasValue with
    | false => rfl
    | true => exact absurd ⟨without, has⟩ priceless

end Rules

namespace Forecast
variable {F : Type} {builtins : Builtins F}

theorem predictions (forecast : Forecast builtins) :
    (∃ result, checkPredictions forecast.remainingTokensLikely50 forecast.remainingTokensCeiling90 forecast.remainingCostUsdLikely50
        forecast.remainingCostUsdCeiling90 forecast.expectedTurns forecast.coverage forecast.predictedBlockProbability = .ok result) ∨
      forecast.remainingTokensLikely50.state.hasValue = false ∧
        forecast.remainingCostUsdLikely50.state.hasValue = false ∧
        forecast.remainingCostUsdCeiling90.state.hasValue = false := by
  have checked := forecast.checked
  by_cases available : forecast.status = .available
  · simp only [checkForecast, available, if_true, except_bind_ok] at checked
    obtain ⟨_, _, _, _, _, _, _, _, _, _, _, _, _, _, result, predicted, _⟩ := checked
    exact .inl ⟨result, predicted⟩
  · simp only [checkForecast, available, if_false, except_bind_ok, ensure_ok] at checked
    obtain ⟨_, _, _, _, _, _, _, _, _, _, _, _, _, _, _, none, _⟩ := checked
    simp only [List.mem_cons, List.not_mem_nil, or_false, forall_eq_or_imp, forall_eq] at none
    exact .inr ⟨none.1, none.2.2.2.1, none.2.2.2.2.1⟩

theorem tokens_covered (forecast : Forecast builtins) :
    Covers forecast.remainingTokensLikely50 forecast.remainingTokensCeiling90 := by
  intro has _
  rcases forecast.predictions with ⟨result, predicted⟩ | ⟨none, _⟩
  · simp only [checkPredictions, except_bind_ok, ensure_ok] at predicted
    obtain ⟨_, _, _, _, _, covered, _⟩ := predicted
    exact covered
  · rw [none] at has
    cases has

/-- The costs of a forecast share one state, so neither of them is observed. -/
theorem usd_shared (forecast : Forecast builtins)
    (has : forecast.remainingCostUsdLikely50.state.hasValue = true ∨
    forecast.remainingCostUsdCeiling90.state.hasValue = true) : forecast.remainingCostUsdLikely50.state = .estimated := by
  rcases forecast.predictions with ⟨result, predicted⟩ | ⟨_, range, ceiling⟩
  · simp only [checkPredictions, except_bind_ok, ensure_ok] at predicted
    obtain ⟨_, _, _, shared, _⟩ := predicted
    rw [← shared, or_self, hasValue_iff] at has
    rcases has with observed | estimated
    · exact absurd observed forecast.remainingCostUsdLikely50.not_observed
    · exact estimated
  · rw [range, ceiling] at has
    simp at has

theorem usd_covered (forecast : Forecast builtins) :
    Covers forecast.remainingCostUsdLikely50 forecast.remainingCostUsdCeiling90 := by
  intro has _
  have estimated := forecast.usd_shared (.inl has)
  rcases forecast.predictions with ⟨result, predicted⟩ | ⟨_, none, _⟩
  · simp only [checkPredictions, except_bind_ok, ensure_ok] at predicted
    obtain ⟨_, _, _, _, _, _, _, covered, _⟩ := predicted
    exact covered estimated
  · rw [none] at has
    cases has

end Forecast

namespace TimeForecast
variable {F : Type} {builtins : Builtins F}

theorem time_covered (forecast : TimeForecast builtins) {range : IntervalEstimate builtins}
    {ceiling : NumericValue builtins}
    (ranged : forecast.remainingTimeLikely50Ms = some range)
    (ceiled : forecast.remainingTimeCeiling90Ms = some ceiling) :
    Covers range ceiling := by
  intro _ _
  have checked := forecast.checked
  rw [ranged, ceiled] at checked
  cases null : forecast.status.numericNull with
  | true => simp [checkTimeForecast, null, except_bind_ok] at checked
  | false =>
    simp only [checkTimeForecast, null, Bool.false_eq_true, if_false, except_bind_ok, checkBand,
      ensure_ok] at checked
    obtain ⟨_, _, _, _, _, _, _, banded, _⟩ := checked
    obtain ⟨_, _, _, _, covered⟩ := banded
    exact covered

end TimeForecast

namespace SessionEconomics
variable {F : Type} {builtins : Builtins F}

theorem denominator (payload : SessionEconomics builtins) {usage : RecordedUsage builtins}
    (recorded : payload.recordedUsage = some usage) :
    usage.requestsTotal = .number (.int payload.session.turnsObserved) := by
  have checked := payload.checked
  rw [recorded] at checked
  simp only [checkSessionEconomics, checkDenominator, except_bind_ok, ensure_ok] at checked
  obtain ⟨_, _, _, ⟨total, counted, same⟩, _⟩ := checked
  rw [← same]
  exact RecordedUsage.count_ok counted

theorem rules (payload : SessionEconomics builtins) : payload.Rules := by
  have checked := payload.checked
  simp only [checkSessionEconomics, except_bind_ok, ensure_ok] at checked
  obtain ⟨_, _, _, _, _, estimatedBurn, _, observedBurn, priced⟩ := checked
  exact {
    numeric := fun value _ => value.unvalued
    interval := fun interval _ => interval.unvalued
    cost := fun cost _ => cost.unvalued
    turns := by
      intro other
      rcases payload.runway.carries with ⟨available, _⟩ | ⟨_, null⟩
      · exact absurd available other
      · exact null
    basis := fun cost _ => cost.grounded
    burn := by
      intro has
      rcases hasValue_iff.mp has with observed | estimated
      · rw [observed, observedBurn observed]
      · rw [estimated, estimatedBurn estimated]
    priced := fun has => priced (.inl (payload.forecast.usd_shared has))
    tokens := payload.forecast.tokens_covered
    usd := payload.forecast.usd_covered
    time := fun range ranged ceiling ceiled => payload.timeForecast.time_covered ranged ceiled
    denominator := fun usage recorded => payload.denominator recorded }

/-- A payload is read back from its text exactly when its integers are printed, and every payload
that is read from a text keeps the rules between its fields. -/
theorem json_codec [Numerals (Number F)] (builtins : Builtins F) (printable : Int → Bool) :
    (∀ payload : SessionEconomics builtins,
      (payload.toJson printable >>= fromJson builtins printable) = .ok payload ↔ payload.toDict.fits printable = true) ∧
    ∀ raw payload, fromJson builtins printable raw = .ok payload → payload.Rules := by
  constructor
  · exact read_toJson
  · intro raw payload _
    exact payload.rules

end SessionEconomics

section Examples

/-! Floats that are whole numbers. -/

def printWhole : Number Int → List Char
  | .int n => Numerals.print n
  | .float n => Numerals.print n ++ ".0".toList
  | .nonFinite => "NaN".toList

def readWhole (text : List Char) : Number Int :=
  if text = "NaN".toList then .nonFinite
  else if '.' ∈ text then .float (Numerals.read (text.takeWhile (· ≠ '.')))
  else .int (Numerals.read text)

theorem scanInteger_print (n : Int) : scanInteger (Numerals.print n) = some (Numerals.print n, []) := by
  cases n with
  | ofNat n => exact scanInteger_natural n
  | negSucc n =>
    change scanInteger ('-' :: printNatural (n + 1)) = some ('-' :: printNatural (n + 1), [])
    rw [scanInteger, scanNatural_print]
    rfl

theorem plain_natural {n : Nat} {c : Char} (member : c ∈ printNatural n) : isDigit c = true := by
  unfold printNatural at member
  split at member
  · rw [List.mem_singleton.mp member]
    rfl
  · obtain ⟨digit, there, rfl⟩ := List.mem_map.mp member
    exact isDigit_hexDigit (Nat.digits_lt_base (by decide) (List.mem_reverse.mp there))

theorem plain_integer {n : Int} {c : Char} (member : c ∈ (Numerals.print n : List Char)) :
    c ≠ 'N' ∧ c ≠ '.' := by
  have digit : c = '-' ∨ isDigit c = true := by
    cases n with
    | ofNat n => exact .inr (plain_natural member)
    | negSucc n =>
      rcases List.mem_cons.mp member with minus | digit
      · exact .inl minus
      · exact .inr (plain_natural digit)
  constructor <;>
  · rintro rfl
    revert digit
    decide

theorem scan_printWhole (value : Number Int) :
    scanNumber (printWhole value) = some (printWhole value, []) := by
  cases value with
  | int n => exact scanNumber_of_integer (scanInteger_print n)
  | float n =>
    have undigit : Undigit ".0".toList := by
      intro c first
      cases first
      rfl
    have scanned := scanInteger_append undigit (scanInteger_print n)
    simp only [printWhole, scanNumber, scanned]
    simp [scanFraction, scanExponent, isDigit]
  | nonFinite => rfl

theorem read_printWhole (value : Number Int) : readWhole (printWhole value) = value := by
  cases value with
  | int n =>
    have word : printWhole (.int n) ≠ "NaN".toList := by
      intro same
      have letter : 'N' ∈ printWhole (.int n) := by
        rw [same]
        decide
      exact (plain_integer letter).1 rfl
    have whole : '.' ∉ printWhole (.int n) := fun point => (plain_integer point).2 rfl
    rw [readWhole, if_neg word, if_neg whole, printWhole, Numerals.read_print]
  | float n =>
    have point : '.' ∈ printWhole (.float n) := by simp [printWhole]
    have word : printWhole (.float n) ≠ "NaN".toList := by
      intro same
      rw [same] at point
      revert point
      decide
    have digits : (printWhole (.float n)).takeWhile (· ≠ '.') = Numerals.print n := by
      rw [printWhole, List.takeWhile_append_of_pos fun c member => by simpa using (plain_integer member).2]
      simp
    rw [readWhole, if_neg word, if_pos point, digits, Numerals.read_print]
  | nonFinite => rfl

instance : Numerals (Number Int) where
  print := printWhole
  read := readWhole
  isZero value := value = .int 0 ∨ value = .float 0
  integer?
    | .int n => some n
    | _ => none
  scan_print := scan_printWhole
  read_print := read_printWhole

def wholeBuiltins : Builtins Int where
  category := fun c => if c.isAlphanum then "Ll" else "Po"
  fromIsoFormat := fun _ => some true
  floatOfInt := fun n => if n.natAbs < 2 ^ 1024 then some n else none
  toRat := fun n => n
  repr := fun _ => some ""

def withinLimit (n : Int) : Bool := n.natAbs < 10 ^ 4300

def unvalued : Value Int := .dict [("state", .str "no_data"), ("value", .null)]

/-- A session of many turns, and nothing known about it. -/
def endlessPayload (turns : Int) : Value Int :=
  let coverage : Value Int := .dict [("method", .null), ("observed", .null)]
  .dict [("schema_version", .str "session-economics/1"), ("advisory", .null),
    ("as_of", .str "2026-08-10T12:02:00Z"),
    ("session", .dict [("id", .str "first"), ("identity_state", .str "observed"),
      ("turns_observed", .number (.int turns)),
      ("model", .dict [("id", .str "large")])]),
    ("facts", .dict [("input_tokens", unvalued), ("output_tokens", unvalued), ("cache_read_tokens", unvalued),
      ("cache_write_tokens", unvalued), ("cost_usd", unvalued)]),
    ("state", .dict [("context_tokens", unvalued), ("base_tokens", unvalued),
      ("context_growth_ewma", unvalued),
      ("burn_tokens_per_turn", unvalued), ("burn_usd_per_turn", unvalued),
        ("burn_slope", .str "unknown"), ("idle_seconds", unvalued),
      ("cache_ttl_seconds", unvalued), ("cache_state", .str "unknown")]),
    ("runway", .dict [("status", .str "learning"), ("turns", .null), ("binding_constraint", .str "unknown"),
      ("guard_state", .str "unknown")]),
    ("forecast", .dict [("status", .str "learning"), ("remaining_tokens_likely_50", unvalued),
      ("remaining_tokens_ceiling_90", unvalued), ("remaining_cost_usd_likely_50", unvalued),
      ("remaining_cost_usd_ceiling_90", unvalued), ("expected_turns", unvalued), ("coverage", coverage),
      ("predicted_block_probability", unvalued)]),
    ("time_forecast", .dict [("status", .str "unknown"), ("coverage", coverage),
      ("gate", .dict [("sedr_014_landed", .bool false), ("calibration_evidence_published", .bool false),
        ("inputs_verified_timing_facts_only", .bool false)]),
      ("cell", .dict [("model", .str "large")])])]

/-- The text that a payload is printed as, from the value that it is decoded from. -/
def reprinted (raw : Value Int) : Except Raised (List Char) :=
  SessionEconomics.fromDict wholeBuiltins raw >>= SessionEconomics.toJson withinLimit

theorem endless_accepted :
    (SessionEconomics.fromDict wholeBuiltins (endlessPayload (10 ^ 5000))).isOk = true := by
  decide +kernel

theorem endless_reprinted : reprinted (endlessPayload (10 ^ 5000)) = .error .valueError :=
  eq_of_raisedOf (by decide +kernel)

theorem endless_session_unread :
    ∃ payload, SessionEconomics.fromDict wholeBuiltins (endlessPayload (10 ^ 5000)) = .ok payload ∧
    (payload.toJson withinLimit >>= SessionEconomics.fromJson wholeBuiltins withinLimit) ≠ .ok payload := by
  have accepted := endless_accepted
  have printed := endless_reprinted
  unfold reprinted at printed
  cases built : SessionEconomics.fromDict wholeBuiltins (endlessPayload (10 ^ 5000)) with
  | error raised =>
    rw [built] at accepted
    cases accepted
  | ok payload =>
    rw [built, ok_bind] at printed
    refine ⟨payload, rfl, ?_⟩
    rw [printed]
    intro same
    cases same

end Examples

end TokenPak.Core.Contracts
