import Mathlib.Data.String.Basic
import TokenPak.Library.Ranking
import TokenPak.Library.Text

/-! Rate bands and the contexts of requests. A band has the rates for the contexts that it matches;
of several bands that match, the most specific one is selected. -/

namespace TokenPak.Models.Pricing
open Library Minimal

/-- `str.lower`; texts of small letters stay as they are. -/
structure Lowering where
  lower : String → String
  letters : ∀ count,
    lower (String.ofList (List.replicate count 'a')) = String.ofList (List.replicate count 'a')

instance : Inhabited Lowering := ⟨Text.lower, fun count => by simp [Text.lower, Text.lowerChar]⟩

section Words
variable (lowering : Lowering)

def normalized (value : String) : String := lowering.lower (Text.strip value)

/-- A field of a context: a stripped text in lower case. -/
structure Word where
  text : String
  normal : ∃ raw, normalized lowering raw = text
  full : text ≠ ""

/-- The values of a context field for which a band is meant; the star alone is for all. -/
structure Selector where
  values : List String
  words : ∀ value ∈ values, value = "*" ∨ value ≠ "" ∧ ∃ raw, normalized lowering raw = value
  full : values ≠ []
  unique : values.Nodup
  alone : "*" ∈ values → values.length = 1

end Words

structure PricingContext (lowering : Lowering) where
  inputTokens : Option Nat
  inputModality : Word lowering
  outputModality : Word lowering
  serviceTier : Word lowering
  region : Word lowering
  cacheTtlSeconds : Option Nat
  ttl_positive : ∀ ttl ∈ cacheTtlSeconds, 0 < ttl

/-- A band with its rates and where they come from. -/
structure RateBand (lowering : Lowering) (Details : Type) where
  bandId : String
  details : Details
  minInputTokens : Nat
  maxInputTokens : Option Nat
  inputModalities : Selector lowering
  outputModalities : Selector lowering
  serviceTiers : Selector lowering
  regions : Selector lowering
  cacheTtlSeconds : Option Nat
  range : ∀ max ∈ maxInputTokens, minInputTokens < max
  ttl_positive : ∀ ttl ∈ cacheTtlSeconds, 0 < ttl

section Bands
variable {lowering : Lowering} {Details : Type}

/-- `_selector_matches` -/
def selectorMatches (selector : List String) (value : String) : Bool := selector = ["*"] || value ∈ selector

def tokensMatch (min : Nat) (max : Option Nat) : Option Nat → Bool
  | none => ¬ (min ≠ 0 ∨ max.isSome)
  | some tokens => ¬ tokens < min && ¬ max.any (tokens ≥ ·)

/-- `matches` -/
def RateBand.matches (band : RateBand lowering Details) (context : PricingContext lowering) : Bool :=
  tokensMatch band.minInputTokens band.maxInputTokens context.inputTokens &&
    (selectorMatches band.inputModalities.values context.inputModality.text &&
      selectorMatches band.outputModalities.values context.outputModality.text &&
      selectorMatches band.serviceTiers.values context.serviceTier.text &&
      selectorMatches band.regions.values context.region.text &&
      (band.cacheTtlSeconds = none || band.cacheTtlSeconds = context.cacheTtlSeconds))

/-- `_selector_subset`: whether it is a subset, and whether a strict one. -/
def selectorSubset (left right : List String) : Bool × Bool :=
  if right = ["*"] then (true, left ≠ ["*"])
  else if left = ["*"] then (false, false)
  else (left ⊆ right, left ⊆ right ∧ ¬ right ⊆ left)

def ttlSubset (left right : Option Nat) : Bool × Bool :=
  (right = none ∨ left = right, right = none ∧ left ≠ none)

/-- `_range_subset` -/
def rangeSubset (left right : RateBand lowering Details) : Bool × Bool :=
  let lowerSubset := decide (left.minInputTokens ≥ right.minInputTokens)
  let upperSubset := right.maxInputTokens.all fun upper => left.maxInputTokens.any fun bound => bound ≤ upper
  let strict := left.minInputTokens > right.minInputTokens ||
    left.maxInputTokens.any fun bound => right.maxInputTokens.all fun upper => bound < upper
  (lowerSubset && upperSubset, strict)

/-- `is_more_specific_than` -/
def RateBand.isMoreSpecificThan (band other : RateBand lowering Details) : Bool :=
  let comparisons := [
    selectorSubset band.inputModalities.values other.inputModalities.values,
    selectorSubset band.outputModalities.values other.outputModalities.values,
    selectorSubset band.serviceTiers.values other.serviceTiers.values,
    selectorSubset band.regions.values other.regions.values,
    ttlSubset band.cacheTtlSeconds other.cacheTtlSeconds,
    rangeSubset band other]
  comparisons.all Prod.fst && comparisons.any Prod.snd

def selected : List (RateBand lowering Details) → Except String (Option (RateBand lowering Details))
  | [band] => .ok (some band)
  | best =>
      .error ("ambiguous pricing rate bands: " ++
        ", ".intercalate ((best.map RateBand.bandId).insertionSort (· ≤ ·)))

/-- `select_rate_band`. A band is not compared with itself in the source; it is not more specific
than itself. -/
def selectRateBand (bands : List (RateBand lowering Details)) (context : Option (PricingContext lowering)) :
    Except String (Option (RateBand lowering Details)) :=
  match context with
  | none => .ok none
  | some context =>
    let candidates := bands.filter (·.matches context)
    if candidates.isEmpty then .ok none else selected (minimal RateBand.isMoreSpecificThan candidates)

end Bands
end TokenPak.Models.Pricing
