import TokenPak.Library.JsonText
import TokenPak.Proofs.FleetCap
import TokenPak.SpendGuard.Estimator

/-! An estimate never makes room under the rolling caps, as long as the limit that the client names
for the answer is not negative. -/

namespace TokenPak.SpendGuard.Estimator
open Library RollingCaps Policy

structure Ticket.Nonneg (ticket : Ticket) : Prop where
  cost : 0 ≤ ticket.costUsd
  tokens : 0 ≤ ticket.tokensTotal
  cacheRead : 0 ≤ ticket.cacheReadTokens

structure Nonneg (est : RiskEstimate) : Prop where
  input : 0 ≤ est.projectedInputTokens
  output : 0 ≤ est.projectedOutputTokens
  cost : 0 ≤ est.projectedCostUsd

/-- No total of the first is above that of the second. -/
structure AtMost (left right : RollingUsage) : Prop where
  agentCost : left.agentCostUsd ≤ right.agentCostUsd
  agentTokens : left.agentTokensTotal ≤ right.agentTokensTotal
  agentCacheRead : left.agentCacheReadTokens ≤ right.agentCacheReadTokens
  fleetCost : left.fleetCostUsd ≤ right.fleetCostUsd
  fleetTokens : left.fleetTokensTotal ≤ right.fleetTokensTotal
  fleetCacheRead : left.fleetCacheReadTokens ≤ right.fleetCacheReadTokens

def registered (est : RiskEstimate) (ticket agentId : String) (now : Time)
    (register : List Ticket) : List Ticket :=
  admitPendingSpend ticket now agentId est.projectedCostUsd (est.projectedInputTokens +
    est.projectedOutputTokens)
    (truncate (est.projectedInputTokens * est.cacheHitRatio)) register

/-- A ticket for the estimate lowers no in-flight total, at any time after, and every check that
passes with it passes without it. -/
def Harmless (est : RiskEstimate) : Prop :=
  ∀ (ticket agentId : String) (now : Time) (register : List Ticket),
    (∀ entry ∈ register, Ticket.Nonneg entry) → (∀ entry ∈ register, entry.id ≠ ticket) →
    (∀ entry ∈ registered est ticket agentId now register, Ticket.Nonneg entry) ∧ ∀ later,
      (∀ agent, AtMost (pendingSpendTotals agent (live later register))
        (pendingSpendTotals agent (live later (registered est ticket agentId now register)))) ∧
      ∀ admission usage,
        checkRollingCaps admission usage (live later (registered est ticket agentId now register)) =
        none →
        checkRollingCaps admission usage (live later register) = none

section Totals
variable {small large : List Ticket} {usage pending further : RollingUsage}

theorem sum_sublist {α : Type} [AddCommMonoid α] [PartialOrder α] [IsOrderedAddMonoid α]
    (measure : Ticket → α)
    (part : small.Sublist large) (nonneg : ∀ entry ∈ large, 0 ≤ measure entry) :
    (small.map measure).sum ≤ (large.map measure).sum := by
  apply (part.map measure).sum_le_sum
  intro value member
  obtain ⟨entry, inside, rfl⟩ := List.mem_map.mp member
  exact nonneg entry inside

theorem pendingSpendTotals_sublist (agent : String) (part : small.Sublist large)
    (nonneg : ∀ entry ∈ large, Ticket.Nonneg entry) :
    AtMost (pendingSpendTotals agent small) (pendingSpendTotals agent large) := by
  have own := part.filter (fun t => decide (Text.lower agent ≠ "" ∧ t.agentId = Text.lower agent))
  have ours : ∀ entry ∈ large.filter (fun t => decide (Text.lower agent ≠ "" ∧
      t.agentId = Text.lower agent)), Ticket.Nonneg entry :=
    fun entry member => nonneg entry (List.mem_filter.mp member).1
  constructor
  · exact sum_sublist _ own fun entry member => (ours entry member).cost
  · exact sum_sublist _ own fun entry member => (ours entry member).tokens
  · exact sum_sublist _ own fun entry member => (ours entry member).cacheRead
  · exact sum_sublist _ part fun entry member => (nonneg entry member).cost
  · exact sum_sublist _ part fun entry member => (nonneg entry member).tokens
  · exact sum_sublist _ part fun entry member => (nonneg entry member).cacheRead

/-- Pending usage that is not negative counts for nothing only where it is nothing for the whole fleet. -/
theorem withPending_mono (nonneg : AtMost ⟨0, 0, 0, 0, 0, 0⟩ pending) (more : AtMost pending further) :
    AtMost (withPending usage pending) (withPending usage further) := by
  have idle : further.fleetCostUsd = 0 → pending.fleetCostUsd = 0 :=
    fun none => le_antisymm (none ▸ more.fleetCost) nonneg.fleetCost
  have quiet : further.fleetTokensTotal = 0 → pending.fleetTokensTotal = 0 :=
    fun none => le_antisymm (none ▸ more.fleetTokens) nonneg.fleetTokens
  have cold : further.fleetCacheReadTokens = 0 → pending.fleetCacheReadTokens = 0 :=
    fun none => le_antisymm (none ▸ more.fleetCacheRead) nonneg.fleetCacheRead
  have all_nonneg := nonneg
  obtain ⟨agentCost, agentTokens, agentCache, fleetCost, fleetTokens, fleetCache⟩ := more
  obtain ⟨cost, tokens, cache, allCost, allTokens, allCache⟩ := nonneg
  unfold withPending
  split
  next counted =>
    rw [if_pos]
    · constructor <;> simp only [RollingUsage.add] <;> linarith
    · by_contra none
      simp only [not_or, not_not] at none
      exact counted.elim (fun some => some (idle none.1)) fun rest =>
        rest.elim (fun some => some (quiet none.2.1))
        fun some => some (cold none.2.2)
  next =>
    split
    · constructor <;> simp only [RollingUsage.add] <;> linarith
    · exact ⟨le_rfl, le_rfl, le_rfl, le_rfl, le_rfl, le_rfl⟩

theorem checkCap_mono {dimension : CapDimension} {agent : String} {window : Int}
    {used more add cap : ℚ} (le : used ≤ more)
    (passed : checkCap dimension agent window more add cap = none) :
    checkCap dimension agent window used add cap = none := by
  unfold checkCap
  rw [if_neg]
  rintro ⟨positive, excess⟩
  have fits := FleetCap.checkCap_none passed positive
  linarith

theorem checkRollingCaps_sublist (part : small.Sublist large)
    (nonneg : ∀ entry ∈ large, Ticket.Nonneg entry) {admission : Admission}
    {recorded : Option RollingUsage} (passed : checkRollingCaps admission recorded large = none) :
    checkRollingCaps admission recorded small = none := by
  unfold checkRollingCaps at passed ⊢
  cases enabled : admission.config.enabled with
  | false => simp only [enabled, if_true]
  | true =>
    cases recorded with
    | none => simp [enabled] at passed
    | some usage =>
      have none_below : AtMost ⟨0, 0, 0, 0, 0, 0⟩ (pendingSpendTotals admission.agentId small) :=
        pendingSpendTotals_sublist admission.agentId (List.nil_sublist small) fun entry member =>
          nonneg entry (part.mem member)
      have grown : AtMost (withPending usage (pendingSpendTotals admission.agentId small))
          (withPending usage (pendingSpendTotals admission.agentId large)) :=
        withPending_mono none_below (pendingSpendTotals_sublist admission.agentId part nonneg)
      simp only [enabled, Bool.true_eq_false, if_false, Option.orElse_eq_none] at passed ⊢
      obtain ⟨own, fleetCost, fleetTokens, fleetCache⟩ := passed
      refine ⟨?_, checkCap_mono grown.fleetCost fleetCost,
        checkCap_mono (Int.cast_le.mpr grown.fleetTokens) fleetTokens,
        checkCap_mono (Int.cast_le.mpr grown.fleetCacheRead) fleetCache⟩
      split at own
      next unnamed => simp [unnamed]
      next named =>
        simp only [named, if_false, Option.orElse_eq_none] at own ⊢
        obtain ⟨cost, tokens, cache⟩ := own
        exact ⟨checkCap_mono grown.agentCost cost, checkCap_mono (Int.cast_le.mpr grown.agentTokens) tokens,
          checkCap_mono (Int.cast_le.mpr grown.agentCacheRead) cache⟩

end Totals

section Estimates
variable {N : Type} [Numerals N] {builtins : Builtins N} {body : Body N} {model : String}
  {fallback : Int} {est : RiskEstimate}

theorem roundTo_nonneg (digits : Nat) {value : ℚ} (nonneg : 0 ≤ value) : 0 ≤ roundTo digits value := by
  have scaled : 0 ≤ value * 10 ^ digits := by positivity
  have floor : 0 ≤ ⌊value * 10 ^ digits⌋ := Int.floor_nonneg.mpr scaled
  unfold roundTo
  have rounded : 0 ≤ (if value * 10 ^ digits - ⌊value * 10 ^ digits⌋ < 1 / 2 ∨
    value * 10 ^ digits - ⌊value * 10 ^ digits⌋ = 1 / 2 ∧
      ⌊value * 10 ^ digits⌋ % 2 = 0 then ⌊value * 10 ^ digits⌋ else ⌊value * 10 ^ digits⌋ + 1) := by
    split <;> omega
  exact div_nonneg (by exact_mod_cast rounded) (by positivity)

theorem truncate_nonneg {value : ℚ} (nonneg : 0 ≤ value) : 0 ≤ truncate value := by
  rw [truncate, if_pos nonneg]
  exact Int.floor_nonneg.mpr nonneg

theorem harmless_of_nonneg (nonneg : Nonneg est) (ratio : 0 ≤ est.cacheHitRatio) : Harmless est := by
  intro ticket agentId now register standing fresh
  have added : registered est ticket agentId now register = register ++
    [⟨ticket, Text.lower agentId, est.projectedCostUsd,
      est.projectedInputTokens + est.projectedOutputTokens, truncate (est.projectedInputTokens * est.cacheHitRatio), now⟩] := by
    rw [registered, admitPendingSpend, filter_fresh fresh]
  have inputs : (0 : ℚ) ≤ est.projectedInputTokens := by exact_mod_cast nonneg.input
  have all : ∀ entry ∈ registered est ticket agentId now register, Ticket.Nonneg entry := by
    intro entry member
    rw [added] at member
    rcases List.mem_append.mp member with old | new
    · exact standing entry old
    · cases List.mem_singleton.mp new
      exact ⟨nonneg.cost, add_nonneg nonneg.input nonneg.output, truncate_nonneg (mul_nonneg inputs ratio)⟩
  refine ⟨all, fun later => ?_⟩
  have part : (live later register).Sublist (live later (registered est ticket agentId now register)) := by
    rw [added]
    exact (List.sublist_append_left register _).filter _
  have current : ∀ entry ∈ live later (registered est ticket agentId now register), Ticket.Nonneg entry :=
    fun entry member => all entry (List.mem_filter.mp member).1
  exact ⟨fun agent => pendingSpendTotals_sublist agent part current, fun admission usage =>
    checkRollingCaps_sublist part current⟩

/-- The estimator does not raise: the counts of the body, the limit and the floats of all three are there. -/
def Readable (builtins : Builtins N) (body : Body N) (model : String) (fallback : Int) : Prop :=
  ∃ counts output, body.tokens builtins model = some counts ∧
    outputTokens builtins body.fields = some output ∧
    (builtins.float counts.cached).isSome ∧
    (builtins.float (counts.projectedInput fallback - counts.cached)).isSome ∧ (builtins.float output).isSome

theorem estimate_parts (found : estimate builtins body model fallback = some est) :
    Readable builtins body model fallback ∧
      outputTokens builtins body.fields = some est.projectedOutputTokens ∧
      0 ≤ est.projectedInputTokens ∧ 0 ≤ est.cacheHitRatio ∧ (0 ≤ est.projectedOutputTokens →
          0 ≤ est.projectedCostUsd) := by
  unfold estimate at found
  simp only [Option.bind_eq_bind, Option.bind_eq_some_iff, Option.pure_def, Option.some.injEq] at found
  obtain ⟨counts, counted, output, limited, cached, cachedRead, fresh, freshRead, priced,
      outputRead, rfl⟩ :=
    found
  have inputs : 0 ≤ counts.projectedInput fallback := by unfold Counts.projectedInput; omega
  have counted_in : (counts.cached : Int) ≤ counts.projectedInput fallback := by
    unfold Counts.projectedInput; omega
  refine ⟨⟨counts, output, counted, limited,
    by simp [cachedRead], by simp [freshRead], by simp [outputRead]⟩, limited,
    inputs, ?_, fun nonneg => ?_⟩
  · apply roundTo_nonneg
    split
    · exact div_nonneg (Nat.cast_nonneg _) (by exact_mod_cast inputs)
    · exact le_rfl
  · have first := builtins.float_nonneg _ _ cachedRead (Int.natCast_nonneg _)
    have second := builtins.float_nonneg _ _ freshRead (by omega)
    have third := builtins.float_nonneg _ _ outputRead nonneg
    apply roundTo_nonneg
    have a := mul_nonneg first (builtins.getRates model).cached_nonneg
    have b := mul_nonneg second (builtins.getRates model).input_nonneg
    have c := mul_nonneg third (builtins.getRates model).output_nonneg
    positivity

theorem estimate_of_readable (readable : Readable builtins body model fallback) :
    ∃ est, estimate builtins body model fallback = some est := by
  obtain ⟨counts, output, counted, limited, cached, fresh, priced⟩ := readable
  obtain ⟨cachedPriced, cachedRead⟩ := Option.isSome_iff_exists.mp cached
  obtain ⟨freshPriced, freshRead⟩ := Option.isSome_iff_exists.mp fresh
  obtain ⟨outputPriced, outputRead⟩ := Option.isSome_iff_exists.mp priced
  simp [estimate, counted, limited, cachedRead, freshRead, outputRead]

def LimitNonneg (builtins : Builtins N) (body : Body N) : Prop :=
  ∃ output, outputTokens builtins body.fields = some output ∧ 0 ≤ output

theorem safe_iff (found : estimate builtins body model fallback = some est) :
    Nonneg est ∧ Harmless est ↔ LimitNonneg builtins body := by
  obtain ⟨_, limited, input, ratio, cost⟩ := estimate_parts found
  constructor
  · rintro ⟨nonneg, _⟩
    exact ⟨_, limited, nonneg.output⟩
  · rintro ⟨output, same, nonneg⟩
    cases limited.symm.trans same
    have all : Nonneg est := ⟨input, nonneg, cost nonneg⟩
    exact ⟨all, harmless_of_nonneg all ratio⟩

/-- For every body, model and fallback: each estimate that is returned is nowhere negative and makes
no room exactly if the body makes the estimator raise or its limit is not negative; and such an
estimate is returned exactly if the body does not make it raise and its limit is not negative. -/
theorem estimate_makes_no_room (builtins : Builtins N) (body : Body N) (model : String) (fallback : Int) :
    ((∀ est ∈ estimate builtins body model fallback, Nonneg est ∧ Harmless est) ↔
        ¬ Readable builtins body model fallback ∨ LimitNonneg builtins body) ∧
      ((∃ est ∈ estimate builtins body model fallback, Nonneg est ∧ Harmless est) ↔
        Readable builtins body model fallback ∧ LimitNonneg builtins body) := by
  by_cases readable : Readable builtins body model fallback
  · obtain ⟨est, found⟩ := estimate_of_readable readable
    have safe := safe_iff found
    simp [found, safe, readable]
  · have none_found : estimate builtins body model fallback = none := by
      cases found : estimate builtins body model fallback with
      | none => rfl
      | some est => exact absurd (estimate_parts found).1 readable
    simp [none_found, readable]

end Estimates
section Cases

theorem inputRate_nonneg : (0 : ℚ) ≤ 3 := by decide +kernel
theorem outputRate_nonneg : (0 : ℚ) ≤ 15 := by decide +kernel
theorem cachedRate_nonneg : (0 : ℚ) ≤ 3 / 10 := by decide +kernel

/-- Numbers that are integers, with room for all of them, at the rates of one model. -/
def sampleBuiltins : Builtins Int where
  str := fun value => String.ofList (value.dumps ⟨true, false⟩)
  int := fun value => match value with
    | .number n => some n
    | .bool b => some b.toInt
    | _ => none
  float := fun n => some n
  floats := Floats.binary
  digit := fun c => if isDigit c then some (c.toNat - '0'.toNat) else none
  imageDimensions := fun _ => none
  pages := fun _ => none
  getRates := fun _ => ⟨3, 15, 3 / 10, inputRate_nonneg, outputRate_nonneg, cachedRate_nonneg⟩
  float_nonneg := by
    intro n q same nonneg
    cases same
    exact_mod_cast nonneg

/-- A request that asks for minus a thousand tokens. -/
def negativeBody : Body Int :=
  ⟨"", some (.object [("max_tokens", .number (-1000)),
    ("messages", .array [.object [("role", .string "user"), ("content", .string "Please continue.")]])])⟩

def busyRegister : List Ticket := [⟨"adm_0a", "agent-a", 1 / 50, 900, 0, 0⟩]

/-- A fleet cap of a thousand tokens, and a request of two hundred. -/
def tightAdmission : Admission := ⟨"agent-b", 0, 100, 100, 0, ⟨true, 3600, 0, 0, 0, 0, 1000, 0⟩⟩

def negativeEstimate : RiskEstimate := ⟨"claude-sonnet-4-5", 0, 4, 4, -1000, -3747 / 250000, 0⟩

/-- The ticket of that request lowers the fleet's total below zero, and a request that was blocked passes. -/
theorem negative_limit_makes_room :
    estimate sampleBuiltins negativeBody "claude-sonnet-4-5" 0 = some negativeEstimate ∧
      negativeEstimate.projectedOutputTokens < 0 ∧ negativeEstimate.projectedCostUsd < 0 ∧
      (pendingSpendTotals "agent-a" busyRegister).fleetTokensTotal = 900 ∧
      (pendingSpendTotals "agent-a" (registered negativeEstimate "adm_0b" "agent-b" 0 busyRegister)).fleetTokensTotal = -96 ∧
      (checkRollingCaps tightAdmission (some ⟨0, 0, 0, 0, 0, 0⟩) (live 0 busyRegister)).isSome ∧
      checkRollingCaps tightAdmission (some ⟨0, 0, 0, 0, 0, 0⟩)
        (live 0 (registered negativeEstimate "adm_0b" "agent-b" 0 busyRegister)) = none ∧
      ¬ Harmless negativeEstimate := by
  have blocked : (checkRollingCaps tightAdmission (some ⟨0, 0, 0, 0, 0, 0⟩) (live 0 busyRegister)).isSome := by decide +kernel
  have passed : checkRollingCaps tightAdmission (some ⟨0, 0, 0, 0, 0, 0⟩)
      (live 0 (registered negativeEstimate "adm_0b" "agent-b" 0 busyRegister)) = none := by decide +kernel
  refine ⟨by decide +kernel, by decide, by decide +kernel, by decide +kernel, by decide +kernel, blocked, passed, ?_⟩
  intro harmless
  have standing : ∀ entry ∈ busyRegister, Ticket.Nonneg entry := by
    intro entry member
    cases List.mem_singleton.mp member
    constructor <;> decide +kernel
  have without := ((harmless "adm_0b" "agent-b" 0 busyRegister standing (by decide)).2 0).2 tightAdmission _ passed
  rw [without] at blocked
  cases blocked

end Cases
end TokenPak.SpendGuard.Estimator
