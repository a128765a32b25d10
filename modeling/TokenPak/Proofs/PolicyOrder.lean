import TokenPak.SpendGuard.Orchestrator

/-! What a verdict says about the bands it went through. -/

namespace TokenPak.SpendGuard.Policy

variable {estimate : RiskEstimate} {cfg : SpendGuardConfig} {tip : Option TIPDirective} {running : ℚ}
  {context : Option Int} {contextApproved requestApproved : Bool} {decision : PreflightDecision}

theorem hardBand_decision (found : hardBand estimate cfg context = some decision) :
    decision.decision = .hardBlock := by
  simp only [hardBand] at found
  split at found
  · cases found; rfl
  · split at found
    · cases found; rfl
    · split at found
      · cases found; rfl
      · cases found

theorem sessionBand_decision (found : sessionBand estimate cfg running = some decision) :
    decision.decision = .block ∧ decision.reason = .sessionCumulativeCostExceeded := by
  simp only [sessionBand] at found
  split at found
  · cases found; exact ⟨rfl, rfl⟩
  · cases found

theorem tipBand_decision (found : tipBand estimate tip = some decision) :
    decision.decision = .block ∧ decision.reason = .projectedExceedsTipCeiling := by
  simp only [tipBand] at found
  split at found
  · cases found; exact ⟨rfl, rfl⟩
  · cases found

private theorem softBand_decision (found : softBand estimate cfg context contextApproved requestApproved = some decision) :
    decision.decision = .block ∧ (decision.reason = .projectedExceedsContextWindowPercent →
      contextApproved = false ∧ decision.requiresApproval = true) := by
  simp only [softBand] at found
  split at found
  next stopped => cases found; exact ⟨rfl, fun _ => ⟨(Bool.or_eq_false_iff.mp stopped.2).1, rfl⟩⟩
  next =>
    split at found
    · cases found; exact ⟨rfl, nofun⟩
    · split at found
      · cases found; exact ⟨rfl, nofun⟩
      · cases found

theorem passing_passes (estimate : RiskEstimate) (cfg : SpendGuardConfig) (tip : Option TIPDirective) :
    Passes (passing estimate cfg tip) := by
  unfold passing Passes
  split
  · exact .inl rfl
  · split
    · exact .inr rfl
    · exact .inl rfl

private theorem passing_reason (estimate : RiskEstimate) (cfg : SpendGuardConfig)
    (tip : Option TIPDirective) :
    (passing estimate cfg tip).reason ≠ .projectedExceedsContextWindowPercent := by
  unfold passing
  split
  · nofun
  · split <;> nofun

/-- The bands in the order in which they decide. -/
theorem decide_cases (estimate : RiskEstimate) (cfg : SpendGuardConfig) (tip : Option TIPDirective)
    (running : ℚ)
    (context : Option Int) (contextApproved requestApproved : Bool) :
    let verdict := decide estimate cfg tip running context contextApproved requestApproved
    (verdict.decision = .hardBlock ∧ hardBand estimate cfg context = some verdict) ∨
    (hardBand estimate cfg context = none ∧ verdict.decision = .block ∧
      (verdict.reason = .projectedExceedsContextWindowPercent →
        contextScope tip = false ∧ contextApproved = false ∧ verdict.requiresApproval = true)) ∨
    (hardBand estimate cfg context = none ∧ tipBand estimate tip = none ∧
        verdict = passing estimate cfg tip) := by
  simp only [decide]
  cases hard : hardBand estimate cfg context with
  | some verdict => exact .inl ⟨hardBand_decision hard, rfl⟩
  | none =>
    right
    cases session : sessionBand estimate cfg running with
    | some verdict =>
      have found := sessionBand_decision session
      exact .inl ⟨rfl, found.1, fun same => by simp [found.2] at same⟩
    | none =>
      cases ceiling : tipBand estimate tip with
      | some verdict =>
        have found := tipBand_decision ceiling
        exact .inl ⟨rfl, found.1, fun same => by simp [found.2] at same⟩
      | none =>
        cases soft : softBand estimate cfg context (contextScope tip || contextApproved)
            (requestApproved || tipReleasesSoftBands tip) with
        | some verdict =>
          have found := softBand_decision soft
          refine .inl ⟨rfl, found.1, fun same => ?_⟩
          have unapproved := Bool.or_eq_false_iff.mp (found.2 same).1
          exact ⟨unapproved.1, unapproved.2, (found.2 same).2⟩
        | none => exact .inr ⟨rfl, rfl, rfl⟩

/-- The hard bands read the estimate, the configuration and the window only. -/
theorem decide_hardBlock_iff :
    (decide estimate cfg tip running context contextApproved requestApproved).decision =
    .hardBlock ↔
    (hardBand estimate cfg context).isSome := by
  obtain ⟨hard, found⟩ | ⟨clear, soft, _⟩ | ⟨clear, _, same⟩ :=
    decide_cases estimate cfg tip running context contextApproved requestApproved
  · simp [hard, found]
  · simp [clear, soft]
  · obtain allowed | warned := passing_passes estimate cfg tip
    · simp [clear, same, allowed]
    · simp [clear, same, warned]

theorem passes_not_hard (passes : Passes (decide estimate cfg tip running context contextApproved requestApproved)) :
    hardBand estimate cfg context = none := by
  have soft : ¬(decide estimate cfg tip running context contextApproved requestApproved).decision =
      .hardBlock := by
    obtain allowed | warned := passes
    · simp [allowed]
    · simp [warned]
  simpa [decide_hardBlock_iff] using soft

theorem passes_withinCeiling (passes : Passes (decide estimate cfg tip running context contextApproved requestApproved))
    (directed : contextScope tip = true) : ∀ directive ∈ tip, withinCeiling estimate directive := by
  obtain ⟨hard, _⟩ | ⟨_, soft, _⟩ | ⟨_, ceiling, _⟩ :=
    decide_cases estimate cfg tip running context contextApproved requestApproved
  · simp [Passes, hard] at passes
  · simp [Passes, soft] at passes
  · simp only [tipBand, directed, true_and] at ceiling
    split at ceiling
    · cases ceiling
    next within => exact not_not.mp within

theorem contextPercent_unapproved
    (reason : (decide estimate cfg tip running context contextApproved requestApproved).reason =
      .projectedExceedsContextWindowPercent)
    (soft : hardBand estimate cfg context = none) : contextScope tip = false ∧ contextApproved = false ∧
      (decide estimate cfg tip running context contextApproved requestApproved).requiresApproval = true := by
  obtain ⟨_, found⟩ | ⟨_, _, unapproved⟩ | ⟨_, _, same⟩ :=
    decide_cases estimate cfg tip running context contextApproved requestApproved
  · simp [soft] at found
  · exact unapproved reason
  · exact absurd (same ▸ reason) (passing_reason estimate cfg tip)

theorem persistent_contextScope {directive : TIPDirective} (persistent : directive.persistent = true) :
    contextScope (some directive) = true := by
  have authorized : directive.allowScope.isSome = true := by
    simp only [TIPDirective.persistent, Bool.or_eq_true, decide_eq_true_eq] at persistent
    obtain stored | stored := persistent <;> simp [stored]
  simp [contextScope, authorized]

end TokenPak.SpendGuard.Policy

/-! The order of verdicts. The bands stand from the strictest to the mildest, and what catches an
estimate catches every larger one; an approval releases only blocks that ask for approval. -/

namespace TokenPak.SpendGuard

/-- How strict a verdict is: allow, warn, a block that can be approved, one that cannot, a hard block. -/
def PreflightDecision.severity (decision : PreflightDecision) : Nat :=
  match decision.decision, decision.requiresApproval with
  | .allow, _ => 0
  | .warn, _ => 1
  | .block, true => 2
  | .block, false => 3
  | .hardBlock, _ => 4

namespace Policy

variable {estimate small large : RiskEstimate} {cfg : SpendGuardConfig} {tip : Option TIPDirective}
  {running : ℚ}
  {context : Option Int} {contextApproved requestApproved : Bool} {decision : PreflightDecision}

section Bands

theorem isSome_three {Value : Type} {context cost tokens : Prop} [Decidable context] [Decidable cost]
    [Decidable tokens] {first second third : Value} :
    (if context then some first else if cost then some second else if tokens then some third
      else none).isSome = true ↔ context ∨ cost ∨ tokens := by
  split
  next stopped => exact iff_of_true rfl (.inl stopped)
  next open_context =>
    split
    next stopped => exact iff_of_true rfl (.inr (.inl stopped))
    next open_cost => split <;> simp [*]

theorem hardBand_isSome : (hardBand estimate cfg context).isSome = true ↔
    (∃ limit ∈ percentTokens cfg.hardStopContextWindowPercent context,
      limit ≤ estimate.projectedInputTokens) ∨
    (cfg.hardBlockCostUsd > 0 ∧ estimate.projectedCostUsd ≥ cfg.hardBlockCostUsd) ∨
    (percentTokens cfg.hardStopContextWindowPercent context = none ∧ cfg.hardBlockTokens > 0 ∧
      estimate.projectedTokens ≥ cfg.hardBlockTokens) := by
  simp only [hardBand]
  exact isSome_three

theorem sessionBand_isSome : (sessionBand estimate cfg running).isSome = true ↔
    cfg.sessionBlockCostUsd > 0 ∧ running + estimate.projectedCostUsd ≥ cfg.sessionBlockCostUsd := by
  simp only [sessionBand]
  split
  next stopped => simp [stopped]
  next passed => simp [passed]

theorem tipBand_isSome : (tipBand estimate tip).isSome = true ↔
    contextScope tip = true ∧ ¬∀ directive ∈ tip, withinCeiling estimate directive := by
  simp only [tipBand]
  split
  next stopped => simpa using stopped
  next passed => simpa using passed

theorem softBand_isSome : (softBand estimate cfg context contextApproved requestApproved).isSome = true ↔
    ((∃ limit ∈ percentTokens cfg.defaultContextWindowPercent context,
      limit ≤ estimate.projectedInputTokens) ∧
      (contextApproved || requestApproved) = false) ∨
    (cfg.blockCostUsd > 0 ∧ estimate.projectedCostUsd ≥ cfg.blockCostUsd ∧ requestApproved = false) ∨
    (percentTokens cfg.defaultContextWindowPercent context = none ∧
      estimate.projectedTokens ≥ ((deriveBlockThreshold context defaultBlockRatio (some cfg.blockTokens)).map
        (min · cfg.hardBlockTokens)).getD cfg.hardBlockTokens ∧ requestApproved = false) := by
  simp only [softBand]
  exact isSome_three

theorem hardBand_severity (found : hardBand estimate cfg context = some decision) :
    decision.severity = 4 := by
  simp [PreflightDecision.severity, hardBand_decision found]

theorem sessionBand_severity (found : sessionBand estimate cfg running = some decision) :
    decision.severity = 3 := by
  simp only [sessionBand] at found
  split at found
  · cases found
    rfl
  · cases found

theorem tipBand_severity (found : tipBand estimate tip = some decision) : decision.severity = 2 := by
  simp only [tipBand] at found
  split at found
  · cases found
    rfl
  · cases found

theorem softBand_severity (found : softBand estimate cfg context contextApproved requestApproved =
    some decision) :
    decision.severity = 2 := by
  simp only [softBand] at found
  split at found
  · cases found
    rfl
  · split at found
    · cases found
      rfl
    · split at found
      · cases found
        rfl
      · cases found

theorem passing_severity : (passing estimate cfg tip).severity =
    if contextScope tip = false ∧ ((cfg.warnCostUsd > 0 ∧ estimate.projectedCostUsd ≥ cfg.warnCostUsd) ∨
      estimate.projectedTokens ≥ cfg.warnTokens) then 1 else 0 := by
  unfold passing
  cases directed : contextScope tip with
  | true => simp [PreflightDecision.severity]
  | false =>
    simp only [Bool.false_eq_true, if_false, true_and]
    split
    · rfl
    · rfl

end Bands

theorem decide_severity : (decide estimate cfg tip running context contextApproved requestApproved).severity =
    if (hardBand estimate cfg context).isSome then 4
    else if (sessionBand estimate cfg running).isSome then 3
    else if (tipBand estimate tip).isSome ∨
      (softBand estimate cfg context (contextScope tip || contextApproved)
      (requestApproved || tipReleasesSoftBands tip)).isSome then 2
    else (passing estimate cfg tip).severity := by
  simp only [decide]
  cases hard : hardBand estimate cfg context with
  | some verdict => exact hardBand_severity hard
  | none =>
    cases session : sessionBand estimate cfg running with
    | some verdict => exact sessionBand_severity session
    | none =>
      cases ceiling : tipBand estimate tip with
      | some verdict => simpa using tipBand_severity ceiling
      | none =>
        cases soft : softBand estimate cfg context (contextScope tip || contextApproved)
            (requestApproved || tipReleasesSoftBands tip) with
        | some verdict => simpa using softBand_severity soft
        | none => simp

theorem hardBand_reason (found : hardBand estimate cfg context = some decision) :
    decision.reason ≠ .sessionCumulativeCostExceeded := by
  simp only [hardBand] at found
  split at found
  · cases found
    intro same
    cases same
  · split at found
    · cases found
      intro same
      cases same
    · split at found
      · cases found
        intro same
        cases same
      · cases found

theorem softBand_reason (found : softBand estimate cfg context contextApproved requestApproved =
    some decision) :
    decision.reason ≠ .sessionCumulativeCostExceeded := by
  simp only [softBand] at found
  split at found
  · cases found
    intro same
    cases same
  · split at found
    · cases found
      intro same
      cases same
    · split at found
      · cases found
        intro same
        cases same
      · cases found

theorem passing_session : (passing estimate cfg tip).reason ≠ .sessionCumulativeCostExceeded := by
  unfold passing
  split
  · nofun
  · split
    · nofun
    · nofun

theorem decide_session_iff :
    (decide estimate cfg tip running context contextApproved requestApproved).reason =
      .sessionCumulativeCostExceeded ↔
    hardBand estimate cfg context = none ∧ (sessionBand estimate cfg running).isSome = true := by
  simp only [decide]
  cases hard : hardBand estimate cfg context with
  | some verdict => simpa using hardBand_reason hard
  | none =>
    cases session : sessionBand estimate cfg running with
    | some verdict => simpa using (sessionBand_decision session).2
    | none =>
      cases ceiling : tipBand estimate tip with
      | some verdict => simp [(tipBand_decision ceiling).2]
      | none =>
        cases soft : softBand estimate cfg context (contextScope tip || contextApproved)
            (requestApproved || tipReleasesSoftBands tip) with
        | some verdict => simpa using softBand_reason soft
        | none => simpa using passing_session

section Size

/-- Whatever catches an estimate catches a larger one. -/
theorem hardBand_larger (cost : small.projectedCostUsd ≤ large.projectedCostUsd)
    (input : small.projectedInputTokens ≤ large.projectedInputTokens)
    (output : small.projectedOutputTokens ≤ large.projectedOutputTokens)
    (caught : (hardBand small cfg context).isSome = true) : (hardBand large cfg context).isSome = true := by
  have tokens : small.projectedTokens ≤ large.projectedTokens := Int.add_le_add input output
  rw [hardBand_isSome] at caught ⊢
  rcases caught with ⟨limit, known, reached⟩ | ⟨set, reached⟩ | ⟨unknown, set, reached⟩
  · exact .inl ⟨limit, known, le_trans reached input⟩
  · exact .inr (.inl ⟨set, le_trans reached cost⟩)
  · exact .inr (.inr ⟨unknown, set, le_trans reached tokens⟩)

theorem sessionBand_larger (cost : small.projectedCostUsd ≤ large.projectedCostUsd)
    (caught : (sessionBand small cfg running).isSome = true) :
    (sessionBand large cfg running).isSome = true := by
  rw [sessionBand_isSome] at caught ⊢
  exact ⟨caught.1, le_trans caught.2 (by linarith)⟩

theorem withinCeiling_smaller {directive : TIPDirective}
    (cost : small.projectedCostUsd ≤ large.projectedCostUsd)
    (tokens : small.projectedTokens ≤ large.projectedTokens) (within : withinCeiling large directive) :
    withinCeiling small directive :=
  ⟨fun limit set => le_trans cost (within.1 limit set), fun limit set => le_trans tokens (within.2 limit set)⟩

theorem tipBand_larger (cost : small.projectedCostUsd ≤ large.projectedCostUsd)
    (tokens : small.projectedTokens ≤ large.projectedTokens)
    (caught : (tipBand small tip).isSome = true) : (tipBand large tip).isSome = true := by
  rw [tipBand_isSome] at caught ⊢
  refine ⟨caught.1, ?_⟩
  intro within
  exact caught.2 fun directive given => withinCeiling_smaller cost tokens (within directive given)

theorem softBand_larger (cost : small.projectedCostUsd ≤ large.projectedCostUsd)
    (input : small.projectedInputTokens ≤ large.projectedInputTokens)
    (tokens : small.projectedTokens ≤ large.projectedTokens)
    (caught : (softBand small cfg context contextApproved requestApproved).isSome = true) :
    (softBand large cfg context contextApproved requestApproved).isSome = true := by
  rw [softBand_isSome] at caught ⊢
  rcases caught with ⟨⟨limit, known, reached⟩, unapproved⟩ | ⟨set, reached, unapproved⟩
    | ⟨unknown, reached, unapproved⟩
  · exact .inl ⟨⟨limit, known, le_trans reached input⟩, unapproved⟩
  · exact .inr (.inl ⟨set, le_trans reached cost, unapproved⟩)
  · exact .inr (.inr ⟨unknown, le_trans reached tokens, unapproved⟩)

theorem passing_larger (cost : small.projectedCostUsd ≤ large.projectedCostUsd)
    (tokens : small.projectedTokens ≤ large.projectedTokens) :
    (passing small cfg tip).severity ≤ (passing large cfg tip).severity := by
  rw [passing_severity, passing_severity]
  split
  next warned =>
    have still : contextScope tip = false ∧
      ((cfg.warnCostUsd > 0 ∧ large.projectedCostUsd ≥ cfg.warnCostUsd) ∨
        large.projectedTokens ≥ cfg.warnTokens) := by
      refine ⟨warned.1, ?_⟩
      rcases warned.2 with ⟨set, reached⟩ | reached
      · exact .inl ⟨set, le_trans reached cost⟩
      · exact .inr (le_trans reached tokens)
    rw [if_pos still]
  next => exact Nat.zero_le _

end Size

section Cascade

theorem passing_le : (passing estimate cfg tip).severity ≤ 1 := by
  rw [passing_severity]
  split <;> omega

/-- Bands that catch no less, in the same order, give no milder verdict. -/
theorem cascade_le {hard hard' session session' soft soft' : Prop} [Decidable hard]
    [Decidable hard'] [Decidable session]
    [Decidable session'] [Decidable soft] [Decidable soft'] {rest rest' : Nat} (bound : rest ≤ 1)
    (harder : hard → hard') (dearer : session → session') (softer : soft → soft') (milder : rest ≤ rest') :
    (if hard then 4 else if session then 3 else if soft then 2 else rest) ≤
      if hard' then 4 else if session' then 3 else if soft' then 2 else rest' := by
  by_cases caught : hard
  · rw [if_pos caught, if_pos (harder caught)]
  · rw [if_neg caught]
    by_cases spent : session
    · rw [if_pos spent, if_pos (dearer spent)]
      split <;> omega
    · rw [if_neg spent]
      by_cases stopped : soft
      · rw [if_pos stopped, if_pos (softer stopped)]
        split
        · omega
        · split <;> omega
      · rw [if_neg stopped]
        split
        · omega
        · split
          · omega
          · split <;> omega

end Cascade

/-- A larger estimate never gets a milder verdict. -/
theorem decide_monotone (cfg : SpendGuardConfig) (tip : Option TIPDirective) (running : ℚ)
    (context : Option Int)
    (contextApproved requestApproved : Bool) (cost : small.projectedCostUsd ≤ large.projectedCostUsd)
    (input : small.projectedInputTokens ≤ large.projectedInputTokens)
    (output : small.projectedOutputTokens ≤ large.projectedOutputTokens) :
    (decide small cfg tip running context contextApproved requestApproved).severity ≤
      (decide large cfg tip running context contextApproved requestApproved).severity := by
  have tokens : small.projectedTokens ≤ large.projectedTokens := Int.add_le_add input output
  rw [decide_severity, decide_severity]
  apply cascade_le passing_le
  · exact hardBand_larger cost input output
  · exact sessionBand_larger cost
  · intro caught
    rcases caught with ceiling | soft
    · exact .inl (tipBand_larger cost tokens ceiling)
    · exact .inr (softBand_larger cost input tokens soft)
  · exact passing_larger cost tokens

/-- Ten dollars more turn a warning into a hard block. -/
theorem decide_monotone_dearer :
    (decide ⟨"m", 0, 0, 1000, 100, 3,
      0⟩ { hardBlockCostUsd := 10 } none 0 (some 200000) false false).severity = 1 ∧
      (decide ⟨"m", 0, 0, 1000, 100, 13,
        0⟩ { hardBlockCostUsd := 10 } none 0 (some 200000) false false).severity = 4 ∧
      (decide ⟨"m", 0, 0, 1000, 100, 3,
        0⟩ { hardBlockCostUsd := 10 } none 0 (some 200000) false false).severity ≤
        (decide ⟨"m", 0, 0, 1000, 100, 13,
            0⟩ { hardBlockCostUsd := 10 } none 0 (some 200000) false false).severity := by
  refine ⟨by decide +kernel, by decide +kernel, ?_⟩
  exact decide_monotone _ _ _ _ _ _ (by decide +kernel) (by decide +kernel) (by decide +kernel)

section Approvals

theorem softBand_approved {contextMore requestMore : Bool}
    (more : contextApproved = true → contextMore = true)
    (again : requestApproved = true → requestMore = true)
    (caught : (softBand estimate cfg context contextMore requestMore).isSome = true) :
    (softBand estimate cfg context contextApproved requestApproved).isSome = true := by
  have request (unapproved : requestMore = false) : requestApproved = false := by
    cases requestApproved with
    | false => rfl
    | true => exact absurd (again rfl) (by simp [unapproved])
  have both (unapproved : (contextMore || requestMore) = false) : (contextApproved ||
      requestApproved) = false := by
    rw [Bool.or_eq_false_iff] at unapproved ⊢
    refine ⟨?_, request unapproved.2⟩
    cases contextApproved with
    | false => rfl
    | true => exact absurd (more rfl) (by simp [unapproved.1])
  rw [softBand_isSome] at caught ⊢
  rcases caught with ⟨reached, unapproved⟩ | ⟨set, reached, unapproved⟩ | ⟨unknown, reached, unapproved⟩
  · exact .inl ⟨reached, both unapproved⟩
  · exact .inr (.inl ⟨set, reached, request unapproved⟩)
  · exact .inr (.inr ⟨unknown, reached, request unapproved⟩)

/-- Hard blocks and session blocks are the same for all directives and approvals, and an approval that is
turned on makes no verdict stricter. -/
theorem approvals_relax (estimate : RiskEstimate) (cfg : SpendGuardConfig) (running : ℚ)
    (context : Option Int) :
    (∀ tip contextApproved requestApproved other contextOther requestOther,
      ((decide estimate cfg tip running context contextApproved requestApproved).decision = .hardBlock ↔
        (decide estimate cfg other running context contextOther requestOther).decision = .hardBlock) ∧
      ((decide estimate cfg tip running context contextApproved requestApproved).reason =
        .sessionCumulativeCostExceeded ↔
        (decide estimate cfg other running context contextOther requestOther).reason = .sessionCumulativeCostExceeded)) ∧
    ∀ tip contextApproved requestApproved,
      (decide estimate cfg tip running context true requestApproved).severity ≤
        (decide estimate cfg tip running context contextApproved requestApproved).severity ∧
      (decide estimate cfg tip running context contextApproved true).severity ≤
        (decide estimate cfg tip running context contextApproved requestApproved).severity := by
  constructor
  · intro tip contextApproved requestApproved other contextOther requestOther
    constructor
    · rw [decide_hardBlock_iff, decide_hardBlock_iff]
    · rw [decide_session_iff, decide_session_iff]
  · intro tip contextApproved requestApproved
    have relaxed (contextMore requestMore : Bool) (more : contextApproved = true → contextMore = true)
        (again : requestApproved = true → requestMore = true) :
        (decide estimate cfg tip running context contextMore requestMore).severity ≤
          (decide estimate cfg tip running context contextApproved requestApproved).severity := by
      rw [decide_severity, decide_severity]
      apply cascade_le passing_le id id
      · intro caught
        rcases caught with ceiling | soft
        · exact .inl ceiling
        · refine .inr (softBand_approved ?_ ?_ soft)
          · simp only [Bool.or_eq_true]
            exact Or.imp_right more
          · simp only [Bool.or_eq_true]
            exact Or.imp_left again
      · exact le_refl _
    exact ⟨relaxed true requestApproved (fun _ => rfl) id, relaxed contextApproved true id fun _ => rfl⟩

end Approvals
end Policy
end TokenPak.SpendGuard
