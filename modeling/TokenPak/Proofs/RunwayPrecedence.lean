import TokenPak.Proxy.SessionForecast

/-! A known hard stop comes before everything else, and a positive runway is the least distance to a
constraint. Each family of constraints covers its own: it offers a candidate for every active one
that is measured, and no other candidates. -/

namespace TokenPak.Proxy.SessionForecast
open Library SpendGuard
open Core.Contracts (BindingConstraint)

section Distances
variable {limit used burn : ℚ} {turns : Nat}

def ReachedAt (limit used burn : ℚ) (turns : Nat) : Prop :=
  limit ≤ used + turns * burn ∧ ∀ earlier : Nat, earlier < turns → used + earlier * burn < limit

theorem reachedAt_turnsUntil (distance : turnsUntil limit used burn = some turns) :
    ReachedAt limit used burn turns := by
  unfold turnsUntil at distance
  split at distance
  · rename_i reached
    cases distance
    exact ⟨by simpa using reached, by simp⟩
  · rename_i short
    split at distance
    · cases distance
    · rename_i burning
      have rest : 0 < limit - used := by linarith [not_le.mp short]
      have positive : 0 < burn := not_le.mp burning
      have share : 0 < (limit - used) / burn := div_pos rest positive
      have whole : (turns : Int) = ⌈(limit - used) / burn⌉ := by
        rw [← Option.some.inj distance]
        exact Int.toNat_of_nonneg (Int.ceil_nonneg share.le)
      constructor
      · have enough : (limit - used) / burn ≤ (turns : Int) := whole ▸ Int.le_ceil _
        have spent := (div_le_iff₀ positive).mp enough
        push_cast at spent
        linarith
      · intro earlier before
        have below : ((earlier : Int) : ℚ) < (limit - used) / burn := by
          apply Int.lt_ceil.mp
          rw [← whole]
          exact_mod_cast before
        have spent := (lt_div_iff₀ positive).mp below
        push_cast at spent
        linarith

theorem below_of_turnsUntil (endless : turnsUntil limit used burn = none) (turns : Nat) :
    used + turns * burn < limit := by
  unfold turnsUntil at endless
  split at endless
  · cases endless
  · rename_i short
    split at endless
    · rename_i still
      have spent : (turns : ℚ) * burn ≤ 0 := mul_nonpos_of_nonneg_of_nonpos turns.cast_nonneg still
      linarith [not_le.mp short]
    · cases endless

end Distances

section Families

/-- The constraints of a family that are active and measured: a limit, what is used of it, and how
much each turn adds. -/
abbrev Family := ℚ → ℚ → ℚ → Prop

/-- The findings offer a candidate for each constraint of the family, and no candidates besides,
apart from those that bind. -/
structure Covers (found : Findings) (family : Family) : Prop where
  sound : ∀ candidate ∈ found.candidates, candidate.turns ≠ 0 →
    ∃ limit used burn, family limit used burn ∧ turnsUntil limit used burn = some candidate.turns
  complete : (∀ candidate ∈ found.candidates, candidate.turns ≠ 0) → found.unavailable = [] →
    found.learning = [] →
    ∀ limit used burn, family limit used burn → ∀ turns, turnsUntil limit used burn = some turns →
      ∃ candidate ∈ found.candidates, candidate.turns = turns

variable {first second : Findings} {family other : Family}

theorem Covers.join (covers : Covers first family) (also : Covers second other) :
    Covers (first.join second) fun limit used burn => family limit used burn ∨ other limit used burn := by
  constructor
  · intro candidate member positive
    rcases List.mem_append.mp member with early | late
    · obtain ⟨limit, used, burn, active, distance⟩ := covers.sound candidate early positive
      exact ⟨limit, used, burn, .inl active, distance⟩
    · obtain ⟨limit, used, burn, active, distance⟩ := also.sound candidate late positive
      exact ⟨limit, used, burn, .inr active, distance⟩
  · intro positive measured learned limit used burn active turns distance
    have here := List.append_eq_nil_iff.mp measured
    have known := List.append_eq_nil_iff.mp learned
    rcases active with active | active
    · obtain ⟨candidate, member, same⟩ := covers.complete
        (fun candidate member => positive candidate (List.mem_append_left _ member)) here.1 known.1 limit used burn active turns distance
      exact ⟨candidate, List.mem_append_left _ member, same⟩
    · obtain ⟨candidate, member, same⟩ := also.complete
        (fun candidate member => positive candidate (List.mem_append_right _ member)) here.2 known.2 limit used burn active turns distance
      exact ⟨candidate, List.mem_append_right _ member, same⟩

/-- A family that is not measured says so. -/
theorem covers_unmeasured {reason : String} {reasons : List String} (nothing : first.candidates = [])
    (said : first.unavailable = reason :: reasons ∨ first.learning = reason :: reasons) :
    Covers first family := by
  constructor
  · intro candidate member
    rw [nothing] at member
    cases member
  · intro _ measured learned
    rcases said with said | said
    · rw [said] at measured
      cases measured
    · rw [said] at learned
      cases learned

theorem covers_binding {candidate : RunwayCandidate} (only : first.candidates = [candidate])
    (binds : candidate.turns = 0) :
    Covers first family := by
  constructor
  · intro other member positive
    rw [only, List.mem_singleton] at member
    exact absurd (member ▸ binds) positive
  · intro positive
    exact absurd binds (positive candidate (by rw [only]; exact List.mem_singleton_self candidate))

theorem covers_nothing : Covers {} fun _ _ _ => False := by
  constructor
  · intro candidate member
    cases member
  · intro _ _ _ _ _ _ active
    exact active.elim

variable {limit used burn : ℚ} {binding : BindingConstraint} {order : Nat} {hard : Bool}

theorem mem_add {candidate : RunwayCandidate} (member : candidate ∈ add limit used burn binding order hard) :
    turnsUntil limit used burn = some candidate.turns := by
  unfold add at member
  cases distance : turnsUntil limit used burn with
  | none => simp [distance] at member
  | some turns =>
    simp only [distance, Option.map_some, Option.toList_some, List.mem_singleton] at member
    rw [member]

theorem exists_mem_add {turns : Nat} (distance : turnsUntil limit used burn = some turns) :
    ∃ candidate ∈ add limit used burn binding order hard, candidate.turns = turns :=
  ⟨⟨turns, binding, order, hard⟩, by simp [add, distance], rfl⟩

theorem covers_add : Covers { candidates := add limit used burn binding order hard } fun l u b =>
    l = limit ∧ u = used ∧ b = burn := by
  constructor
  · intro candidate member _
    exact ⟨limit, used, burn, ⟨rfl, rfl, rfl⟩, mem_add member⟩
  · intro _ _ _ l u b active turns distance
    obtain ⟨rfl, rfl, rfl⟩ := active
    exact exists_mem_add distance

theorem Covers.congr (covers : Covers first family)
    (same : ∀ limit used burn, family limit used burn ↔ other limit used burn) :
    Covers first other := by
  have equal : family = other := by
    funext limit used burn
    exact propext (same limit used burn)
  exact equal ▸ covers

end Families

section Constraints
variable {config : SpendGuardConfig} {latest : Latest} {window : Int} {turns : List Turn} {asOf : ℚ}
  {costs : Option (List ℚ)}

inductive ContextActive (config : SpendGuardConfig) (latest : Latest) : Option Int → Family where
  | hard {window : Int} {context growth : ℚ} : latest.context = some context → latest.contextGrowth = some growth →
      ContextActive config latest (some window) (hardStopTokens config window) context growth
  | soft {window : Int} {context growth : ℚ} : latest.context = some context → latest.contextGrowth = some growth →
      ContextActive config latest (some window) (softBlockTokens config window) context growth
  | hardTokens {tokens growth : ℚ} : latest.tokens = some tokens → latest.tokenGrowth = some growth → config.hardBlockTokens > 0 →
      ContextActive config latest none config.hardBlockTokens tokens growth
  | softTokens {tokens growth : ℚ} : latest.tokens = some tokens → latest.tokenGrowth = some growth → config.blockTokens > 0 →
      ContextActive config latest none config.blockTokens tokens growth

/-- The constraint on what the session costs within its window. -/
inductive CostActive (config : SpendGuardConfig) (turns : List Turn) (asOf : ℚ)
    (costs : Option (List ℚ)) (latest : Latest) : Family where
  | session {series : List ℚ} {cost burn : ℚ} : costs = some series → latest.cost = some cost → latest.usdBurn = some burn →
      config.sessionBlockCostUsd > 0 →
      CostActive config turns asOf costs latest config.sessionBlockCostUsd (windowCost config turns series asOf) burn

inductive RollingActive (config : SpendGuardConfig) (agent : String) (latest : Latest)
    (usage : RollingUsage) : Family where
  | cap {counts : String → Option Cell} {spec : RollingSpec} {used burn : ℚ} : config.rollingCapsEnabled = true →
      usage.resolve agent = .ok (.counts counts) → spec ∈ rollingSpecs config latest → spec.cap > 0 →
      (spec.agent = true → agent ≠ "") → rollingValue counts spec.key = .ok used → spec.burn = some burn →
      RollingActive config agent latest usage spec.cap used burn

theorem covers_context (config : SpendGuardConfig) (latest : Latest) (window : Int) :
    Covers (contextFindings config latest window) (ContextActive config latest (some window)) := by
  unfold contextFindings
  split
  · exact covers_unmeasured rfl (.inl rfl)
  · rename_i context measured
    split
    · exact covers_binding rfl rfl
    · split
      · exact covers_binding rfl rfl
      · split
        · exact covers_unmeasured rfl (.inr rfl)
        · rename_i growth growing
          apply (Covers.join covers_add covers_add).congr
          intro limit used burn
          constructor
          · rintro (⟨rfl, rfl, rfl⟩ | ⟨rfl, rfl, rfl⟩)
            · exact .hard measured growing
            · exact .soft measured growing
          · intro active
            cases active with
            | hard here grows =>
              exact .inl ⟨rfl, Option.some.inj (here.symm.trans measured),
                Option.some.inj (grows.symm.trans growing)⟩
            | soft here grows =>
              exact .inr ⟨rfl, Option.some.inj (here.symm.trans measured),
                Option.some.inj (grows.symm.trans growing)⟩

theorem covers_when {active : Prop} [Decidable active] {candidates : List RunwayCandidate} {family : Family}
    (covers : active → Covers { candidates } family) :
    Covers { candidates := if active then candidates else [] } fun limit used burn => active ∧
      family limit used burn := by
  by_cases on : active
  · rw [if_pos on]
    exact (covers on).congr fun _ _ _ => (and_iff_right on).symm
  · rw [if_neg on]
    exact covers_nothing.congr fun _ _ _ => by simp [on]

theorem covers_tokens (config : SpendGuardConfig) (latest : Latest) :
    Covers (tokenFindings config latest) (ContextActive config latest none) := by
  unfold tokenFindings
  split
  · exact covers_unmeasured rfl (.inl rfl)
  · rename_i tokens measured
    split
    · exact covers_binding rfl rfl
    · split
      · exact covers_binding rfl rfl
      · split
        · exact covers_unmeasured rfl (.inr rfl)
        · rename_i growth growing
          apply (Covers.join (covers_when fun _ => covers_add) (covers_when fun _ => covers_add)).congr
          intro limit used burn
          constructor
          · rintro (⟨on, rfl, rfl, rfl⟩ | ⟨on, rfl, rfl, rfl⟩)
            · exact .hardTokens measured growing on
            · exact .softTokens measured growing on
          · intro active
            cases active with
            | hardTokens here grows on =>
              exact .inl ⟨on, rfl, Option.some.inj (here.symm.trans measured),
                Option.some.inj (grows.symm.trans growing)⟩
            | softTokens here grows on =>
              exact .inr ⟨on, rfl, Option.some.inj (here.symm.trans measured),
                Option.some.inj (grows.symm.trans growing)⟩

theorem covers_cost (config : SpendGuardConfig) (turns : List Turn) (asOf : ℚ)
    (costs : Option (List ℚ)) (latest : Latest)
    (measured : ∀ cost, latest.cost = some cost → ∃ series, costs = some series) :
    Covers (costFindings config turns asOf costs latest) (CostActive config turns asOf costs latest) := by
  unfold costFindings
  split
  · rename_i cost usdBurn known burning
    obtain ⟨series, rfl⟩ := measured cost known
    constructor
    · intro candidate member positive
      rcases List.mem_append.mp member with here | session
      · -- the constraints on one request bind now or say nothing
        have binds : candidate.turns = 0 := by
          rcases List.mem_append.mp here with hard | soft
          · split at hard
            · rw [List.mem_singleton.mp hard]
            · cases hard
          · split at soft
            · rw [List.mem_singleton.mp soft]
            · cases soft
        exact absurd binds positive
      · split at session
        · rename_i on
          exact ⟨_, _, _, .session rfl known burning on, mem_add session⟩
        · cases session
    · intro _ _ _ limit used burn active turns distance
      cases active with
      | session same cost burns on =>
        cases same
        cases burns.symm.trans burning
        refine ⟨⟨turns, .budget, 23, false⟩, List.mem_append_right _ ?_, rfl⟩
        simp [on, add, distance]
  · rename_i unknown
    constructor
    · intro candidate member
      cases member
    · intro _ _ _ limit used burn active
      cases active with
      | session _ cost burns _ => exact absurd burns (unknown _ _ cost)

theorem covers_finding {agent : String} {counts : String → Option Cell} {spec : RollingSpec}
    {found : Findings}
    (ok : rollingFinding agent counts spec = .ok found) :
    Covers found fun limit used burn => spec.cap > 0 ∧ (spec.agent = true → agent ≠ "") ∧ limit = spec.cap ∧
      rollingValue counts spec.key = .ok used ∧ spec.burn = some burn := by
  unfold rollingFinding at ok
  split at ok
  · rename_i off
    cases ok
    apply covers_nothing.congr
    intro limit used burn
    constructor
    · exact False.elim
    · intro active
      rcases off with none_there | unattributed
      · exact absurd active.1 (not_lt.mpr none_there)
      · exact active.2.1 unattributed.1 unattributed.2
  · rename_i on
    split at ok
    · cases ok
    · rename_i used measured
      split at ok
      · cases ok
        exact covers_binding rfl rfl
      · split at ok
        · cases ok
          exact covers_unmeasured rfl (.inl rfl)
        · rename_i burn burning
          cases ok
          apply covers_add.congr
          intro limit other growth
          rw [measured, burning]
          constructor
          · rintro ⟨rfl, rfl, rfl⟩
            refine ⟨not_le.mp fun off => on (.inl off), fun attributed missing =>
              on (.inr ⟨attributed, missing⟩), rfl, rfl, rfl⟩
          · rintro ⟨_, _, rfl, same, grows⟩
            exact ⟨rfl, (Except.ok.inj same).symm, (Option.some.inj grows).symm⟩

theorem covers_mapM {agent : String} {counts : String → Option Cell} {specs : List RollingSpec}
    {founds : List Findings}
    (ok : specs.mapM (rollingFinding agent counts) = .ok founds) {first : Findings}
    {family : Family} (covers : Covers first family) :
    Covers (founds.foldl Findings.join first) fun limit used burn => family limit used burn ∨
      ∃ spec ∈ specs, spec.cap > 0 ∧
      (spec.agent = true → agent ≠ "") ∧ limit = spec.cap ∧
          rollingValue counts spec.key = .ok used ∧ spec.burn = some burn := by
  induction specs generalizing founds first family with
  | nil =>
    cases ok
    exact covers.congr fun _ _ _ => by simp
  | cons spec specs ih =>
    rw [List.mapM_cons] at ok
    cases here : rollingFinding agent counts spec with
    | error runway =>
      rw [here] at ok
      cases ok
    | ok found =>
      cases later : specs.mapM (rollingFinding agent counts) with
      | error runway =>
        rw [here, later] at ok
        cases ok
      | ok rest =>
        rw [here, later] at ok
        cases ok
        apply (ih later (covers.join (covers_finding here))).congr
        intro limit used burn
        simp only [List.mem_cons, exists_eq_or_imp, or_assoc]

theorem covers_rolling {agent : String} {usage : RollingUsage} {rolling : Findings}
    (ok : rollingFindings config agent latest usage = .ok rolling) :
    Covers rolling (RollingActive config agent latest usage) := by
  simp only [rollingFindings] at ok
  split at ok
  · rename_i enabled
    have unattributed : Covers
        (if (((rollingSpecs config latest).filter fun spec => spec.cap > 0).any RollingSpec.agent) =
            true ∧ agent = "" then
          { unavailable := ["active per-agent rolling cap lacks one stable agent attribution"] } else {}) fun _ _ _ => False := by
      split
      · exact covers_unmeasured rfl (.inl rfl)
      · exact covers_nothing
    split at ok
    · cases resolved : usage.resolve agent with
      | error runway =>
        rw [resolved] at ok
        cases ok
      | ok counted =>
        rw [resolved] at ok
        cases counted with
        | unmeasurable => cases ok
        | invalid => cases ok
        | counts counts =>
          cases found : (rollingSpecs config latest).mapM (rollingFinding agent counts) with
          | error runway =>
            simp only [bind, Except.bind, found] at ok
            cases ok
          | ok founds =>
            simp only [bind, Except.bind, found] at ok
            cases ok
            apply (covers_mapM found unattributed).congr
            intro limit used burn
            constructor
            · rintro (nothing | ⟨spec, member, on, attributed, rfl, measured, burning⟩)
              · exact nothing.elim
              · exact .cap enabled resolved member on attributed measured burning
            · intro active
              cases active with
              | cap _ same member on attributed measured burning =>
                cases same.symm.trans resolved
                exact .inr ⟨_, member, on, attributed, rfl, measured, burning⟩
    · rename_i unneeded
      cases ok
      apply unattributed.congr
      intro limit used burn
      constructor
      · exact False.elim
      · intro active
        cases active with
        | @cap counts spec _ _ _ _ member on attributed _ _ =>
          apply unneeded
          have inside : spec ∈ (rollingSpecs config latest).filter fun spec => spec.cap > 0 :=
            List.mem_filter.mpr ⟨member, decide_eq_true on⟩
          cases role : spec.agent with
          | true => exact .inr ⟨List.any_eq_true.mpr ⟨spec, inside, role⟩, attributed role⟩
          | false => exact .inl (List.any_eq_true.mpr ⟨spec, inside, by simp [role]⟩)
  · rename_i off
    cases ok
    apply covers_nothing.congr
    intro limit used burn
    constructor
    · exact False.elim
    · intro active
      cases active with
      | cap enabled _ _ _ _ _ _ => exact off enabled

end Constraints

section Verdicts
variable {before : RunwayCandidate → RunwayCandidate → Bool} {candidates : List RunwayCandidate}
  {winner : RunwayCandidate}

theorem firstOf_eq_none : firstOf before candidates = none ↔ candidates = [] := by
  cases candidates with
  | nil => simp [firstOf]
  | cons candidate rest =>
    unfold firstOf
    split <;> simp

theorem mem_firstOf (first : firstOf before candidates = some winner) : winner ∈ candidates := by
  induction candidates generalizing winner with
  | nil => cases first
  | cons candidate rest ih =>
    unfold firstOf at first
    split at first
    · cases first
      exact List.mem_cons_self
    · rename_i other later
      split at first
      · cases first
        exact List.mem_cons_of_mem _ (ih later)
      · cases first
        exact List.mem_cons_self

theorem firstOf_sooner_le (first : firstOf RunwayCandidate.sooner candidates = some winner) :
    ∀ candidate ∈ candidates, winner.turns ≤ candidate.turns := by
  induction candidates generalizing winner with
  | nil => cases first
  | cons head rest ih =>
    intro candidate member
    unfold firstOf at first
    split at first
    · rename_i empty
      cases first
      rw [firstOf_eq_none.mp empty, List.mem_singleton] at member
      rw [member]
    · rename_i other later
      have least := ih later
      by_cases sooner : other.sooner head = true
      · rw [if_pos sooner] at first
        cases first
        rcases List.mem_cons.mp member with rfl | inside
        · have order : winner.turns < candidate.turns ∨ winner.turns = candidate.turns ∧
              winner.order < candidate.order := by
            simpa [RunwayCandidate.sooner] using sooner
          omega
        · exact least candidate inside
      · rw [if_neg sooner] at first
        cases first
        have order : ¬ (other.turns < head.turns ∨ other.turns = head.turns ∧ other.order < head.order) := by
          simpa [RunwayCandidate.sooner] using sooner
        rcases List.mem_cons.mp member with rfl | inside
        · exact Nat.le_refl _
        · have far := least candidate inside
          omega

variable {config : SpendGuardConfig} {latest : Latest} {found : Findings} {turns : Nat}

theorem concludeRunway_positive (reported : (concludeRunway config latest found).turns = some turns)
    (positive : 0 < turns) :
    found.unavailable = [] ∧ found.learning = [] ∧ (∀ candidate ∈ found.candidates, candidate.turns ≠ 0) ∧
      (∃ candidate ∈ found.candidates, candidate.turns = turns) ∧ ∀ candidate ∈ found.candidates,
          turns ≤ candidate.turns := by
  unfold concludeRunway at reported
  split at reported
  · cases reported
  · rename_i measured
    split at reported
    · cases reported
      omega
    · rename_i free
      split at reported
      · cases reported
      · rename_i learned
        split at reported
        · cases reported
        · rename_i winner first
          cases Option.some.inj reported
          refine ⟨not_not.mp measured, not_not.mp learned, ?_, ⟨winner, mem_firstOf first, rfl⟩,
            firstOf_sooner_le first⟩
          intro candidate member binds
          have nothing := firstOf_eq_none.mp free
          rw [List.filter_eq_nil_iff] at nothing
          exact nothing candidate member (decide_eq_true binds)

/-- What is found of the constraints gives the least distance to one of them. -/
theorem Covers.least {family : Family} (covers : Covers found family)
    (reported : (concludeRunway config latest found).turns = some turns)
    (positive : 0 < turns) : (∃ limit used burn, family limit used burn ∧ ReachedAt limit used burn turns) ∧
      ∀ limit used burn, family limit used burn → ∀ earlier : Nat, earlier < turns →
          used + earlier * burn < limit := by
  obtain ⟨measured, learned, free, ⟨candidate, member, same⟩, least⟩ :=
    concludeRunway_positive reported positive
  constructor
  · obtain ⟨limit, used, burn, active, distance⟩ := covers.sound candidate member (free candidate member)
    exact ⟨limit, used, burn, active, reachedAt_turnsUntil (same ▸ distance)⟩
  · intro limit used burn active earlier before
    cases distance : turnsUntil limit used burn with
    | none => exact below_of_turnsUntil distance earlier
    | some far =>
      obtain ⟨other, there, equal⟩ :=
        covers.complete free measured learned limit used burn active far distance
      have bound := least other there
      exact (reachedAt_turnsUntil distance).2 earlier (by omega)

end Verdicts

section Precedence
variable {env : Environment} {turns : List Turn} {asOf : ℚ} {rateProvenance : Option RateProvenance}
  {config : SpendGuardConfig}
variable {usage : RollingUsage}

def latestMeasured (env : Environment) (turns : List Turn) (asOf : ℚ)
    (rateProvenance : Option RateProvenance) : Latest :=
  let cost := costValue env turns asOf rateProvenance
  let measured := stateValues env turns cost.1 cost.2
  latestOf measured.1 measured.2 cost.2

def CountsReach (env : Environment) (turns : List Turn) (input output : Int) : Prop :=
  ∃ counts, turns.mapM (normalizedCounts env) = some counts ∧ counts.getLast? = some (input, output)

/-- A hard stop that is known: by the context, by the tokens without a window, or by the cost of a
turn that has one before it. -/
inductive HardStopKnown (env : Environment) (turns : List Turn) (asOf : ℚ)
    (rateProvenance : Option RateProvenance)
    (config : SpendGuardConfig) : Prop where
  | context {window input output : Int} : windowOf env turns = some window → CountsReach env turns input output →
      hardStopTokens config window ≤ input → HardStopKnown env turns asOf rateProvenance config
  | tokens {input output : Int} : windowOf env turns = none → CountsReach env turns input output →
      0 < config.hardBlockTokens → config.hardBlockTokens ≤ input + output →
        HardStopKnown env turns asOf rateProvenance config
  | cost {costs : List ℚ} {cost : ℚ} : 2 ≤ turns.length → (costValue env turns asOf rateProvenance).2 = some costs →
      costs.getLast? = some cost → 0 < config.hardBlockCostUsd → config.hardBlockCostUsd ≤ cost →
      HardStopKnown env turns asOf rateProvenance config

def Active (env : Environment) (turns : List Turn) (asOf : ℚ)
    (rateProvenance : Option RateProvenance) (config : SpendGuardConfig)
    (usage : RollingUsage) : Family := fun limit used burn =>
  let latest := latestMeasured env turns asOf rateProvenance
  ContextActive config latest (windowOf env turns) limit used burn ∨
    CostActive config turns asOf (costValue env turns asOf rateProvenance).2 latest limit used burn ∨
    RollingActive config (agentOf turns) latest usage limit used burn

variable (asOf rateProvenance) in
theorem mem_latest_counts {input output : Int} (reach : CountsReach env turns input output) :
    (latestMeasured env turns asOf rateProvenance).context = some (input : ℚ) ∧
      (latestMeasured env turns asOf rateProvenance).tokens = some ((input + output : Int) : ℚ) := by
  obtain ⟨counts, measured, last⟩ := reach
  have some_turns : turns ≠ [] := by
    rintro rfl
    cases measured
    cases last
  simp [latestMeasured, latestOf, stateValues, some_turns, measured, last]

theorem state_of_costs {costs : List ℚ} (known : (costValue env turns asOf rateProvenance).2 = some costs) :
    (costValue env turns asOf rateProvenance).1.state = .observed ∨
      (costValue env turns asOf rateProvenance).1.state = .estimated := by
  revert known
  simp only [costValue]
  split
  · simp
  · split
    · simp
    · split
      · simp
      · split
        · simp
        · split
          · simp
          · split
            · split
              · simp
              · simp
            · simp

theorem ewma_ne_none {values : List ℚ} (some_values : values ≠ []) : ∃ mean, ewma values = some mean := by
  cases values with
  | nil => exact absurd rfl some_values
  | cons first rest => exact ⟨_, rfl⟩

theorem usdBurn_of_costs {costs : List ℚ} {cost : ℚ} (two : 2 ≤ turns.length)
    (known : (costValue env turns asOf rateProvenance).2 = some costs) (last : costs.getLast? = some cost) :
    ∃ burn, (latestMeasured env turns asOf rateProvenance).usdBurn = some burn := by
  have some_costs : costs ≠ [] := by
    rintro rfl
    cases last
  obtain ⟨mean, mean_eq⟩ := ewma_ne_none some_costs
  have burned : (stateValues env turns (costValue env turns asOf rateProvenance).1 (some costs)).1.burnUsdPerTurn =
      burnUsd turns (costValue env turns asOf rateProvenance).1 (some costs) := by
    have some_turns : turns ≠ [] := by
      rintro rfl
      cases two
    rw [stateValues, if_neg some_turns]
    split <;> rfl
  have few : ¬ turns.length < 2 := by omega
  refine ⟨mean, ?_⟩
  have carried := state_of_costs known
  simp only [latestMeasured, latestOf, known, burned, burnUsd, if_neg few, mean_eq, if_pos carried]

theorem rollingFinding_error {agent : String} {counts : String → Option Cell} {spec : RollingSpec}
    {runway : Runway}
    (failed : rollingFinding agent counts spec = .error runway) : runway.turns = none := by
  unfold rollingFinding at failed
  split at failed
  · cases failed
  · split at failed
    · cases failed
      rfl
    · split at failed
      · cases failed
      · split at failed <;> cases failed

theorem mapM_rollingFinding_error {agent : String} {counts : String → Option Cell}
    {specs : List RollingSpec} {runway : Runway}
    (failed : specs.mapM (rollingFinding agent counts) = .error runway) : runway.turns = none := by
  induction specs with
  | nil => cases failed
  | cons spec specs ih =>
    rw [List.mapM_cons] at failed
    cases here : rollingFinding agent counts spec with
    | error first =>
      rw [here] at failed
      cases failed
      exact rollingFinding_error here
    | ok found =>
      cases later : specs.mapM (rollingFinding agent counts) with
      | error other =>
        rw [here, later] at failed
        cases failed
        exact ih later
      | ok rest =>
        rw [here, later] at failed
        cases failed

theorem rollingFindings_error {agent : String} {latest : Latest} {runway : Runway}
    (failed : rollingFindings config agent latest usage = .error runway) : runway.turns = none := by
  simp only [rollingFindings] at failed
  split at failed
  · split at failed
    · cases resolved : usage.resolve agent with
      | error other =>
        rw [resolved] at failed
        cases failed
        cases usage with
        | given usage => cases resolved
        | auto compute =>
          simp only [RollingUsage.resolve] at resolved
          split at resolved
          · cases resolved
          · cases resolved
            rfl
      | ok counted =>
        rw [resolved] at failed
        cases counted with
        | unmeasurable =>
          cases failed
          rfl
        | invalid =>
          cases failed
          rfl
        | counts counts =>
          cases found : (rollingSpecs config latest).mapM (rollingFinding agent counts) with
          | error other =>
            simp only [bind, Except.bind, found] at failed
            cases failed
            exact mapM_rollingFinding_error found
          | ok founds =>
            simp only [bind, Except.bind, found] at failed
            cases failed
    · cases failed
  · cases failed

theorem exists_hard_candidate (known : HardStopKnown env turns asOf rateProvenance config) :
    ∃ candidate ∈ (currentFindings env config turns asOf (costValue env turns asOf rateProvenance).2
      (latestMeasured env turns asOf rateProvenance)).candidates, candidate.hardStop = true ∧ candidate.turns = 0 := by
  cases known with
  | context window reach passes =>
    have context := (mem_latest_counts asOf rateProvenance reach).1
    refine ⟨⟨0, .contextHard, 0, true⟩, List.mem_append_left _ ?_, rfl, rfl⟩
    simp [window, contextFindings, context, passes]
  | tokens window reach on passes =>
    have tokens := (mem_latest_counts asOf rateProvenance reach).2
    have exceeds : (config.hardBlockTokens : ℚ) ≤ ((_ + _ : Int) : ℚ) := Int.cast_le.mpr passes
    refine ⟨⟨0, .contextHard, 1, true⟩, List.mem_append_left _ ?_, rfl, rfl⟩
    simp only [window, tokenFindings, tokens]
    rw [if_pos ⟨exceeds, on⟩]
    exact List.mem_singleton_self _
  | @cost costs cost two known last on passes =>
    obtain ⟨burn, burning⟩ := usdBurn_of_costs two known last
    have latest : (latestMeasured env turns asOf rateProvenance).cost = some cost := by
      simp [latestMeasured, latestOf, known, last]
    refine ⟨⟨0, .budget, 2, true⟩, List.mem_append_right _ ?_, rfl, rfl⟩
    simp [costFindings, latest, burning, on, passes]

theorem ne_nil_of_known (known : HardStopKnown env turns asOf rateProvenance config) : turns ≠ [] := by
  rintro rfl
  cases known with
  | context _ reach _ =>
    obtain ⟨counts, measured, last⟩ := reach
    cases measured
    cases last
  | tokens _ reach _ _ =>
    obtain ⟨counts, measured, last⟩ := reach
    cases measured
    cases last
  | cost two _ _ _ _ => cases two

theorem resolveRunway_hard {state : SessionState} {costSeries : Option (List ℚ)} {series : Series}
    (some_turns : turns ≠ [])
    (enabled : config.enabled = true) {candidate : RunwayCandidate}
    (member : candidate ∈ (currentFindings env config turns asOf costSeries (latestOf state series costSeries)).candidates)
    (hard : candidate.hardStop = true) (binds : candidate.turns = 0) :
    ∃ binding reason,
      resolveRunway env turns state costSeries series asOf config usage = ⟨.available, some 0,
      binding, .hardStop, reason⟩ := by
  unfold resolveRunway
  rw [if_neg some_turns, if_neg (by simp [enabled])]
  simp only
  split
  · exact ⟨_, _, rfl⟩
  · rename_i nothing
    have empty := firstOf_eq_none.mp nothing
    rw [List.filter_eq_nil_iff] at empty
    exact absurd (decide_eq_true ⟨hard, binds⟩) (empty candidate member)

theorem latest_cost_series {cost : ℚ}
    (known : (latestMeasured env turns asOf rateProvenance).cost = some cost) :
    ∃ series, (costValue env turns asOf rateProvenance).2 = some series := by
  obtain ⟨series, same, _⟩ := Option.bind_eq_some_iff.mp known
  exact ⟨series, same⟩

theorem covers_current (env : Environment) (turns : List Turn) (asOf : ℚ)
    (rateProvenance : Option RateProvenance) (config : SpendGuardConfig) :
    Covers (currentFindings env config turns asOf (costValue env turns asOf rateProvenance).2 (latestMeasured env turns asOf rateProvenance))
      fun limit used burn => ContextActive config (latestMeasured env turns asOf rateProvenance)
        (windowOf env turns) limit used burn ∨
        CostActive config turns asOf (costValue env turns asOf rateProvenance).2 (latestMeasured env turns asOf rateProvenance)
          limit used burn := by
  apply Covers.join
  · cases windowOf env turns with
    | some window => exact covers_context config _ window
    | none => exact covers_tokens config _
  · exact covers_cost config turns asOf _ _ fun _ known => latest_cost_series known

end Precedence

section Examples

def narrow : Environment where
  lower := id
  inputTokensIncludeCache := fun _ => some true
  modelMaxContext := fun _ => some 200
  catalogProvenance := fun _ _ => ⟨true, .fresh⟩

def turnOf (input : Int) (time : ℚ) : Turn where
  row := {
    model := .text "large"
    estimatedCost := .real 2
    agentId := .text ""
    providerUsageProvider := .text "provider"
    providerInputTokens := .integer input
    providerOutputTokens := .integer 10
    providerCacheReadTokens := .integer 0
    providerCacheCreationTokens := .integer 0
    providerUsageSource := .text "observed"
    costBasis := .text "provider_bill" }
  time := time

def halfWindow : SpendGuardConfig := { defaultContextWindowPercent := 50, rollingCapsEnabled := false }

theorem full_context (config : SpendGuardConfig) (percent : config.hardStopContextWindowPercent = 100) :
    HardStopKnown narrow [turnOf 200 0] 0 none config := by
  apply HardStopKnown.context (rfl : windowOf narrow [turnOf 200 0] = some 200)
    ⟨[(200, 10)], by decide +kernel, rfl⟩
  norm_num [hardStopTokens, percent]

end Examples

end TokenPak.Proxy.SessionForecast
