import TokenPak.Services.MemoryOptimization

/-! Crashes of the optimizer. A receipt says all that a rollback needs: the configuration is the
plan, what was there before, or neither. What others write while a call has looked and not yet
replaced is lost, so a run is watched only as long as that does not happen. -/

namespace TokenPak.Services.MemoryOptimization
open Library

variable {Bytes Hash : Type} {sha256 : Bytes → Hash}

/-- The configuration is one of the two that the receipt knows: what was applied, or what was there before. -/
def Owned (sha256 : Bytes → Hash) (receipt : Receipt Bytes Hash) (config : Option Bytes) : Prop :=
  ∃ before plan, receipt = preimageReceipt sha256 before plan ∧ (config = some plan ∨ config = before)

section Receipts
variable [DecidableEq Hash]

theorem load_preimageReceipt (before : Option Bytes) (plan : Bytes) :
    loadReceipt sha256 (preimageReceipt sha256 before plan) = some (preimageReceipt sha256 before plan) := by
  cases before with
  | none => rfl
  | some before => simp [loadReceipt, preimageReceipt]

/-- The hashes of a receipt tell the three cases apart. -/
theorem classify_preimageReceipt [DecidableEq Bytes] (inj : Function.Injective sha256)
    (config before : Option Bytes) (plan : Bytes) :
    classifyReceiptState sha256 config (preimageReceipt sha256 before plan) =
      if config = some plan then .clean else if config = before then .interruptedApply
          else .externalDrift := by
  have same : config.map sha256 = some (sha256 plan) ↔ config = some plan := by
    constructor
    · intro hashes
      exact Option.map_injective inj hashes
    · intro equal
      rw [equal]
      rfl
  simp only [classifyReceiptState, preimageReceipt, same]
  by_cases applied : config = some plan
  · simp [applied]
  · rw [if_neg applied, if_neg applied]
    cases before with
    | none => cases config <;> simp
    | some before =>
      cases config with
      | none => simp
      | some current => simp [inj.eq_iff]

end Receipts

theorem preimageReceipt_inj (inj : Function.Injective sha256) {before other : Option Bytes}
    {plan applied : Bytes}
    (same : preimageReceipt sha256 before plan = preimageReceipt sha256 other applied) :
    before = other ∧ plan = applied := by
  refine ⟨?_, inj (congrArg Receipt.appliedSha256 same)⟩
  have kept := congrArg Receipt.preimage same
  cases before with
  | none =>
    cases other with
    | none => rfl
    | some bytes => cases kept
  | some bytes =>
    cases other with
    | none => cases kept
    | some others =>
      injection kept with equal
      rw [equal]

theorem Owned.config (inj : Function.Injective sha256) {before config : Option Bytes} {plan : Bytes}
    (owned : Owned sha256 (preimageReceipt sha256 before plan) config) :
    config = some plan ∨ config = before := by
  obtain ⟨other, applied, same, found⟩ := owned
  obtain ⟨rfl, rfl⟩ := preimageReceipt_inj inj same
  exact found

section Calls
variable [DecidableEq Bytes] [DecidableEq Hash] {validate : Bytes → Option Bool}
variable {files : Files Bytes Hash} {noted : List (Option Bytes × Bytes)}
  {config before : Option Bytes} {plan : Bytes}

def toTheEnd : List (Event Bytes) := List.replicate 6 .proceed

variable (sha256 validate) in
theorem run_toTheEnd (moment : Moment Bytes Hash) : Machine.run (act sha256 validate) moment toTheEnd =
    Machine.run (act sha256 validate) (proceed sha256 validate moment) (List.replicate 5 .proceed) := rfl

theorem idle_stays (last : Option Outcome) (steps : Nat) :
    Machine.run (act sha256 validate) ⟨files, .idle last, noted⟩
    (List.replicate steps .proceed) = ⟨files, .idle last, noted⟩ := by
  induction steps with
  | zero => rfl
  | succ steps ih => exact ih

variable (sha256 validate) in
theorem retire_ends (files : Files Bytes Hash) (noted : List (Option Bytes × Bytes)) (force : Bool)
    (state : ReceiptState)
    (receipt : Receipt Bytes Hash) (steps : Nat) :
    ∃ last, Machine.run (act sha256 validate) ⟨files, .retire force state receipt, noted⟩
    (List.replicate (steps + 1) .proceed) =
      ⟨⟨files.config, none⟩, .idle last, noted⟩ :=
  ⟨_, idle_stays _ steps⟩

variable (sha256 validate) in
theorem verify_ends (files : Files Bytes Hash) (noted : List (Option Bytes × Bytes)) (force : Bool)
    (state : ReceiptState)
    (receipt : Receipt Bytes Hash) (hash : Hash) (steps : Nat) :
    ∃ last, Machine.run (act sha256 validate) ⟨files, .verifyRestored force state receipt hash, noted⟩
        (List.replicate (steps + 2) .proceed) =
      ⟨if files.config.map sha256 = some hash then ⟨files.config, none⟩ else files, .idle last, noted⟩ := by
  by_cases verified : files.config.map sha256 = some hash
  · have next : proceed sha256 validate ⟨files, .verifyRestored force state receipt hash, noted⟩ =
        ⟨files, .retire force state receipt, noted⟩ := by
      simp [proceed, verified, Moment.goto]
    obtain ⟨last, ends⟩ := retire_ends sha256 validate files noted force state receipt steps
    refine ⟨last, ?_⟩
    rw [if_pos verified, ← ends, ← next]
    rfl
  · have next : proceed sha256 validate ⟨files, .verifyRestored force state receipt hash, noted⟩ =
        ⟨files, .idle (some .failed), noted⟩ := by
      simp [proceed, verified, Moment.goto, Moment.ends]
    refine ⟨some .failed, ?_⟩
    rw [if_neg verified, ← idle_stays (some .failed) (steps + 1), ← next]
    rfl

variable (sha256 validate) in
theorem restore_ends (files : Files Bytes Hash) (noted : List (Option Bytes × Bytes))
    (before : Option Bytes) (plan : Bytes)
    (force : Bool) (state : ReceiptState) (steps : Nat) :
    ∃ last, Machine.run (act sha256 validate)
    ⟨files, .restore force state (preimageReceipt sha256 before plan), noted⟩
        (List.replicate (steps + 3) .proceed) = ⟨⟨before, none⟩, .idle last, noted⟩ := by
  cases before with
  | none => exact retire_ends sha256 validate ⟨none, files.preimage⟩ noted force state _ (steps + 1)
  | some before =>
    obtain ⟨last, ends⟩ := verify_ends sha256 validate ⟨some before, files.preimage⟩ noted force state
      (preimageReceipt sha256 (some before) plan) (sha256 before) steps
    rw [if_pos (Option.map_some ..)] at ends
    exact ⟨last, ends⟩

theorem rollback_without_receipt (force : Bool) (last : Option Outcome) :
    (Machine.run (act sha256 validate) ⟨⟨config, none⟩, .idle last,
      noted⟩ (.rollbackPlan force :: toTheEnd)).files =
      ⟨config, none⟩ := rfl

theorem proceed_classify (inj : Function.Injective sha256) (force : Bool) :
    proceed sha256 validate ⟨⟨config, some (preimageReceipt sha256 before plan)⟩, .classify force, noted⟩ =
      ⟨⟨config, some (preimageReceipt sha256 before plan)⟩,
        if config = some plan then .restore force .clean (preimageReceipt sha256 before plan)
        else if config = before then
          if force then .restore force .interruptedApply (preimageReceipt sha256 before plan)
          else .retire force .interruptedApply (preimageReceipt sha256 before plan)
        else if force then .restore force .externalDrift (preimageReceipt sha256 before plan)
        else .idle (some .refused), noted⟩ := by
  have state := classify_preimageReceipt inj config before plan
  by_cases applied : config = some plan
  · rw [if_pos applied] at state
    simp [proceed, load_preimageReceipt, state, if_pos applied, Moment.goto]
  · rw [if_neg applied] at state
    by_cases former : config = before
    · rw [if_pos former] at state
      cases force <;> simp [proceed, load_preimageReceipt, state, if_neg applied, if_pos former, Moment.goto]
    · rw [if_neg former] at state
      cases force <;>
        simp [proceed, load_preimageReceipt, state, if_neg applied, if_neg former, Moment.goto, Moment.ends]

variable (sha256 validate) in
/-- A rollback that is forced, or finds one of the two configurations of the receipt, restores the
former one. -/
theorem classify_ends (noted : List (Option Bytes × Bytes)) (inj : Function.Injective sha256) (force : Bool)
    (owned : force = true ∨ config = some plan ∨ config = before) :
    ∃ last, Machine.run (act sha256 validate)
    ⟨⟨config, some (preimageReceipt sha256 before plan)⟩, .classify force, noted⟩
      toTheEnd = ⟨⟨before, none⟩, .idle last, noted⟩ := by
  have restores (state : ReceiptState) :=
    restore_ends sha256 validate ⟨config, some (preimageReceipt sha256 before plan)⟩ noted
    before plan force state 2
  have retires (state : ReceiptState) :=
    retire_ends sha256 validate ⟨config, some (preimageReceipt sha256 before plan)⟩ noted
    force state (preimageReceipt sha256 before plan) 4
  rw [run_toTheEnd, proceed_classify inj]
  by_cases applied : config = some plan
  · rw [if_pos applied]
    exact restores .clean
  · by_cases former : config = before
    · rw [if_neg applied, if_pos former]
      split
      · exact restores .interruptedApply
      · simpa only [former] using retires .interruptedApply
    · have forced : force = true := by simpa [applied, former] using owned
      rw [if_neg applied, if_neg former, if_pos forced]
      exact restores .externalDrift

theorem rollback_owned (inj : Function.Injective sha256) (force : Bool) (last : Option Outcome)
    (owned : force = true ∨ config = some plan ∨ config = before) :
    (Machine.run (act sha256 validate) ⟨⟨config, some (preimageReceipt sha256 before plan)⟩,
      .idle last, noted⟩
      (.rollbackPlan force :: toTheEnd)).files = ⟨before, none⟩ := by
  obtain ⟨_, ends⟩ := classify_ends sha256 validate noted inj force owned
  exact congrArg Moment.files ends

end Calls

section Runs
variable [DecidableEq Bytes] [DecidableEq Hash] {validate : Bytes → Option Bool} {moment : Moment Bytes Hash}

def Phase.forced : Phase Bytes Hash → Bool
  | .classify force => force
  | .restore force _ _ => force
  | .verifyRestored force _ _ _ => force
  | .retire force _ _ => force
  | _ => false

def Phase.seen : Phase Bytes Hash → Option (Receipt Bytes Hash)
  | .readBefore _ seen => seen
  | .writeReceipt _ _ seen => seen
  | .writeConfig _ _ seen => seen
  | _ => none

/-- What others write while a call has looked at the configuration and not yet done with it is what
the call may as well have found. -/
def Spares (sha256 : Bytes → Hash) (moment : Moment Bytes Hash) : Event Bytes → Prop
  | .overwrite config =>
    match moment.phase with
    | .readBefore plan (some receipt) => Owned sha256 receipt config ∨ config = some plan
    | .writeReceipt _ before _ => config = before
    | .writeConfig plan before _ => config = some plan ∨ config = before
    | .restore false _ receipt => Owned sha256 receipt config
    | .retire _ _ _ => config = moment.files.config
    | _ => True
  | _ => True

def Going (sha256 : Bytes → Hash) (files : Files Bytes Hash) : Phase Bytes Hash → Prop
  | .readBefore plan seen => files.preimage = seen ∧
      ∀ receipt, seen = some receipt → Owned sha256 receipt files.config ∨ files.config = some plan
  | .writeReceipt plan before seen => files.preimage = seen ∧ files.config = before ∧
      ∀ receipt, seen = some receipt → Owned sha256 receipt before ∨ before = some plan
  | .writeConfig plan before seen => files.preimage = some (preimageReceipt sha256 before plan) ∧
      (files.config = some plan ∨ files.config = before) ∧
      ∀ receipt, seen = some receipt → Owned sha256 receipt before ∨ before = some plan
  | .restore force _ receipt =>
      files.preimage = some receipt ∧ (force = false → Owned sha256 receipt files.config)
  | .verifyRestored _ _ receipt hash =>
      files.preimage = some receipt ∧ ∃ bytes, receipt.preimage = .present bytes hash
  | .retire _ _ receipt => files.preimage = some receipt ∧
      ∃ before plan, receipt = preimageReceipt sha256 before plan ∧ files.config = before
  | _ => True

/-- A receipt that is there is the one of the last apply that wrote one. -/
def Noted (sha256 : Bytes → Hash) (moment : Moment Bytes Hash) : Prop :=
  ∀ receipt, moment.files.preimage = some receipt → ∃ earlier before plan,
    moment.noted = earlier ++ [(before, plan)] ∧ receipt = preimageReceipt sha256 before plan

structure Holds (sha256 : Bytes → Hash) (moment : Moment Bytes Hash) : Prop where
  noted : Noted sha256 moment
  going : Going sha256 moment.files moment.phase

omit [DecidableEq Bytes] [DecidableEq Hash] in
theorem Holds.goto (holds : Holds sha256 moment) (phase : Phase Bytes Hash)
    (going : Going sha256 moment.files phase) :
    Holds sha256 (moment.goto phase) := ⟨holds.noted, going⟩

omit [DecidableEq Bytes] [DecidableEq Hash] in
theorem Holds.ends (holds : Holds sha256 moment) (outcome : Outcome) : Holds sha256 (moment.ends outcome) :=
  holds.goto _ trivial

omit [DecidableEq Bytes] [DecidableEq Hash] in
theorem Holds.overwrite (holds : Holds sha256 moment) {config : Option Bytes}
    (spares : Spares sha256 moment (.overwrite config)) :
    Holds sha256 (moment.setConfig config) := by
  obtain ⟨noted, going⟩ := holds
  refine ⟨noted, ?_⟩
  obtain ⟨files, phase, log⟩ := moment
  cases phase with
  | readBefore plan seen =>
    refine ⟨going.1, ?_⟩
    intro receipt there
    subst there
    exact spares
  | writeReceipt plan before seen => exact ⟨going.1, spares, going.2.2⟩
  | writeConfig plan before seen => exact ⟨going.1, spares, going.2.2⟩
  | restore force state receipt =>
    refine ⟨going.1, ?_⟩
    intro unforced
    subst unforced
    exact spares
  | retire force state receipt =>
    obtain ⟨there, before, plan, same, former⟩ := going
    exact ⟨there, before, plan, same, spares.trans former⟩
  | verifyRestored force state receipt hash => exact going
  | _ => trivial

theorem status_owned (inj : Function.Injective sha256) {status : Status} {receipt : Receipt Bytes Hash}
    (noted : Noted sha256 moment) (there : moment.files.preimage = some receipt)
    (found : optimizerStatus sha256 validate moment.files = some status)
    (goes : status ≠ .receipt .externalDrift) : Owned sha256 receipt moment.files.config := by
  obtain ⟨_, before, plan, _, same⟩ := noted receipt there
  obtain ⟨_, _, result⟩ := Option.map_eq_some_iff.mp found
  simp only [there, same, load_preimageReceipt, classify_preimageReceipt inj] at result
  refine ⟨before, plan, same, ?_⟩
  by_cases applied : moment.files.config = some plan
  · exact .inl applied
  · by_cases former : moment.files.config = before
    · exact .inr former
    · rw [if_neg applied, if_neg former] at result
      exact absurd result.symm goes

variable (validate) in
theorem Holds.classified (inj : Function.Injective sha256) {config before : Option Bytes}
    {plan : Bytes} {force : Bool}
    {log : List (Option Bytes × Bytes)}
    (noted : Noted sha256 ⟨⟨config, some (preimageReceipt sha256 before plan)⟩, .classify force, log⟩) :
    Holds sha256 (MemoryOptimization.proceed sha256 validate
      ⟨⟨config, some (preimageReceipt sha256 before plan)⟩, .classify force, log⟩) := by
  rw [proceed_classify inj]
  refine ⟨noted, ?_⟩
  by_cases applied : config = some plan
  · rw [if_pos applied]
    exact ⟨rfl, fun _ => ⟨before, plan, rfl, .inl applied⟩⟩
  · rw [if_neg applied]
    by_cases former : config = before
    · rw [if_pos former]
      cases force with
      | true => exact ⟨rfl, nofun⟩
      | false => exact ⟨rfl, before, plan, rfl, former⟩
    · rw [if_neg former]
      cases force with
      | true => exact ⟨rfl, nofun⟩
      | false => trivial

theorem Holds.proceed (inj : Function.Injective sha256) (holds : Holds sha256 moment) :
    Holds sha256 (proceed sha256 validate moment) := by
  have going := holds.going
  unfold MemoryOptimization.proceed
  cases at_phase : moment.phase with
  | idle last => exact holds
  | compare plan =>
    dsimp only
    split
    · exact holds.ends _
    · exact holds.goto _ trivial
  | inspect plan =>
    have next (status : Status) (found : optimizerStatus sha256 validate moment.files = some status)
        (goes : status ≠ .receipt .externalDrift) :
        Holds sha256 (moment.goto (.readBefore plan moment.files.preimage)) := by
      apply holds.goto
      refine ⟨rfl, ?_⟩
      intro receipt there
      exact .inl (status_owned inj holds.noted there found goes)
    cases found : optimizerStatus sha256 validate moment.files with
    | none => exact holds.ends _
    | some status =>
      cases status with
      | absent => exact next _ found nofun
      | managedWithoutPreimage => exact next _ found nofun
      | corruptConfig => exact holds.ends _
      | corruptPreimage => exact holds.ends _
      | receipt state =>
        cases state with
        | clean => exact next _ found nofun
        | interruptedApply => exact next _ found nofun
        | externalDrift => exact holds.ends _
  | readBefore plan seen =>
    rw [at_phase] at going
    exact holds.goto _ ⟨going.1, rfl, going.2⟩
  | writeReceipt plan before seen =>
    rw [at_phase] at going
    obtain ⟨_, current, owned⟩ := going
    constructor
    · intro receipt there
      cases there
      exact ⟨moment.noted, before, plan, by rw [← current]; rfl, rfl⟩
    · exact ⟨rfl, .inr current, owned⟩
  | writeConfig plan before seen => exact ⟨holds.noted, trivial⟩
  | verifyApplied plan => exact holds.ends _
  | classify force =>
    obtain ⟨⟨config, preimage⟩, phase, log⟩ := moment
    cases at_phase
    cases preimage with
    | none => exact holds.ends _
    | some receipt =>
      obtain ⟨_, before, plan, _, rfl⟩ := holds.noted receipt rfl
      exact Holds.classified validate inj holds.noted
  | restore force state receipt =>
    rw [at_phase] at going
    obtain ⟨earlier, before, plan, logged, same⟩ := holds.noted receipt going.1
    dsimp only
    cases kept : receipt.preimage with
    | absent =>
      refine ⟨holds.noted, going.1, before, plan, same, ?_⟩
      cases before with
      | none => rfl
      | some bytes =>
        rw [same] at kept
        cases kept
    | present bytes hash => exact ⟨holds.noted, going.1, bytes, kept⟩
  | verifyRestored force state receipt hash =>
    rw [at_phase] at going
    obtain ⟨there, bytes, kept⟩ := going
    obtain ⟨earlier, before, plan, logged, same⟩ := holds.noted receipt there
    dsimp only
    split
    next verified =>
      refine holds.goto _ ⟨there, before, plan, same, ?_⟩
      rw [same] at kept
      cases before with
      | none => cases kept
      | some former =>
        cases kept
        exact Option.map_injective inj verified
    next => exact holds.ends _
  | retire force state receipt => exact ⟨nofun, trivial⟩

theorem Holds.act (inj : Function.Injective sha256) (holds : Holds sha256 moment) (event : Event Bytes)
    (spares : Spares sha256 moment event) : Holds sha256 (act sha256 validate moment event) := by
  cases event with
  | applyPlan plan =>
    unfold MemoryOptimization.act
    dsimp only
    split
    · exact holds.goto _ trivial
    · exact holds
  | rollbackPlan force =>
    unfold MemoryOptimization.act
    dsimp only
    split
    · exact holds.goto _ trivial
    · exact holds
  | proceed => exact holds.proceed inj
  | crash => exact holds.goto _ trivial
  | overwrite config => exact holds.overwrite spares

/-- The crash is one behind which a rollback takes up what the call has begun. A forced rollback of
a configuration that is neither of the two is taken up by a forced one. -/
def Resumable (sha256 : Bytes → Hash) (moment : Moment Bytes Hash) (force : Bool) : Prop :=
  match moment.phase with
  | .writeConfig _ _ _ => True
  | .verifyApplied _ => True
  | .classify forced => forced = true → force = true ∨
      ∀ receipt, moment.files.preimage = some receipt → Owned sha256 receipt moment.files.config
  | .restore forced _ _ => forced = true → force = true ∨
      ∀ receipt, moment.files.preimage = some receipt → Owned sha256 receipt moment.files.config
  | .verifyRestored _ _ _ _ => True
  | .retire _ _ _ => True
  | _ => False

/-- An unforced rollback that succeeds leaves what was there when the last apply wrote its receipt.
After a crash a rollback leaves the files as it does after the whole call. Only what the receipt
knows is overwritten, unless by force. -/
structure CrashConsistent (sha256 : Bytes → Hash) (validate : Bytes → Option Bool)
    (moment : Moment Bytes Hash) : Prop where
  restores : ∀ changed, (∀ last, moment.phase ≠ .idle last) → moment.phase.forced = false →
    (act sha256 validate moment .proceed).phase = .idle (some (.rolledBack changed)) →
    ∃ earlier before plan, moment.noted = earlier ++ [(before, plan)] ∧
      (act sha256 validate moment .proceed).files = ⟨before, none⟩
  resumes : ∀ force, Resumable sha256 moment force →
    (Machine.run (act sha256 validate) moment (.crash :: .rollbackPlan force :: toTheEnd)).files =
      (Machine.run (act sha256 validate) moment (toTheEnd ++ .rollbackPlan force :: toTheEnd)).files
  spares : moment.phase.forced = false →
    (act sha256 validate moment .proceed).files.config ≠ moment.files.config →
    ∀ receipt, moment.files.preimage = some receipt ∨ moment.phase.seen = some receipt →
      Owned sha256 receipt moment.files.config

theorem rolledBack_of_proceed {changed : Bool} (running : ∀ last, moment.phase ≠ .idle last)
    (ended : (proceed sha256 validate moment).phase = .idle (some (.rolledBack changed))) :
    ∃ force state receipt, moment.phase = .retire force state receipt := by
  unfold MemoryOptimization.proceed at ended
  cases at_phase : moment.phase with
  | idle last => exact absurd at_phase (running last)
  | retire force state receipt => exact ⟨force, state, receipt, rfl⟩
  | _ =>
    simp only [at_phase] at ended
    repeat' split at ended
    all_goals cases ended

theorem Holds.restores (inj : Function.Injective sha256) (holds : Holds sha256 moment)
    (changed : Bool) (running : ∀ last, moment.phase ≠ .idle last)
    (_unforced : moment.phase.forced = false)
    (ended : (MemoryOptimization.act sha256 validate moment .proceed).phase =
      .idle (some (.rolledBack changed))) :
    ∃ earlier before plan, moment.noted = earlier ++ [(before, plan)] ∧
      (MemoryOptimization.act sha256 validate moment .proceed).files = ⟨before, none⟩ := by
  obtain ⟨force, state, receipt, at_phase⟩ := rolledBack_of_proceed running ended
  have going := holds.going
  rw [at_phase] at going
  obtain ⟨there, before, plan, same, former⟩ := going
  obtain ⟨earlier, other, applied, logged, equal⟩ := holds.noted receipt there
  have parts := preimageReceipt_inj inj (same.symm.trans equal)
  refine ⟨earlier, other, applied, logged, ?_⟩
  simp [MemoryOptimization.act, MemoryOptimization.proceed, at_phase, Moment.setPreimage,
    Moment.ends, Moment.goto, former,
    parts.1]

theorem Holds.leaves (holds : Holds sha256 moment) (unforced : moment.phase.forced = false)
    (changes : (MemoryOptimization.act sha256 validate moment .proceed).files.config ≠ moment.files.config)
    (receipt : Receipt Bytes Hash)
    (known : moment.files.preimage = some receipt ∨ moment.phase.seen = some receipt) :
    Owned sha256 receipt moment.files.config := by
  have going := holds.going
  simp only [MemoryOptimization.act] at changes
  unfold MemoryOptimization.proceed at changes
  cases at_phase : moment.phase with
  | writeConfig plan before seen =>
    rw [at_phase] at going known changes
    obtain ⟨there, found, owned⟩ := going
    have former : moment.files.config = before := found.resolve_left fun applied => changes applied.symm
    rcases known with same | same
    · rw [there] at same
      cases same
      exact ⟨before, plan, rfl, .inr former⟩
    · rw [former]
      apply (owned receipt same).resolve_right
      intro applied
      exact changes (former.trans applied).symm
  | restore force state kept =>
    rw [at_phase] at going known unforced
    rcases known with same | same
    · rw [going.1] at same
      cases same
      exact going.2 unforced
    · cases same
  | _ =>
    simp only [at_phase] at changes
    exfalso
    apply changes
    repeat' split
    all_goals rfl

/-- Behind a crash, a rollback does what it does behind the whole call. -/
theorem Holds.resumes (inj : Function.Injective sha256) (holds : Holds sha256 moment) (force : Bool)
    (resumable : Resumable sha256 moment force) :
    (Machine.run (MemoryOptimization.act sha256 validate) moment (.crash :: .rollbackPlan force :: toTheEnd)).files =
      (Machine.run (MemoryOptimization.act sha256 validate) moment (toTheEnd ++
          .rollbackPlan force :: toTheEnd)).files := by
  obtain ⟨noted, going⟩ := holds
  obtain ⟨⟨config, preimage⟩, phase, log⟩ := moment
  have stopped : MemoryOptimization.act sha256 validate ⟨⟨config, preimage⟩, phase, log⟩ .crash =
      ⟨⟨config, preimage⟩, .idle none, log⟩ := rfl
  rw [Machine.run_append, Machine.run_cons, stopped]
  clear stopped
  cases phase with
  | writeConfig plan before seen =>
    obtain ⟨there, owned, _⟩ := going
    cases there
    have whole : Machine.run (MemoryOptimization.act sha256 validate)
        ⟨⟨config, some (preimageReceipt sha256 before plan)⟩, .writeConfig plan before seen, log⟩ toTheEnd =
          ⟨⟨some plan, some (preimageReceipt sha256 before plan)⟩, .idle (some .applied), log⟩ := by
      simp [toTheEnd, List.replicate, MemoryOptimization.act, MemoryOptimization.proceed,
        Moment.setConfig, Moment.goto,
        Moment.ends]
    rw [whole, rollback_owned inj force _ (.inr owned), rollback_owned inj force _ (.inr (.inl rfl))]
  | verifyApplied plan => rfl
  | classify forced =>
    cases preimage with
    | none => rfl
    | some receipt =>
      obtain ⟨_, before, plan, _, rfl⟩ := noted receipt rfl
      by_cases owned : forced = true ∨ config = some plan ∨ config = before
      · obtain ⟨last, whole⟩ := classify_ends sha256 validate log inj forced owned
        have again : force = true ∨ config = some plan ∨ config = before := by
          rcases owned with by_force | found
          · rcases resumable by_force with again | found
            · exact .inl again
            · exact .inr ((found _ rfl).config inj)
          · exact .inr found
        rw [whole, rollback_owned inj force _ again, rollback_without_receipt]
      · have refused : Machine.run (MemoryOptimization.act sha256 validate)
            ⟨⟨config, some (preimageReceipt sha256 before plan)⟩, .classify forced, log⟩ toTheEnd =
              ⟨⟨config, some (preimageReceipt sha256 before plan)⟩, .idle (some .refused), log⟩ := by
          rw [not_or, not_or] at owned
          rw [run_toTheEnd, proceed_classify inj, if_neg owned.2.1, if_neg owned.2.2, if_neg owned.1]
          exact idle_stays _ 5
        rw [refused]
        rfl
  | restore forced state receipt =>
    obtain ⟨there, unforced⟩ := going
    obtain ⟨_, before, plan, _, rfl⟩ := noted receipt there
    cases there
    obtain ⟨last, whole⟩ :=
      restore_ends sha256 validate ⟨config,
        some (preimageReceipt sha256 before plan)⟩ log before plan
      forced state 3
    have again : force = true ∨ config = some plan ∨ config = before := by
      cases forced with
      | true =>
        rcases resumable rfl with again | found
        · exact .inl again
        · exact .inr ((found _ rfl).config inj)
      | false => exact .inr ((unforced rfl).config inj)
    rw [rollback_owned inj force _ again, toTheEnd, whole]
    exact (rollback_without_receipt force last).symm
  | verifyRestored forced state receipt hash =>
    obtain ⟨there, bytes, kept⟩ := going
    obtain ⟨_, before, plan, _, rfl⟩ := noted receipt there
    cases there
    cases before with
    | none => cases kept
    | some former =>
      cases kept
      obtain ⟨last, whole⟩ :=
        verify_ends sha256 validate ⟨config,
          some (preimageReceipt sha256 (some bytes) plan)⟩ log forced
        state (preimageReceipt sha256 (some bytes) plan) (sha256 bytes) 4
      rw [toTheEnd, whole]
      by_cases verified : config.map sha256 = some (sha256 bytes)
      · have former : config = some bytes := Option.map_injective inj verified
        rw [if_pos verified]
        rw [← toTheEnd, rollback_owned inj force _ (.inr (.inr former)), rollback_without_receipt, former]
      · rw [if_neg verified]
        rfl
  | retire forced state receipt =>
    obtain ⟨there, before, plan, same, former⟩ := going
    cases there
    subst same
    obtain ⟨last, whole⟩ :=
      retire_ends sha256 validate ⟨config,
        some (preimageReceipt sha256 before plan)⟩ log forced state
      (preimageReceipt sha256 before plan) 5
    rw [rollback_owned inj force _ (.inr (.inr former)), toTheEnd, whole, ← former]
    exact (rollback_without_receipt force last).symm
  | _ => exact resumable.elim

/-- For every history of calls that may crash between any two steps, and of writes by others that
spare what a call has looked at. -/
theorem crash_consistent (inj : Function.Injective sha256) (validate : Bytes → Option Bool)
    (config : Option Bytes)
    (events : List (Event Bytes))
    (each : Machine.Each (MemoryOptimization.act sha256 validate) (Spares sha256) (begin config) events) :
    CrashConsistent sha256 validate (Machine.run (MemoryOptimization.act sha256 validate) (begin config) events) := by
  have holds : Holds sha256 (Machine.run (MemoryOptimization.act sha256 validate) (begin config) events) := by
    apply each.invariant
    · intro moment event holds spares
      exact holds.act inj event spares
    · exact ⟨nofun, trivial⟩
  exact ⟨holds.restores inj, holds.resumes inj, holds.leaves⟩

end Runs

section Cases

def history (events : List (Event Nat)) : Moment Nat Nat :=
  Machine.run (act id fun _ => some true) (begin (some 7)) events

theorem crash_consistent_drifted : CrashConsistent id (fun _ => some true)
    (history [.applyPlan 1, .proceed, .proceed, .proceed, .proceed, .crash, .overwrite (some 9),
      .rollbackPlan true, .proceed]) := by
  apply crash_consistent (fun _ _ same => same)
  repeat' constructor

/-- What is written behind the receipt and before the configuration is lost. -/
theorem unknown_bytes_overwritten :
    ∃ receipt, (history [.applyPlan 1, .proceed, .proceed, .proceed, .proceed,
      .overwrite (some 9)]).files.preimage = some receipt ∧
      (history [.applyPlan 1, .proceed, .proceed, .proceed, .proceed,
        .overwrite (some 9)]).files.config = some 9 ∧
      (history [.applyPlan 1, .proceed, .proceed, .proceed, .proceed, .overwrite (some 9),
        .proceed]).files.config = some 1 ∧
      ¬ Owned id receipt (some 9) := by
  refine ⟨preimageReceipt id (some 7) 1, rfl, rfl, rfl, ?_⟩
  intro owned
  rcases owned.config (fun _ _ same => same) with applied | former
  · cases applied
  · cases former

end Cases
end TokenPak.Services.MemoryOptimization
