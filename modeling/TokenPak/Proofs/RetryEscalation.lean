import Mathlib.Algebra.Ring.Nat
import TokenPak.Core.RetryEngine

/-! How a run of the retry engine ends. It ends as it promises exactly when the status of each error
outside the waits can be read and no error that alerts leaves a level at which the task is called
again. -/

namespace TokenPak.Core.RetryEngine

section Runs
variable {Value Time Result : Type} [Zero Time] [LinearOrder Time]
variable (builtins : Builtins Value Time) (perError : PerError) (hooks : Hooks)
variable (task : Nat → Except (Failure Value) Result)

def Alerting (failure : Failure Value) : Prop :=
  ∃ status, extractHttpStatus builtins failure = .ok (some status) ∧ status ≠ "" ∧
    perError.get status = some "alert"

def NoneAfterAlert (outcomes : List (Except (Failure Value) Result)) : Prop :=
  ∀ failure, .error failure ∈ outcomes.dropLast → ¬ Alerting builtins perError failure

/-- The run gave the last call's value or an accepted handoff, or gave up after one save and one
alert; and no call came after an alert. -/
def EndsProperly (result : Ending Value Result × Engine Value Time Result) : Prop :=
  (match result.1 with
    | .returned (.result value) => result.2.outcomes.getLast? = some (.ok value)
    | .returned .handoff => hooks.onHandoff = some true
    | .exhausted _ => (result.2.saves.filter (·.1 = .alert)).length = 1 ∧ result.2.alerts.length = 1
    | .escaped _ => False) ∧
  NoneAfterAlert builtins perError result.2.outcomes

/-- A handler of `run` can note the error: it is an alert, or its status can be read. -/
def Noted (failure : Failure Value) : Prop :=
  failure.immediate ≠ none ∨ ∃ status, extractHttpStatus builtins failure = .ok status

/-- Whether a hook has a model or a provider to change to. -/
def CanDowngrade (engine : Engine Value Time Result) : Prop :=
  hooks.onModelDowngrade engine.model ≠ engine.model
def CanSwitch (engine : Engine Value Time Result) : Prop :=
  hooks.onProviderSwitch engine.provider ≠ engine.provider

/-- The conditions under which a run ends as it promises, from each level on, at its next call of the task. -/
def SwitchEnds (switch : Prop) (call : Nat) : Prop :=
  switch → ∀ failure, task call = .error failure → Noted builtins failure

def DowngradeEnds (downgrade switch : Prop) (call : Nat) : Prop :=
  (downgrade → ∀ failure, task call = .error failure → Noted builtins failure ∧
    (failure.immediate = none → (Alerting builtins perError failure → ¬ switch) ∧ SwitchEnds builtins task switch (call + 1))) ∧
  (¬ downgrade → SwitchEnds builtins task switch call)

def WaitEnds (downgrade switch : Prop) : List Time → Nat → Prop
  | [], call => ∀ failure, task call = .error failure → Noted builtins failure ∧
    (failure.immediate = none → (Alerting builtins perError failure → ¬ downgrade ∧ ¬ switch) ∧
      DowngradeEnds builtins perError task downgrade switch (call + 1))
  | _ :: waits, call => ∀ failure, task call = .error failure →
    match extractHttpStatus builtins failure with
    | .error raised => Noted builtins raised ∧
      (raised.immediate = none → DowngradeEnds builtins perError task downgrade switch (call + 1))
    | .ok _ => Alerting builtins perError failure ∨ WaitEnds downgrade switch waits (call + 1)

/-- The engine has neither saved for an alert nor sent one. -/
structure Fresh (engine : Engine Value Time Result) : Prop where
  unsent : engine.alerts = []
  unsaved : engine.saves.filter (·.1 = .alert) = []

/-- No call of the task raised an error that alerts. -/
def Clean (outcomes : List (Except (Failure Value) Result)) : Prop :=
  ∀ failure, .error failure ∈ outcomes → ¬ Alerting builtins perError failure

end Runs

section Endings
variable {Value Time Result : Type}
variable {builtins : Builtins Value Time} {perError : PerError} {hooks : Hooks}
variable {task : Nat → Except (Failure Value) Result} {engine : Engine Value Time Result}
  {failure : Failure Value}
variable {outcomes : List (Except (Failure Value) Result)} {downgrade switch : Prop}

theorem Fresh.note (fresh : Fresh engine) (attempt : RetryAttempt) : Fresh (engine.note attempt) :=
  ⟨fresh.unsent, fresh.unsaved⟩

theorem Fresh.call (fresh : Fresh engine) : Fresh (engine.call task).2 := ⟨fresh.unsent, fresh.unsaved⟩

theorem Fresh.change (fresh : Fresh engine) (model provider : String) :
    Fresh { engine with model, provider } :=
  ⟨fresh.unsent, fresh.unsaved⟩

theorem Clean.none_after (clean : Clean builtins perError outcomes) :
    NoneAfterAlert builtins perError outcomes :=
  fun failure member => clean failure (List.dropLast_subset _ member)

@[simp] theorem noneAfterAlert_snoc (outcome : Except (Failure Value) Result) :
    NoneAfterAlert builtins perError (outcomes ++ [outcome]) ↔ Clean builtins perError outcomes := by
  simp [NoneAfterAlert, Clean]

theorem clean_snoc : Clean builtins perError (outcomes ++ [Except.error failure]) ↔
    Clean builtins perError outcomes ∧ ¬ Alerting builtins perError failure := by
  simp only [Clean, List.mem_append, List.mem_singleton]
  constructor
  · intro clean
    exact ⟨fun other member => clean other (.inl member), clean failure (.inr rfl)⟩
  · rintro ⟨clean, silent⟩ other (member | same)
    · exact clean other member
    · cases same
      exact silent

theorem noted_runtimeError (message : String) : Noted builtins (runtimeError message) := .inr ⟨_, rfl⟩

variable (builtins perError hooks) in
theorem humanAlert_ends (fresh : Fresh engine) (last : Failure Value) :
    EndsProperly builtins perError hooks (humanAlert last engine) ↔
      NoneAfterAlert builtins perError engine.outcomes := by
  have saved : ((engine.saves ++ [(Occasion.alert, engine.attempts)]).filter (·.1 = .alert)).length = 1 := by
    rw [List.filter_append, fresh.unsaved]
    rfl
  have sent : (engine.alerts ++ [(⟨last.message, engine.attempts⟩ : Alert)]).length = 1 := by
    rw [fresh.unsent]; rfl
  constructor
  · intro ends
    exact ends.2
  · intro none_after
    exact ⟨⟨saved, sent⟩, none_after⟩

variable {level : Nat} {description : String}
variable {next : Failure Value → Engine Value Time Result → Ending Value Result × Engine Value Time Result}

/-- A failed level ends the run if it cannot be noted or alerts; otherwise the run goes on with the
next level. -/
theorem handled_error (fresh : Fresh engine) {Q : Prop}
    (goes_on : ∀ attempt, EndsProperly builtins perError hooks (next failure (engine.note attempt)) ↔ Q) :
    EndsProperly builtins perError hooks (handled builtins level description next (.error failure, engine)) ↔
      Noted builtins failure ∧ (failure.immediate ≠ none → NoneAfterAlert builtins perError engine.outcomes) ∧
        (failure.immediate = none → Q) := by
  cases immediate : failure.immediate with
  | some alert =>
    obtain ⟨status, original⟩ := alert
    have sent := humanAlert_ends builtins perError hooks
      (fresh.note ⟨level, "immediate alert (HTTP " ++ status ++ ")", original.message, some status⟩) original
    simpa [handled, immediate, Noted, Engine.note] using sent
  | none =>
    cases read : extractHttpStatus builtins failure with
    | error raised => simp [handled, immediate, read, Noted, EndsProperly]
    | ok status => simpa [handled, immediate, read, Noted] using goes_on _

theorem handled_value {value : Result} :
    EndsProperly builtins perError hooks (handled builtins level description next (.ok (.result value), engine)) ↔
      engine.outcomes.getLast? = some (.ok value) ∧
          NoneAfterAlert builtins perError engine.outcomes :=
        Iff.rfl

theorem unavailable_ends (fresh : Fresh engine) {message : String} {Q : Prop}
    (goes_on : ∀ attempt,
      EndsProperly builtins perError hooks (next (runtimeError message) (engine.note attempt)) ↔
      Q) :
    EndsProperly builtins perError hooks (handled builtins level description next (.error (runtimeError message), engine)) ↔ Q := by
  rw [handled_error fresh goes_on]
  have ordinary : (runtimeError message : Failure Value).immediate = none := rfl
  simp [noted_runtimeError, ordinary]

theorem fromHandoff_ends (fresh : Fresh engine) (last : Failure Value) :
    EndsProperly builtins perError hooks (fromHandoff builtins hooks last engine) ↔
      NoneAfterAlert builtins perError engine.outcomes := by
  have refused (message : String) {engine : Engine Value Time Result} (fresh : Fresh engine) :
      EndsProperly builtins perError hooks (handled builtins 3 "agent handoff" humanAlert (.error (runtimeError message), engine)) ↔
        NoneAfterAlert builtins perError engine.outcomes := by
    exact unavailable_ends fresh fun attempt => humanAlert_ends builtins perError hooks (fresh.note attempt) _
  have saved : Fresh (engine.saveState .handoff) := ⟨fresh.unsent, by simp [Engine.saveState, fresh.unsaved]⟩
  unfold fromHandoff handoff
  cases answer : hooks.onHandoff with
  | none => exact refused _ fresh
  | some accepted =>
    cases accepted with
    | false => exact refused _ saved
    | true => simp [handled, EndsProperly, answer, Engine.saveState]

theorem called_ends (fresh : Fresh engine) {Q : Failure Value → Prop}
    (goes_on : ∀ failure attempt, task engine.outcomes.length = .error failure →
      (EndsProperly builtins perError hooks (next failure ((engine.call task).2.note attempt)) ↔
        Clean builtins perError engine.outcomes ∧ Q failure)) :
    EndsProperly builtins perError hooks (handled builtins level description next (answered (engine.call task))) ↔
      Clean builtins perError engine.outcomes ∧ ∀ failure, task engine.outcomes.length = .error failure →
        Noted builtins failure ∧ (failure.immediate = none → Q failure) := by
  have recorded : NoneAfterAlert builtins perError (engine.call task).2.outcomes ↔
      Clean builtins perError engine.outcomes :=
    noneAfterAlert_snoc _
  cases outcome : task engine.outcomes.length with
  | ok value =>
    have called : answered (engine.call task) = (.ok (.result value), (engine.call task).2) := by
      simp [answered, Engine.call, outcome, Except.map]
    rw [called, handled_value, recorded]
    simp [Engine.call, outcome]
  | error failure =>
    have called : answered (engine.call task) = (.error failure, (engine.call task).2) := by
      simp [answered, Engine.call, outcome, Except.map]
    rw [called, handled_error fresh.call fun attempt => goes_on failure attempt outcome, recorded]
    simp only [Except.error.injEq, forall_eq']
    by_cases immediate : failure.immediate = none
    · simp only [immediate, ne_eq, not_true_eq_false, false_imp_iff, true_and, forall_const]
      exact and_left_comm
    · simp only [immediate, ne_eq, not_false_eq_true, forall_const, false_imp_iff, and_true]
      exact and_comm

theorem fromSwitch_ends (fresh : Fresh engine) (can : CanSwitch hooks engine ↔ switch)
    (last : Failure Value) :
    EndsProperly builtins perError hooks (fromSwitch builtins hooks task last engine) ↔
      NoneAfterAlert builtins perError engine.outcomes ∧ (switch → Clean builtins perError engine.outcomes) ∧
        SwitchEnds builtins task switch engine.outcomes.length := by
  unfold fromSwitch switchProvider
  by_cases same : hooks.onProviderSwitch engine.provider = engine.provider
  · have cannot : ¬ switch := fun able => can.mpr able same
    simp only [same, if_true]
    refine (unavailable_ends (Q := NoneAfterAlert builtins perError engine.outcomes) fresh
      fun attempt => fromHandoff_ends (fresh.note attempt) _).trans ?_
    simp [SwitchEnds, cannot]
  · have able : switch := can.mp same
    simp only [same, if_false]
    have changed := fresh.change engine.model (hooks.onProviderSwitch engine.provider)
    refine (called_ends changed (Q := fun _ => True) ?_).trans ?_
    · intro failure attempt _
      refine (fromHandoff_ends (changed.call.note attempt) failure).trans ?_
      simp [Engine.note, Engine.call]
    · simp only [SwitchEnds, able, forall_const, implies_true, and_true]
      constructor
      · rintro ⟨clean, noted⟩
        exact ⟨clean.none_after, clean, noted⟩
      · rintro ⟨_, clean, noted⟩
        exact ⟨clean, noted⟩

theorem fromDowngrade_ends (fresh : Fresh engine) (canDowngrade : CanDowngrade hooks engine ↔ downgrade)
    (canSwitch : CanSwitch hooks engine ↔ switch) (last : Failure Value) :
    EndsProperly builtins perError hooks (fromDowngrade builtins hooks task last engine) ↔
      NoneAfterAlert builtins perError engine.outcomes ∧ (downgrade ∨ switch →
        Clean builtins perError engine.outcomes) ∧
        DowngradeEnds builtins perError task downgrade switch engine.outcomes.length := by
  unfold fromDowngrade downgradeModel
  by_cases same : hooks.onModelDowngrade engine.model = engine.model
  · have cannot : ¬ downgrade := fun able => canDowngrade.mpr able same
    simp only [same, if_true]
    refine (unavailable_ends (Q := NoneAfterAlert builtins perError engine.outcomes ∧
      (switch → Clean builtins perError engine.outcomes) ∧ SwitchEnds builtins task switch engine.outcomes.length) fresh
      fun attempt => fromSwitch_ends (fresh.note attempt) canSwitch _).trans ?_
    simp [DowngradeEnds, cannot]
  · have able : downgrade := canDowngrade.mp same
    simp only [same, if_false]
    have changed := fresh.change (hooks.onModelDowngrade engine.model) engine.provider
    refine (called_ends changed (Q := fun failure => (Alerting builtins perError failure → ¬ switch) ∧
      SwitchEnds builtins task switch (engine.outcomes.length + 1)) ?_).trans ?_
    · intro failure attempt raised
      refine (fromSwitch_ends (changed.call.note attempt) canSwitch failure).trans ?_
      simp only [Engine.note, Engine.call, raised, noneAfterAlert_snoc, clean_snoc,
        List.length_append, List.length_singleton]
      tauto
    · simp only [DowngradeEnds, able, forall_const, not_true_eq_false, false_imp_iff, and_true, true_or]
      constructor
      · rintro ⟨clean, noted⟩
        exact ⟨clean.none_after, clean, noted⟩
      · rintro ⟨_, clean, noted⟩
        exact ⟨clean, noted⟩

theorem inspect_cases (builtins : Builtins Value Time) (perError : PerError) (failure : Failure Value) :
    (∃ raised, extractHttpStatus builtins failure = .error raised ∧
      inspect builtins perError failure = .error raised) ∨
      (∃ status, Alerting builtins perError failure ∧ extractHttpStatus builtins failure = .ok (some status) ∧
        inspect builtins perError failure = .error (.immediateAlert status failure)) ∨
      ∃ behavior status, ¬ Alerting builtins perError failure ∧
        extractHttpStatus builtins failure = .ok status ∧
        inspect builtins perError failure = .ok (behavior, status) := by
  cases read : extractHttpStatus builtins failure with
  | error raised =>
    left
    exact ⟨raised, rfl, by simp [inspect, maybeImmediateAlert, read, bind, Except.bind]⟩
  | ok status =>
    right
    by_cases alerts : Alerting builtins perError failure
    · left
      have alerting := alerts
      obtain ⟨text, found, solid, mapped⟩ := alerting
      rw [read] at found
      cases found
      exact ⟨text, alerts, rfl, by simp [inspect, maybeImmediateAlert, read, bind, Except.bind, solid, mapped, throw, throwThe, MonadExceptOf.throw]⟩
    · right
      have silent : maybeImmediateAlert builtins perError failure = .ok () := by
        cases status with
        | none => simp [maybeImmediateAlert, read, bind, Except.bind, pure, Except.pure]
        | some text =>
          have calm : ¬ (text ≠ "" ∧ perError.get text = some "alert") :=
            fun mapped => alerts ⟨text, read, mapped.1, mapped.2⟩
          simp [maybeImmediateAlert, read, bind, Except.bind, calm, pure, Except.pure]
      exact ⟨status.bind perError.get, status, alerts, rfl,
        by simp [inspect, silent, errorBehavior, read, bind, Except.bind, pure, Except.pure]⟩

variable [Zero Time] [LinearOrder Time]

theorem waited_eq (engine : Engine Value Time Result) (wait : Time) :
    ∃ slept, engine.waited wait = { engine with slept } := by
  unfold Engine.waited
  split
  · exact ⟨_, rfl⟩
  · exact ⟨engine.slept, rfl⟩

/-- A failed attempt of the wait loop: it ends the level with the error of reading the status,
alerts, or waits. -/
theorem waitRetry_error (raised : task engine.outcomes.length = .error failure) (total : Nat)
    (wait : Time) (waits : List Time)
    (index : Nat) :
    (∃ unreadable, extractHttpStatus builtins failure = .error unreadable ∧
        waitRetry builtins perError task total (wait :: waits) index engine = (.error unreadable, (engine.call task).2)) ∨
      (∃ status, Alerting builtins perError failure ∧ extractHttpStatus builtins failure = .ok (some status) ∧
        waitRetry builtins perError task total (wait :: waits) index engine =
          (.error (.immediateAlert status failure), (engine.call task).2)) ∨
      ∃ status attempt slept, ¬ Alerting builtins perError failure ∧
        extractHttpStatus builtins failure = .ok status ∧
        waitRetry builtins perError task total (wait :: waits) index engine =
          waitRetry builtins perError task total waits (index + 1)
              { (engine.call task).2.note attempt with slept } := by
  rcases inspect_cases builtins perError failure with
    ⟨unreadable, unread, stopped⟩ | ⟨status, alerts, read, stopped⟩ | ⟨behavior, status, silent,
      read, goes_on⟩
  · left
    exact ⟨unreadable, unread, by simp [waitRetry, Engine.call, raised, stopped]⟩
  · right; left
    exact ⟨status, alerts, read, by simp [waitRetry, Engine.call, raised, stopped]⟩
  · right; right
    let actualWait := if behavior = some "wait" ∨ behavior = none then wait else 0
    let attempt : RetryAttempt :=
      ⟨0, "wait-retry attempt " ++ toString (index + 1) ++ "/" ++ toString total ++ ", waited " ++
      builtins.seconds actualWait ++ "s", failure.message, status⟩
    obtain ⟨slept, same⟩ := waited_eq ((engine.call task).2.note attempt) actualWait
    refine ⟨status, attempt, slept, silent, read, ?_⟩
    rw [← same]
    simp [waitRetry, Engine.call, raised, goes_on, attempt, actualWait]

theorem waitRetry_ends (fresh : Fresh engine) (clean : Clean builtins perError engine.outcomes)
    (canDowngrade : CanDowngrade hooks engine ↔ downgrade)
    (canSwitch : CanSwitch hooks engine ↔ switch) (total : Nat)
    (waits : List Time) (index : Nat) :
    EndsProperly builtins perError hooks (handled builtins 0 "wait + retry" (fromDowngrade builtins hooks task)
        (answered (waitRetry builtins perError task total waits index engine))) ↔
      WaitEnds builtins perError task downgrade switch waits engine.outcomes.length := by
  induction waits generalizing index engine with
  | nil =>
    refine (called_ends fresh (Q := fun failure => (Alerting builtins perError failure →
      ¬ downgrade ∧ ¬ switch) ∧
      DowngradeEnds builtins perError task downgrade switch (engine.outcomes.length + 1)) ?_).trans ?_
    · intro failure attempt raised
      refine (fromDowngrade_ends (fresh.call.note attempt) canDowngrade canSwitch failure).trans ?_
      simp only [Engine.note, Engine.call, raised, noneAfterAlert_snoc, clean_snoc,
        List.length_append, List.length_singleton]
      tauto
    · simp only [clean, true_and, WaitEnds]
  | cons wait waits ih =>
    have none_after : NoneAfterAlert builtins perError (engine.call task).2.outcomes :=
      (noneAfterAlert_snoc _).mpr clean
    cases outcome : task engine.outcomes.length with
    | ok value =>
      have returned : waitRetry builtins perError task total (wait :: waits) index engine =
          (.ok value, (engine.call task).2) := by
        simp [waitRetry, Engine.call, outcome]
      have ends : EndsProperly builtins perError hooks (handled builtins 0 "wait + retry" (fromDowngrade builtins hooks task)
          (.ok (.result value), (engine.call task).2)) :=
        handled_value.mpr ⟨by simp [Engine.call, outcome], none_after⟩
      rw [returned]
      simpa [WaitEnds, outcome, answered, Except.map] using ends
    | error failure =>
      have recorded : (engine.call task).2.outcomes = engine.outcomes ++ [Except.error failure] := by
        simp [Engine.call, outcome]
      have calls : (engine.call task).2.outcomes.length = engine.outcomes.length + 1 := by simp [recorded]
      have calm (silent : ¬ Alerting builtins perError failure) : Clean builtins perError (engine.call task).2.outcomes := by
        rw [recorded]
        exact clean_snoc.mpr ⟨clean, silent⟩
      simp only [WaitEnds, outcome, Except.error.injEq, forall_eq']
      rcases waitRetry_error outcome total wait waits index with
        ⟨unreadable, unread, returned⟩ | ⟨status, alerts, read, returned⟩ | ⟨status, attempt, slept,
          silent, read, returned⟩
      · -- The status cannot be read: the level ends, and the next one calls the task again.
        have calm := calm fun alerts => by
          obtain ⟨status, read, _⟩ := alerts
          cases unread.symm.trans read
        rw [returned, unread]
        refine (handled_error fresh.call (Q := DowngradeEnds builtins perError task downgrade switch (engine.outcomes.length + 1))
          fun attempt => ?_).trans ?_
        · refine (fromDowngrade_ends (fresh.call.note attempt) canDowngrade canSwitch unreadable).trans ?_
          rw [← calls]
          simp [Engine.note, calm, calm.none_after]
        · simp [none_after]
      · have ends := (humanAlert_ends builtins perError hooks
          (fresh.call.note ⟨0, "immediate alert (HTTP " ++ status ++ ")", failure.message, some status⟩) failure).mpr none_after
        rw [returned, read]
        exact iff_of_true ends (.inl alerts)
      · have later : Fresh { (engine.call task).2.note attempt with slept } := ⟨fresh.unsent, fresh.unsaved⟩
        rw [returned, read]
        refine (ih later (calm silent) canDowngrade canSwitch (index + 1)).trans ?_
        simp [silent, Engine.note, calls]

/-- For every task, wait list and hooks that answer: the run ends as it promises exactly under the
condition. -/
theorem run_ends_iff (builtins : Builtins Value Time) (perError : PerError) (hooks : Hooks)
    (task : Nat → Except (Failure Value) Result) (waits : List Time) (model provider : String) :
    EndsProperly builtins perError hooks (run builtins perError hooks task waits (Engine.initial model provider)) ↔
      WaitEnds builtins perError task (hooks.onModelDowngrade model ≠ model)
          (hooks.onProviderSwitch provider ≠ provider) waits 0 := by
  have fresh : Fresh (Engine.initial model provider : Engine Value Time Result) := ⟨rfl, rfl⟩
  have clean : Clean builtins perError (Engine.initial model provider : Engine Value Time Result).outcomes := by
    intro failure member
    cases member
  exact waitRetry_ends fresh clean Iff.rfl Iff.rfl waits.length waits 0

end Endings

section Cases

/-- Status attributes that are numbers or texts, of which no text is a number. -/
def sampleBuiltins : Builtins (Int ⊕ String) Nat where
  statusText := fun value => match value with
    | .inl status => .ok (toString status)
    | .inr text =>
        .error (.raised ("invalid literal for int() with base 10: '" ++ text ++ "'") none none none)
  quote := .inr
  seconds := toString
  isWord := fun c => c.isAlphanum || c = '_'
  isDigit := Char.isDigit

def defaultHooks : Hooks :=
  ⟨defaultNext modelDowngradePath "gpt-4o-mini", defaultNext providerFallbackPath "google", none⟩

def httpError (status : Int) : Failure (Int ⊕ String) :=
  .raised "request failed" (some (.inl status)) none none

/-- A task whose calls end as listed, the last one again and again. -/
def scripted (outcomes : List (Except (Failure (Int ⊕ String)) Nat)) (call : Nat) :
    Except (Failure (Int ⊕ String)) Nat :=
  outcomes.getD call (.ok 7)

def outcome (outcomes : List (Except (Failure (Int ⊕ String)) Nat)) :
    Ending (Int ⊕ String) Nat × Engine (Int ⊕ String) Nat Nat :=
  run sampleBuiltins ⟨[], []⟩ defaultHooks (scripted outcomes) [1]
    (Engine.initial "claude-opus-4-5" "anthropic")

/-- The last call of the wait level is refused with 401, and the task is called again; an error with
a code that is no number escapes there. -/
theorem alert_ignored_error_escapes :
    (outcome [.error (httpError 500), .error (httpError 401)]).2.outcomes =
        [.error (httpError 500), .error (httpError 401), .ok 7] ∧
      ¬ EndsProperly sampleBuiltins ⟨[], []⟩ defaultHooks (outcome [.error (httpError 500),
        .error (httpError 401)]) ∧
      (∃ raised, (outcome [.error (httpError 500), .error (.raised "quota" none (some (.inr "insufficient_quota")) none)]).1 =
        .escaped raised) ∧
      ¬ EndsProperly sampleBuiltins ⟨[], []⟩ defaultHooks
        (outcome [.error (httpError 500),
            .error (.raised "quota" none (some (.inr "insufficient_quota")) none)]) := by
  have called : (outcome [.error (httpError 500), .error (httpError 401)]).2.outcomes =
      [.error (httpError 500), .error (httpError 401), .ok 7] := rfl
  refine ⟨called, ?_, ⟨_, rfl⟩, fun ends => ends.1⟩
  intro ends
  have none_after := ends.2
  rw [called] at none_after
  exact none_after (httpError 401) (by simp) ⟨"401", rfl, by decide, by decide⟩

end Cases
end TokenPak.Core.RetryEngine
