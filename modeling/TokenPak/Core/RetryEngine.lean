import Mathlib.Data.String.Basic

/-! The retry engine. A task that fails is called again after a wait, then with a cheaper model,
then with another provider; then it is handed to another agent, and last its state is saved and a
human is alerted. -/

namespace TokenPak.Core.RetryEngine

/-- An exception, by what the engine reads of it. -/
inductive Failure (Value : Type) where
  | raised (message : String) (statusCode code responseCode : Option Value)
  | immediateAlert (statusCode : String) (original : Failure Value)

/-- `str(int(value))`, the value of a string, the printed seconds of a wait, and the character
classes of patterns. -/
structure Builtins (Value Time : Type) where
  statusText : Value → Except (Failure Value) String
  quote : String → Value
  seconds : Time → String
  isWord : Char → Bool
  isDigit : Char → Bool

structure RetryAttempt where
  level : Nat
  description : String
  error : String
  httpStatus : Option String

/-- The handler of each status, from the caller, the configuration file and the defaults. -/
structure PerError where
  override : List (String × String)
  configured : List (String × String)

def defaultPerError : List (String × String) :=
  [("429", "wait"), ("500", "retry"), ("502", "retry"), ("503", "retry"), ("504", "retry"),
    ("401", "alert"), ("403", "alert")]

def PerError.get (perError : PerError) (status : String) : Option String :=
  (perError.override.lookup status).or ((perError.configured.lookup status).or (defaultPerError.lookup status))

/-- The caller's hooks, as they answer; no handoff hook is `none`. -/
structure Hooks where
  onModelDowngrade : String → String
  onProviderSwitch : String → String
  onHandoff : Option Bool

def modelDowngradePath : List String :=
  ["claude-opus-4-5", "claude-sonnet-4-5", "claude-haiku-4-5", "gpt-4o", "gpt-4o-mini"]

def providerFallbackPath : List String := ["anthropic", "openai", "google"]

/-- `_default_model_downgrade` and `_default_provider_switch`, over a chain with its last member. -/
def defaultNext (chain : List String) (last : String) (current : String) : String :=
  match chain.idxOf? current with
  | some index => chain.getD (index + 1) last
  | none => last

inductive Occasion where
  | handoff | alert
  deriving DecidableEq

structure Alert where
  error : String
  attempts : List RetryAttempt

/-- The engine: what the task's calls gave so far, and what was written and sent. -/
structure Engine (Value Time Result : Type) where
  model : String
  provider : String
  attempts : List RetryAttempt
  outcomes : List (Except (Failure Value) Result)
  slept : List Time
  saves : List (Occasion × List RetryAttempt)
  alerts : List Alert

inductive Answer (Result : Type) where
  | result (value : Result)
  | handoff
  deriving DecidableEq

inductive Ending (Value Result : Type) where
  | returned (answer : Answer Result)
  | exhausted (attempts : List RetryAttempt)
  | escaped (failure : Failure Value)

section Status
variable {Value Time : Type} (builtins : Builtins Value Time)

def Failure.message : Failure Value → String
  | .raised message _ _ _ => message
  | .immediateAlert statusCode original =>
      "Immediate alert triggered by HTTP " ++ statusCode ++ ": " ++ original.message

/-- The first of `status_code`, `code` and `response_code` that is there. -/
def Failure.attribute : Failure Value → Option Value
  | .raised _ statusCode code responseCode => statusCode.or (code.or responseCode)
  | .immediateAlert statusCode _ => some (builtins.quote statusCode)

def Failure.immediate : Failure Value → Option (String × Failure Value)
  | .raised .. => none
  | .immediateAlert statusCode original => some (statusCode, original)

def boundary (left right : Option Char) : Bool := left.any builtins.isWord != right.any builtins.isWord

/-- `\b(4\d{2}|5\d{2})\b`, searched in a text. -/
def searchStatus (previous : Option Char) : List Char → Option String
  | first :: second :: third :: rest =>
    if (first = '4' ∨ first = '5') ∧ builtins.isDigit second ∧ builtins.isDigit third ∧
        boundary builtins previous first ∧ boundary builtins third rest.head? then
      some (String.ofList [first, second, third])
    else searchStatus (some first) (second :: third :: rest)
  | _ => none

/-- `_extract_http_status` -/
def extractHttpStatus (failure : Failure Value) : Except (Failure Value) (Option String) :=
  match failure.attribute builtins with
  | some value => (builtins.statusText value).map some
  | none => .ok (searchStatus builtins none failure.message.toList)

variable (perError : PerError)

/-- `_error_behavior` -/
def errorBehavior (failure : Failure Value) : Except (Failure Value) (Option String) := do
  let status ← extractHttpStatus builtins failure
  return status.bind perError.get

/-- `_maybe_immediate_alert` -/
def maybeImmediateAlert (failure : Failure Value) : Except (Failure Value) Unit := do
  match ← extractHttpStatus builtins failure with
  | some status =>
      if status ≠ "" ∧
        perError.get status = some "alert" then throw (.immediateAlert status failure)
  | none => return

end Status

section Levels
variable {Value Time Result : Type} [Zero Time] [LinearOrder Time]
variable (builtins : Builtins Value Time) (perError : PerError) (hooks : Hooks)
variable (task : Nat → Except (Failure Value) Result)

def Engine.note (engine : Engine Value Time Result) (attempt : RetryAttempt) : Engine Value Time Result :=
  { engine with attempts := engine.attempts ++ [attempt] }

/-- `_save_state` -/
def Engine.saveState (engine : Engine Value Time Result) (occasion : Occasion) : Engine Value Time Result :=
  { engine with saves := engine.saves ++ [(occasion, engine.attempts)] }

/-- `self.fn(self.context, self.partial_state)` -/
def Engine.call (engine : Engine Value Time Result) :
    Except (Failure Value) Result × Engine Value Time Result :=
  let outcome := task engine.outcomes.length
  (outcome, { engine with outcomes := engine.outcomes ++ [outcome] })

def Engine.waited (engine : Engine Value Time Result) (wait : Time) : Engine Value Time Result :=
  if 0 < wait then { engine with slept := engine.slept ++ [wait] } else engine

/-- What the handler of a failed attempt reads: the behaviour and the status, unless it alerts at once. -/
def inspect (failure : Failure Value) : Except (Failure Value) (Option String × Option String) := do
  maybeImmediateAlert builtins perError failure
  let behavior ← errorBehavior builtins perError failure
  let status ← extractHttpStatus builtins failure
  return (behavior, status)

/-- `_level0_wait_retry`, from an attempt on. -/
def waitRetry (total : Nat) : List Time → Nat → Engine Value Time Result →
    Except (Failure Value) Result × Engine Value Time Result
  | [], _, engine => engine.call task
  | wait :: waits, index, engine =>
    match engine.call task with
    | (.ok result, engine) => (.ok result, engine)
    | (.error failure, engine) =>
      match inspect builtins perError failure with
      | .error raised => (.error raised, engine)
      | .ok (behavior, status) =>
        let actualWait := if behavior = some "wait" ∨ behavior = none then wait else 0
        let attempt :=
          ⟨0, "wait-retry attempt " ++ toString (index + 1) ++ "/" ++ toString total ++
            ", waited " ++
          builtins.seconds actualWait ++ "s", failure.message, status⟩
        waitRetry total waits (index + 1) ((engine.note attempt).waited actualWait)

def runtimeError (message : String) : Failure Value := .raised message none none none

/-- `_level1_downgrade_model` -/
def downgradeModel (engine : Engine Value Time Result) :
    Except (Failure Value) Result × Engine Value Time Result :=
  let nextModel := hooks.onModelDowngrade engine.model
  if nextModel = engine.model then
    (.error (runtimeError ("No model downgrade available from '" ++ engine.model ++ "'")), engine)
  else { engine with model := nextModel }.call task

/-- `_level2_switch_provider` -/
def switchProvider (engine : Engine Value Time Result) :
    Except (Failure Value) Result × Engine Value Time Result :=
  let nextProvider := hooks.onProviderSwitch engine.provider
  if nextProvider = engine.provider then
    (.error (runtimeError ("No provider fallback available from '" ++ engine.provider ++ "'")), engine)
  else { engine with provider := nextProvider }.call task

/-- `_level3_handoff` -/
def handoff (engine : Engine Value Time Result) :
    Except (Failure Value) (Answer Result) × Engine Value Time Result :=
  match hooks.onHandoff with
  | none => (.error (runtimeError "No handoff handler configured"), engine)
  | some true => (.ok .handoff, engine.saveState .handoff)
  | some false =>
      (.error (runtimeError "Handoff rejected by all available agents"), engine.saveState .handoff)

/-- `_level4_human_alert`, and the error that `run` raises after it. -/
def humanAlert (last : Failure Value) (engine : Engine Value Time Result) :
    Ending Value Result × Engine Value Time Result :=
  let engine := engine.saveState .alert
  (.exhausted engine.attempts, { engine with alerts := engine.alerts ++ [⟨last.message, engine.attempts⟩] })

/-- The handlers of `run` around one level; `next` is the rest of the levels. -/
def handled (level : Nat) (description : String)
    (next : Failure Value → Engine Value Time Result → Ending Value Result × Engine Value Time Result) :
    Except (Failure Value) (Answer Result) × Engine Value Time Result →
      Ending Value Result × Engine Value Time Result
  | (.ok answer, engine) => (.returned answer, engine)
  | (.error failure, engine) =>
    match failure.immediate with
    | some (status, original) =>
      humanAlert original (engine.note ⟨level, "immediate alert (HTTP " ++ status ++ ")",
        original.message, some status⟩)
    | none =>
      match extractHttpStatus builtins failure with
      | .error raised => (.escaped raised, engine)
      | .ok status => next failure (engine.note ⟨level, description, failure.message, status⟩)

def answered (result : Except (Failure Value) Result × Engine Value Time Result) :
    Except (Failure Value) (Answer Result) × Engine Value Time Result :=
  (result.1.map .result, result.2)

/-- `run` from the handoff on, from the provider switch on, and from the model downgrade on. -/
def fromHandoff (_last : Failure Value) (engine : Engine Value Time Result) :
    Ending Value Result × Engine Value Time Result :=
  handled builtins 3 "agent handoff" humanAlert (handoff hooks engine)

def fromSwitch (_last : Failure Value) (engine : Engine Value Time Result) :
    Ending Value Result × Engine Value Time Result :=
  handled builtins 2 "provider switch" (fromHandoff builtins hooks)
    (answered (switchProvider hooks task engine))

def fromDowngrade (_last : Failure Value) (engine : Engine Value Time Result) :
    Ending Value Result × Engine Value Time Result :=
  handled builtins 1 "model downgrade" (fromSwitch builtins hooks task)
    (answered (downgradeModel hooks task engine))

/-- `run` -/
def run (waits : List Time) (engine : Engine Value Time Result) :
    Ending Value Result × Engine Value Time Result :=
  handled builtins 0 "wait + retry" (fromDowngrade builtins hooks task)
    (answered (waitRetry builtins perError task waits.length waits 0 engine))

def Engine.initial (model provider : String) : Engine Value Time Result :=
  ⟨model, provider, [], [], [], [], []⟩

end Levels
end TokenPak.Core.RetryEngine
