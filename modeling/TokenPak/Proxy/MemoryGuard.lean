import TokenPak.Services.MemoryPlan

/-! The memory guard, where its settings come from, and its checks. The settings of the environment
are left out: without them the managed plan counts, or nothing. -/

namespace TokenPak.Proxy.Memory
open Library Services.MemoryOptimization

structure Configuration (N : Type) where
  mode : Json N
  planSha256 : String

structure MemoryGuard (N : Type) where
  targetMb : Int
  ceilingMb : Int
  sysLowMb : Int
  checkInterval : ℚ
  cooldownSecs : ℚ
  actionMode : String
  configuration : Configuration N
  hysteresisMb : Int

structure Settings (N : Type) where
  targetMb : Json N
  ceilingMb : Json N
  sysLowMb : Json N
  checkIntervalSecs : Json N
  cooldownSecs : Json N
  actionMode : Json N
  configuration : Configuration N

section Construction
variable {N : Type} [Numerals N] (runtime : Runtime N)

/-- An integer that is no truth value and passes the test. -/
def requireInt (value : Json N) (test : Int → Bool) (text : String) : Except (Raised N) Int :=
  match value with
  | .number n =>
    match (Numerals.integer? n).filter test with
    | some found => .ok found
    | none => .error (.valueError text)
  | _ => .error (.valueError text)

/-- `float(value)`, if it is finite: an integer beyond the range of the floats raises an error of its own. -/
def toFloat (value : Json N) : Except (Raised N) (Option ℚ) :=
  let whole : Option Int :=
    match value with
    | .number n => Numerals.integer? n
    | _ => none
  match whole with
  | some n =>
    match FloatRange.ofInt 53 1024 n with
    | some rounded => .ok (some rounded)
    | none => .error .overflowError
  | none =>
    match runtime.float value with
    | some found => .ok found
    | none => .error (.valueError "check interval and cooldown must be numeric")

def checkActionMode (value : Json N) : Except (Raised N) String := do
  let known ← inSet (some value) ["observe", "auto"]
  match value with
  | .string text =>
      if known then return text else throw (.valueError "action_mode must be 'observe' or 'auto'")
  | _ => throw (.valueError "action_mode must be 'observe' or 'auto'")

/-- `MemoryGuard.__init__` -/
def MemoryGuard.init (settings : Settings N) : Except (Raised N) (MemoryGuard N) := do
  let action ← checkActionMode settings.actionMode
  let target ← requireInt settings.targetMb (fun n => decide (0 < n)) "target_mb must be positive"
  let ceiling ← requireInt settings.ceilingMb (fun n =>
    decide (target < n)) "ceiling_mb must be greater than target_mb"
  let sysLow ← requireInt settings.sysLowMb (fun n => decide (0 ≤ n)) "sys_low_mb must be non-negative"
  let interval ← toFloat runtime settings.checkIntervalSecs
  let cooldown ← toFloat runtime settings.cooldownSecs
  match interval.filter fun seconds => decide (0 < seconds) with
  | none => throw (.valueError "check_interval_secs must be positive")
  | some interval =>
    match cooldown.filter fun seconds => decide (interval ≤ seconds) with
    | none => throw (.valueError "cooldown_secs must be at least check_interval_secs")
    | some cooldown =>
      return ⟨target, ceiling, sysLow, interval, cooldown, action, settings.configuration,
        min 64 (min (max 1 ((ceiling - target) / 4)) (max 0 (target - 1)))⟩

/-- `config[key]` -/
def field (config : Fields N) (key : String) : Except (Raised N) (Json N) :=
  match config.lookup key with
  | some value => .ok value
  | none => .error (.keyError key)

def guardFromPlan (plan : Fields N) (planHash : String) : Except (Raised N) (Option (MemoryGuard N)) := do
  let block ← field plan "memory_guard"
  let mode ← field plan "mode"
  match block with
  | .object guardConfig =>
    let enabled ← field guardConfig "enabled"
    if ! enabled.truthy then return none
    let targetMb ← field guardConfig "target_mb"
    let ceilingMb ← field guardConfig "ceiling_mb"
    let sysLowMb ← field guardConfig "sys_low_mb"
    let checkIntervalSecs ← field guardConfig "check_interval_secs"
    let cooldownSecs ← field guardConfig "cooldown_secs"
    let action ← field guardConfig "mode"
    let guard ← MemoryGuard.init runtime ⟨targetMb, ceilingMb, sysLowMb, checkIntervalSecs,
      cooldownSecs, action, ⟨mode, planHash⟩⟩
    return some guard
  | _ => throw (.typeError "the memory_guard block has no fields")

/-- `create_memory_guard`; a managed file that is corrupt is ignored. -/
def createMemoryGuard (managed : Option ByteArray) : Except (Raised N) (Option (MemoryGuard N)) :=
  match managed with
  | none => .ok none
  | some data =>
    match loadManagedPlan runtime data with
    | .ok (plan, planHash) => guardFromPlan runtime plan planHash
    | .error (.corrupt _) => .ok none
    | .error raised => .error raised

end Construction

section Checks
variable {N : Type} (guard : MemoryGuard N)

structure Sample where
  rss : Int
  sysAvail : Int
  time : ℚ
  deriving DecidableEq

inductive Level where
  | green | yellow | red
  deriving DecidableEq

/-- The level as the statistics show it; `recovery` is green with pressure latched. -/
inductive ShownLevel where
  | unknown | recovery | at (level : Level)
  deriving DecidableEq

/-- What the checks remember, with the statistics of the checks themselves. -/
structure Watch where
  lastActionMonotonic : Option ℚ
  lastActionLevel : Option Level
  pressureLatched : Bool
  lastLevel : ShownLevel
  checks : Nat
  lastRssMb : Option Int
  lastSysAvailMb : Option Int
  peakRssMb : Int
  observedPressureChecks : Nat
  suppressedActions : Nat
  yellowTriggers : Nat
  redTriggers : Nat
  sysLowTriggers : Nat
  deriving DecidableEq

def Watch.created : Watch := ⟨none, none, false, .unknown, 0, none, none, 0, 0, 0, 0, 0, 0⟩

def MemoryGuard.sysLow (sample : Sample) : Bool :=
  decide (0 < guard.sysLowMb) && decide (sample.sysAvail < guard.sysLowMb)

def MemoryGuard.level (sample : Sample) : Level :=
  if guard.ceilingMb ≤ sample.rss then .red
  else if guard.targetMb ≤ sample.rss ∨ guard.sysLow sample then .yellow
  else .green

/-- A green sample that releases the latch: memory is below the thresholds by the hysteresis. -/
def MemoryGuard.fullyRecovered (sample : Sample) : Bool :=
  guard.level sample = .green && decide (sample.rss ≤ guard.targetMb - guard.hysteresisMb) &&
    (guard.sysLowMb = 0 || decide (guard.sysLowMb + guard.hysteresisMb ≤ sample.sysAvail))

def Watch.inCooldown (watch : Watch) (cooldown time : ℚ) : Bool :=
  watch.lastActionMonotonic.any fun last => decide (time - last < cooldown)

def Watch.escalates (watch : Watch) (level : Level) : Bool :=
  watch.lastActionLevel = some .yellow && level = .red

/-- `_check`: the state after it and the level of the action it takes. The actions count themselves. -/
def MemoryGuard.check (watch : Watch) (sample : Sample) : Watch × Option Level :=
  let level := guard.level sample
  let seen := { watch with
    checks := watch.checks + 1
    lastRssMb := some sample.rss
    lastSysAvailMb := some sample.sysAvail
    peakRssMb := max watch.peakRssMb sample.rss }
  if level = .green then
    let recovered := guard.fullyRecovered sample
    let shown := if watch.pressureLatched && ! recovered then ShownLevel.recovery else .at .green
    ({ seen with lastLevel := shown, pressureLatched := watch.pressureLatched && ! recovered }, none)
  else
    let latched := { seen with lastLevel := .at level, pressureLatched := true }
    if guard.actionMode = "observe" then
      ({ latched with observedPressureChecks := watch.observedPressureChecks + 1 }, none)
    else if watch.inCooldown guard.cooldownSecs sample.time && ! watch.escalates level then
      ({ latched with suppressedActions := watch.suppressedActions + 1 }, none)
    else
      let yellow := if level = .yellow then 1 else 0
      let low := if level = .yellow ∧ guard.sysLow sample then 1 else 0
      ({ latched with
        lastActionMonotonic := some sample.time
        lastActionLevel := some level
        yellowTriggers := watch.yellowTriggers + yellow
        sysLowTriggers := watch.sysLowTriggers + low
        redTriggers := watch.redTriggers + (1 - yellow) }, some level)

end Checks
end TokenPak.Proxy.Memory
