import TokenPak.Library.FloatRange
import TokenPak.Library.Machine

/-! The circuit breaker of a provider. It opens after failures, lets a probe through when its
timeout has passed, and closes or opens again by the outcome that is recorded next. Each call is one
locked section; requests say that they succeeded or failed without saying who they are. -/

namespace TokenPak.Proxy.CircuitBreaker
open Library

inductive CircuitState where
  | closed | open | halfOpen
  deriving DecidableEq

structure CircuitBreakerConfig (Time F : Type) where
  enabled : Bool
  failureThreshold : Int
  recoveryTimeout : Time
  windowSeconds : Time
  minFailureRatio : F

/-- What the calls read and write; the request that owns the probe is the object it gave. -/
structure Breaker (Time Request : Type) where
  state : CircuitState
  failureTimes : List Time
  successTimes : List Time
  openedAt : Time
  probeInFlight : Bool
  probeOwner : Option Request

section Calls
variable {Time F Request : Type} [AddCommGroup Time] [LinearOrder Time] [Ratios F] [DecidableEq Request]
variable (config : CircuitBreakerConfig Time F)

def Breaker.initial : Breaker Time Request := ⟨.closed, [], [], 0, false, none⟩

def Breaker.takeProbe (breaker : Breaker Time Request) (owner : Option Request) : Breaker Time Request :=
  { breaker with state := .halfOpen, probeInFlight := true, probeOwner := owner }

/-- `allow_request` -/
def allowRequest (breaker : Breaker Time Request) (now : Time) (owner : Option Request) :
    Bool × Breaker Time Request :=
  if ¬ config.enabled then (true, breaker)
  else
    match breaker.state with
    | .closed => (true, breaker)
    | .open =>
        if now - breaker.openedAt ≥ config.recoveryTimeout then (true, breaker.takeProbe owner)
          else (false, breaker)
    | .halfOpen => if ¬ breaker.probeInFlight then (true, breaker.takeProbe owner) else (false, breaker)

/-- `release_probe` -/
def releaseProbe (breaker : Breaker Time Request) (owner : Option Request) : Bool × Breaker Time Request :=
  if owner = none ∨ owner ≠ breaker.probeOwner ∨ breaker.state ≠ .halfOpen ∨
    ¬ breaker.probeInFlight then (false, breaker)
  else (true, { breaker with probeInFlight := false, probeOwner := none })

def recent (now : Time) (times : List Time) : List Time := times.dropWhile (· < now - config.windowSeconds)

/-- `record_success` -/
def recordSuccess (breaker : Breaker Time Request) (now : Time) : Breaker Time Request :=
  let breaker := { breaker with successTimes := recent config now (breaker.successTimes ++ [now]) }
  match breaker.state with
  | .halfOpen => { breaker with state := .closed, failureTimes := [], probeInFlight := false, probeOwner := none }
  | _ => breaker

/-- Whether the failures in the window, with this one, open a closed breaker. -/
def trips (breaker : Breaker Time Request) (now : Time) : Bool :=
  let fails := (recent config now (breaker.failureTimes ++ [now])).length
  let successes := (recent config now breaker.successTimes).length
  let ratio := if fails + successes > 0 then Ratios.divide fails (fails + successes) else (Ratios.one : F)
  decide (config.failureThreshold ≤ fails) && Ratios.atLeast ratio config.minFailureRatio

/-- `record_failure` -/
def recordFailure (breaker : Breaker Time Request) (now : Time) : Breaker Time Request :=
  match breaker.state with
  | .halfOpen => { breaker with state := .open, openedAt := now, probeInFlight := false, probeOwner := none }
  | .open => breaker
  | .closed =>
    let counted := { breaker with
      failureTimes := recent config now (breaker.failureTimes ++ [now])
      successTimes := recent config now breaker.successTimes }
    if trips config breaker now then { counted with state := .open, openedAt := now } else counted

/-- What `status` says, before its numbers are rounded. -/
structure Status (Time F : Type) where
  state : CircuitState
  failuresInWindow : Nat
  successesInWindow : Nat
  failureRatio : F
  failureThreshold : Int
  minFailureRatio : F
  timeUntilProbe : Option Time

/-- `status` forgets the times behind the window, too. -/
def status (breaker : Breaker Time Request) (now : Time) : Status Time F × Breaker Time Request :=
  let counted := { breaker with
    successTimes := recent config now breaker.successTimes
    failureTimes := recent config now breaker.failureTimes }
  let fails := counted.failureTimes.length
  let total := fails + counted.successTimes.length
  let untilProbe := match breaker.state with
    | .open => some (max 0 (config.recoveryTimeout - (now - breaker.openedAt)))
    | _ => none
  (⟨breaker.state, fails, counted.successTimes.length, if total > 0 then Ratios.divide fails total
    else Ratios.zero,
    config.failureThreshold, config.minFailureRatio, untilProbe⟩, counted)

/-- `reset` -/
def reset (_breaker : Breaker Time Request) : Breaker Time Request := Breaker.initial

end Calls

/-- The calls of requests; a request gives itself as the owner of a probe, or nothing. -/
inductive Call (Time Request : Type) where
  | allow (now : Time) (request : Request) (owned : Bool)
  | release (request : Request)
  | success (now : Time) (request : Request)
  | failure (now : Time) (request : Request)
  | reset

/-- The breaker, and the requests that were let through as probes and have neither recorded their
outcome nor given the probe back. -/
structure Traffic (Time Request : Type) where
  breaker : Breaker Time Request
  probes : List Request

section Traffics
variable {Time F Request : Type} [AddCommGroup Time] [LinearOrder Time] [Ratios F] [DecidableEq Request]
variable (config : CircuitBreakerConfig Time F)

def Traffic.initial : Traffic Time Request := ⟨Breaker.initial, []⟩

def act (traffic : Traffic Time Request) : Call Time Request → Traffic Time Request
  | .allow now request owned =>
    let (allowed, breaker) := allowRequest config traffic.breaker now (if owned then some request else none)
    if allowed ∧ config.enabled ∧ traffic.breaker.state ≠ .closed then ⟨breaker, traffic.probes ++ [request]⟩
    else ⟨breaker, traffic.probes⟩
  | .release request =>
    let (released, breaker) := releaseProbe traffic.breaker (some request)
    if released then ⟨breaker, traffic.probes.erase request⟩ else ⟨breaker, traffic.probes⟩
  | .success now request => ⟨recordSuccess config traffic.breaker now, traffic.probes.erase request⟩
  | .failure now request => ⟨recordFailure config traffic.breaker now, traffic.probes.erase request⟩
  | .reset => ⟨reset traffic.breaker, traffic.probes⟩

end Traffics
end TokenPak.Proxy.CircuitBreaker

/-! The breaker that stops requests to a provider after too many 429 responses. It closes itself, in
the first query after its cooldown. Each call is one locked section that reads the clock once. -/

namespace TokenPak.Proxy.RateLimitBreaker

/-- The window, threshold and cooldown that the constructor takes. -/
structure Limits (Time : Type) where
  windowSec : Time
  threshold : Int
  cooldownSec : Time

/-- `RateLimitCircuitBreaker` -/
structure Breaker (Time : Type) where
  times429 : List Time
  openedAt : Time
  isOpen : Bool
  deriving DecidableEq

section Calls
variable {Time : Type} [AddCommGroup Time] [LinearOrder Time] (limits : Limits Time)

def Breaker.initial : Breaker Time := ⟨[], 0, false⟩

/-- `record_429` -/
def record429 (breaker : Breaker Time) (now : Time) : Breaker Time :=
  let times := (breaker.times429 ++ [now]).dropWhile (· < now - limits.windowSec)
  if ¬ breaker.isOpen ∧ (times.length : Int) ≥ limits.threshold then ⟨times, now, true⟩
  else { breaker with times429 := times }

/-- `is_open` -/
def isOpen (breaker : Breaker Time) (now : Time) : Bool × Breaker Time :=
  if ¬ breaker.isOpen then (false, breaker)
  else if now - breaker.openedAt ≥ limits.cooldownSec then (false, ⟨[], 0, false⟩)
  else (true, breaker)

inductive Call (Time : Type) where
  | record429 (now : Time)
  | isOpen (now : Time)

def Call.now : Call Time → Time
  | .record429 now => now
  | .isOpen now => now

/-- What a call answers, and the breaker behind it. -/
def act (breaker : Breaker Time) : Call Time → Option Bool × Breaker Time
  | .record429 now => (none, record429 limits breaker now)
  | .isOpen now =>
    let (open?, after) := isOpen limits breaker now
    (some open?, after)

end Calls
end TokenPak.Proxy.RateLimitBreaker
