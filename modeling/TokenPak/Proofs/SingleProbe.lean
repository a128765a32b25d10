import TokenPak.Proxy.CircuitBreaker

/-! One probe at a time. While each outcome that is recorded in the half-open state is the probe's
own, the probe that is out is the one the breaker let through. -/

namespace TokenPak.Proxy.CircuitBreaker
open Library

section Runs
variable {Time F Request : Type} [AddCommGroup Time] [LinearOrder Time] [Ratios F] [DecidableEq Request]
variable {config : CircuitBreakerConfig Time F} {traffic : Traffic Time Request} {call : Call Time Request}

/-- No request that was let through earlier records its outcome over a probe, and no probe from
before a reset is still out when the timeout lets a new one through. -/
def Meets (config : CircuitBreakerConfig Time F) (traffic : Traffic Time Request) : Call Time Request → Prop
  | .allow now _ _ => config.enabled → traffic.breaker.state = .open →
      now - traffic.breaker.openedAt ≥ config.recoveryTimeout → traffic.probes = []
  | .success _ request => traffic.breaker.state = .halfOpen → request ∈ traffic.probes
  | .failure _ request => traffic.breaker.state = .halfOpen → request ∈ traffic.probes
  | _ => True

/-- In the half-open state the probe that is out is the one the breaker knows of. -/
def Sole (traffic : Traffic Time Request) : Prop :=
  if traffic.breaker.probeInFlight then
    ∃ request, traffic.probes = [request] ∧ (traffic.breaker.probeOwner = none ∨
      traffic.breaker.probeOwner = some request)
  else traffic.probes = []

structure Known (traffic : Traffic Time Request) : Prop where
  length_le : traffic.probes.length ≤ 1
  sole : traffic.breaker.state = .halfOpen → Sole traffic

omit [AddCommGroup Time] [LinearOrder Time] [DecidableEq Request] in
theorem Sole.only (sole : Sole traffic) {request : Request} (member : request ∈ traffic.probes) :
    traffic.probes = [request] := by
  unfold Sole at sole
  split at sole
  · obtain ⟨other, only, _⟩ := sole
    rw [only] at member ⊢
    rw [List.mem_singleton.mp member]
  · simp [sole] at member

omit [Ratios F] [DecidableEq Request] in
/-- What a request may be answered: it passes a closed breaker, takes the probe, or is refused. -/
theorem allowRequest_cases (config : CircuitBreakerConfig Time F) (breaker : Breaker Time Request)
    (now : Time) (owner : Option Request) :
    ((config.enabled = false ∨ breaker.state = .closed) ∧
      allowRequest config breaker now owner = (true, breaker)) ∨
      (config.enabled = true ∧ (breaker.state = .open ∧ now - breaker.openedAt ≥ config.recoveryTimeout ∨
          breaker.state = .halfOpen ∧ breaker.probeInFlight = false) ∧
        allowRequest config breaker now owner = (true, breaker.takeProbe owner)) ∨
      allowRequest config breaker now owner = (false, breaker) := by
  unfold allowRequest
  by_cases enabled : config.enabled = true
  · cases state : breaker.state with
    | closed => exact .inl ⟨.inr rfl, by simp [enabled]⟩
    | «open» =>
      by_cases elapsed : now - breaker.openedAt ≥ config.recoveryTimeout
      · exact .inr (.inl ⟨enabled, .inl ⟨rfl, elapsed⟩, by simp [enabled, elapsed]⟩)
      · exact .inr (.inr (by simp [enabled, elapsed]))
    | halfOpen =>
      by_cases flying : breaker.probeInFlight = true
      · exact .inr (.inr (by simp [enabled, flying]))
      · exact .inr (.inl ⟨enabled, .inr ⟨rfl, by simpa using flying⟩, by simp [enabled, flying]⟩)
  · exact .inl ⟨.inl (by simpa using enabled), by simp [enabled]⟩

theorem Known.allow (known : Known traffic) (now : Time) (request : Request) (owned : Bool)
    (meets : Meets config traffic (.allow now request owned)) :
    Known (act config traffic (.allow now request owned)) := by
  rcases allowRequest_cases config traffic.breaker now (if owned then some request else none) with
    ⟨free, passed⟩ | ⟨enabled, waiting, taken⟩ | refused
  · rcases free with disabled | closed
    · simpa [act, passed, disabled] using known
    · simpa [act, passed, closed] using known
  · have none_out : traffic.probes = [] := by
      rcases waiting with ⟨state, elapsed⟩ | ⟨state, still⟩
      · exact meets enabled state elapsed
      · simpa [Sole, still] using known.sole state
    have shut : traffic.breaker.state ≠ .closed := by
      rcases waiting with ⟨state, _⟩ | ⟨state, _⟩ <;> simp [state]
    simp only [act, taken, enabled, shut, ne_eq, not_false_eq_true, and_self, if_true, none_out,
      List.nil_append]
    refine ⟨by simp, fun _ => ⟨request, rfl, ?_⟩⟩
    cases owned with
    | true => exact .inr rfl
    | false => exact .inl rfl
  · simpa [act, refused] using known

theorem Known.release (known : Known traffic) (request : Request) :
    Known (act config traffic (.release request)) := by
  simp only [act, releaseProbe]
  split
  next refused => exact known
  next given =>
    simp only [not_or, not_not] at given
    obtain ⟨_, owner, state, flying⟩ := given
    have sole := known.sole state
    simp only [Sole, flying, if_true] at sole
    obtain ⟨probe, only, whose⟩ := sole
    rw [← owner] at whose
    rcases whose with none_given | same
    · cases none_given
    · cases same
      exact ⟨by simp [only], fun _ => by simp [Sole, only]⟩

omit [AddCommGroup Time] [LinearOrder Time] in
theorem Known.erase_le (known : Known traffic) (request : Request) :
    (traffic.probes.erase request).length ≤ 1 :=
  (List.length_erase_le ..).trans known.length_le

theorem Known.success (known : Known traffic) (now : Time) (request : Request) :
    Known (act config traffic (.success now request)) := by
  refine ⟨known.erase_le request, ?_⟩
  cases state : traffic.breaker.state with
  | closed => simp [act, recordSuccess, state]
  | «open» => simp [act, recordSuccess, state]
  | halfOpen => simp [act, recordSuccess, state]

theorem Known.failure (known : Known traffic) (now : Time) (request : Request) :
    Known (act config traffic (.failure now request)) := by
  refine ⟨known.erase_le request, ?_⟩
  cases state : traffic.breaker.state with
  | closed =>
      by_cases tripped : trips config traffic.breaker now = true <;>
        simp [act, recordFailure, state, tripped]
  | «open» => simp [act, recordFailure, state]
  | halfOpen => simp [act, recordFailure, state]

theorem Known.act (known : Known traffic) (meets : Meets config traffic call) :
    Known (act config traffic call) := by
  cases call with
  | allow now request owned => exact known.allow now request owned meets
  | release request => exact known.release request
  | success now request => exact known.success now request
  | failure now request => exact known.failure now request
  | reset => exact ⟨known.length_le, fun state => by cases state⟩

theorem leaves_halfOpen (state : traffic.breaker.state = .halfOpen)
    (left : (CircuitBreaker.act config traffic call).breaker.state ≠ .halfOpen) :
    call = .reset ∨ ∃ now request, call = .success now request ∨ call = .failure now request := by
  cases call with
  | allow now request owned =>
    exfalso
    apply left
    rcases allowRequest_cases config traffic.breaker now (if owned then some request else none) with
      ⟨_, passed⟩ | ⟨_, _, taken⟩ | refused
    · simp only [CircuitBreaker.act, passed]
      split <;> exact state
    · simp only [CircuitBreaker.act, taken]
      split <;> rfl
    · simpa [CircuitBreaker.act, refused] using state
  | release request =>
    exfalso
    apply left
    simp only [CircuitBreaker.act, releaseProbe]
    repeat' split
    all_goals exact state
  | success now request => exact .inr ⟨now, request, .inl rfl⟩
  | failure now request => exact .inr ⟨now, request, .inr rfl⟩
  | reset => exact .inl rfl

/-- For every sequence of calls: while the breaker is not closed at most one probe is out, and only
its own outcome or a reset moves the breaker out of the half-open state. -/
theorem single_probe (config : CircuitBreakerConfig Time F) (calls : List (Call Time Request))
    (each : Machine.Each (CircuitBreaker.act config) (Meets config) Traffic.initial calls) :
    let traffic := Machine.run (CircuitBreaker.act config) Traffic.initial calls
    (traffic.breaker.state ≠ .closed → traffic.probes.length ≤ 1) ∧
      ∀ call, Meets config traffic call → traffic.breaker.state = .halfOpen →
        (CircuitBreaker.act config traffic call).breaker.state ≠ .halfOpen →
        call = .reset ∨ ∃ now request, traffic.probes = [request] ∧ (call = .success now request ∨
            call = .failure now request) := by
  intro traffic
  have known : Known traffic := by
    apply each.invariant
    · intro traffic call known meets
      exact known.act meets
    · exact ⟨by simp [Traffic.initial], fun state => by cases state⟩
  refine ⟨fun _ => known.length_le, ?_⟩
  intro call meets state left
  rcases leaves_halfOpen state left with by_reset | ⟨now, request, rfl | rfl⟩
  · exact .inl by_reset
  · exact .inr ⟨now, request, (known.sole state).only (meets state), .inl rfl⟩
  · exact .inr ⟨now, request, (known.sole state).only (meets state), .inr rfl⟩

end Runs

section Cases

/-- One failure opens the breaker, for ten seconds. -/
def hasty : CircuitBreakerConfig Int Rat := ⟨true, 1, 10, 60, 0⟩

def traffic (calls : List (Call Int Nat)) : Traffic Int Nat := Machine.run (act hasty) Traffic.initial calls

theorem single_probe_recovers :
    let calls : List (Call Int Nat) := [.allow 0 1 true, .failure 1 1, .allow 12 2 true, .allow 13 3 true]
    (traffic calls).breaker.state = .halfOpen ∧ (traffic calls).probes = [2] ∧
      ((traffic calls).breaker.state ≠ .closed → (traffic calls).probes.length ≤ 1) := by
  refine ⟨by decide +kernel, by decide +kernel, ?_⟩
  refine (single_probe hasty _ ?_).1
  refine ⟨?_, ?_, ?_, ?_, trivial⟩
  · intro _ state
    exact absurd state (by decide +kernel)
  · intro state
    exact absurd state (by decide +kernel)
  · intro _ _ _
    decide +kernel
  · intro _ state
    exact absurd state (by decide +kernel)

/-- A late failure of an earlier request opens the breaker over its probe, and a second probe goes
out; a late success closes it. -/
theorem earlier_request_decides :
    let calls : List (Call Int Nat) := [.allow 0 1 true, .allow 0 2 true, .failure 1 2, .allow 12 3 true]
    (traffic calls).breaker.state = .halfOpen ∧ (traffic calls).probes = [3] ∧
      (traffic (calls ++ [Call.success 13 1])).breaker.state = .closed ∧
      (traffic (calls ++ [Call.failure 13 1, .allow 24 4 true])).breaker.state = .halfOpen ∧
      (traffic (calls ++ [Call.failure 13 1, .allow 24 4 true])).probes = [3, 4] := by
  decide +kernel

end Cases
end TokenPak.Proxy.CircuitBreaker
