import Mathlib.Algebra.Order.Ring.Int
import Mathlib.Data.List.Chain
import TokenPak.Library.SlidingWindow
import TokenPak.Proxy.CircuitBreaker

/-! When a breaker opens. The rule counts failures and successes of all past calls that are in the
window; the breaker counts those it has not forgotten. -/

namespace TokenPak.Proxy.CircuitBreaker
open Library

inductive Operation (Time Request : Type) where
  | allow (now : Time) (owner : Option Request)
  | success (now : Time)
  | failure (now : Time)
  | status (now : Time)
  | reset

section Histories
variable {Time Request : Type} [AddCommGroup Time] [LinearOrder Time]

def Operation.time? : Operation Time Request → Option Time
  | .allow now _ => some now
  | .success now => some now
  | .failure now => some now
  | .status now => some now
  | .reset => none

variable (config : CircuitBreakerConfig Time Rat)

def operate (breaker : Breaker Time Request) : Operation Time Request → Breaker Time Request
  | .allow now owner => (allowRequest config breaker now owner).2
  | .success now => recordSuccess config breaker now
  | .failure now => recordFailure config breaker now
  | .status now => (status config breaker now).2
  | .reset => reset breaker

def after : List (Operation Time Request) → Breaker Time Request
  | [] => Breaker.initial
  | operation :: past => operate config (after past) operation

/-- The failures that were recorded in the closed state since the last close or reset. -/
def failuresSince : List (Operation Time Request) → List Time
  | [] => []
  | operation :: past =>
    match operation, (after config past).state with
    | .reset, _ => []
    | .success _, .halfOpen => []
    | .failure now, .closed => failuresSince past ++ [now]
    | _, _ => failuresSince past

def successesSince : List (Operation Time Request) → List Time
  | [] => []
  | .reset :: _ => []
  | .success now :: past => successesSince past ++ [now]
  | _ :: past => successesSince past

def failuresWithin (past : List (Operation Time Request)) (now : Time) : Nat :=
  (SlidingWindow.within config.windowSeconds now (failuresSince config past)).length

def successesWithin (past : List (Operation Time Request)) (now : Time) : Nat :=
  (SlidingWindow.within config.windowSeconds now (successesSince past)).length

/-- No call comes before an earlier one. -/
def Ordered (past : List (Operation Time Request)) : Prop := (past.filterMap Operation.time?).Pairwise (· ≥ ·)

/-- The part of the failures. A window without any call, as a negative width gives, counts as failing. -/
def failureRatio (failures successes : Nat) : Rat :=
  if failures + successes = 0 then 1 else failures / (failures + successes)

end Histories

section Tracking
variable {Time Request : Type} [AddCommGroup Time] [LinearOrder Time]
variable {config : CircuitBreakerConfig Time Rat} {past : List (Operation Time Request)} {last now : Time}

/-- The breaker has not forgotten any time that can be in a window. -/
structure Tracked (config : CircuitBreakerConfig Time Rat) (past : List (Operation Time Request))
    (last : Time) : Prop where
  failures : SlidingWindow.Pruned config.windowSeconds last (after config past).failureTimes (failuresSince config past)
  successes : SlidingWindow.Pruned config.windowSeconds last (after config past).successTimes (successesSince past)

theorem allowRequest_times (config : CircuitBreakerConfig Time Rat) (breaker : Breaker Time Request)
    (now : Time) (owner : Option Request) :
    (allowRequest config breaker now owner).2.failureTimes = breaker.failureTimes ∧
      (allowRequest config breaker now owner).2.successTimes = breaker.successTimes := by
  unfold allowRequest
  repeat' split
  all_goals exact ⟨rfl, rfl⟩

theorem Tracked.later (tracked : Tracked config past last) (order : last ≤ now) : Tracked config past now :=
  ⟨tracked.failures.later order, tracked.successes.later order⟩

theorem Tracked.success [IsOrderedAddMonoid Time] (tracked : Tracked config past now) :
    Tracked config (.success now :: past) now := by
  have successes := tracked.successes.append.prune
  cases state : (after config past).state with
  | halfOpen =>
    refine ⟨?_, ?_⟩
    · simp only [after, operate, recordSuccess, state, failuresSince]
      exact SlidingWindow.Pruned.nil
    · simp only [after, operate, recordSuccess, state, successesSince]
      exact successes
  | closed =>
    refine ⟨by simpa only [after, operate, recordSuccess, state, failuresSince] using tracked.failures, ?_⟩
    simp only [after, operate, recordSuccess, state, successesSince]
    exact successes
  | «open» =>
    refine ⟨by simpa only [after, operate, recordSuccess, state, failuresSince] using tracked.failures, ?_⟩
    simp only [after, operate, recordSuccess, state, successesSince]
    exact successes

theorem recordFailure_times (config : CircuitBreakerConfig Time Rat) (now : Time)
    {breaker : Breaker Time Request} (closed : breaker.state = .closed) :
    (recordFailure config breaker now).failureTimes = recent config now (breaker.failureTimes ++ [now]) ∧
      (recordFailure config breaker now).successTimes = recent config now breaker.successTimes := by
  simp only [recordFailure, closed]
  split <;> exact ⟨rfl, rfl⟩

theorem failuresSince_failure (closed : (after config past).state = .closed) :
    failuresSince config (.failure now :: past) = failuresSince config past ++ [now] := by
  simp only [failuresSince, closed]

theorem Tracked.failure [IsOrderedAddMonoid Time] (tracked : Tracked config past now) :
    Tracked config (.failure now :: past) now := by
  cases state : (after config past).state with
  | closed =>
    obtain ⟨fails, successes⟩ := recordFailure_times config now state
    refine ⟨?_, ?_⟩
    · simp only [after, operate, failuresSince, state, fails]
      exact tracked.failures.append.prune
    · simp only [after, operate, successesSince, successes]
      exact tracked.successes.prune
  | «open» => exact ⟨by simpa only [after, operate, recordFailure, state, failuresSince] using tracked.failures,
      by simpa only [after, operate, recordFailure, state, successesSince] using tracked.successes⟩
  | halfOpen => exact ⟨by simpa only [after, operate, recordFailure, state, failuresSince] using tracked.failures,
      by simpa only [after, operate, recordFailure, state, successesSince] using tracked.successes⟩

theorem tracked_of_ordered [IsOrderedAddMonoid Time] (ordered : Ordered past)
    (bound : ∀ time ∈ past.filterMap Operation.time?, time ≤ last) :
    Tracked config past last := by
  induction past generalizing last with
  | nil => exact ⟨SlidingWindow.Pruned.nil, SlidingWindow.Pruned.nil⟩
  | cons operation past ih =>
    have timed {now : Time} (at_now : operation.time? = some now) : Tracked config past now ∧ now ≤ last := by
      rw [Ordered, List.filterMap_cons_some at_now, List.pairwise_cons] at ordered
      rw [List.filterMap_cons_some at_now] at bound
      exact ⟨ih ordered.2 ordered.1, bound now List.mem_cons_self⟩
    cases operation with
    | allow now owner =>
      obtain ⟨tracked, order⟩ := timed rfl
      obtain ⟨fails, successes⟩ := allowRequest_times config (after config past) now owner
      refine Tracked.later ⟨?_, ?_⟩ order
      · simp only [after, operate, failuresSince, fails]
        exact tracked.failures
      · simp only [after, operate, successesSince, successes]
        exact tracked.successes
    | success now =>
      obtain ⟨tracked, order⟩ := timed rfl
      exact tracked.success.later order
    | failure now =>
      obtain ⟨tracked, order⟩ := timed rfl
      exact tracked.failure.later order
    | status now =>
      obtain ⟨tracked, order⟩ := timed rfl
      refine Tracked.later ⟨?_, ?_⟩ order
      · simp only [after, operate, status, failuresSince]
        exact tracked.failures.prune
      · simp only [after, operate, status, successesSince]
        exact tracked.successes.prune
    | reset => exact ⟨SlidingWindow.Pruned.nil, SlidingWindow.Pruned.nil⟩

theorem recordFailure_open (config : CircuitBreakerConfig Time Rat) (now : Time)
    {breaker : Breaker Time Request} (closed : breaker.state = .closed) :
    (recordFailure config breaker now).state = .open ↔ trips config breaker now = true := by
  simp only [recordFailure, closed]
  split <;> simp_all

theorem ratio_eq (failures successes : Nat) :
    (if failures + successes > 0 then Ratios.divide failures (failures + successes) else (Ratios.one : Rat)) =
      failureRatio failures successes := by
  by_cases empty : failures + successes = 0
  · rw [if_neg (by omega), failureRatio, if_pos empty]
    rfl
  · rw [if_pos (by omega), failureRatio, if_neg empty]
    change (failures : Rat) / ((failures + successes : Nat) : Rat) = _
    rw [Nat.cast_add]

/-- A closed breaker opens on a failure by the rule of the window, counted in all calls up to this one. -/
theorem opens_iff [IsOrderedAddMonoid Time] (config : CircuitBreakerConfig Time Rat)
    (past : List (Operation Time Request)) (now : Time)
    (ordered : Ordered (.failure now :: past)) (closed : (after config past).state = .closed) :
    (after config (.failure now :: past)).state = .open ↔
      config.failureThreshold ≤ failuresWithin config (.failure now :: past) now ∧
      config.minFailureRatio ≤ failureRatio (failuresWithin config (.failure now :: past) now)
        (successesWithin config (.failure now :: past) now) := by
  rw [Ordered, List.filterMap_cons_some (f := Operation.time?) (b := now) rfl, List.pairwise_cons] at ordered
  have tracked : Tracked config past now := tracked_of_ordered ordered.2 ordered.1
  have fails : (recent config now ((after config past).failureTimes ++ [now])).length =
      failuresWithin config (.failure now :: past) now := by
    rw [recent, tracked.failures.append.within_eq le_rfl, failuresWithin, failuresSince_failure closed]
  have successes : (recent config now (after config past).successTimes).length =
      successesWithin config (.failure now :: past) now := by
    rw [recent, tracked.successes.within_eq le_rfl]
    rfl
  have opened : (after config (.failure now :: past)).state = .open ↔
      trips config (after config past) now = true :=
    recordFailure_open config now closed
  rw [opened]
  simp only [trips, fails, successes, ratio_eq, Bool.and_eq_true, decide_eq_true_eq]
  change _ ∧ decide _ = true ↔ _
  rw [decide_eq_true_eq]

section Scenarios

/-- One success that is too old to count, and three failures. -/
def burst : List (Operation Int Nat) :=
  [.failure 104, .status 103, .failure 102, .success 10, .success 5, .failure 3]

def strict : CircuitBreakerConfig Int Rat where
  enabled := true
  failureThreshold := 3
  recoveryTimeout := 60
  windowSeconds := 60
  minFailureRatio := 1 / 2

theorem burst_opens : (after strict (.failure 105 :: burst)).state = .open :=
  (opens_iff strict burst 105 (by simp [Ordered, burst, Operation.time?]) (by decide +kernel)).mpr (by decide +kernel)

end Scenarios

end Tracking

section Spacing
variable {Time Request : Type} [AddCommGroup Time] [LinearOrder Time] [DecidableEq Request]

/-- One of the calls above, or `release_probe` with its owner. -/
abbrev Event (Time Request : Type) := Operation Time Request ⊕ Option Request

def Event.time? : Event Time Request → Option Time := Sum.elim Operation.time? fun _ => none

variable {config : CircuitBreakerConfig Time Rat} {event : Event Time Request}
  {past : List (Event Time Request)}

def step (config : CircuitBreakerConfig Time Rat) (event : Event Time Request)
    (breaker : Breaker Time Request) : Breaker Time Request :=
  event.elim (operate config breaker) fun owner => (releaseProbe breaker owner).2

/-- The breaker after some events, the last one first. -/
def reached (config : CircuitBreakerConfig Time Rat) (past : List (Event Time Request)) :
    Breaker Time Request :=
  past.foldr (step config) Breaker.initial

/-- The times at which the breaker opened, the last one first. -/
def openings (config : CircuitBreakerConfig Time Rat) : List (Event Time Request) → List Time
  | [] => []
  | event :: past =>
    if (reached config past).state ≠ .open ∧ (reached config (event :: past)).state = .open then
      (Event.time? event).toList ++ openings config past
    else openings config past

/-- An opening keeps its time, and only a call behind its timeout ends it. -/
theorem step_cases (config : CircuitBreakerConfig Time Rat) (breaker : Breaker Time Request)
    (kept : event ≠ .inl .reset) :
    ((step config event breaker).state = .open →
      if breaker.state = .open then (step config event breaker).openedAt = breaker.openedAt
      else Event.time? event = some (step config event breaker).openedAt) ∧
    ((step config event breaker).state ≠ .open → breaker.state = .open →
      ∃ now, Event.time? event = some now ∧ config.recoveryTimeout ≤ now - breaker.openedAt) := by
  rcases event with operation | owner
  · cases operation with
    | reset => exact absurd rfl kept
    | allow now owner =>
      cases state : breaker.state <;>
        simp only [step, Sum.elim_inl, operate, allowRequest, state] <;> repeat' split
      all_goals simp_all [Breaker.takeProbe, Event.time?, Operation.time?]
    | success now => cases state : breaker.state <;> simp_all [step, operate, recordSuccess]
    | failure now =>
      cases state : breaker.state <;>
        simp only [step, Sum.elim_inl, operate, recordFailure, state] <;> repeat' split
      all_goals simp_all [Event.time?, Operation.time?]
    | status now => cases state : breaker.state <;> simp_all [step, operate, status]
  · simp only [step, Sum.elim_inr, releaseProbe]
    split <;> simp_all

/-- What the openings of a run say of the breaker. -/
structure Spaced (config : CircuitBreakerConfig Time Rat) (past : List (Event Time Request)) : Prop where
  opened : (reached config past).state = .open →
    (openings config past).head? = some (reached config past).openedAt
  left : (reached config past).state ≠ .open → ∀ opened ∈ (openings config past).head?,
    ∃ time ∈ past.filterMap Event.time?, opened + config.recoveryTimeout ≤ time
  apart : (openings config past).IsChain fun later earlier => earlier + config.recoveryTimeout ≤ later

theorem spaced [IsOrderedAddMonoid Time] (ordered : (past.filterMap Event.time?).Pairwise (· ≥ ·))
    (kept : .inl .reset ∉ past) :
    Spaced config past := by
  induction past with
  | nil => exact ⟨by simp [reached, Breaker.initial], by simp [openings], .nil⟩
  | cons event past ih =>
    rw [List.mem_cons, not_or] at kept
    have split_times : (event :: past).filterMap Event.time? = (Event.time? event).toList ++
        past.filterMap Event.time? := by
      cases timed : Event.time? event <;> simp [timed]
    rw [split_times, List.pairwise_append] at ordered
    obtain ⟨opened, left, apart⟩ := ih ordered.2.1 kept.2
    obtain ⟨enters, leaves⟩ := step_cases config (reached config past) (Ne.symm kept.1)
    by_cases before : (reached config past).state = .open
    · have same : openings config (event :: past) = openings config past := by simp [openings, before]
      refine ⟨fun still => ?_, fun closed first head => ?_, same ▸ apart⟩
      · have held := enters still
        rw [if_pos before] at held
        rw [same, opened before, ← held]
        rfl
      · obtain ⟨now, timed, through⟩ := leaves closed before
        rw [same, opened before] at head
        cases head
        exact ⟨now, by simp [timed], le_sub_iff_add_le'.mp through⟩
    · by_cases opens : (reached config (event :: past)).state = .open
      · have timed := enters opens
        rw [if_neg before] at timed
        have grown : openings config (event :: past) = (reached config (event :: past)).openedAt ::
            openings config past := by
          rw [openings, if_pos ⟨before, opens⟩, timed]
          rfl
        refine ⟨fun _ => by rw [grown]; rfl, fun closed => absurd opens closed, grown ▸ apart.cons fun first head => ?_⟩
        obtain ⟨time, member, far⟩ := left before first head
        exact far.trans (ordered.2.2 _ (by simp [timed, reached]) time member)
      · have same : openings config (event :: past) = openings config past := by simp [openings, opens]
        refine ⟨fun still => absurd still opens, fun _ first head => ?_, same ▸ apart⟩
        obtain ⟨time, member, far⟩ := left before first (same ▸ head)
        exact ⟨time, split_times ▸ List.mem_append_right _ member, far⟩

/-- Without a reset two openings are a recovery timeout apart, and an open breaker refuses until the
timeout after its last opening. -/
theorem openings_apart [IsOrderedAddMonoid Time] (past : List (Event Time Request))
    (ordered : (past.filterMap Event.time?).Pairwise (· ≥ ·)) (kept : .inl .reset ∉ past) :
    ((openings config past).IsChain fun later earlier => earlier + config.recoveryTimeout ≤ later) ∧
      ∀ now owner, config.enabled = true → (reached config past).state = .open →
        ((allowRequest config (reached config past) now owner).1 = false ↔
          ∃ opened ∈ (openings config past).head?, now < opened + config.recoveryTimeout) := by
  obtain ⟨opened, _, apart⟩ : Spaced config past := spaced ordered kept
  refine ⟨apart, fun now owner enabled state => ?_⟩
  by_cases through : config.recoveryTimeout ≤ now - (reached config past).openedAt <;>
    simp [opened state, allowRequest, enabled, state, through, ← not_le, ← le_sub_iff_add_le']

/-- A probe is given back, the next one fails, and the breaker opens again. -/
def reopened : List (Event Int Nat) :=
  ([.inl (.failure 170), .inl (.allow 168 none), .inr (some 7), .inl (.allow 165 (some 7)),
    .inl (.failure 105)] : List (Event Int Nat)) ++ burst.map .inl

theorem reopened_apart : openings strict reopened = [170, 105] ∧
    (openings strict reopened).IsChain fun later earlier => earlier + strict.recoveryTimeout ≤ later :=
  ⟨by decide +kernel, (openings_apart reopened (by decide +kernel) (by simp [reopened, burst])).1⟩

end Spacing
end TokenPak.Proxy.CircuitBreaker
