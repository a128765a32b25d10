import Mathlib.Algebra.Order.Ring.Int
import TokenPak.Proxy.CircuitBreaker

/-! The breaker against one that closes and forgets its 429s as soon as its cooldown is through.
They answer alike while no 429 comes between the end of a cooldown and the next query. -/

namespace TokenPak.Proxy.RateLimitBreaker
open Library Machine

variable {Time : Type} [AddCommGroup Time] [LinearOrder Time] (limits : Limits Time)

/-- The cooldown of an open breaker is through. -/
def Breaker.Cooled (breaker : Breaker Time) (now : Time) : Prop :=
  breaker.isOpen = true ∧ now - breaker.openedAt ≥ limits.cooldownSec

instance (breaker : Breaker Time) (now : Time) : Decidable (breaker.Cooled limits now) :=
  inferInstanceAs (Decidable (_ ∧ _))

/-- The breaker as it is now when it closes at the end of its cooldown. -/
def Breaker.expire (breaker : Breaker Time) (now : Time) : Breaker Time :=
  if breaker.Cooled limits now then .initial else breaker

/-- A call of the breaker that closes at the end of its cooldown. -/
def eagerAct (breaker : Breaker Time) (call : Call Time) : Option Bool × Breaker Time :=
  act limits (breaker.expire limits call.now) call

def answers (act : Breaker Time → Call Time → Option Bool × Breaker Time)
    (breaker : Breaker Time) : List (Call Time) → List Bool
  | [] => []
  | call :: calls => (act breaker call).1.toList ++ answers act (act breaker call).2 calls

/-- The call is no 429 that comes when the cooldown is through and nobody has asked. -/
def Timely (breaker : Breaker Time) : Call Time → Prop
  | .record429 now => ¬ breaker.Cooled limits now
  | .isOpen _ => True

instance (breaker : Breaker Time) : (call : Call Time) → Decidable (Timely limits breaker call)
  | .record429 _ => inferInstanceAs (Decidable (¬ _))
  | .isOpen _ => isTrue trivial

variable {limits} {breaker : Breaker Time} {call : Call Time} {calls : List (Call Time)} {now : Time}

theorem expire_of_cooled (cooled : breaker.Cooled limits now) :
    breaker.expire limits now = .initial :=
  if_pos cooled

theorem expire_of_not_cooled (warm : ¬ breaker.Cooled limits now) :
    breaker.expire limits now = breaker :=
  if_neg warm

/-- A query closes the breaker as the end of the cooldown does. -/
theorem isOpen_expire : isOpen limits (breaker.expire limits now) now = isOpen limits breaker now := by
  by_cases cooled : breaker.Cooled limits now
  · obtain ⟨opened, through⟩ := cooled
    rw [expire_of_cooled ⟨opened, through⟩]
    simp [isOpen, Breaker.initial, opened, through]
  · rw [expire_of_not_cooled cooled]

theorem eagerAct_eq (timely : Timely limits breaker call) :
    eagerAct limits breaker call = act limits breaker call := by
  cases call with
  | record429 now => rw [eagerAct, Call.now, expire_of_not_cooled timely]
  | isOpen now => simp only [eagerAct, Call.now, act, isOpen_expire]

theorem answers_eq (timely : Each (fun breaker call =>
    (act limits breaker call).2) (Timely limits) breaker calls) :
    answers (act limits) breaker calls = answers (eagerAct limits) breaker calls := by
  induction calls generalizing breaker with
  | nil => rfl
  | cons call calls ih =>
    obtain ⟨first, rest⟩ := timely
    rw [answers, answers, eagerAct_eq first, ih rest]

/-- Both breakers answer alike in every run without a late 429. -/
theorem lazy_close_eager (timely : Each (fun breaker call =>
    (act limits breaker call).2) (Timely limits) .initial calls) :
    answers (act limits) .initial calls = answers (eagerAct limits) .initial calls :=
  answers_eq timely

section Burst

/-- The limits that are set without any configuration. -/
def defaultLimits : Limits Int := ⟨60, 5, 30⟩

/-- Five 429s open the breaker; five more, of requests that were under way, come when the cooldown
is through. -/
def lateBurst : List (Call Int) :=
  List.replicate 5 (Call.record429 0) ++ List.replicate 5 (Call.record429 31) ++ [.isOpen 31]

/-- The breaker stays closed after the second burst. -/
theorem late_burst_lost : (lateBurst.map Call.now).Pairwise (· ≤ ·) ∧
    answers (act defaultLimits) .initial lateBurst ≠ answers (eagerAct defaultLimits) .initial lateBurst := by
  decide

/-- Five 429s, and queries before and after the end of the cooldown. -/
def burst : List (Call Int) :=
  List.replicate 5 (Call.record429 0) ++ [Call.isOpen 29, .isOpen 30, .record429 31, .isOpen 32]

theorem burst_eager :
    answers (act defaultLimits) .initial burst =
    answers (eagerAct defaultLimits) .initial burst := by
  apply lazy_close_eager
  decide

end Burst
end TokenPak.Proxy.RateLimitBreaker
