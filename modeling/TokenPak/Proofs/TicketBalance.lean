import TokenPak.Proofs.EvaluateTickets
import TokenPak.Proofs.HardStop

/-! How one operation changes the in-flight register. Only the admission and the
settlement touch it; an admission first drops the tickets past their TTL. -/

namespace TokenPak.SpendGuard
open Library RollingCaps EvaluateTickets

namespace RollingCaps

/-- What the caps would read of the register at this time. -/
def inflightTotals (agentId : String) (now : Time) (register : List Ticket) : RollingUsage :=
  pendingSpendTotals agentId (live now register)

def Admission.ticket (admission : Admission) (id : String) (now : Time) : Ticket :=
  ⟨id, Text.lower admission.agentId, admission.projectedCostUsd,
    admission.projectedInputTokens + admission.projectedOutputTokens, admission.projectedCacheReadTokens, now⟩

/-- The register as it was, up to a cleaning at some time until now. -/
def Trimmed (start : List Ticket) (now : Time) (register : List Ticket) : Prop :=
  register = start ∨ ∃ moment ≤ now, register = live moment start

variable {start register : List Ticket} {now : Time}

theorem live_live {moment : Time} (later : moment ≤ now) :
    live now (live moment start) = live now start := by
  unfold live
  rw [List.filter_filter]
  apply List.filter_congr
  intro ticket _
  by_cases kept : now - inflightTtl ≤ ticket.admittedAt
  · have before : moment - inflightTtl ≤ ticket.admittedAt := le_trans (Int.sub_le_sub_right later _) kept
    simp [kept, before]
  · simp [kept]

theorem Trimmed.live {moment : Time} (trimmed : Trimmed start moment register)
    (later : moment ≤ now) : live now register = live now start := by
  rcases trimmed with rfl | ⟨earlier, before, rfl⟩
  · rfl
  · exact live_live (le_trans before later)

theorem Trimmed.mono {moment : Time} (trimmed : Trimmed start moment register)
    (later : moment ≤ now) : Trimmed start now register := by
  rcases trimmed with same | ⟨earlier, before, cleaned⟩
  · exact .inl same
  · exact .inr ⟨earlier, le_trans before later, cleaned⟩

theorem Trimmed.mem (trimmed : Trimmed start now register) {ticket : Ticket}
    (member : ticket ∈ register) : ticket ∈ start := by
  rcases trimmed with rfl | ⟨_, _, rfl⟩
  · exact member
  · exact (List.mem_filter.mp member).1

theorem pendingSpendTotals_append (agentId : String) (register tail : List Ticket) :
    pendingSpendTotals agentId (register ++ tail) =
      (pendingSpendTotals agentId register).add (pendingSpendTotals agentId tail) := by
  simp [pendingSpendTotals, RollingUsage.add]

theorem checkRollingCapsAndAdmit_cases (admission : Admission) (usage : Option RollingUsage)
    (ticket : String) (now : Time)
    (register : List Ticket) : ∃ trimmed, Trimmed register now trimmed ∧
      ((∃ breach, checkRollingCaps admission usage trimmed = some breach ∧
        checkRollingCapsAndAdmit admission usage ticket now register = ((some breach, none), trimmed)) ∨
      (checkRollingCaps admission usage trimmed = none ∧
        checkRollingCapsAndAdmit admission usage ticket now register =
        ((none, some ticket), trimmed.filter (·.id ≠ ticket) ++ [admission.ticket ticket now]))) := by
  have cleaned : Trimmed register now (if admission.config.enabled ∧
      usage.isSome then live now register else register) := by
    split
    · exact .inr ⟨now, le_rfl, rfl⟩
    · exact .inl rfl
  refine ⟨_, cleaned, ?_⟩
  unfold checkRollingCapsAndAdmit
  dsimp only
  generalize (if admission.config.enabled = true ∧ usage.isSome = true then live now register
    else register) = trimmed
  cases found : checkRollingCaps admission usage trimmed with
  | some breach => exact .inl ⟨breach, rfl, rfl⟩
  | none => exact .inr ⟨rfl, rfl⟩

theorem filter_fresh {ticket : String} (fresh : ∀ entry ∈ register, entry.id ≠ ticket) :
    register.filter (·.id ≠ ticket) = register := by
  apply List.filter_eq_self.mpr
  intro entry member
  exact decide_eq_true (fresh entry member)

end RollingCaps

/-- The operation did not raise. -/
def Answered (event : GuardEvent) : Prop := ∃ answer, event.reply = .ok answer

instance (event : GuardEvent) : Decidable (Answered event) :=
  match event with
  | ⟨_, .ok answer⟩ => isTrue ⟨answer, rfl⟩
  | ⟨_, .error _⟩ => isFalse fun ⟨_, same⟩ => nomatch same

def registers : Op → Option Nat
  | .checkRollingCapsAndAdmit process _ => some process
  | _ => none

/-- Ticket identifiers are random: a new one is not empty and not in use. -/
def Drawn (before : World) (event : GuardEvent) (after : World) : Prop :=
  ∀ process ∈ registers event.op,
    after.ambient.ticket ≠ "" ∧ ∀ entry ∈ before.inflight process, entry.id ≠ after.ambient.ticket

instance (before : World) (event : GuardEvent) (after : World) : Decidable (Drawn before event after) :=
  inferInstanceAs (Decidable (∀ _ ∈ registers event.op, _ ∧ ∀ _ ∈ _, _))

namespace World

theorem react_inflight {world : World} {op : Op} (untouched : touches op = false) :
    (world.react op).2.inflight = world.inflight := by
  cases op with
  | checkRollingCapsAndAdmit process admission => cases untouched
  | settlePendingSpend process ticket => cases untouched
  | claimSweep process =>
    simp only [react]
    split <;> rfl
  | _ => rfl

/-- What one step does to the register. -/
theorem Step.inflight_cases {world after : World} {event : GuardEvent} (step : Step world event after) :
    (after.inflight = world.inflight ∧ (touches event.op = false ∨ ¬Answered event)) ∨
    (∃ process admission usage, usage = after.ambient.reading process admission ∧
      event = ⟨.checkRollingCapsAndAdmit process admission,
        .ok (RollingCaps.checkRollingCapsAndAdmit admission usage
        after.ambient.ticket after.ambient.clock (world.inflight process)).1⟩ ∧
      after.inflight =
        Function.update world.inflight process (RollingCaps.checkRollingCapsAndAdmit admission usage
        after.ambient.ticket after.ambient.clock (world.inflight process)).2) ∨
    ∃ process ticket, event = ⟨.settlePendingSpend process ticket,
        .ok (RollingCaps.settlePendingSpend ticket (world.inflight process)).1⟩ ∧
      after.inflight =
        Function.update world.inflight process (RollingCaps.settlePendingSpend ticket (world.inflight process)).2 := by
  cases step with
  | @answered ambient op later =>
    by_cases touched : touches op = true
    · cases op with
      | checkRollingCapsAndAdmit process admission => exact .inr (.inl ⟨process, admission, _, rfl, rfl, rfl⟩)
      | settlePendingSpend process ticket => exact .inr (.inr ⟨process, ticket, rfl, rfl⟩)
      | _ => cases touched
    · exact .inl ⟨react_inflight (Bool.eq_false_iff.mpr touched), .inl (Bool.eq_false_iff.mpr touched)⟩
  | @raised ambient op fault later =>
    refine .inl ⟨rfl, .inr ?_⟩
    rintro ⟨answer, same⟩
    cases same
  | raisedAfterConsume later => exact .inl ⟨rfl, .inl rfl⟩

theorem Step.wired {world after : World} {event : GuardEvent} (step : Step world event after)
    (answered : Answered event) :
    Wired event := by
  obtain ⟨answer, replied⟩ := answered
  rcases step.inflight_cases with ⟨_, untouched | raised⟩ | ⟨process, admission, usage, _, rfl, _⟩
    | ⟨process, ticket, rfl, _⟩
  · obtain ⟨op, reply⟩ := event
    change reply = .ok answer at replied
    rw [replied]
    cases op with
    | checkRollingCapsAndAdmit process admission => cases untouched
    | _ => trivial
  · exact absurd ⟨answer, replied⟩ raised
  · obtain ⟨trimmed, _, ⟨breach, _, same⟩ | ⟨_, same⟩⟩ := checkRollingCapsAndAdmit_cases admission usage
      after.ambient.ticket after.ambient.clock (world.inflight process)
    · rw [same]
      trivial
    · rw [same]
      trivial
  · trivial

end World
end TokenPak.SpendGuard

/-! The balance of the in-flight register over one evaluation. A request that is
not sent leaves no trace in the totals; one that is sent under the caps adds the
projection of the bytes it sends, under one ticket. -/

namespace TokenPak.SpendGuard.TicketBalance
open Library RollingCaps EvaluateContract EvaluateTickets

/-- No operation raises and tickets are drawn fresh. -/
def smooth (_ : Unit) (before : World) (event : GuardEvent) (after : World) : Prop :=
  World.Step before event after ∧ Answered event ∧ Drawn before event after

/-- Every process has the tickets it had, up to those past their TTL. -/
def Restored (start after : World) : Prop :=
  ∀ process, Trimmed (start.inflight process) after.ambient.clock (after.inflight process)

def Registered (start after : World) (process : Nat) (ticket : Ticket) : Prop :=
  start.ambient.clock ≤ ticket.admittedAt ∧ ticket.admittedAt ≤ after.ambient.clock ∧ ticket.id ≠ "" ∧
    (∀ entry ∈ start.inflight process, entry.id ≠ ticket.id) ∧
    (∃ trimmed, Trimmed (start.inflight process) after.ambient.clock trimmed ∧
      after.inflight process = trimmed ++ [ticket]) ∧
    ∀ other, other ≠ process → after.inflight other = start.inflight other

/-- What the operations on the register so far left in it. -/
structure Booked (start after : World) (past : List GuardEvent) : Prop where
  clock : start.ambient.clock ≤ after.ambient.clock
  idle : moves past = [] → after.inflight = start.inflight
  refused : ∀ process admission breach ticket,
    moves past = [⟨.checkRollingCapsAndAdmit process admission, .ok (some breach, ticket)⟩] →
      Restored start after
  taken : ∀ process admission id,
    moves past = [⟨.checkRollingCapsAndAdmit process admission, .ok (none, some id)⟩] →
    ∃ moment, Registered start after process (admission.ticket id moment)
  returned : ∀ process admission id answer,
    moves past = [⟨.checkRollingCapsAndAdmit process admission, .ok (none, some id)⟩,
      ⟨.settlePendingSpend process id, .ok answer⟩] → Restored start after

section step
variable {start before after : World} {past : List GuardEvent} {event : GuardEvent}

theorem Restored.later (restored : Restored start before) (same : after.inflight = before.inflight)
    (later : before.ambient.clock ≤ after.ambient.clock) : Restored start after := by
  intro process
  rw [same]
  exact (restored process).mono later

theorem Registered.later {process : Nat} {ticket : Ticket}
    (registered : Registered start before process ticket)
    (same : after.inflight = before.inflight) (later : before.ambient.clock ≤ after.ambient.clock) :
    Registered start after process ticket := by
  obtain ⟨made, known, named, fresh, ⟨trimmed, cleaned, rows⟩, others⟩ := registered
  rw [Registered, same]
  exact ⟨made, le_trans known later, named, fresh, ⟨trimmed, cleaned.mono later, rows⟩, others⟩

theorem Booked.untouched (booked : Booked start before past) (same : after.inflight = before.inflight)
    (later : before.ambient.clock ≤ after.ambient.clock) (quiet : touches event.op = false) :
    Booked start after (past ++ [event]) := by
  have unmoved : moves (past ++ [event]) = moves past := moves_untouched quiet past event.reply
  constructor
  · exact le_trans booked.clock later
  · intro empty
    rw [same]
    exact booked.idle (unmoved ▸ empty)
  · intro process admission breach ticket only
    exact (booked.refused process admission breach ticket (unmoved ▸ only)).later same later
  · intro process admission id only
    obtain ⟨moment, registered⟩ := booked.taken process admission id (unmoved ▸ only)
    exact ⟨moment, registered.later same later⟩
  · intro process admission id answer both
    exact (booked.returned process admission id answer (unmoved ▸ both)).later same later

theorem Booked.checked {process : Nat} {admission : Admission} {usage : Option RollingUsage}
    (booked : Booked start before past) (later : before.ambient.clock ≤ after.ambient.clock)
    (asked : event = ⟨.checkRollingCapsAndAdmit process admission,
      .ok (RollingCaps.checkRollingCapsAndAdmit admission
      usage after.ambient.ticket after.ambient.clock (before.inflight process)).1⟩)
    (changed : after.inflight =
      Function.update before.inflight process (RollingCaps.checkRollingCapsAndAdmit admission
      usage after.ambient.ticket after.ambient.clock (before.inflight process)).2)
    (drawn : Drawn before event after) : Booked start after (past ++ [event]) := by
  subst asked
  have moved (reply : Reply (.checkRollingCapsAndAdmit process admission)) := moves_touched rfl past reply
  obtain ⟨named, fresh⟩ := drawn process rfl
  obtain ⟨trimmed, cleaned, answer⟩ := checkRollingCapsAndAdmit_cases admission usage after.ambient.ticket
    after.ambient.clock (before.inflight process)
  constructor
  · exact le_trans booked.clock later
  · intro empty
    rw [moved] at empty
    simp at empty
  · intro other request breach ticket only
    rw [moved] at only
    obtain ⟨nothing, last⟩ := List.append_eq_singleton_iff.mp only |>.resolve_right (by simp)
    have same := booked.idle nothing
    intro one
    rw [changed]
    by_cases own : one = process
    · subst own
      rw [Function.update_self]
      rcases answer with ⟨found, _, answered⟩ | ⟨_, answered⟩
      · rw [answered, ← same]
        exact cleaned
      · rw [answered] at last
        simp at last
    · rw [Function.update_of_ne own, same]
      exact .inl rfl
  · intro other request id only
    rw [moved] at only
    obtain ⟨nothing, last⟩ := List.append_eq_singleton_iff.mp only |>.resolve_right (by simp)
    have same := booked.idle nothing
    rcases answer with ⟨found, _, answered⟩ | ⟨_, answered⟩
    · rw [answered] at last
      simp at last
    · rw [answered] at last
      obtain ⟨⟨rfl, rfl⟩, rfl⟩ : (process = other ∧ admission = request) ∧
          after.ambient.ticket = id := by
        simpa using last
      refine ⟨after.ambient.clock, le_trans booked.clock later, le_rfl, named, ?_,
        ⟨trimmed, same ▸ cleaned, ?_⟩, ?_⟩
      · rw [← same]
        exact fresh
      · rw [changed, Function.update_self, answered]
        dsimp only
        rw [filter_fresh fun entry member => fresh entry (cleaned.mem member)]
      · intro one different
        rw [changed, Function.update_of_ne different, same]
  · intro other request id settled both
    rw [moved] at both
    have last := List.append_inj_right' (both.trans (List.singleton_append ..).symm) rfl
    simp at last

theorem Booked.settled {process : Nat} {id : String} (booked : Booked start before past)
    (later : before.ambient.clock ≤ after.ambient.clock)
    (asked : event = ⟨.settlePendingSpend process id,
      .ok (RollingCaps.settlePendingSpend id (before.inflight process)).1⟩)
    (changed : after.inflight =
      Function.update before.inflight process (RollingCaps.settlePendingSpend id (before.inflight process)).2) :
    Booked start after (past ++ [event]) := by
  subst asked
  have moved (reply : Reply (.settlePendingSpend process id)) := moves_touched rfl past reply
  constructor
  · exact le_trans booked.clock later
  · intro empty
    rw [moved] at empty
    simp at empty
  · intro other admission breach ticket only
    rw [moved] at only
    obtain ⟨_, last⟩ := List.append_eq_singleton_iff.mp only |>.resolve_right (by simp)
    simp at last
  · intro other admission ticket only
    rw [moved] at only
    obtain ⟨_, last⟩ := List.append_eq_singleton_iff.mp only |>.resolve_right (by simp)
    simp at last
  · intro other admission ticket answer both
    rw [moved] at both
    obtain ⟨first, last⟩ := List.append_inj' (both.trans (List.singleton_append ..).symm) rfl
    obtain ⟨rfl, rfl⟩ : process = other ∧ id = ticket := by
      have ops := congrArg Event.op (List.singleton_inj.mp last)
      exact Op.settlePendingSpend.inj ops
    obtain ⟨moment, _, _, named, fresh, ⟨trimmed, cleaned, rows⟩, others⟩ :=
      booked.taken process admission id first
    replace named : id ≠ "" := named
    have unnamed : ∀ entry ∈ trimmed, entry.id ≠ id := fun entry member => fresh entry (cleaned.mem member)
    intro one
    rw [changed]
    by_cases own : one = process
    · subst own
      rw [Function.update_self, rows, RollingCaps.settlePendingSpend, if_neg named]
      dsimp only
      rw [List.filter_append, filter_fresh unnamed]
      simpa [Admission.ticket] using cleaned.mono later
    · rw [Function.update_of_ne own, others one own]
      exact .inl rfl

theorem Booked.step (booked : Booked start before past) (step : smooth () before event after) :
    Booked start after (past ++ [event]) := by
  obtain ⟨moved, answered, drawn⟩ := step
  have later := moved.clock_le
  rcases moved.inflight_cases with ⟨same, quiet | raised⟩ | ⟨_, _, _, _, asked, changed⟩
    | ⟨_, _, asked, changed⟩
  · exact booked.untouched same later quiet
  · exact absurd answered raised
  · exact booked.checked later asked changed drawn
  · exact booked.settled later asked changed

end step

section call
variable {analysis : Analysis} {cfg : SpendGuardConfig} {request : Request} {world : World}
  {pool : GuardPool Unit}

theorem reaches_booked (reached : Pool.Reaches smooth (single analysis cfg request world) pool) :
    Booked world pool.world (pool.log.map Prod.snd) ∧ ∀ event ∈ pool.log.map Prod.snd, Wired event := by
  apply reached.invariant (fun after log => Booked world after (log.map Prod.snd) ∧
    ∀ event ∈ log.map Prod.snd, Wired event)
  · refine ⟨⟨le_rfl, fun _ => rfl, ?_, ?_, ?_⟩, ?_⟩
    all_goals simp [single, evaluations, Pool.init]
  · intro before after log thread event kept step
    obtain ⟨booked, wired⟩ := kept
    rw [List.map_append]
    refine ⟨booked.step step, fun other member => ?_⟩
    rcases List.mem_append.mp member with earlier | last
    · exact wired other earlier
    · rw [List.mem_singleton.mp last]
      exact step.1.wired step.2.1

theorem Restored.totals (restored : Restored world pool.world) (process : Nat) (agent : String) {now : Time}
    (later : pool.world.ambient.clock ≤ now) :
    inflightTotals agent now (pool.world.inflight process) =
      inflightTotals agent now (world.inflight process) := by
  rw [inflightTotals, (restored process).live later]
  rfl

theorem Registered.totals {process : Nat} {ticket : Ticket}
    (registered : Registered world pool.world process ticket)
    (agent : String) {now : Time} (later : pool.world.ambient.clock ≤ now)
    (current : now - inflightTtl ≤ ticket.admittedAt) :
    inflightTotals agent now (pool.world.inflight process) =
      (inflightTotals agent now (world.inflight process)).add (pendingSpendTotals agent [ticket]) := by
  obtain ⟨_, _, _, _, ⟨trimmed, cleaned, rows⟩, _⟩ := registered
  have kept : live now [ticket] = [ticket] := List.filter_eq_self.mpr fun entry member => by
    rw [List.mem_singleton.mp member]
    exact decide_eq_true current
  rw [inflightTotals, rows, inflightTotals, ← cleaned.live later, ← pendingSpendTotals_append]
  unfold live at kept ⊢
  rw [List.filter_append, kept]

theorem disabled_idle (disabled : cfg.enabled = false)
    (reached : Pool.Reaches smooth (single analysis cfg request world) pool) :
    pool.world.inflight = world.inflight := by
  have pass : Program.Ensures (fun _ _ => False) (fun _ _ => True) [] (evaluate analysis cfg request) := by
    rw [evaluate, if_pos disabled]
    trivial
  apply reached.invariant_of_contract (fun after _ => after.inflight = world.inflight) (fun _ => pass) rfl
  intro before after log thread event same performed
  exact performed.elim

/-- The balance of one evaluation that nothing raises in. The totals of every
process are those before the call when nothing is sent, and also when the guard
or the caps are off; a request that names its agent and is sent under the caps
adds one ticket with the projection of the bytes that are sent. -/
theorem ticket_balance (analysis : Analysis) (cfg : SpendGuardConfig) (request : Request) (world : World)
    {pool : GuardPool Unit} {outcome : GuardOutcome}
    (reached : Pool.Reaches smooth (single analysis cfg request world) pool)
    (finished : pool.threads () = .done (.ok outcome)) :
    (outcome.kind.sends = false ∨ cfg.enabled = false ∨ cfg.rollingCapsEnabled = false →
      ∀ process agent now, pool.world.ambient.clock ≤ now →
        inflightTotals agent now (pool.world.inflight process) = inflightTotals agent now (world.inflight process)) ∧
    (outcome.kind.sends = true → cfg.enabled = true → cfg.rollingCapsEnabled = true →
      agentId request.headers ≠ "" →
      (∀ directive ∈ directiveOf analysis request.body, directive.1.cancel = false) →
      ∃ body est id moment, outcome.body = some body ∧
        analysis.estimateAnchored body request.model request.sessionId = .ok est ∧
          outcome.admissionTicket = some id ∧
        Registered world pool.world request.process ((admissionOf cfg request est).ticket id moment) ∧
        ∀ agent now, pool.world.ambient.clock ≤ now → now - inflightTtl ≤ moment →
          inflightTotals agent now (pool.world.inflight request.process) =
            (inflightTotals agent now (world.inflight request.process)).add
              (pendingSpendTotals agent [(admissionOf cfg request est).ticket id moment])) := by
  have plain : Pool.Reaches (fun _ => World.Step) (single analysis cfg request world) pool :=
    reached.mono fun _ _ _ _ step => step.1
  obtain ⟨booked, wired⟩ := reaches_booked reached
  have tallied := reached.result (fun _ => evaluate_tallies analysis cfg request) finished
  rw [Pool.history_unit] at tallied
  replace tallied := tallied wired
  have unmoved (empty : moves (pool.log.map Prod.snd) = []) : Restored world pool.world := by
    intro process
    rw [booked.idle empty]
    exact .inl rfl
  have restored (returned : Returned cfg request (pool.log.map Prod.snd)) : Restored world pool.world := by
    rcases returned with empty | ⟨admission, breach, ticket, only⟩ | ⟨est, ticket, answer, both⟩
    · exact unmoved empty
    · exact booked.refused _ _ _ _ only
    · exact booked.returned _ _ _ _ both
  constructor
  · intro unsent process agent now later
    refine Restored.totals ?_ process agent later
    rcases unsent with kept | disabled | off
    · rw [kept] at tallied
      exact restored tallied
    · intro process
      rw [disabled_idle disabled reached]
      exact .inl rfl
    · split at tallied
      · rcases tallied with ⟨_, empty, _⟩ | ⟨enabled, _⟩
        · exact unmoved empty
        · simp [off] at enabled
      · exact restored tallied
  · intro sends enabled capped named uncancelled
    rw [sends] at tallied
    rcases tallied with ⟨uncapped, _, _⟩ | ⟨_, est, id, taken, carried, body, estimated, sent⟩
    · rcases uncapped with off | off | unnamed | ⟨directive, parsed, cancels⟩
      · simp [enabled] at off
      · simp [capped] at off
      · exact absurd unnamed named
      · simp [uncancelled directive parsed] at cancels
    · obtain ⟨moment, registered⟩ := booked.taken _ _ _ taken
      have bytes : outcome.body = some body := by
        rcases sent with sent | ⟨hold, consumed, looked, consume, sent, rfl⟩
        · exact sent
        · rw [← Pool.history_unit] at looked consume
          rw [sent, (HardStop.reaches_bytesFixed rfl plain).same (Pool.mem_history.mp looked) (Pool.mem_history.mp consume)]
      refine ⟨body, est, id, moment, bytes, estimated, carried, registered, fun agent now later current => ?_⟩
      exact registered.totals agent later current

end call

/-! A request of one dollar from an agent without usage. -/

def agentCall (capped : Bool) : Evaluation :=
  { analysis :=
      { parseAndStripTipHeader := fun _ => .ok none, parseIntent := fun _ => .ambiguous, hasHumanText := fun _ => true
        approvalFingerprint := fun _ => "", hashRequest := fun _ _ => "h"
        estimateAnchored := fun _ model _ => .ok ⟨model, 0, 1000, 1000, 500, 1, 0⟩
        getModelMaxContext := fun _ => .ok (some 200000) }
    cfg := { rollingCapsEnabled := capped }
    request := { body := [1], model := "m", sessionId := "s", headers := [("X-Tokenpak-Agent", "a")] } }

def measuredWorld : World :=
  { ambient :=
      { clock := 0, usage := fun _ _ => some ⟨0, 0, 0, 0, 0, 0⟩, cached := fun _ _ _ => none
        sessionCost := fun _ _ => 0, pendingId := "tpg_1", ticket := "adm_1" }
    holds := .empty, grants := fun _ => none, replies := [], inflight := fun _ => [], lastSweep := fun _ => 0 }

def sentCall (capped : Bool) : GuardPool Unit :=
  Pool.follow World.turn (List.replicate 9 ((), 1))
    (single (agentCall capped).analysis (agentCall capped).cfg (agentCall capped).request measuredWorld)

theorem sentCall_smooth (capped : Bool) : Pool.Reaches smooth
    (single (agentCall capped).analysis (agentCall capped).cfg (agentCall capped).request measuredWorld)
    (sentCall capped) := by
  cases capped with
  | true => exact Pool.follow_reaches_where (fun _ => World.turn_step) (by decide +kernel)
  | false => exact Pool.follow_reaches_where (fun _ => World.turn_step) (by decide +kernel)

def forwarded (ticket : Option String) : GuardOutcome :=
  { kind := .forward, body := some [1], admissionTicket := ticket
    decision := some ⟨.allow, .underThresholds, false, none, ⟨"m", 0, 1000, 1000, 500, 1, 0⟩⟩ }

theorem sentCall_finished : (sentCall true).threads () = .done (.ok (forwarded (some "adm_1"))) ∧
    (sentCall false).threads () = .done (.ok (forwarded none)) :=
  ⟨by with_unfolding_all rfl, by with_unfolding_all rfl⟩

theorem ticket_balance_sent : ∃ moment, Registered measuredWorld (sentCall true).world 0
    ((admissionOf (agentCall true).cfg (agentCall true).request ⟨"m", 0, 1000, 1000, 500, 1, 0⟩).ticket "adm_1" moment) := by
  have undirected : ∀ directive ∈ directiveOf (agentCall true).analysis (agentCall true).request.body,
      directive.1.cancel = false := fun directive parsed => nomatch parsed
  obtain ⟨body, est, id, moment, sent, estimated, carried, registered, _⟩ :=
    (ticket_balance _ _ _ measuredWorld
    (sentCall_smooth true) sentCall_finished.1).2 rfl rfl rfl (by decide) undirected
  obtain rfl := Except.ok.inj estimated
  obtain rfl : "adm_1" = id := Option.some.inj carried
  exact ⟨moment, registered⟩

/-- The totals after a call that was sent are those before with the projection of
the bytes sent, under the ticket of the outcome. -/
def Charged (call : Evaluation) (world after : World) (outcome : GuardOutcome) : Prop :=
  ∃ body est id moment, outcome.body = some body ∧
    call.analysis.estimateAnchored body call.request.model call.request.sessionId = .ok est ∧
    outcome.admissionTicket = some id ∧
    inflightTotals (agentId call.request.headers) after.ambient.clock (after.inflight call.request.process) =
      (inflightTotals (agentId call.request.headers) after.ambient.clock (world.inflight call.request.process)).add
        (pendingSpendTotals (agentId call.request.headers) [(admissionOf call.cfg call.request est).ticket id moment])

/-- Without rolling caps there is no ticket. -/
theorem uncapped_sends_untracked :
    ¬∀ (call : Evaluation) (world : World) (pool : GuardPool Unit) (outcome : GuardOutcome),
      Pool.Reaches smooth (single call.analysis call.cfg call.request world) pool →
      pool.threads () = .done (.ok outcome) → outcome.kind.sends = true →
          Charged call world pool.world outcome := by
  intro always
  obtain ⟨_, _, id, _, _, _, carried, _⟩ :=
    always (agentCall false) measuredWorld (sentCall false) _ (sentCall_smooth false)
    sentCall_finished.2 rfl
  cases carried

end TokenPak.SpendGuard.TicketBalance
