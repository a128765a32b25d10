import TokenPak.Dispatch.Lease
import TokenPak.Proofs.DeliveryReview
import TokenPak.Proofs.CallProtocol

/-! A run that has ended keeps its status, as long as every call that writes the run
record still holds the lease. What the holder knows of the record is then what is
recorded, and no call writes another status over a final one that it knows. -/

namespace TokenPak.Dispatch
open Library

def Ledger.KeepsEnd (ledger after : Ledger) : Prop :=
  ∀ run, ledger.run = some run → run.status.Terminal → ∃ later, after.run = some later ∧
    later.status = run.status

theorem Ledger.KeepsEnd.of_same {ledger after : Ledger} (same : after.run = ledger.run) :
    ledger.KeepsEnd after :=
  fun run recorded _ => ⟨run, same.trans recorded, rfl⟩

theorem Ledger.KeepsEnd.trans {first second third : Ledger} (one : first.KeepsEnd second)
    (two : second.KeepsEnd third) :
    first.KeepsEnd third := by
  intro run recorded terminal
  obtain ⟨later, kept, same⟩ := one run recorded terminal
  obtain ⟨last, also, again⟩ := two later kept (same ▸ terminal)
  exact ⟨last, also, again.trans same⟩

theorem Ledger.Answers.run_kept {ledger after : Ledger} {op : Op} {reply : Reply op}
    (answered : ledger.Answers op reply after)
    (apart : ∀ run, op ≠ .writeRun run) : after.run = ledger.run := by
  by_cases quiet : op.Quiet
  · exact (answered.quiet quiet).1
  · cases op with
    | writeRun run => exact absurd rfl (apart run)
    | writeStationRun row =>
      cases answered
      rfl
    | _ => exact absurd trivial quiet

section contention
variable {Owner : Type} [DecidableEq Owner] {calls : Calls Owner} {site after : Site Owner} {owner : Owner}
  {log : List (Owner × Event Op Reply)}

/-- Whoever writes the run record holds the lease of the run. -/
def abiding (owner : Owner) (site : Site Owner) (event : Event Op Reply) (after : Site Owner) : Prop :=
  contended owner site event after ∧ ∀ run, event.op = .writeRun run → site.HeldBy owner

def Calls.state (calls : Calls Owner) (log : List (Owner × Event Op Reply)) (owner : Owner) : Call :=
  (callProtocol (calls owner).1).after (.start (calls owner).1 (calls owner).2) (Pool.history owner log)

/-- The holder of the lease knows the run as it is recorded. -/
def Informed (calls : Calls Owner) (site : Site Owner) (log : List (Owner × Event Op Reply)) : Prop :=
  ∀ owner, site.HeldBy owner → ∀ known, (calls.state log owner).known = some known → known = site.ledger.run

theorem Calls.state_own (event : Event Op Reply) :
    calls.state (log ++ [(owner, event)]) owner =
      (calls.state log owner).next (calls owner).1 event.op event.reply := by
  rw [Calls.state, Pool.history_snoc, if_pos rfl, Protocol.after, List.foldl_append]
  rfl

theorem Calls.state_other {other : Owner} (apart : owner ≠ other) (event : Event Op Reply) :
    calls.state (log ++ [(owner, event)]) other = calls.state log other := by
  rw [Calls.state, Pool.history_snoc, if_neg apart, Calls.state]

omit [DecidableEq Owner] in
theorem Site.HeldBy.unique {other : Owner} (held : site.HeldBy owner) (also : site.HeldBy other) :
    owner = other := by
  obtain ⟨lease, member, rfl⟩ := held
  obtain ⟨second, present, rfl⟩ := also
  rw [Option.some.inj (member.symm.trans present)]

/-- What a claim leaves: the lease that stood, or one of the claimer's own. -/
theorem tryClaimRunLease_cases (owner : Owner) (now : Int) (lease : Option (Lease Owner)) :
    (Dispatch.tryClaimRunLease owner now lease = (true, some ⟨owner, now⟩)) ∨
      ∃ standing, lease = some standing ∧
          Dispatch.tryClaimRunLease owner now lease = (decide (standing.owner = owner),
          some standing) := by
  unfold Dispatch.tryClaimRunLease
  split
  next => exact .inl rfl
  next standing found => exact .inr ⟨standing, (Option.filter_eq_some_iff.mp found).1, rfl⟩

theorem Informed.claim {claimed : Bool} (informed : Informed calls site log)
    (served : site.Serves owner .tryClaimRunLease claimed after) :
    Informed calls after (log ++ [(owner, ⟨.tryClaimRunLease, claimed⟩)]) := by
  obtain ⟨rfl, rfl⟩ := served
  intro other held known knows
  by_cases same : owner = other
  · subst same
    rw [Calls.state_own] at knows
    rcases tryClaimRunLease_cases owner site.now site.lease with granted | ⟨standing, stood, answer⟩
    · rw [granted] at knows
      cases knows
    · obtain ⟨lease, member, own⟩ := held
      have kept : some lease = some standing := member.symm.trans (congrArg Prod.snd answer)
      cases kept
      rw [answer, own] at knows
      simp [Call.next] at knows
  · rw [Calls.state_other same] at knows
    refine informed other ?_ known knows
    obtain ⟨lease, member, own⟩ := held
    rcases tryClaimRunLease_cases owner site.now site.lease with granted | ⟨standing, stood, answer⟩
    · have new : some lease = some ⟨owner, site.now⟩ := member.symm.trans (congrArg Prod.snd granted)
      cases new
      exact absurd own same
    · have kept : some lease = some standing := member.symm.trans (congrArg Prod.snd answer)
      exact ⟨lease, stood.trans kept.symm, own⟩

theorem Call.next_known {route : Route} {call : Call} {op : Op} (reply : Reply op) (leasing : ¬ op.Leasing)
    (apart : ∀ run, op ≠ .writeRun run) :
    (call.next route op reply).known = call.known ∨ op = .readRun := by
  cases op with
  | tryClaimRunLease | releaseRunLease => exact absurd trivial leasing
  | writeRun run => exact absurd rfl (apart run)
  | readRun => exact .inr rfl
  | readStationRuns | writeStationRun | readEffects | markEffectApplied | writeDecision | writeLateResult | writeReceipt
  | hashWorkspace | uuid | isCancelled | work | review => exact .inl rfl

theorem Informed.ledger {op : Op} {reply : Reply op} (informed : Informed calls site log)
    (leasing : ¬ op.Leasing)
    (served : site.Serves owner op reply after) (abides : ∀ run, op = .writeRun run → site.HeldBy owner) :
    Informed calls after (log ++ [(owner, ⟨op, reply⟩)]) := by
  obtain ⟨answered, lease, -⟩ := (Site.serves_ledger leasing).mp served
  intro other held known knows
  have before : site.HeldBy other := by
    rw [Site.HeldBy, ← lease]
    exact held
  by_cases writes : ∃ run, op = .writeRun run
  · -- Only the holder writes, and it knows what it wrote.
    obtain ⟨run, rfl⟩ := writes
    obtain rfl : owner = other := (abides run rfl).unique before
    rw [Calls.state_own] at knows
    cases knows
    rw [show after.ledger = { site.ledger with run := some run } from answered]
  · push Not at writes
    rw [answered.run_kept writes]
    by_cases same : owner = other
    · subst same
      rw [Calls.state_own] at knows
      rcases Call.next_known reply leasing writes with kept | rfl
      · exact informed owner before known (kept.symm.trans knows)
      · obtain ⟨rfl, -⟩ := answered
        dsimp only [Call.next] at knows
        split at knows
        · cases knows
          rfl
        · exact informed owner before known knows
    · rw [Calls.state_other same] at knows
      exact informed other before known knows

theorem Informed.lapse {served : Site Owner} (informed : Informed calls served log)
    (lapses : served.Lapses after) :
    Informed calls after log := by
  obtain ⟨ledger, lease | gone, -⟩ := lapses
  · intro other held known knows
    rw [ledger]
    refine informed other ?_ known knows
    rw [Site.HeldBy, ← lease]
    exact held
  · rintro other ⟨lease, member, -⟩
    rw [gone] at member
    cases member

theorem Informed.step {event : Event Op Reply} (informed : Informed calls site log)
    (allowed : (calls.state log owner).Allows event.op) (acts : abiding owner site event after) :
    Informed calls after (log ++ [(owner, event)]) ∧ site.ledger.KeepsEnd after.ledger := by
  obtain ⟨op, reply⟩ := event
  obtain ⟨⟨served, serves, lapses⟩, abides⟩ := acts
  rw [lapses.1]
  by_cases leasing : op.Leasing
  · cases op with
    | tryClaimRunLease =>
      refine ⟨(informed.claim serves).lapse lapses, .of_same ?_⟩
      rw [serves.2]
    | releaseRunLease =>
      obtain rfl : served = _ := serves
      refine ⟨Informed.lapse ?_ lapses, .of_same rfl⟩
      intro other held known knows
      refine informed other ?_ known ?_
      · obtain ⟨lease, member, own⟩ := held
        exact ⟨lease, (Option.filter_eq_some_iff.mp member).1, own⟩
      · by_cases same : owner = other
        · subst same
          rwa [Calls.state_own] at knows
        · rwa [Calls.state_other same] at knows
    | _ => exact leasing.elim
  · refine ⟨(informed.ledger leasing serves abides).lapse lapses, ?_⟩
    obtain ⟨answered, -, -⟩ := (Site.serves_ledger leasing).mp serves
    by_cases writes : ∃ run, op = .writeRun run
    · obtain ⟨run, rfl⟩ := writes
      obtain ⟨known, knows, lawful⟩ := allowed
      intro old recorded terminal
      have same : known = some old := (informed owner (abides run rfl) known knows).trans recorded
      exact ⟨run, congrArg Ledger.run answered, lawful old same terminal⟩
    · push Not at writes
      exact .of_same (answered.run_kept writes)

end contention

/-- In every interleaving of calls on a run in which each call that writes the run
record still holds its lease, a final status never changes. -/
theorem terminal_status_final {Owner : Type} [DecidableEq Owner] (runId : String)
    (calls : Calls Owner) (site : Site Owner)
    (before after : Contention Owner) (earlier : Pool.Reaches abiding (calls.open runId site) before)
    (later : Pool.Reaches abiding before after) : before.world.ledger.KeepsEnd after.world.ledger := by
  have contract (owner : Owner) : ((calls.open runId site).threads owner).Ensures
      (fun past op => ((callProtocol (calls owner).1).after (.start (calls owner).1 (calls owner).2) past).Allows op)
      (fun _ _ => True) (Pool.history owner []) := by
    have conforms : ((calls owner).2.program runId (calls owner).1).Conforms (callProtocol (calls owner).1) (fun _ _ => True)
        ((callProtocol (calls owner).1).after (.start (calls owner).1 (calls owner).2) []) :=
          request_conforms _ _ _
    exact conforms.ensures
  have started : Informed calls site [] := by
    intro owner _ known knows
    cases request : (calls owner).2 <;> simp [Calls.state, Protocol.after, Call.start, request] at knows
  have informed : Informed calls before.world before.log :=
    earlier.invariant_of_contract (Informed calls) contract started fun _ _ _ _ _ informed allowed acts =>
      (informed.step allowed acts).1
  have kept : Informed calls after.world after.log ∧ before.world.ledger.KeepsEnd after.world.ledger :=
    later.invariant_of_contract (fun world log => Informed calls world log ∧
      before.world.ledger.KeepsEnd world.ledger)
      (earlier.ensures contract) ⟨informed, .of_same rfl⟩ fun _ _ _ _ _ kept allowed acts =>
        ⟨(kept.1.step allowed acts).1, kept.2.trans (kept.1.step allowed acts).2⟩
  exact kept.2

/-! Two calls on one run: the first runs its only station, the second resumes. -/

def Op.writesRun : Op → Bool
  | .writeRun _ => true
  | _ => false

/-- The answers of a scene to calls that write the run record only under the lease. -/
def Scene.abide {Owner : Type} [DecidableEq Owner] (scene : Scene) (owner : Owner) (turn : Turn)
    (site : Site Owner)
    (op : Op) : Option (Reply op × Site Owner) :=
  if op.writesRun = true ∧ ¬ site.HeldBy owner then none else scene.serve owner turn site op

theorem Scene.abide_sound {Owner : Type} [DecidableEq Owner] (scene : Scene) (owner : Owner) (turn : Turn)
    (site : Site Owner) (op : Op) (reply : Reply op) (after : Site Owner)
    (answered : scene.abide owner turn site op = some (reply, after)) :
    abiding owner site ⟨op, reply⟩ after := by
  unfold Scene.abide at answered
  split at answered
  · cases answered
  · next held =>
    refine ⟨scene.serve_sound _ _ _ _ _ _ answered, ?_⟩
    rintro run rfl
    by_contra lost
    exact held ⟨rfl, lost⟩

def unreviewedRoute : Route where
  id := "route.build"
  stations := [⟨"build", some "builder", none, "station_result.v1"⟩]
  delivery := fun _ => true

def twoCalls : Calls Bool := fun resumes =>
  (unreviewedRoute, if resumes then .resume sampleManifest else .run sampleManifest)

def vacantSite : Site Bool := ⟨.empty, none, 0⟩

def turns (owner : Bool) (id : String) (count : Nat) : List (Bool × Turn) := .replicate count (owner, ⟨id, 1⟩)

/-- A resume of a run that was delivered leaves it delivered. -/
theorem terminal_status_final_resumed :
    ∃ before after, Pool.Reaches abiding (twoCalls.open "run_1" vacantSite) before ∧
      Pool.Reaches abiding before after ∧
      before.world.ledger.run.map Run.status = some .delivered ∧
          before.world.ledger.KeepsEnd after.world.ledger := by
  have played : ((Pool.attend (judgedScene .pass).abide (turns false "stationrun_1" 15)
      (twoCalls.open "run_1" vacantSite)).bind fun before =>
        (Pool.attend (judgedScene .pass).abide (turns true "stationrun_2" 5) before).bind fun _ =>
          before.world.ledger.run.map Run.status) = some .delivered := by decide +kernel
  obtain ⟨before, first, rest⟩ := Option.bind_eq_some_iff.mp played
  obtain ⟨after, second, delivered⟩ := Option.bind_eq_some_iff.mp rest
  have earlier := Pool.attend_reaches (judgedScene .pass).abide_sound first
  have later := Pool.attend_reaches (judgedScene .pass).abide_sound second
  exact ⟨before, after, earlier, later, delivered,
    terminal_status_final "run_1" twoCalls vacantSite before after earlier later⟩

/-- The first call works for over an hour. Its lease is reclaimed by the second, which
delivers the run; then the first writes the run as it knew it. -/
theorem reclaimed_lease_reopens :
    ∃ before after, Pool.Reaches contended (twoCalls.open "run_1" vacantSite) before ∧
      Pool.Reaches contended before after ∧ before.world.ledger.run.map Run.status = some .delivered ∧
      after.world.ledger.run.map Run.status = some .running := by
  have played : ((Pool.attend (judgedScene .pass).serve
      (turns false "stationrun_1" 7 ++ [(false, ⟨"stationrun_1", 3601⟩)] ++ turns true "stationrun_2" 20)
      (twoCalls.open "run_1" vacantSite)).bind fun before =>
        (Pool.attend (judgedScene .pass).serve (turns false "stationrun_1" 2) before).map fun after =>
          (before.world.ledger.run.map Run.status, after.world.ledger.run.map Run.status)) =
      some (some .delivered, some .running) := by decide +kernel
  obtain ⟨before, first, rest⟩ := Option.bind_eq_some_iff.mp played
  obtain ⟨after, second, ended⟩ := Option.map_eq_some_iff.mp rest
  obtain ⟨delivered, reopened⟩ := Prod.mk.inj ended
  exact ⟨before, after, Pool.attend_reaches (judgedScene .pass).serve_sound first,
    Pool.attend_reaches (judgedScene .pass).serve_sound second, delivered, reopened⟩

end TokenPak.Dispatch
