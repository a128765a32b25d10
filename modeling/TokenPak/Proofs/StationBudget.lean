import TokenPak.Dispatch.StationLoop

/-! The budgets of a station. Turns are bounded by the policy; tool calls are bounded when no turn
asks for more of them than are left. -/

namespace TokenPak.Dispatch.StationRunner
open Library Patch

/-- What a run has done: its turns, its tool calls, and the calls that the latest turn still asks for. -/
structure Tally where
  turns : Nat
  calls : Nat
  asked : Nat
  deriving DecidableEq

section Runs
variable {Args Payload Output : Type} (station : Station Output)

def authorized (request : WorkerToolRequest Args) : Bool :=
  match coerceTool request.tool with
  | none => false
  | some tool => (authorizeToolCall tool station.mode station.approvalGranted).toBool

/-- The tool calls that a turn asks for, up to the first one that is refused. -/
def wanted (requests : List (WorkerToolRequest Args)) : Nat :=
  (requests.takeWhile (authorized station)).length

def Tally.count (tally : Tally) : (op : StationOp Args Output) → StationReply Payload op → Tally
  | .isCancelled, _ => tally
  | .spendGuard, _ => tally
  | .runTurn .., turn =>
      ⟨tally.turns + 1, tally.calls, if turn.fatalError then 0
        else wanted station turn.toolRequests⟩
  | .toolRunner _, _ => ⟨tally.turns, tally.calls + 1, tally.asked - 1⟩

/-- The spend guard lets a turn through only under a policy with a turn in it, and a turn that is
not cancelled asks for no more tool calls than are left. -/
def Modest (policy : StationLoopPolicy) (tally : Tally) :
    (op : StationOp Args Output) → StationReply Payload op → Prop
  | .isCancelled, cancelled => cancelled = false → (tally.calls + tally.asked : Int) ≤ policy.maxToolCalls
  | .spendGuard, left => 0 < left → 1 ≤ policy.maxIterations
  | .runTurn .., _ => True
  | .toolRunner _, _ => True

def Answers (tally : Tally) (op : StationOp Args Output) (reply : StationReply Payload op)
    (after : Tally) : Prop :=
  tally.count station op reply = after ∧ Modest station.policy tally op reply

def Within (policy : StationLoopPolicy) (tally : Tally) : Prop :=
  (tally.calls : Int) ≤ policy.maxToolCalls ∧ (tally.turns : Int) ≤ policy.maxIterations

variable {station} {tally : Tally} {progress : Progress Payload Output}

theorem wanted_cons_of_authorized {request : WorkerToolRequest Args}
    {requests : List (WorkerToolRequest Args)}
    (allowed : authorized station request = true) :
    wanted station (request :: requests) = wanted station requests + 1 := by
  simp [wanted, allowed]

/-- The tools of a turn are called within the budget when all that it asks for are. -/
theorem callTools_within {tools : ToolCalls Output} {requests : List (WorkerToolRequest Args)}
    (calls : tally.calls = tools.count)
    (asked : tally.asked = wanted station requests)
    (left : (tally.calls + tally.asked : Int) ≤ station.policy.maxToolCalls)
    (turns : (tally.turns : Int) ≤ station.policy.maxIterations) :
    (callTools station tools requests : StationProgram Args Payload Output _).Sustains (Answers station) (Within station.policy)
      (fun after result => after.turns = tally.turns ∧ after.calls = result.2.count ∧
          (result.1 = .called → after.asked = 0)) tally := by
  induction requests generalizing tally tools with
  | nil => exact ⟨⟨by omega, turns⟩, rfl, calls, fun _ => asked⟩
  | cons request requests ih =>
    have within : Within station.policy tally := ⟨by omega, turns⟩
    unfold callTools
    split
    next unknown => exact ⟨within, rfl, calls, by simp⟩
    next tool known =>
      split
      next refused => exact ⟨within, rfl, calls, by simp⟩
      next permission granted =>
        have allowed : authorized station request = true := by
          simp [authorized, known, granted, Except.toBool]
        rw [wanted_cons_of_authorized allowed] at asked
        refine ⟨within, ?_⟩
        rintro output after ⟨rfl, _⟩
        have rest := @ih (tally.count station (.toolRunner request) output)
          ⟨tools.count + 1, tools.effectIds ++ (station.effectIdOf output).toList, tools.outputs ++ [output]⟩
          (by simp [Tally.count, calls]) (by simp [Tally.count, asked])
            (by simp only [Tally.count]; omega) turns
        exact rest

variable {before : Nat} {taken : Progress Payload Output} {turn : WorkerTurn Args Payload}

/-- All calls that were asked for are made, and as many turns taken as the progress says. -/
def Settled (tally : Tally) (progress : Progress Payload Output) : Prop :=
  tally.calls = progress.tools.count ∧ tally.asked = 0 ∧ tally.turns = progress.iteration

theorem finishTurn_within (one_more : taken.iteration = before + 1) (calls : tally.calls = taken.tools.count)
    (asked : tally.asked = wanted station turn.toolRequests) (turns : tally.turns = taken.iteration)
    (left : (tally.calls + tally.asked : Int) ≤ station.policy.maxToolCalls)
    (within : Within station.policy tally) :
    (finishTurn station before taken one_more turn).Sustains (Answers station) (Within station.policy)
      (fun after ended =>
          ∀ next turn left, ended = .continued next turn left → Settled after next) tally := by
  unfold finishTurn
  apply Program.Sustains.bind
  apply (callTools_within calls asked left within.2).mono
  rintro after ⟨ended, tools⟩ stays ⟨same_turns, same_calls, all_called⟩
  cases ended with
  | unknown => exact ⟨stays, by simp⟩
  | violation => exact ⟨stays, by simp⟩
  | called =>
    dsimp only
    split
    next condition stopped => exact ⟨stays, by simp⟩
    next continues =>
      refine ⟨stays, ?_⟩
      intro next turn left same
      cases same
      exact ⟨same_calls, all_called rfl, same_turns.trans turns⟩

theorem round_within (settled : Settled tally progress) (within : Within station.policy tally)
    (open_turn : progress.iteration = 0 ∨ (progress.iteration : Int) < station.policy.maxIterations) :
    (round station progress : StationProgram Args Payload Output _).Sustains (Answers station)
    (Within station.policy)
      (fun after ended =>
          ∀ next turn left, ended = .continued next turn left → Settled after next) tally := by
  obtain ⟨calls, _, turns⟩ := settled
  refine ⟨within, ?_⟩
  rintro cancelled after ⟨rfl, _⟩
  cases cancelled with
  | true => exact ⟨within, by simp⟩
  | false =>
    refine ⟨within, ?_⟩
    rintro spend after ⟨rfl, guarded⟩
    change Program.Sustains _ _ _ (if spend ≤ 0 then _ else _) _
    by_cases spent : spend ≤ 0
    · rw [if_pos spent]
      exact ⟨within, by simp⟩
    · rw [if_neg spent]
      have possible : 1 ≤ station.policy.maxIterations := guarded (Int.not_le.mp spent)
      refine ⟨within, ?_⟩
      rintro turn after ⟨rfl, _⟩
      have taken : Within station.policy (Tally.count station tally (.runTurn progress.tools.outputs (progress.iteration + 1)) turn) := by
        refine ⟨within.1, ?_⟩
        simp only [Tally.count, turns]
        omega
      refine ⟨taken, ?_⟩
      rintro late after ⟨rfl, modest⟩
      cases late with
      | true => exact ⟨taken, by simp⟩
      | false =>
        have asked := modest rfl
        change Program.Sustains _ _ _ (if turn.fatalError = true then _ else _) _
        by_cases fatal : turn.fatalError = true
        · rw [if_pos fatal]
          exact ⟨taken, by simp⟩
        · rw [if_neg fatal]
          have all : (Tally.count station tally (.runTurn progress.tools.outputs (progress.iteration + 1)) turn).asked =
              wanted station turn.toolRequests := if_neg fatal
          exact finishTurn_within rfl calls all (by simp [Tally.count, turns]) asked taken

theorem runLoop_within (settled : Settled tally progress) (within : Within station.policy tally)
    (open_turn : progress.iteration = 0 ∨ (progress.iteration : Int) < station.policy.maxIterations) :
    (runLoop station progress : StationProgram Args Payload Output _).Sustains (Answers station)
    (Within station.policy)
      (fun _ _ => True) tally := by
  induction left : (station.policy.maxIterations - progress.iteration).toNat using Nat.strong_induction_on generalizing tally progress with
  | h n ih =>
    rw [runLoop]
    apply Program.Sustains.bind
    apply (round_within settled within open_turn).mono
    intro after ended stays continued
    cases ended with
    | ended outcome => exact ⟨stays, trivial⟩
    | raised => exact ⟨stays, trivial⟩
    | continued next turn more =>
      exact ih _ (by rw [← left]; exact fewer_left turn more.1)
        (continued next turn more rfl) stays (.inr more.1) rfl

/-- In a run of modest answers neither budget is exceeded, wherever the run is stopped. -/
theorem tool_budget (station : Station Output) (calls : 0 ≤ station.policy.maxToolCalls)
    (turns : 0 ≤ station.policy.maxIterations)
    {final : Tally} (stops : Program.Stops (Answers station) (run station : StationProgram Args Payload Output _) ⟨0, 0, 0⟩ final) :
    (final.calls : Int) ≤ station.policy.maxToolCalls ∧
      (final.turns : Int) ≤ station.policy.maxIterations := by
  have within : Within station.policy ⟨0, 0, 0⟩ := ⟨calls, turns⟩
  suffices sustains : (run station : StationProgram Args Payload Output _).Sustains (Answers station) (Within station.policy)
      (fun _ _ => True) ⟨0, 0, 0⟩ from sustains.stopped stops
  refine ⟨within, ?_⟩
  rintro cancelled after ⟨rfl, _⟩
  cases cancelled with
  | true => exact ⟨within, trivial⟩
  | false => exact runLoop_within ⟨rfl, rfl, rfl⟩ within (.inl rfl)

end Runs

section Scenarios

def frugal : Station Unit where
  runId := "run"
  stationRunId := "draft"
  policy := ⟨2, 1, 600⟩
  mode := .advisory
  approvalGranted := false
  effectIdOf _ := none

def reading (count : Nat) : WorkerTurn Unit Unit :=
  ⟨List.replicate count ⟨"read_context", ()⟩, none, false, false, 0, 0⟩

abbrev FrugalProgram := StationProgram Unit Unit Unit

def Counted (tally : Tally) (op : StationOp Unit Unit) (reply : StationReply Unit op)
    (after : Tally) : Prop :=
  tally.count frugal op reply = after

theorem single_reading_stops :
    Program.Stops (Answers frugal) (run frugal : FrugalProgram _) ⟨0, 0, 0⟩ ⟨1, 1, 0⟩ := by
  apply Program.Stops.step (⟨rfl, by simp [Modest, frugal]⟩ : Answers frugal ⟨0, 0,
    0⟩ .isCancelled false ⟨0, 0, 0⟩)
  change Program.Stops _ (runLoop frugal Progress.initial) _ _
  rw [runLoop]
  apply Program.Stops.step (⟨rfl, by simp [Modest, frugal]⟩ : Answers frugal ⟨0, 0,
    0⟩ .isCancelled false ⟨0, 0, 0⟩)
  apply Program.Stops.step (⟨rfl, by simp [Modest, frugal]⟩ : Answers frugal ⟨0, 0,
    0⟩ .spendGuard (1 : Int) ⟨0, 0, 0⟩)
  apply Program.Stops.step (⟨rfl, trivial⟩ : Answers frugal ⟨0, 0, 0⟩ (.runTurn [] 1) (reading 1) ⟨1, 0, 1⟩)
  apply Program.Stops.step (⟨rfl, by simp [Modest, frugal]⟩ : Answers frugal ⟨1, 0,
    1⟩ .isCancelled false ⟨1, 0, 1⟩)
  apply Program.Stops.step (⟨rfl, trivial⟩ : Answers frugal ⟨1, 0,
    1⟩ (.toolRunner ⟨"read_context", ()⟩) () ⟨1, 1, 0⟩)
  exact .here

theorem single_reading_within :
    ((1 : Nat) : Int) ≤ frugal.policy.maxToolCalls ∧
    ((1 : Nat) : Int) ≤ frugal.policy.maxIterations :=
  tool_budget frugal (by decide) (by decide) single_reading_stops

/-- A turn may ask for more tools than the policy allows, and gets them. -/
theorem readings_over_budget :
    Program.Stops Counted (run frugal : FrugalProgram _) ⟨0, 0, 0⟩
    ⟨1, 2, 0⟩ ∧ frugal.policy.maxToolCalls < ((2 : Nat) : Int) := by
  refine ⟨?_, by decide⟩
  apply Program.Stops.step (rfl : Counted ⟨0, 0, 0⟩ .isCancelled false ⟨0, 0, 0⟩)
  change Program.Stops _ (runLoop frugal Progress.initial) _ _
  rw [runLoop]
  apply Program.Stops.step (rfl : Counted ⟨0, 0, 0⟩ .isCancelled false ⟨0, 0, 0⟩)
  apply Program.Stops.step (rfl : Counted ⟨0, 0, 0⟩ .spendGuard (1 : Int) ⟨0, 0, 0⟩)
  apply Program.Stops.step (rfl : Counted ⟨0, 0, 0⟩ (.runTurn [] 1) (reading 2) ⟨1, 0, 2⟩)
  apply Program.Stops.step (rfl : Counted ⟨1, 0, 2⟩ .isCancelled false ⟨1, 0, 2⟩)
  apply Program.Stops.step (rfl : Counted ⟨1, 0, 2⟩ (.toolRunner ⟨"read_context", ()⟩) () ⟨1, 1, 1⟩)
  apply Program.Stops.step (rfl : Counted ⟨1, 1, 1⟩ (.toolRunner ⟨"read_context", ()⟩) () ⟨1, 2, 0⟩)
  exact .here

end Scenarios
end TokenPak.Dispatch.StationRunner
