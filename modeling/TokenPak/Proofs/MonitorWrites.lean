import Mathlib.Data.List.Nodup
import TokenPak.Monitor.WritePath

/-! Exactly-once recording of `log` calls. A call has one handler: its caller, or
the pass that took it from the queue. A handler settles the call once, by a row or
by a drop. What this cannot give is the number of rows: a handler whose commit
failed leaves its row on the shared connection until its own rollback. -/

namespace TokenPak.Monitor
open Library

/-! What one section does. -/

namespace WriteState

theorem getDbConnection_frame (path : String) (state : WriteState) :
    (state.getDbConnection path).2.committed = state.committed ∧
      (state.getDbConnection path).2.queue = state.queue ∧
      (state.getDbConnection path).2.dropped = state.dropped := by
  unfold getDbConnection
  split
  · split <;> exact ⟨rfl, rfl, rfl⟩
  · exact ⟨rfl, rfl, rfl⟩

theorem getDbConnection_open {path : String} {state : WriteState}
    (connected : state.connection.map Prod.snd = some path) :
    (state.getDbConnection path).2 = state := by
  obtain ⟨⟨connection, current⟩, found, rfl⟩ := Option.map_eq_some_iff.mp connected
  simp [getDbConnection, found]

theorem failure_ne_written (transient : Bool) (connection : Option Nat) :
    failure transient connection ≠ .written := by
  cases transient <;> simp [failure]

theorem write_cases (path : String) (fault : Fault) (call : Call) (state : WriteState) :
    state.write path fault call = (.written, (state.getDbConnection path).2.commit call) ∨
      ((state.write path fault call).1 ≠ .written ∧
        (state.write path fault call).2.committed = state.committed ∧
        (state.write path fault call).2.queue = state.queue ∧ (state.write path fault call).2.dropped = state.dropped) := by
  have frame := getDbConnection_frame path state
  cases fault with
  | connect transient =>
    by_cases connected : state.connection.map Prod.snd = some path
    · left
      simp [write, connected, getDbConnection_open connected]
    · right
      simp [write, connected, failure_ne_written]
  | execute transient => exact .inr ⟨failure_ne_written _ _, frame⟩
  | commit transient => exact .inr ⟨failure_ne_written _ _, frame⟩
  | none => exact .inl rfl
  | refuse => exact .inl rfl
  | rollback => exact .inl rfl

/-- A writer that enters the locked section finds no row of an open transaction
there. -/
def Clear (path : Call → String) (state : WriteState) : WriteOp → Prop
  | .write call => (state.getDbConnection (path call)).2.staged = []
  | _ => True

instance (path : Call → String) (state : WriteState) : (op : WriteOp) → Decidable (state.Clear path op)
  | .write call => inferInstanceAs (Decidable ((state.getDbConnection (path call)).2.staged = []))
  | .put _ => isTrue trivial
  | .get => isTrue trivial
  | .rollback _ => isTrue trivial
  | .recordDroppedRow _ => isTrue trivial

end WriteState

/-! What a writer has done to a call. -/

def settlement : WriteEvent → Option (Call × Outcome)
  | ⟨.write call, .written⟩ => some (call, .written)
  | ⟨.recordDroppedRow call, ()⟩ => some (call, .dropped)
  | _ => none

def settlements (past : List WriteEvent) : List (Call × Outcome) := past.filterMap settlement

/-- The event that makes a writer the handler of a call. -/
def assignment (call : Call) : Writer → WriteEvent
  | .log _ => ⟨.put call, false⟩
  | .pass _ => ⟨.get, some call⟩

/-- The writer's first section gave it the call. -/
def Handles (writer : Writer) (call : Call) (past : List WriteEvent) : Prop :=
  past.head? = some (assignment call writer) ∧ ∀ own, writer = .log own → own = call

/-- What a writer may do next: take a call first, then settle it once. -/
def Permitted (writer : Writer) (past : List WriteEvent) : WriteOp → Prop
  | .put call => writer = .log call ∧ past = []
  | .get => (∃ number, writer = .pass number) ∧ past = []
  | .write call => Handles writer call past ∧ settlements past = []
  | .rollback _ => past ≠ []
  | .recordDroppedRow call => Handles writer call past ∧ settlements past = []

def Finished (writer : Writer) (past : List WriteEvent) : Result → Prop
  | .queued => ∃ call, writer = .log call ∧ past = [⟨.put call, true⟩]
  | .idle => (∃ number, writer = .pass number) ∧ past = [⟨.get, none⟩]
  | .handled call outcome => Handles writer call past ∧ settlements past = [(call, outcome)]

variable {writer : Writer} {call : Call} {past : List WriteEvent}

theorem Handles.snoc (handles : Handles writer call past) (event : WriteEvent) :
    Handles writer call (past ++ [event]) := by
  constructor
  · rw [List.head?_append, handles.1]
    rfl
  · exact handles.2

theorem Handles.nonempty (handles : Handles writer call past) : past ≠ [] := by
  rintro rfl
  cases handles.1

theorem settlements_snoc (past : List WriteEvent) (event : WriteEvent) :
    settlements (past ++ [event]) = settlements past ++ (settlement event).toList := by
  rw [settlements, List.filterMap_append]
  cases found : settlement event <;> simp [found, settlements]

variable {event : WriteEvent} {path : Call → String} {state after : WriteState}

theorem settlements_quiet (unsettled : settlements past = []) (quiet : settlement event = none) :
    settlements (past ++ [event]) = [] := by
  rw [settlements_snoc, unsettled, quiet]
  rfl

theorem writeRow_ensures (attempts : Nat) (handles : Handles writer call past)
    (unsettled : settlements past = []) :
    (writeRow call attempts).Ensures (Permitted writer)
      (fun later returned => Handles writer call later ∧
        settlements later = if returned then [(call, .written)] else []) past := by
  induction attempts generalizing past with
  | zero => exact ⟨handles, unsettled⟩
  | succ attempts ih =>
    apply And.intro ⟨handles, unsettled⟩
    intro reply
    cases reply with
    | written =>
      apply And.intro (handles.snoc _)
      rw [settlements_snoc, unsettled]
      rfl
    | fatal => exact ⟨handles.snoc _, settlements_quiet unsettled rfl⟩
    | locked connection =>
      have held := handles.snoc ⟨.write call, .locked connection⟩
      have still : settlements (past ++ [⟨.write call, .locked connection⟩]) = [] :=
        settlements_quiet unsettled rfl
      cases connection with
      | none => exact ih held still
      | some connection =>
        apply And.intro held.nonempty
        intro undone
        cases undone with
        | attempted => exact ih (held.snoc _) (settlements_quiet still rfl)
        | closed => exact ⟨held.snoc _, settlements_quiet still rfl⟩

theorem handle_ensures (handles : Handles writer call past) (unsettled : settlements past = []) :
    (handle call).Ensures (Permitted writer) (Finished writer) past := by
  apply Program.Ensures.bind (writeRow_ensures dbWriteRetryAttempts handles unsettled)
  intro later returned written
  cases returned with
  | true => exact written
  | false =>
    apply And.intro written
    intro _
    apply And.intro (written.1.snoc _)
    rw [settlements_snoc, written.2]
    rfl

theorem program_ensures (writer : Writer) : writer.program.Ensures (Permitted writer)
    (Finished writer) [] := by
  cases writer with
  | log call =>
    apply And.intro ⟨rfl, rfl⟩
    intro accepted
    cases accepted with
    | true => exact ⟨call, rfl, rfl⟩
    | false => exact handle_ensures ⟨rfl, fun own same => (Writer.log.inj same).symm⟩ rfl
  | pass number =>
    apply And.intro ⟨⟨number, rfl⟩, rfl⟩
    intro workItem
    cases workItem with
    | none => exact ⟨⟨number, rfl⟩, rfl⟩
    | some call => exact handle_ensures ⟨rfl, nofun⟩ rfl

/-! The queue hands each call to one pass. -/

abbrev WriteLog := List (Writer × WriteEvent)

/-- The queue holds the calls that were put on it and not taken yet. A call is put
by its own caller, once, and taken by one pass. -/
structure Line (queue : List Call) (log : WriteLog) : Prop where
  offered : ∀ {writer call accepted}, (writer, ⟨.put call, accepted⟩) ∈ log →
    writer = .log call ∧ (Pool.history writer log).head? = some ⟨.put call, accepted⟩
  took : ∀ {writer call}, (writer, ⟨.get, some call⟩) ∈ log →
    (∃ number, writer = .pass number) ∧ (Pool.history writer log).head? = some ⟨.get, some call⟩
  nodup : queue.Nodup
  queued : ∀ call, (call ∈ queue ∨ ∃ writer, (writer, ⟨.get, some call⟩) ∈ log) ↔
    (.log call, ⟨.put call, true⟩) ∈ log
  untaken : ∀ {writer call}, call ∈ queue → (writer, ⟨.get, some call⟩) ∉ log
  taker : ∀ {one other call}, (one, ⟨.get, some call⟩) ∈ log → (other, ⟨.get, some call⟩) ∈ log → one = other

variable {log : WriteLog}

theorem head_snoc {first : WriteEvent} (found : (Pool.history writer log).head? = some first)
    (actor : Writer) (event : WriteEvent) :
    (Pool.history writer (log ++ [(actor, event)])).head? = some first := by
  rw [Pool.history_snoc]
  split
  · rw [List.head?_append, found]
    rfl
  · exact found

theorem head_first (fresh : Pool.history writer log = []) (event : WriteEvent) :
    (Pool.history writer (log ++ [(writer, event)])).head? = some event := by
  rw [Pool.history_snoc, if_pos rfl, fresh]
  rfl

theorem not_mem_of_fresh (fresh : Pool.history writer log = []) (event : WriteEvent) :
    (writer, event) ∉ log := by
  intro member
  have seen := Pool.mem_history.mpr member
  rw [fresh] at seen
  cases seen

theorem mem_snoc {actor : Writer} {entry : Writer × WriteEvent} :
    entry ∈ log ++ [(actor, event)] ↔ entry ∈ log ∨ entry = (actor, event) := by
  rw [List.mem_append, List.mem_singleton]

/-- A section puts a call at the end of the queue, takes the first one, or leaves
the queue alone. -/
theorem WriteState.Step.queue_cases (step : state.Step path event after) :
    (∃ call, event = ⟨.put call, true⟩ ∧ after.queue = state.queue ++ [call]) ∨
      (∃ call, event = ⟨.get, some call⟩ ∧ state.queue = call :: after.queue) ∨
      (after.queue = state.queue ∧ (∀ call, event ≠ ⟨.put call, true⟩) ∧
          ∀ call, event ≠ ⟨.get, some call⟩) := by
  obtain ⟨fault, answered⟩ := step
  obtain ⟨op, reply⟩ := event
  cases op with
  | put call =>
    simp only [WriteState.answer] at answered
    split at answered
    · cases answered
      exact .inr (.inr ⟨rfl, by simp, by simp⟩)
    · cases answered
      exact .inl ⟨call, rfl, rfl⟩
  | get =>
    simp only [WriteState.answer] at answered
    split at answered
    next empty =>
      cases answered
      exact .inr (.inr ⟨rfl, by simp, by simp⟩)
    next call rest found =>
      cases answered
      exact .inr (.inl ⟨call, rfl, found⟩)
  | write call =>
    right; right
    rcases state.write_cases (path call) fault call with written | ⟨_, _, frame, _⟩
    · obtain ⟨_, rfl⟩ := Prod.mk.inj (written.symm.trans answered)
      exact ⟨(state.getDbConnection_frame (path call)).2.1, by simp, by simp⟩
    · rw [show state.write (path call) fault call = (reply, after) from answered] at frame
      exact ⟨frame, by simp, by simp⟩
  | rollback connection =>
    right; right
    simp only [WriteState.answer] at answered
    split at answered <;> cases answered
    · exact ⟨by split <;> rfl, by simp, by simp⟩
    · exact ⟨rfl, by simp, by simp⟩
  | recordDroppedRow call =>
    cases answered
    exact .inr (.inr ⟨rfl, by simp, by simp⟩)

theorem Line.step (line : Line state.queue log)
    (permitted : Permitted writer (Pool.history writer log) event.op)
    (step : state.Step path event after) : Line after.queue (log ++ [(writer, event)]) := by
  have offered {actor : Writer} {call : Call} {accepted : Bool}
      (member : (actor, (⟨.put call, accepted⟩ : WriteEvent)) ∈ log ++ [(writer, event)]) : actor =
        .log call ∧
        (Pool.history actor (log ++ [(writer, event)])).head? = some ⟨.put call, accepted⟩ := by
    rcases mem_snoc.mp member with earlier | now
    · have ⟨caller, first⟩ := line.offered earlier
      exact ⟨caller, head_snoc first ..⟩
    · cases now
      exact ⟨permitted.1, head_first permitted.2 _⟩
  have took {actor : Writer} {call : Call}
      (member : (actor, (⟨.get, some call⟩ : WriteEvent)) ∈ log ++ [(writer, event)]) : (∃ number,
        actor = .pass number) ∧
        (Pool.history actor (log ++ [(writer, event)])).head? = some ⟨.get, some call⟩ := by
    rcases mem_snoc.mp member with earlier | now
    · have ⟨caller, first⟩ := line.took earlier
      exact ⟨caller, head_snoc first ..⟩
    · cases now
      exact ⟨permitted.1, head_first permitted.2 _⟩
  rcases step.queue_cases with ⟨call, rfl, longer⟩ | ⟨call, rfl, shorter⟩ | ⟨same, notPut, notGet⟩
  · -- a fresh call joins the queue
    obtain ⟨rfl, fresh⟩ := permitted
    have unput := not_mem_of_fresh fresh ⟨.put call, true⟩
    have unknown : call ∉ state.queue := fun member => unput ((line.queued call).mp (.inl member))
    constructor
    · exact offered
    · exact took
    · rw [longer]
      exact List.Nodup.append line.nodup (List.nodup_singleton call) (by simpa using unknown)
    · intro other
      have earlier := line.queued other
      by_cases same : other = call
      · subst same
        simp [longer]
      · simpa [longer, same] using earlier
    · intro actor other member
      rw [longer, List.mem_append, List.mem_singleton] at member
      rw [mem_snoc]
      rintro (taken | now)
      · rcases member with member | rfl
        · exact line.untaken member taken
        · exact unput ((line.queued other).mp (.inr ⟨actor, taken⟩))
      · cases now
    · intro one another other first second
      have first := (mem_snoc.mp first).resolve_right (by simp)
      have second := (mem_snoc.mp second).resolve_right (by simp)
      exact line.taker first second
  · -- the first call of the queue is taken
    have untaken : ∀ actor, (actor, (⟨.get, some call⟩ : WriteEvent)) ∉ log := fun actor =>
      line.untaken (shorter ▸ List.mem_cons_self)
    have distinct := line.nodup
    rw [shorter, List.nodup_cons] at distinct
    constructor
    · exact offered
    · exact took
    · exact distinct.2
    · intro other
      have earlier := line.queued other
      by_cases same : other = call
      · subst same
        simp only [shorter, List.mem_cons, true_or, true_iff] at earlier
        simp [earlier]
      · simpa [shorter, same] using earlier
    · intro actor other member
      rw [mem_snoc]
      rintro (taken | now)
      · exact line.untaken (shorter ▸ List.mem_cons_of_mem _ member) taken
      · cases now
        exact distinct.1 member
    · intro one another other first second
      rcases mem_snoc.mp first with first | first <;> rcases mem_snoc.mp second with second | second
      · exact line.taker first second
      · cases second
        exact absurd first (untaken one)
      · cases first
        exact absurd second (untaken another)
      · cases first
        cases second
        rfl
  · have kept (actor : Writer) (other : Call)
      (member : (actor, (⟨.get, some other⟩ : WriteEvent)) ∈ log ++ [(writer, event)]) :
        (actor, (⟨.get, some other⟩ : WriteEvent)) ∈ log :=
      (mem_snoc.mp member).resolve_right fun now => notGet other (Prod.mk.inj now).2.symm
    rw [same]
    constructor
    · exact offered
    · exact took
    · exact line.nodup
    · intro other
      have earlier := line.queued other
      have unput : (Writer.log other, (⟨.put other, true⟩ : WriteEvent)) ≠ (writer, event) :=
        fun now => notPut other (Prod.mk.inj now).2.symm
      have untaken (actor : Writer) : (actor, (⟨.get, some other⟩ : WriteEvent)) ≠ (writer, event) :=
        fun now => notGet other (Prod.mk.inj now).2.symm
      simpa [unput, untaken] using earlier
    · intro actor other member taken
      exact line.untaken member (kept _ _ taken)
    · intro one another other first second
      exact line.taker (kept _ _ first) (kept _ _ second)

/-! The books of a run. -/

theorem Handles.mem (handles : Handles writer call (Pool.history writer log)) :
    (writer, assignment call writer) ∈ log :=
  Pool.mem_history.mp (List.mem_of_head? handles.1)

theorem Handles.log_snoc (handles : Handles writer call (Pool.history writer log))
    (actor : Writer) (event : WriteEvent) :
    Handles writer call (Pool.history writer (log ++ [(actor, event)])) :=
  ⟨head_snoc handles.1 actor event, handles.2⟩

theorem Line.handler_unique {queue : List Call} (line : Line queue log) {one other : Writer}
    (first : Handles one call (Pool.history one log))
    (second : Handles other call (Pool.history other log)) : one = other := by
  have refused {number : Nat} (written : Handles (.log call) call (Pool.history (.log call) log))
      (taken : Handles (.pass number) call (Pool.history (.pass number) log)) : False := by
    have put := (line.queued call).mp (.inr ⟨_, taken.mem⟩)
    have differs := written.1.symm.trans (line.offered put).2
    simp [assignment] at differs
  cases one with
  | log own =>
    obtain rfl := first.2 own rfl
    cases other with
    | log another => rw [second.2 another rfl]
    | pass number => exact (refused first second).elim
  | pass number =>
    cases other with
    | log own =>
      obtain rfl := second.2 own rfl
      exact (refused second first).elim
    | pass another => exact line.taker first.mem second.mem

def settled (log : WriteLog) : List (Call × Outcome) := settlements (log.map Prod.snd)

theorem settled_snoc (log : WriteLog) (actor : Writer) (event : WriteEvent) :
    settled (log ++ [(actor, event)]) = settled log ++ (settlement event).toList := by
  rw [settled, List.map_append, List.map_singleton, settlements_snoc]
  rfl

structure Books (state : WriteState) (log : WriteLog) : Prop where
  line : Line state.queue log
  rows : ∀ call, state.committed.count call = (settled log).count (call, .written)
  drops : ∀ call, state.dropped.count call = (settled log).count (call, .dropped)
  single : ((settled log).map Prod.fst).Nodup
  handler : ∀ entry ∈ settled log, ∃ writer, Handles writer entry.1 (Pool.history writer log) ∧
    settlements (Pool.history writer log) ≠ []

theorem Books.blank : Books .blank [] where
  line := ⟨by simp, by simp, by simp [WriteState.blank], by simp [WriteState.blank], by simp, by simp⟩
  rows call := rfl
  drops call := rfl
  single := List.nodup_nil
  handler := by simp [settled, settlements]

/-- With nothing staged at the writes, a section records at most the call it is
for. -/
theorem WriteState.Step.record_cases (step : state.Step path event after)
    (clear : state.Clear path event.op) :
    (∃ call, event = ⟨.write call, .written⟩ ∧ after.committed = state.committed ++ [call] ∧
        after.dropped = state.dropped) ∨
      (∃ call, event = ⟨.recordDroppedRow call, ()⟩ ∧ after.committed = state.committed ∧
        after.dropped = state.dropped ++ [call]) ∨
      (settlement event = none ∧ after.committed = state.committed ∧ after.dropped = state.dropped) := by
  obtain ⟨fault, answered⟩ := step
  obtain ⟨op, reply⟩ := event
  cases op with
  | put call =>
    right; right
    simp only [WriteState.answer] at answered
    split at answered <;> cases answered <;> exact ⟨rfl, rfl, rfl⟩
  | get =>
    right; right
    simp only [WriteState.answer] at answered
    split at answered <;> cases answered <;> exact ⟨rfl, rfl, rfl⟩
  | write call =>
    rcases state.write_cases (path call) fault call with written | ⟨failed, committed, _, dropped⟩
    · left
      obtain ⟨rfl, rfl⟩ := Prod.mk.inj (written.symm.trans answered)
      have frame := state.getDbConnection_frame (path call)
      have alone : (state.getDbConnection (path call)).2.staged = [] := clear
      refine ⟨call, rfl, ?_, frame.2.2⟩
      simp [WriteState.commit, alone, frame.1]
    · right; right
      rw [show state.write (path call) fault call = (reply, after) from answered] at failed committed dropped
      refine ⟨?_, committed, dropped⟩
      cases reply with
      | written => exact absurd rfl failed
      | locked connection => rfl
      | fatal => rfl
  | rollback connection =>
    right; right
    simp only [WriteState.answer] at answered
    split at answered <;> cases answered
    · exact ⟨rfl, by split <;> rfl, by split <;> rfl⟩
    · exact ⟨rfl, rfl, rfl⟩
  | recordDroppedRow call =>
    cases answered
    exact .inr (.inl ⟨call, rfl, rfl, rfl⟩)

/-- The handler of a call that it has not settled is the only one who could have. -/
theorem Books.unsettled (books : Books state log)
    (handles : Handles writer call (Pool.history writer log))
    (pending : settlements (Pool.history writer log) = []) :
    call ∉ (settled log).map Prod.fst := by
  intro member
  obtain ⟨entry, found, rfl⟩ := List.mem_map.mp member
  obtain ⟨other, assigned, done⟩ := books.handler entry found
  obtain rfl := books.line.handler_unique handles assigned
  exact done pending

theorem Books.handler_snoc (books : Books state log) (actor : Writer) (event : WriteEvent) :
    ∀ entry ∈ settled log, ∃ writer,
      Handles writer entry.1 (Pool.history writer (log ++ [(actor, event)])) ∧
        settlements (Pool.history writer (log ++ [(actor, event)])) ≠ [] := by
  intro entry found
  obtain ⟨writer, assigned, done⟩ := books.handler entry found
  refine ⟨writer, assigned.log_snoc actor event, ?_⟩
  rw [Pool.history_snoc]
  split
  · rw [settlements_snoc]
    simp [done]
  · exact done

theorem Books.settle {outcome : Outcome} (books : Books state log)
    (line : Line after.queue (log ++ [(writer, event)]))
    (handles : Handles writer call (Pool.history writer log))
    (pending : settlements (Pool.history writer log) = [])
    (settles : settlement event = some (call, outcome))
    (rows : ∀ other, after.committed.count other =
      state.committed.count other + [(call, outcome)].count (other, .written))
    (drops : ∀ other, after.dropped.count other =
      state.dropped.count other + [(call, outcome)].count (other, .dropped)) :
    Books after (log ++ [(writer, event)]) := by
  have longer : settled (log ++ [(writer, event)]) = settled log ++ [(call, outcome)] := by
    rw [settled_snoc, settles]
    rfl
  constructor
  · exact line
  · intro other
    rw [rows, books.rows, longer, List.count_append]
  · intro other
    rw [drops, books.drops, longer, List.count_append]
  · rw [longer, List.map_append]
    apply List.Nodup.append books.single (List.nodup_singleton call)
    simpa using books.unsettled handles pending
  · intro entry found
    rw [longer, List.mem_append, List.mem_singleton] at found
    rcases found with earlier | rfl
    · exact books.handler_snoc writer event entry earlier
    · refine ⟨writer, handles.log_snoc writer event, ?_⟩
      rw [Pool.history_snoc, if_pos rfl, settlements_snoc, settles]
      simp

theorem Books.step (books : Books state log)
    (permitted : Permitted writer (Pool.history writer log) event.op)
    (step : state.Step path event after) (clear : state.Clear path event.op) :
    Books after (log ++ [(writer, event)]) := by
  have line := books.line.step permitted step
  rcases step.record_cases clear with ⟨call, rfl, committed, dropped⟩ | ⟨call, rfl, committed, dropped⟩ |
    ⟨quiet, committed, dropped⟩
  · apply books.settle line permitted.1 permitted.2 rfl
    · intro other
      rw [committed, List.count_append]
      by_cases same : call = other <;> simp [same]
    · intro other
      simp [dropped]
  · apply books.settle line permitted.1 permitted.2 rfl
    · intro other
      simp [committed]
    · intro other
      rw [dropped, List.count_append]
      by_cases same : call = other <;> simp [same]
  · have same : settled (log ++ [(writer, event)]) = settled log := by
      rw [settled_snoc, quiet]
      simp
    constructor
    · exact line
    · rw [committed, same]
      exact books.rows
    · rw [dropped, same]
      exact books.drops
    · rw [same]
      exact books.single
    · rw [same]
      exact books.handler_snoc writer event

theorem Books.count (books : Books state log) {outcome : Outcome}
    (ended : (call, outcome) ∈ settled log) :
    state.committed.count call = (if outcome = .written then 1 else 0) ∧
      state.dropped.count call = if outcome = .dropped then 1 else 0 := by
  have distinct := List.Nodup.of_map _ books.single
  have alone (other : Outcome) (member : (call, other) ∈ settled log) : other = outcome :=
    congrArg Prod.snd (List.inj_on_of_nodup_map books.single member ended rfl)
  have counted (other : Outcome) : (settled log).count (call, other) = if outcome = other then 1 else 0 := by
    split
    next same =>
      subst same
      exact List.count_eq_one_of_mem distinct ended
    next differs => exact List.count_eq_zero.mpr fun member => differs (alone other member).symm
  exact ⟨(books.rows call).trans (counted .written), (books.drops call).trans (counted .dropped)⟩

/-- Some writer has brought the call to this end. -/
def Ended (pool : WritePool) (call : Call) (outcome : Outcome) : Prop :=
  ∃ writer, pool.threads writer = .done (.handled call outcome)

/-- The pass has the call and is not done with it. -/
def Handling (pool : WritePool) (call : Call) (number : Nat) : Prop :=
  (.pass number, ⟨.get, some call⟩) ∈ pool.log ∧ ∀ result, pool.threads (.pass number) ≠ .done result

structure Recorded (pool : WritePool) : Prop where
  once : ∀ call, pool.world.committed.count call + pool.world.dropped.count call ≤ 1
  ended : ∀ call outcome, Ended pool call outcome →
    pool.world.committed.count call = (if outcome = .written then 1 else 0) ∧
      pool.world.dropped.count call = if outcome = .dropped then 1 else 0
  returned : ∀ call result, pool.threads (.log call) = .done result →
    (∃ outcome, Ended pool call outcome) ∨ call ∈ pool.world.queue ∨ ∃ number, Handling pool call number

theorem Books.once (books : Books state log) (call : Call) :
    state.committed.count call + state.dropped.count call ≤ 1 := by
  by_cases ended : ∃ outcome, (call, outcome) ∈ settled log
  · obtain ⟨outcome, member⟩ := ended
    rw [(books.count member).1, (books.count member).2]
    cases outcome <;> simp
  · have none (outcome : Outcome) : (settled log).count (call, outcome) = 0 :=
      List.count_eq_zero.mpr fun member => ended ⟨outcome, member⟩
    rw [books.rows, books.drops, none, none]
    omega

theorem settled_of_history {entry : Call × Outcome}
    (member : entry ∈ settlements (Pool.history writer log)) : entry ∈ settled log := by
  obtain ⟨event, found, settles⟩ := List.mem_filterMap.mp member
  exact List.mem_filterMap.mpr ⟨event, List.mem_map_of_mem (Pool.mem_history.mp found), settles⟩

section run
variable {path : Call → String} {pool : WritePool}

/-- The sections of a run whose writers enter the connection one at a time, with
the failed commits of the others rolled back. -/
def Orderly (path : Call → String) (_ : Writer) (state : WriteState) (event : WriteEvent)
    (after : WriteState) : Prop :=
  state.Step path event after ∧ state.Clear path event.op

theorem reaches_ensures {machine : Writer → WriteState → WriteEvent → WriteState → Prop}
    (reached : Pool.Reaches machine writers pool) {result : Result}
    (finished : pool.threads writer = .done result) :
    Finished writer (Pool.history writer pool.log) result :=
  reached.result (fun writer => program_ensures writer) finished

theorem reaches_books (reached : Pool.Reaches (Orderly path) writers pool) : Books pool.world pool.log := by
  apply reached.invariant_of_contract Books (fun writer => program_ensures writer) Books.blank
  intro state after log writer event books permitted step
  exact books.step permitted step.1 step.2

theorem Line.handed {machine : Writer → WriteState → WriteEvent → WriteState → Prop}
    (line : Line pool.world.queue pool.log)
    (reached : Pool.Reaches machine writers pool) (taken : (writer, ⟨.get, some call⟩) ∈ pool.log) :
    (∃ outcome, Ended pool call outcome) ∨ ∃ number, Handling pool call number := by
  obtain ⟨⟨number, rfl⟩, first⟩ := line.took taken
  by_cases working : ∀ result, pool.threads (.pass number) ≠ .done result
  · exact .inr ⟨number, taken, working⟩
  · obtain ⟨result, finished⟩ := not_forall_not.mp working
    have post := reaches_ensures reached finished
    cases result with
    | queued =>
      obtain ⟨_, same, _⟩ := post
      cases same
    | idle =>
      rw [post.2] at first
      cases first
    | handled other outcome =>
      have same := post.1.1.symm.trans first
      cases same
      exact .inl ⟨outcome, _, finished⟩

theorem log_recorded_once (path : Call → String) (pool : WritePool)
    (reached : Pool.Reaches (Orderly path) writers pool) :
    Recorded pool := by
  have books := reaches_books reached
  constructor
  · exact books.once
  · intro call outcome ⟨writer, finished⟩
    have ⟨_, ends⟩ := reaches_ensures reached finished
    apply books.count
    apply settled_of_history
    rw [ends]
    exact List.mem_singleton_self _
  · intro call result finished
    have post := reaches_ensures reached finished
    cases result with
    | queued =>
      obtain ⟨own, same, past⟩ := post
      cases same
      have put : (Writer.log call, (⟨.put call, true⟩ : WriteEvent)) ∈ pool.log := by
        apply Pool.mem_history.mp
        rw [past]
        exact List.mem_singleton_self _
      rcases (books.line.queued call).mpr put with waiting | ⟨writer, taken⟩
      · exact .inr (.inl waiting)
      · rcases books.line.handed reached taken with ended | handling
        · exact .inl ended
        · exact .inr (.inr handling)
    | idle =>
      obtain ⟨⟨_, same⟩, _⟩ := post
      cases same
    | handled other outcome =>
      obtain rfl := post.1.2 call rfl
      exact .inl ⟨outcome, _, finished⟩

end run

/-! Two calls. The first is queued, and its first commit fails on a lock; the second
finds the queue closed and writes its own row. -/

def twoCalls (order : List (Writer × WriteState.Fault)) : WritePool :=
  Pool.follow (WriteState.answer fun _ => "monitor.db")
    ([(Writer.log 0, WriteState.Fault.none), (.pass 0, .none), (.pass 0, .commit true), (.log 1, .refuse)] ++ order) writers

theorem answer_step (path : Call → String) (fault : WriteState.Fault) (state : WriteState) (op : WriteOp) :
    state.Step path ⟨op, (state.answer path fault op).1⟩ (state.answer path fault op).2 := ⟨fault, rfl⟩

def rolledBack : WritePool := twoCalls [(.pass 0, .none), (.log 1, .none), (.pass 0, .none)]

theorem log_recorded_once_rolled_back :
    rolledBack.threads (.pass 0) = .done (.handled 0 .written) ∧ rolledBack.world.committed = [1, 0] ∧
      Recorded rolledBack := by
  have reached : Pool.Reaches (fun _ state event after => state.Step (fun _ => "monitor.db") event after ∧
      state.Clear (fun _ => "monitor.db") event.op) writers rolledBack :=
    Pool.follow_reaches_where (fun _ => answer_step _) (by decide +kernel)
  exact ⟨by rfl, by rfl, log_recorded_once _ _ reached⟩

/-- The second call commits between the failed commit and its rollback. -/
def overtaken : WritePool := twoCalls [(.log 1, .none), (.pass 0, .none), (.pass 0, .none)]

/-- The only failures are lock errors. -/
def transient : WriteEvent → Bool
  | ⟨.write _, .fatal⟩ => false
  | _ => true

theorem overtaken_commit_duplicates :
    ¬∀ (path : Call → String) (pool : WritePool),
      Pool.Reaches (fun _ state event after => state.Step path event after ∧
        transient event = true) writers pool →
        Recorded pool := by
  intro always
  have reached : Pool.Reaches (fun _ state event after => state.Step (fun _ => "monitor.db") event after ∧
      transient event = true) writers overtaken :=
    Pool.follow_reaches_where (fun _ => answer_step _) (by decide +kernel)
  have once := (always _ _ reached).once 0
  have twice : overtaken.world.committed.count 0 = 2 := by rfl
  omega

end TokenPak.Monitor
