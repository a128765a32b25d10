import TokenPak.Library.Recovery

/-! The write path of the usage monitor. A `log` call hands its row to the queue of
the background writer, or writes it itself when the queue refuses it. All writers
share one connection, so a row that was executed and not committed is there for
whoever commits or rolls back next. -/

namespace TokenPak.Monitor
open Library

/-- A `log` call. Its number stands for the row that it records. -/
abbrev Call := Nat

def dbQueueMaxSize : Nat := 1000
def dbWriteRetryAttempts : Nat := 5

/-- How the locked section of an attempt ends. A transient lock error remembers
the connection it happened on, when there was one. -/
inductive WriteReply where
  | written
  | locked (connection : Option Nat)
  | fatal
  deriving DecidableEq

/-- A rollback that fails on an open connection is ignored; on a connection that
was closed meanwhile it raises. -/
inductive RollbackReply where
  | attempted
  | closed
  deriving DecidableEq

/-- The sections that run under one of the locks. -/
inductive WriteOp where
  | put (call : Call)
  | get
  | write (call : Call)
  | rollback (connection : Nat)
  | recordDroppedRow (call : Call)
  deriving DecidableEq

abbrev WriteOp.Reply : WriteOp → Type
  | .put _ => Bool
  | .get => Option Call
  | .write _ => WriteReply
  | .rollback _ => RollbackReply
  | .recordDroppedRow _ => Unit

inductive Outcome where
  | written
  | dropped
  deriving DecidableEq

inductive Result where
  | queued
  | idle
  | handled (call : Call) (outcome : Outcome)
  deriving DecidableEq

abbrev WriteEvent := Event WriteOp WriteOp.Reply
abbrev Writing (α : Type) := Program WriteOp WriteOp.Reply α

/-- `_write_row`; the result says whether it returned. The row left by a failed
commit is rolled back in a locked section of its own. -/
def writeRow (call : Call) : Nat → Writing Bool
  | 0 => pure false
  | attempts + 1 => do
    let reply : WriteReply ← Program.ask (WriteOp.write call)
    match reply with
    | .written => pure true
    | .fatal => pure false
    | .locked none => writeRow call attempts
    | .locked (some connection) =>
      let undone : RollbackReply ← Program.ask (WriteOp.rollback connection)
      match undone with
      | .attempted => writeRow call attempts
      | .closed => pure false

/-- What both paths do with a row: a write that raised is counted as dropped. -/
def handle (call : Call) : Writing Result := do
  match ← writeRow call dbWriteRetryAttempts with
  | true => pure (.handled call .written)
  | false =>
    let _ : Unit ← Program.ask (WriteOp.recordDroppedRow call)
    pure (.handled call .dropped)

/-- `Monitor.log`. -/
def log (call : Call) : Writing Result := do
  let accepted : Bool ← Program.ask (WriteOp.put call)
  match accepted with
  | true => pure .queued
  | false => handle call

/-- One pass of `_db_writer_worker`. -/
def dbWriterPass : Writing Result := do
  let workItem : Option Call ← Program.ask WriteOp.get
  match workItem with
  | none => pure .idle
  | some call => handle call

/-- A caller of `log`, or a pass of the background writer. The passes of one
writer follow each other; more is allowed here. -/
inductive Writer where
  | log (call : Call)
  | pass (number : Nat)
  deriving DecidableEq

def Writer.program : Writer → Writing Result
  | .log call => Monitor.log call
  | .pass _ => dbWriterPass

/-- The shared connection with the rows of its open transaction, the rows
committed to the databases, the queue, and the calls counted as dropped. -/
structure WriteState where
  connection : Option (Nat × String)
  opened : Nat
  staged : List Call
  committed : List Call
  queue : List Call
  dropped : List Call
  deriving DecidableEq

namespace WriteState

def blank : WriteState := ⟨none, 0, [], [], [], []⟩

/-- `_get_db_connection`. Closing a connection discards its open transaction. -/
def getDbConnection (path : String) (state : WriteState) : Nat × WriteState :=
  match state.connection with
  | some (connection, current) =>
    if current = path then (connection, state)
    else (state.opened, { state with connection := some (state.opened, path), opened := state.opened + 1, staged := [] })
  | none =>
    (state.opened, { state with connection := some (state.opened, path), opened := state.opened + 1, staged := [] })

/-- What goes wrong in a locked section: the queue takes no rows, the connection
cannot be opened, or one of the statements fails, for a lock or for good. -/
inductive Fault where
  | none
  | refuse
  | connect (transient : Bool)
  | execute (transient : Bool)
  | commit (transient : Bool)
  | rollback
  deriving DecidableEq

def failure (transient : Bool) (connection : Option Nat) : WriteReply :=
  if transient then .locked connection else .fatal

def commit (call : Call) (state : WriteState) : WriteState :=
  { state with committed := state.committed ++ state.staged ++ [call], staged := [] }

/-- The locked section of `_write_row`, for a row of the database at the path. -/
def write (path : String) (fault : Fault) (call : Call) (state : WriteState) : WriteReply × WriteState :=
  let (connection, connected) := state.getDbConnection path
  match fault with
  | .connect transient =>
    -- an open connection to the path is reused, and nothing is left to fail
    if state.connection.map Prod.snd = some path then (.written, state.commit call)
    else (failure transient .none, { state with connection := .none, staged := [] })
  | .execute transient => (failure transient (some connection), connected)
  | .commit transient =>
    (failure transient (some connection), { connected with staged := connected.staged ++ [call] })
  | _ => (.written, connected.commit call)

def answer (path : Call → String) (fault : Fault) (state : WriteState) :
    (op : WriteOp) → op.Reply × WriteState
  | .put call =>
    if fault = .refuse ∨ dbQueueMaxSize ≤ state.queue.length then (false, state)
    else (true, { state with queue := state.queue ++ [call] })
  | .get =>
    match state.queue with
    | [] => (none, state)
    | call :: rest => (some call, { state with queue := rest })
  | .write call => state.write (path call) fault call
  | .rollback connection =>
    if state.connection.map Prod.fst = some connection then
      (.attempted, if fault = .rollback then state else { state with staged := [] })
    else (.closed, state)
  | .recordDroppedRow call => ((), { state with dropped := state.dropped ++ [call] })

def Step (path : Call → String) (state : WriteState) (event : WriteEvent) (after : WriteState) : Prop :=
  ∃ fault, state.answer path fault event.op = (event.reply, after)

end WriteState

abbrev WritePool := Pool Writer WriteState WriteOp WriteOp.Reply Result

def writers : WritePool := Pool.init .blank Writer.program

end TokenPak.Monitor
