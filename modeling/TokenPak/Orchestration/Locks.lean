import TokenPak.Library.Recovery

/-! File locks between agents. A lock on a path is a record in a file, and each operation on it
reads the file, decides, and then renames a new record over it or unlinks it. Calls of any
number of agents overlap; all of them write their records into one temporary file first. -/

namespace TokenPak.Orchestration.Locks
open Library

structure LockRecord where
  agent : String
  acquired : Int
  expires : Int
  renewed : Option Int := none
  deriving DecidableEq

/-- What a call does to the files. A rename names the record that the call has written and what
it has read before, and an unlink the latter; the files do not depend on that. -/
inductive Op where
  | time
  | isListed
  | readLock
  | writeTmp (record : LockRecord)
  | replace (existing : Option LockRecord) (record : LockRecord)
  | unlink (existing : Option LockRecord) (releasing : Bool)
  deriving DecidableEq

/-- A rename or an unlink of a file that is not there answers `false`. -/
abbrev Reply : Op → Type
  | .time => Int
  | .isListed => Bool
  | .readLock => Option LockRecord
  | .writeTmp _ => Unit
  | .replace .. => Bool
  | .unlink .. => Bool

def ask (op : Op) : Program Op Reply (Reply op) := Program.ask op

inductive LockError where
  | conflict (lock : LockRecord)
  | noLock
  | expired
  | fileNotFound
  deriving DecidableEq

inductive Answer where
  | record (record : LockRecord)
  | released (removed : Bool)
  | lookup (record : Option LockRecord)
  | pruned (removed : Nat)
  | listing (records : List LockRecord)
  deriving DecidableEq

abbrev Call := Program Op Reply (Except LockError Answer)

/-- `_write_lock` -/
def writeLock (existing : Option LockRecord) (record : LockRecord) : Call := do
  ask (.writeTmp record)
  if ← ask (.replace existing record) then return .ok (.record record) else return .error .fileNotFound

/-- The second half of `claim`, once nothing stands in its way. -/
def take (agent : String) (timeout : Int) (existing : Option LockRecord) : Call := do
  let now ← ask .time
  writeLock existing { agent, acquired := now, expires := now + timeout }

def claim (agent : String) (timeout : Int) : Call := do
  match ← ask .readLock with
  | none => take agent timeout none
  | some existing =>
    if (← ask .time) < existing.expires ∧ existing.agent ≠ agent then return .error (.conflict existing)
    else take agent timeout (some existing)

def release (agent : String) : Call := do
  match ← ask .readLock with
  | none => return .ok (.released false)
  | some existing =>
    if existing.agent ≠ agent then return .ok (.released false)
    else return .ok (.released (← ask (.unlink (some existing) true)))

def query : Call := do
  match ← ask .readLock with
  | none => return .ok (.lookup none)
  | some record =>
    if record.expires ≤ (← ask .time) then
      let _ ← ask (.unlink (some record) false)
      return .ok (.lookup none)
    else return .ok (.lookup (some record))

/-- `prune_expired`, as far as the file of this path goes: a file that is listed and cannot be
read any more is unlinked as well. -/
def pruneExpired : Program Op Reply Nat := do
  let now ← ask .time
  if ← ask .isListed then
    match ← ask .readLock with
    | none => return (← ask (.unlink none false)).toNat
    | some record =>
      if record.expires ≤ now then return (← ask (.unlink (some record) false)).toNat
      else return 0
  else return 0

def prune : Call := do return .ok (.pruned (← pruneExpired))

def locks : Call := do
  let _ ← pruneExpired
  if ← ask .isListed then return .ok (.listing (← ask .readLock).toList) else return .ok (.listing [])

def renew (agent : String) (timeout : Int) : Call := do
  match ← ask .readLock with
  | none => return .error .noLock
  | some existing =>
    if existing.expires ≤ (← ask .time) then
      let _ ← ask (.unlink (some existing) false)
      return .error .expired
    else if existing.agent ≠ agent then return .error (.conflict existing)
    else
      let now ← ask .time
      writeLock (some existing) { existing with expires := now + timeout, renewed := some now }

inductive Request where
  | claim (timeout : Int)
  | renew (timeout : Int)
  | release
  | query
  | prune
  | locks

def Request.call (agent : String) : Request → Call
  | .claim timeout => Locks.claim agent timeout
  | .renew timeout => Locks.renew agent timeout
  | .release => Locks.release agent
  | .query => Locks.query
  | .prune => Locks.prune
  | .locks => Locks.locks

/-- The lock file of the path, the temporary file, the time, and the records that were returned
to agents which have not released them. -/
structure World where
  lock : Option LockRecord
  tmp : Option LockRecord
  clock : Int
  granted : List LockRecord
  deriving DecidableEq

/-- What an operation of an agent does at a time. -/
def react (agent : String) (now : Int) (world : World) : (op : Op) → Reply op × World
  | .time => (now, { world with clock := now })
  | .isListed => (world.lock.isSome, { world with clock := now })
  | .readLock => (world.lock, { world with clock := now })
  | .writeTmp record => ((), { world with tmp := some record, clock := now })
  | .replace _ record =>
    match world.tmp with
    | none => (false, { world with clock := now })
    | some moved => (true, ⟨some moved, none, now, record :: world.granted⟩)
  | .unlink _ releasing =>
    match world.lock with
    | none => (false, { world with clock := now })
    | some _ =>
      (true, ⟨none, world.tmp, now, if releasing then world.granted.filter (·.agent ≠ agent)
        else world.granted⟩)

section Calls
variable {Thread : Type}

/-- Operations take place one after the other, at times that do not go back. -/
def serves (agents : Thread → String) (thread : Thread) (world : World) (event : Event Op Reply)
    (after : World) : Prop :=
  ∃ now, world.clock ≤ now ∧ (event.reply, after) = react (agents thread) now world event.op

/-- Calls of agents before their first operations, with any files. -/
def start (agents : Thread → String) (requests : Thread → Request) (lock tmp : Option LockRecord)
    (clock : Int) :
    Pool Thread World Op Reply (Except LockError Answer) :=
  .init ⟨lock, tmp, clock, []⟩ fun thread => (requests thread).call (agents thread)

end Calls

end TokenPak.Orchestration.Locks
