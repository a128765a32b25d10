import Mathlib.Data.List.Basic

/-! The gate in front of managed agent traffic: a cap on the requests in flight and a
bounded queue of callers that wait for a slot. All of it happens under one condition
variable; a caller that waits gives the lock up and looks at the gate again whenever it
is woken, be it by a release, by another caller or by its own deadline. -/

namespace TokenPak.Proxy.ConcurrencyGate

/-- The object that stands for one call of `acquire`. -/
abbrev Ticket := Nat

structure Gate where
  maxQueue : Nat
  inFlight : Nat
  queue : List Ticket
  admittedTotal : Nat
  queuedTotal : Nat
  rejectedQueueFull : Nat
  rejectedWaitTimeout : Nat
  deriving DecidableEq

inductive Result where
  | admitted
  | queueFull
  | waitTimeout
  deriving DecidableEq

namespace Gate

def new (maxQueue : Int) : Gate where
  maxQueue := (max 0 maxQueue).toNat
  inFlight := 0
  queue := []
  admittedTotal := 0
  queuedTotal := 0
  rejectedQueueFull := 0
  rejectedWaitTimeout := 0

/-- The part of `acquire` before its loop; a caller without a result is in the queue.
`cap` is what `effective_cap()` answers here, which depends on the health of the proxy. -/
def enter (ticket : Ticket) (cap : Nat) (gate : Gate) : Gate × Option Result :=
  if gate.queue = [] ∧ gate.inFlight < cap then
    ({ gate with inFlight := gate.inFlight + 1, admittedTotal := gate.admittedTotal + 1 }, some .admitted)
  else if gate.maxQueue ≤ gate.queue.length then
    ({ gate with rejectedQueueFull := gate.rejectedQueueFull + 1 }, some .queueFull)
  else ({ gate with queue := gate.queue ++ [ticket], queuedTotal := gate.queuedTotal + 1 }, none)

/-- One round of the loop in `acquire`; a caller without a result goes on waiting. -/
def attempt (ticket : Ticket) (cap : Nat) (expired : Bool) (gate : Gate) : Gate × Option Result :=
  if gate.queue.head? = some ticket ∧ gate.inFlight < cap then
    ({ gate with
      queue := gate.queue.tail, inFlight := gate.inFlight + 1, admittedTotal := gate.admittedTotal + 1 }, some .admitted)
  else if expired then
    ({ gate with
      queue := gate.queue.erase ticket, rejectedWaitTimeout := gate.rejectedWaitTimeout + 1 }, some .waitTimeout)
  else (gate, none)

/-- An exception that reaches a waiting caller takes its ticket out of the queue. -/
def interrupt (ticket : Ticket) (gate : Gate) : Gate := { gate with queue := gate.queue.erase ticket }

def release (gate : Gate) : Gate :=
  if 0 < gate.inFlight then { gate with inFlight := gate.inFlight - 1 } else gate

end Gate

/-- What the callers see of the gate. An admission tells the cap that was found. -/
inductive Event where
  | admitted (ticket : Ticket) (cap : Nat)
  | queued (ticket : Ticket)
  | queueFull (ticket : Ticket)
  | waitTimeout (ticket : Ticket)
  | interrupted (ticket : Ticket)
  | released (ticket : Ticket)
  deriving DecidableEq

def Event.ticket : Event → Ticket
  | .admitted ticket _ | .queued ticket | .queueFull ticket | .waitTimeout ticket | .interrupted ticket
  | .released ticket => ticket

def Result.event (ticket : Ticket) (cap : Nat) : Result → Event
  | .admitted => .admitted ticket cap
  | .queueFull => .queueFull ticket
  | .waitTimeout => .waitTimeout ticket

section History

def Event.wait (waiting : List Ticket) : Event → List Ticket
  | .queued ticket => waiting ++ [ticket]
  | .admitted ticket _ | .waitTimeout ticket | .interrupted ticket => waiting.erase ticket
  | .queueFull _ | .released _ => waiting

def waiting (events : List Event) : List Ticket := events.foldl Event.wait []

/-- The callers that were admitted and have not released. -/
def Event.hold (holding : List Ticket) : Event → List Ticket
  | .admitted ticket _ => holding ++ [ticket]
  | .released ticket => holding.erase ticket
  | .queued _ | .queueFull _ | .waitTimeout _ | .interrupted _ => holding

def holding (events : List Event) : List Ticket := events.foldl Event.hold []

def Event.admission? : Event → Option Ticket
  | .admitted ticket _ => some ticket
  | .queued _ | .queueFull _ | .waitTimeout _ | .interrupted _ | .released _ => none

def Event.arrival? : Event → Option Ticket
  | .queued ticket => some ticket
  | .admitted _ _ | .queueFull _ | .waitTimeout _ | .interrupted _ | .released _ => none

def Event.release? : Event → Option Ticket
  | .released ticket => some ticket
  | .admitted _ _ | .queued _ | .queueFull _ | .waitTimeout _ | .interrupted _ => none

def admissions (events : List Event) : List Ticket := events.filterMap Event.admission?

/-- The callers that had to queue, in the order in which they came. -/
def arrivals (events : List Event) : List Ticket := events.filterMap Event.arrival?

def releases (events : List Event) : List Ticket := events.filterMap Event.release?

end History

/-- The runs of a gate: each step is a section of one caller under the lock. The caps and the
passing of deadlines are arbitrary; whoever was admitted releases at most once. -/
inductive Runs (maxQueue : Int) : List Event → Gate → Prop where
  | start : Runs maxQueue [] (.new maxQueue)
  | answer {events gate ticket cap after result} (before : Runs maxQueue events gate)
      (fresh : ticket ∉ events.map Event.ticket) (entered : gate.enter ticket cap = (after, some result)) :
      Runs maxQueue (events ++ [result.event ticket cap]) after
  | queue {events gate ticket cap middle again expired after result} (before : Runs maxQueue events gate)
      (fresh : ticket ∉ events.map Event.ticket) (entered : gate.enter ticket cap = (middle, none))
      (tried : middle.attempt ticket again expired = (after, result)) :
      Runs maxQueue (events ++ [.queued ticket] ++ (result.map (Result.event ticket again)).toList) after
  | wake {events gate ticket cap expired after result} (before : Runs maxQueue events gate)
      (waits : ticket ∈ waiting events) (tried : gate.attempt ticket cap expired = (after, result)) :
      Runs maxQueue (events ++ (result.map (Result.event ticket cap)).toList) after
  | interrupt {events gate ticket} (before : Runs maxQueue events gate) (waits : ticket ∈ waiting events) :
      Runs maxQueue (events ++ [.interrupted ticket]) (gate.interrupt ticket)
  | release {events gate ticket} (before : Runs maxQueue events gate) (holds : ticket ∈ holding events) :
      Runs maxQueue (events ++ [.released ticket]) gate.release

end TokenPak.Proxy.ConcurrencyGate
