import Mathlib.Data.List.Sort
import Mathlib.Data.String.Basic
import TokenPak.Library.Json

/-! The pre-send intents of the companion: the prompt hook leaves each of them as a file, and
workers write the files they find into the journal and the budget database before they remove
them. Workers may overlap, and each may stop between any two of its steps. Times and costs are
those that the hook accepts. -/

namespace TokenPak.Companion.PreSend
open Library

section Events
variable {Time Cost : Type}

structure Intent (Time Cost : Type) where
  sessionId : String
  timestamp : Time
  date : String
  entryType : String
  content : String
  metadataJson : String
  tokensEst : Option Int
  costEst : Option Cost

structure Event (Time Cost : Type) where
  eventId : String
  timestamp : Time
  date : String
  sessionId : String
  entryType : String
  content : String
  metadataJson : String
  cost : Option (Nat × Cost)

def encodesObject (N : Type) [Numerals N] (text : String) : Bool :=
  match (Json.loads text.toList : Option (Json N)) with
  | some (.object _) => true
  | _ => false

def cleanCost : Option Int → Option Cost → Option (Option (Nat × Cost))
  | none, none => some none
  | some tokens, some cost => if tokens < 0 then none else some (some (tokens.toNat, cost))
  | _, _ => none

/-- The event that `queue_pre_send_event` leaves under an id, unless it raises. -/
def queuedEvent (N : Type) [Numerals N] (intent : Intent Time Cost) (eventId : String) :
    Option (Event Time Cost) :=
  if intent.sessionId = "" ∨ intent.date = "" ∨ intent.entryType = "" ∨
    ¬ encodesObject N intent.metadataJson then none
  else
    (cleanCost intent.tokensEst intent.costEst).map fun cost =>
      { eventId, timestamp := intent.timestamp, date := intent.date, sessionId := intent.sessionId,
        entryType := intent.entryType, content := intent.content, metadataJson := intent.metadataJson, cost }

end Events

/-- `entry_content_hash` -/
def entryContentHash {Hash : Type} (sha256 : String → Hash)
    (entryType content metadataJson : String) : Hash :=
  sha256 (entryType ++ "\x1f" ++ content ++ "\x1f" ++ (if metadataJson = "" then "\x7b\x7d"
    else metadataJson))

structure Entry (Time Hash : Type) where
  sessionId : String
  timestamp : Time
  entryType : String
  content : String
  metadataJson : String
  contentHash : Hash

structure Estimate (Time Cost : Type) where
  timestamp : Time
  inputTokens : Nat
  estimatedCost : Cost

inductive Worker (Time Cost : Type) where
  | idle
  | reading (paths : List String) (events : List (Event Time Cost))
  | journaling (events : List (Event Time Cost))
  | charging (events : List (Event Time Cost))
  | unlinking (paths : List String)

/-- The files by the ids of their events, both databases, and the workers. -/
structure World (Time Cost Hash : Type) where
  files : Dict String (Event Time Cost)
  sessions : Dict String Time
  entries : List (Entry Time Hash)
  estimates : Dict (String × String) (Estimate Time Cost)
  workers : Nat → Worker Time Cost

inductive Action (Time Cost : Type) where
  | queue (intent : Intent Time Cost) (eventId : String)
  | start (worker : Nat)
  | move (worker : Nat)
  | crash (worker : Nat)

section Steps
variable {Time Cost Hash : Type}

def empty : World Time Cost Hash := ⟨Dict.empty, Dict.empty, [], Dict.empty, fun _ => .idle⟩

def queued (N : Type) [Numerals N] (actions : List (Action Time Cost)) : List (Event Time Cost) :=
  actions.filterMap fun
    | .queue intent eventId => queuedEvent N intent eventId
    | _ => none

def Event.before [LinearOrder Time] (first second : Event Time Cost) : Bool :=
  first.timestamp < second.timestamp || first.timestamp = second.timestamp && first.eventId ≤ second.eventId

def Worker.proceed [LinearOrder Time] (paths : List String) (events : List (Event Time Cost)) :
    Worker Time Cost :=
  if paths ≠ [] then .reading paths events
  else if events = [] then .idle
  else .journaling (events.insertionSort fun first second => first.before second)

def Worker.cleanUp (paths : List String) : Worker Time Cost := if paths = [] then .idle else .unlinking paths

def sortedPaths (files : Dict String (Event Time Cost)) : List String :=
  (files.entries.map Prod.fst).insertionSort (· ≤ ·)

def pendingEvents [LinearOrder Time] (files : Dict String (Event Time Cost)) : List (Event Time Cost) :=
  ((sortedPaths files).filterMap files.get).insertionSort fun first second => first.before second

/-- `INSERT OR IGNORE INTO sessions` -/
def insertSession (sessions : Dict String Time) (event : Event Time Cost) : Dict String Time :=
  match sessions.get event.sessionId with
  | some _ => sessions
  | none => sessions.set event.sessionId event.timestamp

/-- `INSERT OR IGNORE INTO entries`, with the unique index on session, type and hash. -/
def insertEntry [DecidableEq Hash] (sha256 : String → Hash) (entries : List (Entry Time Hash))
    (event : Event Time Cost) :
    List (Entry Time Hash) :=
  let hash := entryContentHash sha256 event.entryType event.content event.metadataJson
  if entries.any fun row =>
      row.sessionId = event.sessionId ∧ row.entryType = event.entryType ∧ row.contentHash = hash then entries
  else
    entries ++ [⟨event.sessionId, event.timestamp, event.entryType, event.content, event.metadataJson, hash⟩]

/-- `COSTS_ESTIMATE_UPSERT_SQL`, for an event with a cost. -/
def upsertEstimate [LinearOrder Time] (round6 : Cost → Cost)
    (estimates : Dict (String × String) (Estimate Time Cost))
    (event : Event Time Cost) : Dict (String × String) (Estimate Time Cost) :=
  match event.cost with
  | none => estimates
  | some (tokens, cost) =>
    let row : Estimate Time Cost := ⟨event.timestamp, tokens, round6 cost⟩
    match estimates.get (event.sessionId, event.date) with
    | none => estimates.set (event.sessionId, event.date) row
    | some old =>
        if old.timestamp ≤ event.timestamp then estimates.set (event.sessionId, event.date) row
          else estimates

/-- The database takes integers of 64 bits with a sign. -/
def fits (event : Event Time Cost) : Bool :=
  match event.cost with
  | none => true
  | some (tokens, _) => tokens < 2 ^ 63

def World.assign (world : World Time Cost Hash) (worker : Nat) (state : Worker Time Cost) :
    World Time Cost Hash :=
  { world with workers := Function.update world.workers worker state }

variable (sha256 : String → Hash) (round6 : Cost → Cost)

def journalAll [DecidableEq Hash] (world : World Time Cost Hash) (events : List (Event Time Cost)) :
    World Time Cost Hash :=
  { world with
    sessions := events.foldl insertSession world.sessions
    entries := events.foldl (insertEntry sha256) world.entries }

def chargeAll [LinearOrder Time] (world : World Time Cost Hash) (events : List (Event Time Cost)) :
    World Time Cost Hash :=
  { world with estimates := events.foldl (upsertEstimate round6) world.estimates }

variable [LinearOrder Time] [DecidableEq Hash]

/-- The next step of a worker: a file read, a transaction or an unlink. -/
def move (world : World Time Cost Hash) (worker : Nat) : World Time Cost Hash :=
  match world.workers worker with
  | .idle => world
  | .reading [] events => world.assign worker (.proceed [] events)
  | .reading (path :: paths) events =>
    -- A file that another worker has removed in between is passed over.
    world.assign worker (.proceed paths (events ++ (world.files.get path).toList))
  | .journaling events => (journalAll sha256 world events).assign worker (.charging events)
  | .charging events =>
    -- A transaction that raises is rolled back, and the worker gives up.
    if events.all fits then (chargeAll round6 world events).assign worker (.cleanUp (events.map Event.eventId))
    else world.assign worker .idle
  | .unlinking [] => world.assign worker .idle
  | .unlinking (path :: paths) => { world with files := world.files.pop path }.assign worker (.cleanUp paths)

def step (N : Type) [Numerals N] (world : World Time Cost Hash) : Action Time Cost → World Time Cost Hash
  | .queue intent eventId =>
    match queuedEvent N intent eventId with
    | none => world
    | some event => { world with files := world.files.set eventId event }
  | .start worker =>
    match world.workers worker with
    | .idle => world.assign worker (.proceed (sortedPaths world.files) [])
    | _ => world
  | .move worker => move sha256 round6 world worker
  | .crash worker => world.assign worker .idle

def run (N : Type) [Numerals N] (world : World Time Cost Hash) (actions : List (Action Time Cost)) :
    World Time Cost Hash :=
  actions.foldl (step sha256 round6 N) world

/-- `flush_pre_send_events` without interruption. -/
def flushPreSendEvents (world : World Time Cost Hash) : World Time Cost Hash :=
  let events := pendingEvents world.files
  if events = [] then world
  else if events.all fits then
    let charged := chargeAll round6 (journalAll sha256 world events) events
    { charged with files := (events.map Event.eventId).foldl Dict.pop charged.files }
  else journalAll sha256 world events

end Steps
end TokenPak.Companion.PreSend
