import Mathlib.Algebra.BigOperators.Ring.Finset
import TokenPak.Library.Dict
import TokenPak.Library.Machine
import TokenPak.Library.Text
import TokenPak.Proxy.ForecastCalibration

/-! The session histories of a ledger and the two caches on top of them: the corpus of a database
under a fingerprint of its rows, and the readiness of a cell under the signatures of its
participants. Other calls run between the steps of a call. -/

namespace TokenPak.Proxy.ForecastCaches
open Library ForecastCalibration

deriving instance DecidableEq for HistorySession, CellReadiness

def completionIdle : Int := 6 * 3600 * 1000000

def maxSessions : Nat := 400

def minTurns : Nat := 4

def corpusCacheMax : Nat := 4

def readinessCacheMax : Nat := 32

structure Counts where
  input : Option Int
  output : Option Int
  cacheRead : Option Int
  cacheCreation : Option Int
  deriving DecidableEq

structure Row where
  id : Int
  sessionId : Option String
  model : Option String
  reasoningEffort : Option String
  reasoningEffortSource : Option String
  reasoningEffortRaw : Option String
  statusCode : Option Int
  timestamp : String
  provider : Counts
  own : Counts
  deriving DecidableEq

def Counts.known (counts : Counts) : List Int :=
  [counts.input, counts.output, counts.cacheRead, counts.cacheCreation].filterMap id

/-- The cell label, and whether the row carries an explicit signal that is not supported. -/
def reasoningEffortCell (normalized raw source : Option String) : String × Bool :=
  let normalized := (normalized.map Text.strip).getD ""
  let raw := (raw.map Text.strip).getD ""
  let source := (source.map Text.strip).getD ""
  let sourceHasSignal : Bool := source ∉ ["", "unknown", "unavailable"]
  if normalized = "" ∧ raw = "xhigh" ∧
    source ∈ ["request_body_unrecognized", "provider_usage_object_unrecognized"] then (raw, false)
  else if normalized ∈ ["low", "medium", "high"] then
    if (raw ≠ "" ∧ raw ≠ normalized) ∨ "_unrecognized".toList <:+ source.toList then ("unknown",
      true) else (normalized, false)
  else if normalized = "unknown" ∧ raw = "" ∧ sourceHasSignal = false then ("unknown", false)
  else if normalized ≠ "" ∨ raw ≠ "" ∨ sourceHasSignal = true then ("unknown", true)
  else ("unknown", false)

def Row.effortCell (row : Row) : String × Bool :=
  reasoningEffortCell row.reasoningEffort row.reasoningEffortRaw row.reasoningEffortSource

def Row.cellModel (row : Row) : String :=
  let named := row.model.getD ""
  let model := Text.strip (if named = "" then "unknown" else named)
  if model = "" then "unknown" else model

/-- The condition of the corpus query; `TRIM` takes blanks only. -/
def Row.completed (row : Row) : Bool :=
  (row.sessionId.any fun sid => sid.toList.any (· ≠ ' ')) && row.statusCode.any fun status =>
    200 ≤ status && status ≤ 599

def Row.before (row other : Row) : Prop :=
  row.timestamp < other.timestamp ∨ row.timestamp = other.timestamp ∧ row.id ≤ other.id

instance : DecidableRel Row.before := fun _ _ => inferInstanceAs (Decidable (_ ∨ _))

/-- Rows by session id, in the order of their first appearance. -/
def grouped (rows : List Row) : Dict String (List Row) :=
  rows.foldl (fun groups row =>
    let sid := Text.strip (row.sessionId.getD "")
    if sid = "" then groups else groups.set sid ((groups.get sid).getD [] ++ [row])) .empty

def ledgerFingerprint (rows : List Row) : Int × Nat := ((rows.map Row.id).max?.getD 0, rows.length)

/-- The last entries of a list, as a slice with a negative start takes them. -/
def newest {Item : Type} (count : Nat) (items : List Item) : List Item := items.drop (items.length - count)

section Corpus
variable {F : Type} [Field F] [LinearOrder F]

def Counts.total (counts : Counts) : F := ((counts.known.filter (0 ≤ ·)).map (Int.cast : Int → F)).sum

def rowTotal (row : Row) : F :=
  if row.provider.known.any (0 < ·) then row.provider.total
  else if row.own.known.any (0 < ·) then row.own.total
  else 0

def Whole (cost : F) : Prop := ∃ count : Int, cost = count

omit [LinearOrder F] in
theorem Counts.whole_total (counts : Counts) : Whole (counts.total : F) :=
  ⟨(counts.known.filter (0 ≤ ·)).sum, by rw [Counts.total, Int.cast_list_sum]⟩

omit [LinearOrder F] in
theorem whole_rowTotal (row : Row) : Whole (rowTotal row : F) := by
  unfold rowTotal
  split
  · exact row.provider.whole_total
  · split
    · exact row.own.whole_total
    · exact ⟨0, Int.cast_zero.symm⟩

def turnCosts (rows : List Row) : List F := (rows.map rowTotal).filter (0 < ·)

theorem whole_turnCosts (rows : List Row) : ∀ cost ∈ turnCosts rows, Whole (cost : F) := by
  intro cost member
  obtain ⟨row, _, total⟩ := List.mem_map.mp (List.mem_of_mem_filter member)
  exact total ▸ whole_rowTotal row

/-- A session history with its cell. Ledgers count tokens, so each turn costs a whole number of them. -/
structure Participant (F : Type) [Field F] where
  model : String
  effort : String
  session : HistorySession F
  whole : ∀ cost ∈ session.turnCosts, Whole cost
  deriving DecidableEq

structure CorpusEntry (F : Type) [Field F] where
  sessionId : String
  participant : Participant F
  deriving DecidableEq

/-- `_parse_ts_utc`, in microseconds. -/
abbrev ParseTs := String → Except String (Option Int)

/-- A session enters the corpus when it has one model, one supported effort and enough turns with a cost. -/
def entryOf (parseTs : ParseTs) (sessionId : String) (rows : List Row) :
    Except String (Option (CorpusEntry F)) := do
  match ← parseTs ((rows.getLast?.map Row.timestamp).getD "") with
  | none => return none
  | some endedAt =>
    match (rows.map Row.cellModel).dedup, (rows.map fun row => row.effortCell.1).dedup with
    | [model], [effort] =>
      if (rows.any fun row => row.effortCell.2) ∨ (turnCosts rows : List F).length < minTurns then return none
      else return some ⟨sessionId, model, effort, ⟨endedAt, turnCosts rows⟩, whole_turnCosts rows⟩
    | _, _ => return none

def parseCorpus (parseTs : ParseTs) (rows : List Row) : Except String (List (CorpusEntry F)) := do
  let groups := (grouped ((rows.filter Row.completed).insertionSort Row.before)).entries
  let entries ← groups.mapM fun group => entryOf parseTs group.1 group.2
  let ordered := (entries.filterMap id).insertionSort fun entry other =>
    entry.participant.session.endedAt ≤ other.participant.session.endedAt
  return newest (maxSessions * 3) ordered

/-- The sessions of a corpus that are inactive, without the one that is going on. -/
def historyOf (now : Int) (excludeSession : String) (corpus : List (CorpusEntry F)) : List (Participant F) :=
  newest maxSessions ((corpus.filter fun entry =>
    entry.sessionId ≠ excludeSession ∧ entry.participant.session.endedAt ≤ now - completionIdle).map CorpusEntry.participant)

end Corpus

section Signatures
variable {F : Type} [Field F] [LinearOrder F] [FloorRing F]

def round3 (x : F) : F := (roundHalfEven (x * 1000) : F) / 1000

structure Signature (F : Type) where
  model : String
  effort : String
  endedAt : Int
  turns : Nat
  total : F
  turnCosts : List F
  deriving DecidableEq

def Participant.signature (participant : Participant F) : Signature F where
  model := participant.model
  effort := participant.effort
  endedAt := participant.session.endedAt
  turns := participant.session.turns
  total := round3 participant.session.total
  turnCosts := participant.session.turnCosts.map round3

def participantsSignature (participants : List (Participant F)) : List (Signature F) :=
  participants.map Participant.signature

structure ReadinessCacheKey (F : Type) where
  path : Option String
  key : String × String
  cell : List (Signature F)
  pool : List (Signature F)
  deriving DecidableEq

def readinessOf (math : Math F) (cell pool : List (Participant F)) : Except String (CellReadiness F) :=
  cellReadiness math (cell.map Participant.session) (pool.map Participant.session)

end Signatures

/-- A `requests` table. The first rows of the log are pruned, and no row is edited. -/
structure Ledger where
  log : List Row
  increasing : log.Pairwise fun earlier later => earlier.id < later.id
  pruned : Nat
  present : Bool

namespace Ledger

def rows (ledger : Ledger) : List Row := ledger.log.drop ledger.pruned

theorem increasing_append {log : List Row}
    (increasing : log.Pairwise fun earlier later => earlier.id < later.id) {row : Row}
    (fresh : ∀ old ∈ log, old.id < row.id) :
    (log ++ [row]).Pairwise fun earlier later => earlier.id < later.id := by
  rw [List.pairwise_append]
  refine ⟨increasing, List.pairwise_singleton _ row, ?_⟩
  intro old member new same
  rw [List.mem_singleton.mp same]
  exact fresh old member

def append (ledger : Ledger) (row : Row) : Ledger :=
  if fresh : ∀ old ∈ ledger.log, old.id < row.id then
    { ledger with log := ledger.log ++ [row], increasing := increasing_append ledger.increasing fresh }
  else ledger

def prune (ledger : Ledger) (count : Nat) : Ledger :=
  { ledger with pruned := min (ledger.pruned + count) ledger.log.length }

end Ledger

section Calls
variable {F : Type} [Field F] [LinearOrder F] [FloorRing F]

/-- What is asked: `read_history` or `_cached_readiness`. -/
inductive Question (F : Type) [Field F] where
  | history (path : Option String) (now : Int) (excludeSession : String)
  | readiness (path : Option String) (key : String × String) (cell pool : List (Participant F))

inductive Answer (F : Type) [Field F] where
  | history (sessions : Except String (List (Participant F)))
  | readiness (readiness : Except String (CellReadiness F))
  deriving DecidableEq

inductive Phase (F : Type) [Field F] where
  | asked
  | parsed (corpus : List (CorpusEntry F))
  | assessed (readiness : CellReadiness F)
  | done (answer : Answer F)
  deriving DecidableEq

/-- A call with the rows that its transaction sees, if there is a table to read. -/
structure Call (F : Type) [Field F] where
  question : Question F
  snapshot : Option (List Row)
  phase : Phase F

structure State (F : Type) [Field F] where
  ledgers : String → Ledger
  corpusCache : Dict String ((Int × Nat) × List (CorpusEntry F))
  readinessCache : Dict (ReadinessCacheKey F) (CellReadiness F)
  calls : List (Call F)

def State.start (ledgers : String → Ledger) : State F := ⟨ledgers, .empty, .empty, []⟩

inductive Action (F : Type) [Field F] where
  | append (path : String) (row : Row)
  | prune (path : String) (count : Nat)
  | setPresent (path : String) (present : Bool)
  | ask (question : Question F)
  | consult (call : Nat)
  | keep (call : Nat)

/-- The oldest entry goes when there is no room for a new key. -/
def remember {Key Value : Type} [DecidableEq Key] (limit : Nat) (cache : Dict Key Value) (key : Key)
    (value : Value) : Dict Key Value :=
  (if limit ≤ cache.entries.length ∧ cache.get key = none then cache.dropOldest 1 else cache).set key value

omit [LinearOrder F] [FloorRing F] in
def State.snapshot (state : State F) : Question F → Option (List Row)
  | .history path _ _ =>
    let path := path.getD ""
    if path ≠ "" ∧ (state.ledgers path).present then some (state.ledgers path).rows else none
  | .readiness _ _ _ _ => none

def cacheKey (path : Option String) (key : String × String) (cell pool : List (Participant F)) :
    ReadinessCacheKey F :=
  ⟨path, key, participantsSignature cell, participantsSignature pool⟩

omit [LinearOrder F] [FloorRing F] in
def State.corpusHit (state : State F) (path : String) (rows : List Row) : Option (List (CorpusEntry F)) :=
  ((state.corpusCache.get path).filter (·.1 = ledgerFingerprint rows)).map Prod.snd

def consultCorpus (parseTs : ParseTs) (state : State F) (path : String) (now : Int)
    (excludeSession : String) :
    Option (List Row) → Phase F
  | none => .done (.history (.ok []))
  | some rows =>
    match state.corpusHit path rows with
    | some corpus => .done (.history (.ok (historyOf now excludeSession corpus)))
    | none =>
      match parseCorpus parseTs rows with
      | .ok corpus => .parsed corpus
      | .error raised => .done (.history (.error raised))

def consultReadiness (math : Math F) (state : State F) (path : Option String) (key : String × String)
    (cell pool : List (Participant F)) : Phase F :=
  match state.readinessCache.get (cacheKey path key cell pool) with
  | some readiness => .done (.readiness (.ok readiness))
  | none =>
    match readinessOf math cell pool with
    | .ok readiness => .assessed readiness
    | .error raised => .done (.readiness (.error raised))

/-- Under the lock the cache is read; without a hit the call computes the value itself. -/
def consulted (math : Math F) (parseTs : ParseTs) (state : State F) (call : Call F) : Phase F :=
  match call.question with
  | .history path now excludeSession =>
      consultCorpus parseTs state (path.getD "") now excludeSession call.snapshot
  | .readiness path key cell pool => consultReadiness math state path key cell pool

omit [LinearOrder F] [FloorRing F] in
def State.withPhase (state : State F) (index : Nat) (call : Call F) (phase : Phase F) : State F :=
  { state with calls := state.calls.set index { call with phase } }

def State.consult (math : Math F) (parseTs : ParseTs) (state : State F) (index : Nat) : State F :=
  match state.calls[index]? with
  | some call =>
    match call.phase with
    | .asked => state.withPhase index call (consulted math parseTs state call)
    | _ => state
  | none => state

/-- Under the lock a computed value is kept, and the call returns. -/
def State.keep (state : State F) (index : Nat) : State F :=
  match state.calls[index]? with
  | some call =>
    match call.phase, call.question with
    | .parsed corpus, .history path now excludeSession =>
      let entry := (ledgerFingerprint (call.snapshot.getD []), corpus)
      let kept := { state with corpusCache := remember corpusCacheMax state.corpusCache (path.getD "") entry }
      kept.withPhase index call (.done (.history (.ok (historyOf now excludeSession corpus))))
    | .assessed readiness, .readiness path key cell pool =>
      let cache := remember readinessCacheMax state.readinessCache (cacheKey path key cell pool) readiness
      { state with readinessCache := cache }.withPhase index call (.done (.readiness (.ok readiness)))
    | _, _ => state
  | none => state

omit [LinearOrder F] [FloorRing F] in
def State.edit (state : State F) (path : String) (change : Ledger → Ledger) : State F :=
  { state with ledgers := Function.update state.ledgers path (change (state.ledgers path)) }

def act (math : Math F) (parseTs : ParseTs) (state : State F) : Action F → State F
  | .append path row => state.edit path (·.append row)
  | .prune path count => state.edit path (·.prune count)
  | .setPresent path present => state.edit path ({ · with present })
  | .ask question => { state with calls := state.calls ++ [⟨question, state.snapshot question, .asked⟩] }
  | .consult index => state.consult math parseTs index
  | .keep index => state.keep index

omit [LinearOrder F] [FloorRing F] in
def State.phase (state : State F) (index : Nat) : Option (Phase F) := state.calls[index]?.map Call.phase

def alone (math : Math F) (parseTs : ParseTs) (state : State F) (question : Question F) : Option (Phase F) :=
  (Machine.run (act math parseTs) (State.start state.ledgers) [.ask question, .consult 0, .keep 0]).phase 0

end Calls

end TokenPak.Proxy.ForecastCaches
