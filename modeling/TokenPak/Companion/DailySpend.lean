import TokenPak.Companion.PreSend

/-! The daily spend of the companion. The prompt hook reads the pending intents first and the table
of costs afterwards, and reconciles both session by session; the budget database does the
same in one aggregate query. The two add up in different orders, and costs are floats:
addition is any operation, and so is the sum of the database. -/

namespace TokenPak.Companion.DailySpend
open Library PreSend

section Rows
variable {Time Cost : Type}

/-- A row of `companion_costs`. -/
structure CostRow (Time Cost : Type) where
  timestamp : Time
  date : String
  sessionId : String
  model : String
  estimatedCost : Cost
  kind : Option String
  deriving DecidableEq

/-- A row that no pre-send upsert has made. -/
abbrev Recorded (Time Cost : Type) := {row : CostRow Time Cost // row.kind ≠ some "estimate"}

def estimateRows (estimates : Dict (String × String) (Estimate Time Cost)) : List (CostRow Time Cost) :=
  estimates.entries.map fun ((sessionId, date), row) =>
    ⟨row.timestamp, date, sessionId, "", row.estimatedCost, some "estimate"⟩

def companionCosts (recorded : List (Recorded Time Cost))
    (estimates : Dict (String × String) (Estimate Time Cost)) :
    List (CostRow Time Cost) := recorded.map Subtype.val ++ estimateRows estimates

end Rows

section Query
variable {Time Cost : Type} [Zero Cost] [LinearOrder Cost]

/-- `COALESCE(kind, CASE WHEN model = '' THEN 'estimate' ELSE 'actual' END)` -/
def CostRow.sqlKind (row : CostRow Time Cost) : String :=
  row.kind.getD (if row.model = "" then "estimate" else "actual")

def sessionSpend (sum : List Cost → Cost) (group : List (CostRow Time Cost)) : Cost :=
  if 0 < (group.filter fun row => row.sqlKind = "actual").length then
    sum (group.map fun row => if row.sqlKind = "actual" then row.estimatedCost else 0)
  else (group.map CostRow.estimatedCost).max?.getD 0

/-- `DAILY_SPEND_SQL`, with `COALESCE(SUM(..), 0.0)` as the database computes it. The
groups come in the order of their sessions. -/
def dailySpendSql (sum : List Cost → Cost) (date : String) (rows : List (CostRow Time Cost)) : Cost :=
  let today := rows.filter fun row => row.date = date
  let sessions := (today.map CostRow.sessionId).dedup.insertionSort (· ≤ ·)
  sum (sessions.map fun sessionId => sessionSpend sum (today.filter fun row => row.sessionId = sessionId))

end Query

section Reconciliation
variable {Time Cost : Type} [Zero Cost] [Add Cost] [LinearOrder Cost] [LinearOrder Time]

/-- A total that starts at zero and takes the costs one by one. -/
def addUp (costs : List Cost) : Cost := costs.foldl (· + ·) 0

structure SpendSessionState (Time Cost : Type) where
  actualCount : Nat
  actualSpend : Cost
  legacyEstimate : Option Cost
  currentEstimate : Option (Time × Cost)

/-- A session of which nothing has been read. -/
def SpendSessionState.new : SpendSessionState Time Cost := ⟨0, 0, none, none⟩

/-- A candidate replaces one that is not newer. -/
def newest (previous : Option (Time × Cost)) (candidate : Time × Cost) : Option (Time × Cost) :=
  match previous with
  | none => some candidate
  | some held => if held.1 ≤ candidate.1 then some candidate else previous

def CostRow.effectiveKind (row : CostRow Time Cost) : String :=
  row.kind.getD (if row.model = "" then "estimate_legacy" else "actual")

def SpendSessionState.read (item : SpendSessionState Time Cost) (row : CostRow Time Cost) :
    SpendSessionState Time Cost :=
  if row.effectiveKind = "actual" then
    { item with actualCount := item.actualCount + 1, actualSpend := item.actualSpend + row.estimatedCost }
  else if row.effectiveKind = "estimate" then
    { item with currentEstimate := newest item.currentEstimate (row.timestamp, row.estimatedCost) }
  else
    { item with legacyEstimate := some (match item.legacyEstimate with
      | none => row.estimatedCost
      | some previous => max previous row.estimatedCost) }

def SpendSessionState.spend (item : SpendSessionState Time Cost) : Cost :=
  if 0 < item.actualCount then item.actualSpend
  else
    match item.legacyEstimate, item.currentEstimate with
    | some legacy, some current => max legacy current.2
    | some legacy, none => max legacy 0
    | none, some current => current.2
    | none, none => 0

def sessionState (state : Dict String (SpendSessionState Time Cost)) (sessionId : String) :
    SpendSessionState Time Cost :=
  (state.get sessionId).getD .new

def pendingLatest (date : String) (pending : List (Event Time Cost)) : Dict String (Time × Cost) :=
  pending.foldl (fun latest event =>
    match event.cost with
    | none => latest
    | some (_, cost) =>
      if event.date ≠ date then latest
      else
        match newest (latest.get event.sessionId) (event.timestamp, cost) with
        | none => latest
        | some candidate => latest.set event.sessionId candidate) Dict.empty

def readRows (date : String) (rows : List (CostRow Time Cost)) : Dict String (SpendSessionState Time Cost) :=
  (rows.filter fun row => row.date = date).foldl (fun state row =>
    state.set row.sessionId ((sessionState state row.sessionId).read row)) Dict.empty

def addPending (state : Dict String (SpendSessionState Time Cost)) (latest : Dict String (Time × Cost)) :
    Dict String (SpendSessionState Time Cost) :=
  latest.entries.foldl (fun state (sessionId, candidate) =>
    let item := sessionState state sessionId
    state.set sessionId { item with currentEstimate := newest item.currentEstimate candidate }) state

/-- What `daily_spend_with_pending` makes of the events and the rows that it has read. -/
def reconcile (date : String) (pending : List (Event Time Cost)) (rows : List (CostRow Time Cost)) : Cost :=
  addUp ((addPending (readRows date rows) (pendingLatest date pending)).values.map SpendSessionState.spend)

end Reconciliation

/-- How far a call of `daily_spend_with_pending` is. -/
inductive Reader (Time Cost : Type) where
  | idle
  | reading (paths : List String) (pending : List (Event Time Cost))
  | done (spend : Cost)

def Reader.result {Time Cost : Type} : Reader Time Cost → Option Cost
  | .done spend => some spend
  | _ => none

/-- The spool with its workers, the recorded rows of the table, and a reader. -/
structure Office (Time Cost Hash : Type) where
  spool : World Time Cost Hash
  recorded : List (Recorded Time Cost)
  reader : Reader Time Cost

inductive Action (Time Cost : Type) where
  | spool (action : PreSend.Action Time Cost)
  | record (row : Recorded Time Cost)
  | list
  | read
  | query (rows : List (CostRow Time Cost))

section Parts
variable {Time Cost : Type}

def spoolActions (actions : List (Action Time Cost)) : List (PreSend.Action Time Cost) :=
  actions.filterMap fun
    | .spool action => some action
    | _ => none

def recordings (actions : List (Action Time Cost)) : List (Recorded Time Cost) :=
  actions.filterMap fun
    | .record row => some row
    | _ => none

theorem spoolActions_append (first second : List (Action Time Cost)) :
    spoolActions (first ++ second) = spoolActions first ++ spoolActions second := List.filterMap_append

theorem recordings_append (first second : List (Action Time Cost)) :
    recordings (first ++ second) = recordings first ++ recordings second := List.filterMap_append

end Parts

section Steps
variable {Time Cost Hash : Type} [LinearOrder Time] [LinearOrder Cost] [Zero Cost] [Add Cost] [DecidableEq Hash]
variable (sha256 : String → Hash) (round6 : Cost → Cost)

/-- The table has its rows in no particular order, so a query may find any of them. -/
def step (N : Type) [Numerals N] (date : String) (office : Office Time Cost Hash) :
    Action Time Cost → Office Time Cost Hash
  | .spool action => { office with spool := PreSend.step sha256 round6 N office.spool action }
  | .record row => { office with recorded := office.recorded ++ [row] }
  | .list => { office with reader := .reading (sortedPaths office.spool.files) [] }
  | .read =>
    match office.reader with
    | .reading (path :: paths) pending =>
      -- A file that a worker has removed in between is passed over.
      { office with reader := .reading paths (pending ++ (office.spool.files.get path).toList) }
    | _ => office
  | .query rows =>
    match office.reader with
    | .reading [] pending =>
      if rows.Perm (companionCosts office.recorded office.spool.estimates) then
        { office with reader := .done (reconcile date pending rows) }
      else office
    | _ => office

def run (N : Type) [Numerals N] (date : String) (office : Office Time Cost Hash)
    (actions : List (Action Time Cost)) :
    Office Time Cost Hash :=
  actions.foldl (step sha256 round6 N date) office

end Steps
end TokenPak.Companion.DailySpend
