import Mathlib.Algebra.Order.Floor.Defs
import Mathlib.Algebra.Field.Defs
import Mathlib.Data.List.Sort

/-! The calibrated forecast of the tokens that a session still needs. A band is read off the
sessions of a cell, with samples borrowed from a pool, and a replay over the history of the cell
measures how often it was right. Numbers are exact, with a logarithm and an exponential. -/

namespace TokenPak.Proxy.ForecastCalibration

def minCellSessions : Nat := 20

def kMax : Nat := 15

def kWindow : Nat := 1

def poolStrength : Nat := 24

def wfBlock : Nat := 8

def recentWindow : Nat := 60

structure HistorySession (F : Type) where
  endedAt : Int
  turnCosts : List F

structure Math (F : Type) where
  log : F → F
  exp : F → F

structure Band (F : Type) where
  loY : F
  hiY : F

section Samples
variable {F : Type} [Field F] [LinearOrder F]

def HistorySession.total (session : HistorySession F) : F := session.turnCosts.sum

def HistorySession.turns (session : HistorySession F) : Nat := session.turnCosts.length

/-- The samples from a turn on, after some of the total is spent. At the final turn nothing remains. -/
def kysFrom (math : Math F) (total : F) (turns : Nat) : Nat → F → List F → List (Nat × F)
  | _, _, [] => []
  | k, before, cost :: costs =>
    let spent := before + cost
    if turns ≤ k then []
    else if kMax < k ∨ spent ≤ 0 then kysFrom math total turns (k + 1) spent costs
    else (k, math.log (max (total / spent) 1)) :: kysFrom math total turns (k + 1) spent costs

def sessionKys (math : Math F) (session : HistorySession F) : List (Nat × F) :=
  kysFrom math session.total session.turns 1 0 session.turnCosts

def samples (math : Math F) (sessions : List (HistorySession F)) : List (Nat × F) :=
  sessions.flatMap (sessionKys math)

def near (samples : List (Nat × F)) (k : Nat) : List F :=
  let kk := min k kMax
  (samples.filter fun sample => kk - kWindow ≤ sample.1 ∧ sample.1 ≤ kk + kWindow).map Prod.snd

def priorYByK : List (Nat × List F) :=
  [(1, [1/10, 2/5, 4/5, 13/10, 19/10, 13/5]),
    (3, [1/20, 1/4, 11/20, 19/20, 3/2, 21/10]),
    (6, [1/50, 3/20, 7/20, 13/20, 21/20, 8/5]),
    (10, [1/100, 2/25, 1/5, 2/5, 7/10, 11/10]),
    (kMax, [0, 1/20, 3/25, 1/4, 9/20, 4/5])]

def priorNear (k : Nat) : List F :=
  let kk := min k kMax
  let distance (entry : Nat × List F) : Nat := (entry.1 - kk) + (kk - entry.1)
  let nearest (best : Option (Nat × List F)) (entry : Nat × List F) : Option (Nat × List F) :=
    match best with
    | none => some entry
    | some held => if distance entry < distance held then some entry else some held
  ((priorYByK.foldl nearest none).map Prod.snd).getD []

end Samples

section Bands
variable {F : Type} [Field F] [LinearOrder F] [FloorRing F]

/-- The middle of two integers goes to the even one. -/
def roundHalfEven (x : F) : Int :=
  let whole := ⌊x⌋
  let rest := x - whole
  if rest < 1/2 then whole
  else if 1/2 < rest then whole + 1
  else if whole % 2 = 0 then whole
  else whole + 1

def quantile (values : List F) (q : F) : Except String F :=
  let ordered := values.insertionSort (· ≤ ·)
  if ordered = [] then .error "quantile of empty sample"
  else
    let pos : F := ((ordered.length : F) - 1) * min (max q 0) 1
    let lo := ⌊pos⌋
    let hi := ⌈pos⌉
    -- pos lies within the list
    let value (place : Int) : F := ordered.getD place.toNat 0
    if lo = hi then .ok (value lo)
    else .ok (value lo * (1 - (pos - lo)) + value hi * (pos - lo))

def takePool (own pool : Nat) : Nat :=
  let weight : F := (poolStrength : F) / ((own : F) + (poolStrength : F))
  (roundHalfEven (weight * (min pool (poolStrength * 2) : Nat))).toNat

/-- Partial pooling: the cell's own samples plus a fading share of others. -/
def pooled (cell pool prior : List F) : List F :=
  let base := cell ++ pool.take (takePool (F := F) cell.length pool.length)
  if base.length < 8 then base ++ prior else base

/-- By how much the calibration sample misses the band. -/
def widening (calib : List F) (target lo hi : F) : Except String F :=
  if calib = [] then .ok 0
  else
    let misses := calib.map fun y => max (lo - y) (y - hi)
    let rank := min 1 (target * (1 + 1 / (max 1 calib.length : Nat)))
    (max 0) <$> quantile misses rank

def conformalBand (train calib : List F) (target : F) (oneSided : Bool) : Except String (Band F) := do
  let lo ← if oneSided then pure 0 else quantile train ((1 - target) / 2)
  let hi ← quantile train (if oneSided then target else 1 - (1 - target) / 2)
  let widen ← widening calib target lo hi
  let loAdj := if oneSided then 0 else max 0 (lo - widen)
  return { loY := loAdj, hiY := max (hi + widen) loAdj }

def split (sessions : List (HistorySession F)) : List (HistorySession F) × List (HistorySession F) :=
  let c := max 3 (sessions.length / 4)
  (sessions.take (sessions.length - c), sessions.drop (sessions.length - c))

def bandOf (base calib : List F) (target : F) (oneSided : Bool) : Except String (Option (Band F)) :=
  if base.length < 6 then .ok none else some <$> conformalBand base calib target oneSided

def bandFor (math : Math F) (cellSessions poolSessions : List (HistorySession F)) (k : Nat)
    (target : F) (oneSided : Bool) :
    Except String (Option (Band F)) :=
  let cellTrain := near (samples math (split cellSessions).1) k
  let cellCalib := near (samples math (split cellSessions).2) k
  let pool := near (samples math poolSessions) k
  bandOf (pooled cellTrain pool (priorNear k)) cellCalib target oneSided

/-! The replay keeps its samples in one list for each turn. -/

abbrev ByK (F : Type) := Nat → List F

def ByK.append (table : ByK F) (k : Nat) (y : F) : ByK F := Function.update table k (table k ++ [y])

structure StepBands (F : Type) where
  trainByK : ByK F
  calibByK : ByK F
  poolNearByK : ByK F

def byK (math : Math F) (sessions : List (HistorySession F)) : ByK F :=
  (samples math sessions).foldl (fun table sample => table.append (min sample.1 kMax) sample.2) fun _ => []

def StepBands.new (math : Math F) (sessions : List (HistorySession F)) (poolNearByK : ByK F) : StepBands F :=
  ⟨byK math (split sessions).1, byK math (split sessions).2, poolNearByK⟩

def window (k : Nat) : List Nat :=
  let first := max 1 (k - kWindow)
  List.range' first (min kMax (k + kWindow) + 1 - first)

def ByK.near (table : ByK F) (k : Nat) : List F := (window (min k kMax)).flatMap table

/-- Bands are kept for each `min(k, KMAX)`, target and side; they depend on nothing else. -/
def StepBands.band (step : StepBands F) (k : Nat) (target : F) (oneSided : Bool) :
    Except String (Option (Band F)) :=
  let cellTrain := step.trainByK.near k
  let cellCalib := step.calibByK.near k
  bandOf (pooled cellTrain (step.poolNearByK (min k kMax)) (priorNear k)) cellCalib target oneSided

/-- Per-turn-index pool sample lists in the order of the live path. -/
def poolNearTable (math : Math F) (poolSessions : List (HistorySession F)) : ByK F :=
  (samples math poolSessions).foldl
    (fun table sample => (window (min sample.1 kMax)).foldl (fun table k =>
      table.append k sample.2) table) fun _ => []

end Bands

section Replay
variable {F : Type} [Field F] [LinearOrder F] [FloorRing F]

/-- For each figure whether the point is covered, if it is scored. -/
structure Verdict where
  fifty : Option Bool
  ninety : Option Bool
  deriving DecidableEq

def judge (math : Math F) (step : StepBands F) (k : Nat) (spent total : F) : Except String Verdict := do
  let fifty ← step.band k (1/2) false
  let ninety ← step.band k (9/10) true
  return {
    fifty := fifty.map fun band => spent * math.exp band.loY ≤ total ∧ total ≤ spent * math.exp band.hiY
    ninety := ninety.map fun band => total ≤ spent * math.exp band.hiY }

def pointsFrom (math : Math F) (step : StepBands F) (total : F) (turns : Nat) :
    Nat → F → List F → List (Nat × Except String Verdict)
  | _, _, [] => []
  | k, before, cost :: costs =>
    let spent := before + cost
    let rest := pointsFrom math step total turns (k + 1) spent costs
    if turns ≤ k ∨ kMax < k ∨ spent ≤ 0 then rest else (k, judge math step k spent total) :: rest

def sessionPoints (math : Math F) (step : StepBands F) (session : HistorySession F) :
    List (Nat × Except String Verdict) :=
  pointsFrom math step session.total session.turns 1 0 session.turnCosts

structure Point where
  session : Nat
  turn : Nat
  verdict : Except String Verdict

def blockStarts (sessions : Nat) : List Nat :=
  let first := max (minCellSessions / 2) 6
  List.range' first ((sessions - first + (wfBlock - 1)) / wfBlock) wfBlock

def points (math : Math F) (cellSessions poolSessions : List (HistorySession F)) : List Point :=
  let poolNear := poolNearTable math poolSessions
  (blockStarts cellSessions.length).flatMap fun i =>
    let step := StepBands.new math (cellSessions.take i) poolNear
    (((cellSessions.drop i).take wfBlock).zipIdx i).flatMap fun (session, j) =>
      (sessionPoints math step session).map fun (k, verdict) => ⟨j, k, verdict⟩

structure Figure (F : Type) where
  coverage : Option F
  scored : Nat

/-- The share of covered points among the scored ones, in percent. -/
def Figure.of (verdicts : List (Option Bool)) : Figure F :=
  let scored := (verdicts.filter Option.isSome).length
  let inside := (verdicts.filter (· = some true)).length
  if scored = 0 then ⟨none, 0⟩ else ⟨some (100 * (inside : F) / (scored : F)), scored⟩

structure ReplayMeasurement (F : Type) where
  fifty : Figure F
  ninety : Figure F
  fiftyTail : Figure F

/-- The tail figure scores the most recent sessions only. -/
def replay (math : Math F) (cellSessions poolSessions : List (HistorySession F)) :
    Except String (ReplayMeasurement F) := do
  let firstTail := cellSessions.length - recentWindow
  let verdicts ← (points math cellSessions poolSessions).mapM fun point =>
    do return (point.session, ← point.verdict)
  return {
    fifty := .of (verdicts.map fun (_, verdict) => verdict.fifty)
    ninety := .of (verdicts.map fun (_, verdict) => verdict.ninety)
    fiftyTail := .of ((verdicts.filter fun (j, _) => firstTail ≤ j).map fun (_, verdict) => verdict.fifty) }

inductive DriftState where
  | unknown | stable | drifting
  deriving DecidableEq

structure CellReadiness (F : Type) where
  sessions : Nat
  scoredPoints : Nat
  observedCoverage50 : Option F
  observedCoverage90 : Option F
  driftState : DriftState

def minScoredPoints : Nat := 20

def driftTolerance : Nat := 12

/-- The drift of a cell that is scored: a model that no longer covers the recent sessions is to forget. -/
def driftOf (sessions : Nat) (measured : ReplayMeasurement F) : DriftState :=
  if measured.fifty.coverage.isSome ∧ minScoredPoints ≤ measured.fifty.scored then
    match measured.fiftyTail.coverage with
    | some covered =>
      if recentWindow < sessions ∧ minScoredPoints / 2 ≤ measured.fiftyTail.scored ∧
        (driftTolerance : F) < 50 - covered then .drifting
      else .stable
    | none => .stable
  else .unknown

/-- Trust assessment for a cell: measured coverage and drift state. -/
def cellReadiness (math : Math F) (cellSessions poolSessions : List (HistorySession F)) :
    Except String (CellReadiness F) :=
  if cellSessions.length < minCellSessions then .ok ⟨cellSessions.length, 0, none, none, .unknown⟩
  else do
    let measured ← replay math cellSessions poolSessions
    return ⟨cellSessions.length, measured.fifty.scored, measured.fifty.coverage, measured.ninety.coverage,
      driftOf cellSessions.length measured⟩

end Replay

end TokenPak.Proxy.ForecastCalibration
