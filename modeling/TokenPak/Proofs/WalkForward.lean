import Mathlib.Analysis.Complex.ExponentialBounds
import TokenPak.Proofs.ReplayedBands

/-! What the verdict of the replay on a point depends on. The cell's sessions are cut off before
the block of the point; the pool is not cut off, so sessions that ended later may be borrowed from. -/

namespace TokenPak.Proxy.ForecastCalibration
open Library

section Places
variable {F : Type} [Field F] [LinearOrder F] [FloorRing F] {math : Math F} {step : StepBands F} {k : Nat}
variable {verdict : Except String Verdict}

theorem mem_pointsFrom {total before : F} {turns first : Nat} {costs : List F} :
    (k, verdict) ∈ pointsFrom math step total turns first before costs ↔
      (first ≤ k ∧ k < first + costs.length) ∧
        (k < turns ∧ k ≤ kMax ∧ 0 < before + (costs.take (k + 1 - first)).sum) ∧
        verdict = judge math step k (before + (costs.take (k + 1 - first)).sum) total := by
  induction costs generalizing first before with
  | nil =>
    simp only [pointsFrom, List.not_mem_nil, List.length_nil, false_iff, not_and]
    omega
  | cons cost costs ih =>
    have later (behind : first + 1 ≤ k) : before + ((cost :: costs).take (k + 1 - first)).sum =
        before + cost + (costs.take (k + 1 - (first + 1))).sum := by
      have shift : k + 1 - first = k + 1 - (first + 1) + 1 := by omega
      rw [shift, List.take_succ_cons, List.sum_cons, add_assoc]
    have rest : (k, verdict) ∈ pointsFrom math step total turns (first + 1) (before + cost) costs ↔
        (first + 1 ≤ k ∧ k < first + (cost :: costs).length) ∧
          (k < turns ∧ k ≤ kMax ∧ 0 < before + ((cost :: costs).take (k + 1 - first)).sum) ∧
          verdict = judge math step k (before + ((cost :: costs).take (k + 1 - first)).sum) total := by
      rw [ih]
      constructor
      · intro found
        rw [later found.1.1]
        exact ⟨⟨found.1.1, by simp only [List.length_cons]; omega⟩, found.2⟩
      · intro found
        rw [later found.1.1] at found
        refine ⟨⟨found.1.1, ?_⟩, found.2⟩
        have bound := found.1.2
        simp only [List.length_cons] at bound
        omega
    have here : before + ((cost :: costs).take (first + 1 - first)).sum = before + cost := by
      have single : first + 1 - first = 1 := by omega
      rw [single, List.take_succ_cons, List.take_zero, List.sum_cons, List.sum_nil, add_zero]
    simp only [pointsFrom]
    split
    next skipped =>
      rw [rest]
      constructor
      · intro found
        exact ⟨⟨by omega, found.1.2⟩, found.2⟩
      · intro found
        by_cases same : k = first
        · subst same
          rw [here] at found
          obtain ⟨_, ⟨turn, window, spent⟩, _⟩ := found
          rcases skipped with final | deep | nothing
          · omega
          · omega
          · exact absurd nothing (not_le.mpr spent)
        · exact ⟨⟨by omega, found.1.2⟩, found.2⟩
    next kept =>
      simp only [not_or, not_le, not_lt] at kept
      rw [List.mem_cons, Prod.mk.injEq, rest]
      constructor
      · intro found
        rcases found with ⟨same, value⟩ | later
        · subst same
          rw [here]
          refine ⟨⟨le_refl k, by simp⟩, ⟨?_, kept.2.1, kept.2.2⟩, value⟩
          exact kept.1
        · exact ⟨⟨by omega, later.1.2⟩, later.2⟩
      · intro found
        by_cases same : k = first
        · subst same
          rw [here] at found
          exact .inl ⟨rfl, found.2.2⟩
        · exact .inr ⟨⟨by omega, found.1.2⟩, found.2⟩

theorem mem_sessionPoints {session : HistorySession F} : (k, verdict) ∈ sessionPoints math step session ↔
    1 ≤ k ∧ k < session.turns ∧ k ≤ kMax ∧ 0 < (session.turnCosts.take k).sum ∧
      verdict = judge math step k (session.turnCosts.take k).sum session.total := by
  rw [sessionPoints, mem_pointsFrom, zero_add, Nat.add_sub_cancel]
  constructor
  · intro ⟨⟨first, _⟩, ⟨turn, window, spent⟩, value⟩
    exact ⟨first, turn, window, spent, value⟩
  · intro ⟨first, turn, window, spent, value⟩
    have length : session.turns = session.turnCosts.length := rfl
    exact ⟨⟨first, by omega⟩, ⟨turn, window, spent⟩, value⟩

def blockStart (j : Nat) : Nat := 10 + 8 * ((j - 10) / 8)

theorem mem_blockStarts {count i : Nat} : i ∈ blockStarts count ↔ ∃ m, i = 10 + 8 * m ∧ i < count := by
  have first : max (minCellSessions / 2) 6 = 10 := rfl
  simp only [blockStarts, first, wfBlock, List.mem_range']
  constructor
  · intro ⟨m, inside, same⟩
    exact ⟨m, same, by omega⟩
  · intro ⟨m, same, inside⟩
    exact ⟨m, by omega, same⟩

omit [Field F] [LinearOrder F] [FloorRing F] in
theorem mem_block {cell : List (HistorySession F)} {session : HistorySession F} {i j : Nat} :
    (session, j) ∈ ((cell.drop i).take wfBlock).zipIdx i ↔ i ≤ j ∧ j < i + 8 ∧ cell[j]? = some session := by
  rw [List.mk_mem_zipIdx_iff_le_and_getElem?_sub]
  apply and_congr_right
  intro behind
  rw [List.getElem?_take, List.getElem?_drop]
  have place : i + (j - i) = j := by omega
  rw [place]
  unfold wfBlock
  by_cases near : j - i < 8
  · rw [if_pos near]
    exact ⟨fun found => ⟨by omega, found⟩, And.right⟩
  · rw [if_neg near]
    constructor
    · intro found
      cases found
    · intro found
      exact absurd found.1 (by omega)

theorem mem_points {cell pool : List (HistorySession F)} {point : Point} : point ∈ points math cell pool ↔
    10 ≤ point.session ∧ ∃ session, cell[point.session]? = some session ∧
      (point.turn, point.verdict) ∈
        sessionPoints math (.new math (cell.take (blockStart point.session)) (poolNearTable math pool)) session := by
  obtain ⟨j, k, verdict⟩ := point
  simp only [points, List.mem_flatMap, List.mem_map, Prod.exists, Point.mk.injEq]
  constructor
  · intro ⟨i, start, session, place, block, turn, value, inside, sameSession, sameTurn, sameValue⟩
    subst sameSession sameTurn sameValue
    obtain ⟨m, first, _⟩ := mem_blockStarts.mp start
    obtain ⟨behind, within, found⟩ := mem_block.mp block
    have same : i = blockStart place := by
      unfold blockStart
      omega
    subst same
    exact ⟨by omega, session, found, inside⟩
  · intro ⟨late, session, found, inside⟩
    have bound : j < cell.length := (List.getElem?_eq_some_iff.mp found).1
    refine ⟨blockStart j, mem_blockStarts.mpr ⟨(j - 10) / 8, rfl, ?_⟩, session, j,
      mem_block.mpr ⟨?_, ?_, found⟩, k, verdict,
      inside, rfl, rfl, rfl⟩
    · unfold blockStart
      omega
    · unfold blockStart
      omega
    · unfold blockStart
      omega

end Places

section Causes
variable {F : Type} [Field F] [LinearOrder F] [FloorRing F] {math : Math F}

/-- The sessions that ended before another one. -/
def past (session : HistorySession F) (sessions : List (HistorySession F)) : List (HistorySession F) :=
  sessions.filter fun other => other.endedAt < session.endedAt

def borrowed (math : Math F) (history pool : List (HistorySession F)) (k : Nat) : List F :=
  let others := near (samples math pool) k
  others.take (takePool (F := F) (near (samples math (split history).1) k).length others.length)

/-- The point is fitted on the past: the sessions of the cell up to its block ended before its session, and
the sessions of the pool that did not end before it make no difference to what is borrowed. -/
structure Causal (math : Math F) (cell pool : List (HistorySession F)) (session : HistorySession F)
    (j k : Nat) : Prop where
  fitted : ∀ earlier ∈ cell.take (blockStart j), earlier.endedAt < session.endedAt
  lent : borrowed math (cell.take (blockStart j)) pool k = borrowed math (cell.take (blockStart j))
    (past session pool) k

theorem Causal.of_settled {cell pool : List (HistorySession F)} {session : HistorySession F} {j k : Nat}
    (fitted : ∀ earlier ∈ cell.take (blockStart j), earlier.endedAt < session.endedAt)
    (settled : ∀ other ∈ pool, other.endedAt < session.endedAt) : Causal math cell pool session j k := by
  have kept : past session pool = pool := by
    apply List.filter_eq_self.mpr
    intro other member
    exact decide_eq_true (settled other member)
  exact ⟨fitted, by rw [kept]⟩

theorem band_of_borrowed {history pool other : List (HistorySession F)} {k : Nat} (positive : 1 ≤ k)
    (same : borrowed math history pool k = borrowed math history other k) (target : F) (oneSided : Bool) :
    (StepBands.new math history (poolNearTable math pool)).band k target oneSided =
      (StepBands.new math history (poolNearTable math other)).band k target oneSided := by
  have size : ((byK math (split history).1).near k).length =
      (near (samples math (split history).1) k).length :=
    (near_byK_perm math (split history).1 positive).length_eq
  have base (lender : List (HistorySession F)) :
      pooled ((byK math (split history).1).near k) (poolNearTable math lender (min k kMax)) (priorNear k) =
        let base := (byK math (split history).1).near k ++ borrowed math history lender k
        if base.length < 8 then base ++ priorNear k else base := by
    rw [poolNearTable_apply math lender positive]
    simp only [pooled, borrowed, size]
    rfl
  simp only [StepBands.band, StepBands.new, base, same]

theorem judge_of_borrowed {history pool other : List (HistorySession F)} {k : Nat} (positive : 1 ≤ k)
    (same : borrowed math history pool k = borrowed math history other k) (spent total : F) :
    judge math (.new math history (poolNearTable math pool)) k spent total =
      judge math (.new math history (poolNearTable math other)) k spent total := by
  simp only [judge, band_of_borrowed positive same]

omit [Field F] [LinearOrder F] [FloorRing F] in
theorem take_of_past {cell : List (HistorySession F)} {session : HistorySession F} {i : Nat}
    (fitted : ∀ earlier ∈ cell.take i, earlier.endedAt < session.endedAt) :
    cell.take i = (past session cell).take i := by
  induction cell generalizing i with
  | nil => rfl
  | cons first cell ih =>
    cases i with
    | zero => rfl
    | succ i =>
      have early : first.endedAt < session.endedAt := fitted first (by simp)
      have rest : cell.take i = (past session cell).take i := by
        apply ih
        intro earlier member
        exact fitted earlier (by simp [member])
      simp only [past, List.filter_cons, early, decide_true, if_true, List.take_succ_cons]
      rw [rest, past]

/-- Two corpora with the same past give a causal point the same verdict. -/
theorem replay_causal (math : Math F) {cell other pool lender : List (HistorySession F)}
    {session : HistorySession F} {j k : Nat}
    (here : cell[j]? = some session) (there : other[j]? = some session)
    (sameCell : past session cell = past session other)
    (samePool : past session pool = past session lender) (causal : Causal math cell pool session j k)
    (causalOther : Causal math other lender session j k) (verdict : Except String Verdict) :
    ⟨j, k, verdict⟩ ∈ points math cell pool ↔ ⟨j, k, verdict⟩ ∈ points math other lender := by
  have fit : cell.take (blockStart j) = other.take (blockStart j) := by
    rw [take_of_past causal.fitted, take_of_past causalOther.fitted, sameCell]
  have lent : borrowed math (cell.take (blockStart j)) pool k =
      borrowed math (cell.take (blockStart j)) lender k := by
    have theirs := causalOther.lent
    rw [← fit] at theirs
    rw [causal.lent, samePool, theirs]
  have judged (positive : 1 ≤
    k) : judge math (.new math (cell.take (blockStart j)) (poolNearTable math pool)) k
      (session.turnCosts.take k).sum session.total =
      judge math (.new math (other.take (blockStart j)) (poolNearTable math lender)) k
        (session.turnCosts.take k).sum session.total := by
    rw [← fit]
    exact judge_of_borrowed positive lent _ _
  rw [mem_points, mem_points]
  apply and_congr_right
  intro _
  simp only [here, there, Option.some.injEq, exists_eq_left', mem_sessionPoints]
  apply and_congr_right
  intro positive
  rw [judged positive]

end Causes

section Leak

/-- Ten sessions of a single turn, and one of two turns. -/
noncomputable def leakCell : List (HistorySession ℝ) := List.replicate 10 ⟨0, [1]⟩ ++ [⟨100, [1, 15]⟩]

/-- Sessions that end after all those of the cell. -/
noncomputable def leakPool : List (HistorySession ℝ) := List.replicate 8 ⟨200, [1, 31]⟩

theorem leak_history : leakCell.take (blockStart 10) = List.replicate 10 (⟨0, [1]⟩ : HistorySession ℝ) := by
  simp [leakCell, blockStart]

theorem replay_causal_later :
    ⟨10, 1, .ok ⟨some true, some true⟩⟩ ∈ points realMath leakCell [⟨7, [1, 1]⟩] ↔
      ⟨10, 1, .ok ⟨some true, some true⟩⟩ ∈ points realMath (leakCell ++ [⟨300, [4]⟩])
          [⟨7, [1, 1]⟩, ⟨200, [5]⟩] := by
  have here : leakCell[10]? = some ⟨100, [1, 15]⟩ := by simp [leakCell]
  have longer : (leakCell ++ [(⟨300, [4]⟩ : HistorySession ℝ)]).take (blockStart 10) =
      leakCell.take (blockStart 10) := by
    simp [leakCell, blockStart]
  have fitted : ∀ earlier ∈ leakCell.take (blockStart 10), earlier.endedAt < 100 := by
    rw [leak_history]
    simp
  have single : samples realMath [⟨7, [1, 1]⟩, ⟨200, [5]⟩] = samples realMath [⟨7, [1, 1]⟩] := by
    simp [samples, sessionKys, kysFrom, HistorySession.turns]
  have lent : borrowed realMath (leakCell.take (blockStart 10)) [⟨7, [1, 1]⟩, ⟨200, [5]⟩] 1 =
      borrowed realMath (leakCell.take (blockStart 10)) [⟨7, [1, 1]⟩] 1 := by
    rw [borrowed, borrowed, single]
  exact replay_causal realMath here (by simp [leakCell]) (by simp [past, leakCell]) (by simp [past])
    (.of_settled fitted (by simp)) ⟨longer ▸ fitted, by rw [longer]; simpa [past] using lent⟩ _

theorem quantile_ok {values : List ℝ} (some_left : values ≠ []) (q : ℝ) :
    ∃ value, quantile values q = .ok value := by
  have ordered : values.insertionSort (· ≤ ·) ≠ [] := by
    intro empty
    apply some_left
    have length := values.length_insertionSort (· ≤ ·)
    rw [empty] at length
    exact List.eq_nil_of_length_eq_zero length.symm
  simp only [quantile, ordered, if_false]
  split
  · exact ⟨_, rfl⟩
  · exact ⟨_, rfl⟩

/-- Without a sample to calibrate on, the upper end of a one-sided band is a quantile. -/
theorem bandOf_oneSided {base : List ℝ} {value : ℝ} (enough : 6 ≤ base.length) (target : ℝ)
    (upper : quantile base target = .ok value) (positive : 0 ≤ value) :
    bandOf base [] target true = .ok (some ⟨0, value⟩) := by
  have size : ¬ base.length < 6 := not_lt.mpr enough
  simp [bandOf, size, conformalBand, widening, upper, positive, bind, Except.bind, pure,
    Except.pure, Functor.map, Except.map]

theorem bandOf_ok {base : List ℝ} (enough : 6 ≤ base.length) (target : ℝ) :
    ∃ band, bandOf base [] target false = .ok (some band) := by
  have size : ¬ base.length < 6 := not_lt.mpr enough
  have some_left : base ≠ [] := by
    rintro rfl
    simp at enough
  obtain ⟨lo, lower⟩ := quantile_ok some_left ((1 - target) / 2)
  obtain ⟨hi, upper⟩ := quantile_ok some_left (1 - (1 - target) / 2)
  simp [bandOf, size, conformalBand, widening, lower, upper, bind, Except.bind, pure, Except.pure,
    Functor.map, Except.map]

theorem samples_single (count : Nat) : samples realMath (List.replicate count ⟨0, [1]⟩) = [] := by
  apply List.flatMap_eq_nil_iff.mpr
  intro session member
  rw [List.eq_of_mem_replicate member]
  simp [sessionKys, kysFrom, HistorySession.turns]

theorem samples_leakPool : samples realMath leakPool = List.replicate 8 (1, Real.log 32) := by
  have each : sessionKys realMath ⟨200, [1, 31]⟩ = [(1, Real.log 32)] := by
    have total : (1 : ℝ) + 31 = 32 := by norm_num
    simp [sessionKys, kysFrom, HistorySession.turns, HistorySession.total, kMax, realMath, total]
  simp [samples, leakPool, List.replicate, each]

theorem leak_band (pool : List (HistorySession ℝ)) (target : ℝ) (oneSided : Bool) :
    (StepBands.new realMath (leakCell.take (blockStart 10)) (poolNearTable realMath pool)).band 1 target oneSided =
      bandOf (pooled [] (near (samples realMath pool) 1) (priorNear 1)) [] target oneSided := by
  have own (count : Nat) : (byK realMath (List.replicate count ⟨0, [1]⟩)).near 1 = [] := by
    have perm := near_byK_perm realMath (List.replicate count ⟨0, [1]⟩) (le_refl 1)
    rw [samples_single] at perm
    exact perm.eq_nil
  rw [leak_history]
  simp only [StepBands.band, StepBands.new, split, List.take_replicate, List.drop_replicate, own]
  rw [poolNearTable_apply realMath pool (le_refl 1)]

theorem quantile_prior : quantile (priorNear 1 : List ℝ) (9/10) = .ok (9/4) := by
  have prior : (priorNear 1 : List ℝ) = [1/10, 2/5, 4/5, 13/10, 19/10, 13/5] := rfl
  have sorted : ([1/10, 2/5, 4/5, 13/10, 19/10, 13/5] : List ℝ).insertionSort (· ≤ ·) =
      [1/10, 2/5, 4/5, 13/10, 19/10, 13/5] := by
    apply List.Pairwise.insertionSort_eq
    norm_num
  rw [prior]
  simp only [quantile, sorted]
  norm_num
  rw [if_neg (List.cons_ne_nil _ _)]
  change Except.ok ((19/10 : ℝ) * (1/2) + 13/5 * (1/2)) = Except.ok (9/4)
  norm_num

theorem quantile_replicate (value : ℝ) : quantile (List.replicate 8 value) (9/10) = .ok value := by
  have sorted : (List.replicate 8 value).insertionSort (· ≤ ·) = List.replicate 8 value := by
    apply List.Pairwise.insertionSort_eq
    simp
  simp only [quantile, sorted]
  norm_num
  ring

theorem covered_iff (pool : List (HistorySession ℝ)) {value : ℝ} (positive : 0 ≤ value)
    (enough : 6 ≤ (pooled [] (near (samples realMath pool) 1) (priorNear 1)).length)
    (upper : quantile (pooled [] (near (samples realMath pool) 1) (priorNear 1)) (9/10) = .ok value) :
    ∃ fifty, ∀ verdict, ⟨10, 1, verdict⟩ ∈ points realMath leakCell pool ↔
      verdict = .ok ⟨some fifty, some (16 ≤ Real.exp value)⟩ := by
  obtain ⟨band, two⟩ := bandOf_ok enough (1/2)
  have one := bandOf_oneSided enough (9/10) upper positive
  have session : leakCell[10]? = some ⟨100, [1, 15]⟩ := by simp [leakCell]
  have total : (1 : ℝ) + 15 = 16 := by norm_num
  have judged : judge realMath (.new realMath (leakCell.take (blockStart 10)) (poolNearTable realMath pool)) 1 1 16 =
      .ok ⟨some (Real.exp band.loY ≤ 16 ∧ 16 ≤ Real.exp band.hiY), some (16 ≤ Real.exp value)⟩ := by
    simp only [judge, leak_band, two, one]
    simp [realMath, bind, Except.bind, pure, Except.pure]
  refine ⟨Real.exp band.loY ≤ 16 ∧ 16 ≤ Real.exp band.hiY, ?_⟩
  intro verdict
  rw [mem_points]
  simp [session, mem_sessionPoints, HistorySession.turns, HistorySession.total, kMax, total, judged]

/-- Sessions that ended later decide whether the point is covered. -/
theorem future_decides_coverage : past ⟨100, [1, 15]⟩ [] = past ⟨100, [1, 15]⟩ leakPool ∧
    (∃ fifty, ∀ verdict, ⟨10, 1, verdict⟩ ∈ points realMath leakCell [] ↔
      verdict = .ok ⟨some fifty, some false⟩) ∧
    ∃ fifty, ∀ verdict, ⟨10, 1, verdict⟩ ∈ points realMath leakCell leakPool ↔
      verdict = .ok ⟨some fifty, some true⟩ := by
  refine ⟨by simp [past, leakPool], ?_, ?_⟩
  · have alone : pooled [] (near (samples realMath []) 1) (priorNear 1) = (priorNear 1 : List ℝ) := by
      simp [samples, near, pooled]
    have short : ¬ (16 : ℝ) ≤ Real.exp (9/4) := by
      rw [← Real.log_le_iff_le_exp (by norm_num), not_le]
      have doubled : Real.log 16 = 4 * Real.log 2 := by
        rw [show (16 : ℝ) = 2 ^ 4 by norm_num, Real.log_pow]
        norm_num
      have two := Real.log_two_gt_d9
      rw [doubled]
      linarith
    obtain ⟨fifty, all⟩ := covered_iff [] (by norm_num : (0 : ℝ) ≤ 9/4) (by rw [alone]; decide)
      (by rw [alone]; exact quantile_prior)
    refine ⟨fifty, ?_⟩
    simpa [short] using all
  · have lent : pooled [] (near (samples realMath leakPool) 1)
        (priorNear 1) = List.replicate 8 (Real.log 32) := by
      have all : near (List.replicate 8 (1, Real.log 32)) 1 = List.replicate 8 (Real.log 32) := by
        simp [near, kMax, kWindow]
      have taken : takePool (F := ℝ) 0 8 = 8 := by
        norm_num [takePool, roundHalfEven, poolStrength]
        rfl
      rw [samples_leakPool, all]
      simp [pooled, taken]
    have long : (16 : ℝ) ≤ Real.exp (Real.log 32) := by
      rw [Real.exp_log (by norm_num)]
      norm_num
    obtain ⟨fifty, all⟩ :=
      covered_iff leakPool (Real.log_nonneg (by norm_num : (1 : ℝ) ≤ 32)) (by rw [lent]; decide)
      (by rw [lent]; exact quantile_replicate _)
    refine ⟨fifty, ?_⟩
    simpa [long] using all

end Leak

end TokenPak.Proxy.ForecastCalibration
