import Mathlib.Analysis.SpecialFunctions.Log.Basic
import TokenPak.Library.StableSort
import TokenPak.Proxy.ForecastCalibration

/-! The replay measures the estimator that is deployed. It has the samples of the cell in another
order than the live path, which quantiles do not see, and those of the pool in the same one. -/

namespace TokenPak.Proxy.ForecastCalibration
open Library Buckets

section Quantiles
variable {F : Type} [Field F] [LinearOrder F] [FloorRing F]
variable {values other base calib rest : List F}

omit [Field F] [FloorRing F] in
theorem sorted_of_perm (perm : values.Perm other) :
    values.insertionSort (· ≤ ·) = other.insertionSort (· ≤ ·) := by
  have same : (values.insertionSort (· ≤ ·)).Perm (other.insertionSort (· ≤ ·)) :=
    ((values.perm_insertionSort _).trans perm).trans (other.perm_insertionSort _).symm
  exact same.eq_of_pairwise' (values.pairwise_insertionSort _) (other.pairwise_insertionSort _)

theorem quantile_of_perm (perm : values.Perm other) (q : F) : quantile values q = quantile other q := by
  simp only [quantile, sorted_of_perm perm]

theorem widening_of_perm (perm : calib.Perm rest) (target lo hi : F) :
    widening calib target lo hi = widening rest target lo hi := by
  have none_left : calib = [] ↔ rest = [] := by
    constructor
    · rintro rfl
      exact perm.symm.eq_nil
    · rintro rfl
      exact perm.eq_nil
  simp only [widening, none_left, perm.length_eq, quantile_of_perm (perm.map fun y => max (lo - y) (y - hi))]

theorem bandOf_of_perm (train : base.Perm other) (miss : calib.Perm rest) (target : F) (oneSided : Bool) :
    bandOf base calib target oneSided = bandOf other rest target oneSided := by
  simp only [bandOf, conformalBand, train.length_eq, quantile_of_perm train, widening_of_perm miss]

theorem pooled_of_perm (perm : values.Perm other) (pool prior : List F) :
    (pooled values pool prior).Perm (pooled other pool prior) := by
  have grown := perm.append_right (pool.take (takePool (F := F) other.length pool.length))
  simp only [pooled, perm.length_eq, List.length_append]
  split
  · exact grown.append_right prior
  · exact grown

end Quantiles

section Tables
variable {F : Type} [Field F] [LinearOrder F] {math : Math F} {k : Nat} {sample : Nat × F}

theorem turn_of_kysFrom {total : F} {turns first : Nat} {spent : F} {costs : List F} (positive : 1 ≤ first)
    (member : sample ∈ kysFrom math total turns first spent costs) : 1 ≤ sample.1 ∧ sample.1 ≤ kMax := by
  induction costs generalizing first spent with
  | nil => cases member
  | cons cost costs ih =>
    simp only [kysFrom] at member
    split at member
    · cases member
    · split at member
      · exact ih (by omega) member
      next taken =>
        rcases List.mem_cons.mp member with here | later
        · subst here
          exact ⟨positive, by omega⟩
        · exact ih (by omega) later

theorem turn_of_samples {sessions : List (HistorySession F)} (member : sample ∈ samples math sessions) :
    1 ≤ sample.1 ∧ sample.1 ≤ kMax := by
  obtain ⟨session, _, inside⟩ := List.mem_flatMap.mp member
  exact turn_of_kysFrom (le_refl 1) inside

theorem mem_window {place : Nat} :
    place ∈ window k ↔ max 1 (k - kWindow) ≤ place ∧ place ≤ min kMax (k + kWindow) := by
  simp only [window, List.mem_range'_1]
  omega

theorem nodup_window (k : Nat) : (window k).Nodup := List.nodup_range' ..

def bucket (sample : Nat × F) : Nat := min sample.1 kMax

omit [Field F] [LinearOrder F] in
theorem foldl_append (kept : List (Nat × F)) (table : ByK F) (place : Nat) :
    kept.foldl (fun table sample => table.append (min sample.1 kMax) sample.2) table place =
      table place ++ (held bucket kept place).map Prod.snd := by
  induction kept generalizing table with
  | nil => simp [held]
  | cons sample kept ih =>
    rw [List.foldl_cons, ih, held, held, List.filter_cons]
    by_cases same : bucket sample = place
    · have target : min sample.1 kMax = place := same
      simp [same, target, ByK.append]
    · have apart : place ≠ min sample.1 kMax := fun equal => same equal.symm
      simp [same, apart, ByK.append]

omit [Field F] [LinearOrder F] in
theorem foldl_append_all {places : List Nat} (distinct : places.Nodup) (table : ByK F) (y : F) (place : Nat) :
    places.foldl (fun table k => table.append k y) table place =
      if place ∈ places then table place ++ [y] else table place := by
  induction places generalizing table with
  | nil => rfl
  | cons first places ih =>
    obtain ⟨fresh, distinct⟩ := List.nodup_cons.mp distinct
    rw [List.foldl_cons, ih distinct]
    by_cases same : place = first
    · subst same
      simp [fresh, ByK.append]
    · simp [same, ByK.append]

theorem byK_apply (math : Math F) (sessions : List (HistorySession F)) (place : Nat) :
    byK math sessions place = (held bucket (samples math sessions) place).map Prod.snd := by
  rw [byK, foldl_append, List.nil_append]

omit [Field F] [LinearOrder F] in
theorem foldl_window (kept : List (Nat × F)) (table : ByK F) (place : Nat) :
    kept.foldl (fun table sample => (window (min sample.1 kMax)).foldl (fun table k =>
      table.append k sample.2) table)
        table place =
      table place ++ (kept.filter fun sample => place ∈ window (bucket sample)).map Prod.snd := by
  induction kept generalizing table with
  | nil => simp
  | cons sample kept ih =>
    rw [List.foldl_cons, ih, foldl_append_all (nodup_window _), List.filter_cons]
    by_cases inside : place ∈ window (bucket sample)
    · have target : place ∈ window (min sample.1 kMax) := inside
      simp [inside, target]
    · have apart : place ∉ window (min sample.1 kMax) := inside
      simp [inside, apart]

omit [Field F] [LinearOrder F] in
/-- For samples of turns that occur, the window is the same from both sides. -/
theorem near_iff (positive : 1 ≤ k) (turn : 1 ≤ sample.1 ∧ sample.1 ≤ kMax) :
    bucket sample ∈ window (min k kMax) ↔ min k kMax - kWindow ≤ sample.1 ∧
      sample.1 ≤ min k kMax + kWindow := by
  rw [mem_window, bucket]
  unfold kMax kWindow at *
  omega

omit [Field F] [LinearOrder F] in
theorem near_iff_mirrored (positive : 1 ≤ k) (turn : 1 ≤ sample.1 ∧ sample.1 ≤ kMax) :
    min k kMax ∈ window (bucket sample) ↔ min k kMax - kWindow ≤ sample.1 ∧
      sample.1 ≤ min k kMax + kWindow := by
  rw [mem_window, bucket]
  unfold kMax kWindow at *
  omega

theorem near_byK_perm (math : Math F) (sessions : List (HistorySession F)) (positive : 1 ≤ k) :
    ((byK math sessions).near k).Perm (near (samples math sessions) k) := by
  have buckets : (byK math sessions).near k =
      ((window (min k kMax)).flatMap (held bucket (samples math sessions))).map Prod.snd := by
    rw [ByK.near, List.map_flatMap]
    congr 1
    funext place
    exact byK_apply math sessions place
  have inside : (samples math sessions).filter (fun sample => bucket sample ∈ window (min k kMax)) =
      (samples math sessions).filter fun sample =>
        min k kMax - kWindow ≤ sample.1 ∧ sample.1 ≤ min k kMax + kWindow := by
    apply List.filter_congr
    intro sample member
    exact decide_eq_decide.mpr (near_iff positive (turn_of_samples member))
  have gathered := (flatMap_held_perm bucket (samples math sessions) (nodup_window (min k kMax))).map Prod.snd
  rw [inside] at gathered
  rw [buckets]
  exact gathered

theorem poolNearTable_apply (math : Math F) (sessions : List (HistorySession F)) (positive : 1 ≤ k) :
    poolNearTable math sessions (min k kMax) = near (samples math sessions) k := by
  rw [poolNearTable, foldl_window, List.nil_append, near]
  congr 1
  apply List.filter_congr
  intro sample member
  exact decide_eq_decide.mpr (near_iff_mirrored positive (turn_of_samples member))

end Tables

section Replayed
variable {F : Type} [Field F] [LinearOrder F] [FloorRing F]

/-- The band of the replay is that of the live path. -/
theorem replayed_band_eq (math : Math F) (history pool : List (HistorySession F)) (k : Nat)
    (positive : 1 ≤ k) (target : F)
    (oneSided : Bool) : (StepBands.new math history (poolNearTable math pool)).band k target oneSided =
      bandFor math history pool k target oneSided := by
  have train := near_byK_perm math (split history).1 positive
  have calib := near_byK_perm math (split history).2 positive
  have borrowed : poolNearTable math pool (min k kMax) = near (samples math pool) k :=
    poolNearTable_apply math pool positive
  simp only [StepBands.band, StepBands.new, bandFor, borrowed]
  exact bandOf_of_perm (pooled_of_perm train _ _) calib target oneSided

end Replayed

noncomputable def realMath : Math ℝ := ⟨Real.log, Real.exp⟩

/-- Four sessions of the cell: one to train on, three to calibrate with. -/
noncomputable def session (endedAt : Int) (costs : List Nat) : HistorySession ℝ :=
  ⟨endedAt, costs.map Nat.cast⟩

noncomputable def cellSessions : List (HistorySession ℝ) :=
  [session 1 [1, 2], session 2 [1, 1, 3], session 3 [2, 2], session 4 [1, 4]]

noncomputable def poolSessions : List (HistorySession ℝ) := [session 7 [1, 1], session 9 [2, 1, 5]]

theorem replayed_band_eq_borrowed :
    (StepBands.new realMath cellSessions (poolNearTable realMath poolSessions)).band 1 (1/2) false =
      bandFor realMath cellSessions poolSessions 1 (1/2) false :=
  replayed_band_eq realMath cellSessions poolSessions 1 (le_refl 1) (1/2) false

end TokenPak.Proxy.ForecastCalibration
