import Mathlib.Data.Int.ConditionallyCompleteOrder
import Mathlib.Data.Int.Log
import Mathlib.Data.Rat.Floor
import Mathlib.Tactic.Positivity

/-! Floating-point results as rounded exact ones, within the range of the exponents: rounding is
monotone, keeps integers of up to 53 binary digits, and errs by at most half of the last digit.
Square roots may be any function. -/

namespace TokenPak.Library

structure Floats where
  round : ℚ → ℚ
  sqrt : ℚ → ℚ
  mono : Monotone round
  exact : ∀ n : Nat, n ≤ 2 ^ 53 → round n = n
  near : ∀ q, |round q - q| ≤ |q| / 2 ^ 53

def nearestEven (q : ℚ) : ℤ :=
  if q - ⌊q⌋ < 1 / 2 ∨ q - ⌊q⌋ = 1 / 2 ∧ ⌊q⌋ % 2 = 0 then ⌊q⌋ else ⌊q⌋ + 1

theorem nearestEven_mono : Monotone nearestEven := by
  intro q r below
  have floors : ⌊q⌋ ≤ ⌊r⌋ := Int.floor_mono below
  rcases floors.eq_or_lt with same | less
  · unfold nearestEven
    rw [same]
    split
    next => split <;> omega
    next high =>
      rw [if_neg]
      rintro (low | ⟨half, even⟩)
      · exact high (.inl (by linarith))
      · by_cases tie : q - ⌊r⌋ = 1 / 2
        · exact high (.inr ⟨tie, even⟩)
        · exact high (.inl (lt_of_le_of_ne (by linarith) tie))
  · unfold nearestEven
    split <;> split <;> omega

theorem nearestEven_of_near {q : ℚ} {n : ℤ} (near : |q - n| < 1 / 2) : nearestEven q = n := by
  obtain ⟨low, high⟩ := abs_lt.mp near
  rcases lt_or_ge q n with below | above
  · have floor : ⌊q⌋ = n - 1 := by
      rw [Int.floor_eq_iff]
      push_cast
      constructor <;> linarith
    rw [nearestEven, floor, if_neg]
    · omega
    · push_cast
      rintro (less | ⟨half, -⟩) <;> linarith
  · have floor : ⌊q⌋ = n := by
      rw [Int.floor_eq_iff]
      constructor <;> linarith
    rw [nearestEven, floor, if_pos (.inl (by linarith))]

theorem nearestEven_near (q : ℚ) : |(nearestEven q : ℚ) - q| ≤ 1 / 2 := by
  have low := Int.floor_le q
  have high := Int.lt_floor_add_one q
  rw [abs_le]
  unfold nearestEven
  split
  next down =>
    have half : q - ⌊q⌋ ≤ 1 / 2 := by
      rcases down with less | ⟨same, -⟩
      · exact less.le
      · exact same.le
    constructor <;> linarith
  next up =>
    have half : 1 / 2 ≤ q - ⌊q⌋ := not_lt.mp fun below => up (.inl below)
    push_cast
    constructor <;> linarith

theorem nearestEven_int (n : ℤ) : nearestEven n = n := nearestEven_of_near (by norm_num)

namespace Nearest
variable {q r : ℚ}

/-- The distance of the numbers of 53 binary digits around a positive one. -/
def spacing (q : ℚ) : ℚ := 2 ^ (Int.log 2 q - 52)

def positive (q : ℚ) : ℚ := nearestEven (q / spacing q) * spacing q

/-- The nearest number of 53 binary digits; of two the one whose last digit is even. -/
def round (q : ℚ) : ℚ := if 0 ≤ q then positive q else -positive (-q)

theorem spacing_pos (q : ℚ) : 0 < spacing q := zpow_pos two_pos _

theorem spacing_mul (q : ℚ) : (2 : ℚ) ^ 52 * spacing q = 2 ^ Int.log 2 q := by
  rw [spacing, ← zpow_natCast, ← zpow_add₀ two_ne_zero]
  congr 1
  omega

theorem spacing_le (some : 0 < q) : 2 ^ 52 * spacing q ≤ q := by
  rw [spacing_mul]
  exact_mod_cast Int.zpow_log_le_self one_lt_two some

theorem lt_spacing (q : ℚ) : q < 2 ^ 53 * spacing q := by
  have above : q < (2 : ℕ) ^ (Int.log 2 q + 1) := Int.lt_zpow_succ_log_self one_lt_two q
  have double : (2 : ℚ) ^ 53 * spacing q = 2 * (2 ^ 52 * spacing q) := by ring
  rw [double, spacing_mul, ← zpow_one_add₀ two_ne_zero, add_comm]
  exact_mod_cast above

/-- Numbers of one binary exponent are rounded within it, or to its end. -/
theorem positive_bounds (some : 0 < q) : 2 ^ 52 * spacing q ≤ positive q ∧ positive q ≤ 2 ^ 53 * spacing q := by
  have least : ((2 ^ 52 : ℤ) : ℚ) ≤ q / spacing q := by
    rw [le_div_iff₀ (spacing_pos q)]
    exact_mod_cast spacing_le some
  have most : q / spacing q ≤ ((2 ^ 53 : ℤ) : ℚ) := by
    rw [div_le_iff₀ (spacing_pos q)]
    exact_mod_cast (lt_spacing q).le
  have low := nearestEven_mono least
  have high := nearestEven_mono most
  rw [nearestEven_int] at low high
  exact ⟨mul_le_mul_of_nonneg_right (by exact_mod_cast low) (spacing_pos q).le,
    mul_le_mul_of_nonneg_right (by exact_mod_cast high) (spacing_pos q).le⟩

theorem positive_zero : positive 0 = 0 := by
  rw [positive, zero_div]
  exact mul_eq_zero_of_left (by exact_mod_cast nearestEven_int 0) _

theorem positive_nonneg (nonneg : 0 ≤ q) : 0 ≤ positive q := by
  rcases nonneg.eq_or_lt with rfl | some
  · exact positive_zero.ge
  · exact (mul_nonneg (by norm_num) (spacing_pos q).le).trans (positive_bounds some).1

theorem positive_mono (some : 0 < q) (below : q ≤ r) : positive q ≤ positive r := by
  rcases (Int.log_mono_right some below : Int.log 2 q ≤ Int.log 2 r).eq_or_lt with same | less
  · have spaced : spacing q = spacing r := by rw [spacing, spacing, same]
    have nearer := nearestEven_mono (div_le_div_of_nonneg_right below (spacing_pos r).le)
    rw [positive, positive, spaced]
    exact mul_le_mul_of_nonneg_right (by exact_mod_cast nearer) (spacing_pos r).le
  · have double : (2 : ℚ) ^ 53 * spacing q = 2 * (2 ^ 52 * spacing q) := by ring
    calc positive q ≤ 2 ^ 53 * spacing q := (positive_bounds some).2
      _ = 2 ^ (1 + Int.log 2 q) := by rw [double, spacing_mul, zpow_one_add₀ two_ne_zero]
      _ ≤ 2 ^ Int.log 2 r := zpow_le_zpow_right₀ one_le_two (by omega)
      _ = 2 ^ 52 * spacing r := (spacing_mul r).symm
      _ ≤ positive r := (positive_bounds (some.trans_le below)).1

theorem positive_near (some : 0 < q) : |positive q - q| ≤ q / 2 ^ 53 := by
  have unit := spacing_pos q
  have split : positive q - q = (nearestEven (q / spacing q) - q / spacing q) * spacing q := by
    rw [positive, sub_mul, div_mul_cancel₀ _ unit.ne']
  have half := nearestEven_near (q / spacing q)
  rw [split, abs_mul, abs_of_pos unit, le_div_iff₀ (by norm_num)]
  have scaled := mul_le_mul_of_nonneg_right half unit.le
  have least := spacing_le some
  linarith

/-- A whole multiple of the spacing stays. -/
theorem positive_multiple {m : ℤ} (multiple : q = m * spacing q) : positive q = q := by
  have quotient : q / spacing q = m := by
    rw [div_eq_iff (spacing_pos q).ne']
    exact multiple
  rw [positive, quotient, nearestEven_int]
  exact multiple.symm

theorem positive_nat {n : ℕ} (some : 0 < n) (small : n ≤ 2 ^ 53) : positive (n : ℚ) = n := by
  rcases small.lt_or_eq with below | rfl
  · have exponent : Nat.log 2 n < 53 := Nat.log_lt_of_lt_pow some.ne' below
    apply positive_multiple (m := n * 2 ^ (52 - Nat.log 2 n))
    rw [spacing, Int.log_natCast]
    push_cast
    rw [← zpow_natCast, mul_assoc, ← zpow_add₀ two_ne_zero, Nat.cast_sub (by omega)]
    norm_num
  · apply positive_multiple (m := 2 ^ 52)
    rw [spacing, Int.log_natCast, Nat.log_pow one_lt_two]
    norm_num

theorem round_of_nonneg (nonneg : 0 ≤ q) : round q = positive q := if_pos nonneg

theorem round_of_neg (negative : q < 0) : round q = -positive (-q) := if_neg (not_le.mpr negative)

theorem round_mono : Monotone round := by
  intro q r below
  rcases lt_or_ge q 0 with negative | nonneg
  · rw [round_of_neg negative]
    rcases lt_or_ge r 0 with other | above
    · rw [round_of_neg other]
      exact neg_le_neg (positive_mono (by linarith) (by linarith))
    · rw [round_of_nonneg above]
      exact (neg_nonpos.mpr (positive_nonneg (by linarith))).trans (positive_nonneg above)
  · rw [round_of_nonneg nonneg, round_of_nonneg (nonneg.trans below)]
    rcases nonneg.eq_or_lt with rfl | some
    · exact positive_zero.trans_le (positive_nonneg below)
    · exact positive_mono some below

theorem round_nat {n : ℕ} (small : n ≤ 2 ^ 53) : round (n : ℚ) = n := by
  rw [round_of_nonneg (Nat.cast_nonneg n)]
  rcases Nat.eq_zero_or_pos n with rfl | some
  · exact_mod_cast positive_zero
  · exact positive_nat some small

theorem round_near (q : ℚ) : |round q - q| ≤ |q| / 2 ^ 53 := by
  rcases lt_trichotomy q 0 with negative | rfl | some
  · have near := positive_near (neg_pos.mpr negative)
    rw [round_of_neg negative, abs_of_neg negative]
    have mirrored : -positive (-q) - q = -(positive (-q) - -q) := by ring
    rwa [mirrored, abs_neg]
  · rw [round_of_nonneg le_rfl, positive_zero]
    norm_num
  · rw [round_of_nonneg some.le, abs_of_pos some]
    exact positive_near some

end Nearest

/-- Floats with their own rounding; a square root is cut behind sixty binary digits. -/
def Floats.binary : Floats where
  round := Nearest.round
  sqrt q := Nat.sqrt ⌊q * 2 ^ 120⌋₊ / 2 ^ 60
  mono := Nearest.round_mono
  exact _ := Nearest.round_nat
  near := Nearest.round_near

example : Nearest.round (1 / 10) = 3602879701896397 / 2 ^ 55 := by decide +kernel

instance : Inhabited Floats := ⟨Floats.binary⟩

namespace Floats
variable (floats : Floats) {q r : ℚ} {n : Nat}

theorem round_nat (small : n ≤ 2 ^ 53) (below : q ≤ n) : floats.round q ≤ n :=
  (floats.mono below).trans_eq (floats.exact n small)

theorem nat_round (small : n ≤ 2 ^ 53) (above : n ≤ q) : (n : ℚ) ≤ floats.round q :=
  (floats.exact n small).symm.trans_le (floats.mono above)

theorem round_nonneg (nonneg : 0 ≤ q) : 0 ≤ floats.round q := by
  simpa using floats.nat_round (Nat.zero_le _) (n := 0) (by simpa using nonneg)

theorem round_le (nonneg : 0 ≤ q) : floats.round q ≤ q * (1 + 1 / 2 ^ 53) := by
  have near := (abs_le.mp (floats.near q)).2
  rw [abs_of_nonneg nonneg] at near
  linarith

theorem le_round (nonneg : 0 ≤ q) : q * (1 - 1 / 2 ^ 53) ≤ floats.round q := by
  have near := (abs_le.mp (floats.near q)).1
  rw [abs_of_nonneg nonneg] at near
  linarith

end Floats
end TokenPak.Library
