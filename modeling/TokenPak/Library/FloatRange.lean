import Mathlib.Algebra.Order.Ring.Rat
import Mathlib.Data.Nat.Size
import Mathlib.Tactic.Ring

/-! Integers as floats. A float has a number of leading binary digits; the integers between two
floats go to the nearer one, those in the middle to the one whose last digit is even. The floats end
below a power of two. -/

namespace TokenPak.Library.FloatRange

/-- The distance of the floats around a number. -/
def spacing (digits n : Nat) : Nat := 2 ^ (n.size - digits)

def roundsUp (digits n : Nat) : Prop :=
  spacing digits n < 2 * (n % spacing digits n) ∨ 2 * (n % spacing digits n) = spacing digits n ∧
    n / spacing digits n % 2 = 1

instance (digits n : Nat) : Decidable (roundsUp digits n) := inferInstanceAs (Decidable (_ ∨ _))

def round (digits n : Nat) : Nat :=
  (n / spacing digits n + if roundsUp digits n then 1 else 0) * spacing digits n

/-- The float of an integer, unless it is out of range. -/
def ofInt (digits range : Nat) (n : Int) : Option Int :=
  if round digits n.natAbs < 2 ^ range then some (n.sign * round digits n.natAbs) else none

variable {digits range m n : Nat}

theorem spacing_pos (digits n : Nat) : 0 < spacing digits n := Nat.two_pow_pos _

theorem round_of_size_le (small : n.size ≤ digits) : round digits n = n := by
  have one : spacing digits n = 1 := by rw [spacing, Nat.sub_eq_zero_of_le small, pow_zero]
  have stays : ¬ roundsUp digits n := by
    unfold roundsUp
    rw [one]
    omega
  rw [round, if_neg stays, one, Nat.div_one, Nat.mul_one, Nat.add_zero]

theorem floor_le_round (digits n : Nat) : n / spacing digits n * spacing digits n ≤ round digits n :=
  Nat.mul_le_mul_right _ (Nat.le_add_right _ _)

theorem round_le_ceil (digits n : Nat) : round digits n ≤ (n / spacing digits n + 1) * spacing digits n := by
  apply Nat.mul_le_mul_right
  split <;> omega

/-- The numbers of one size are rounded within it, or to its end. -/
theorem round_bounds (some_digit : 0 < digits) (positive : 0 < n) :
    2 ^ (n.size - 1) ≤ round digits n ∧ round digits n ≤ 2 ^ n.size := by
  have size : 0 < n.size := Nat.size_pos.mpr positive
  have lower : 2 ^ (n.size - 1) ≤ n := Nat.lt_size.mp (by omega)
  have upper : n < 2 ^ n.size := Nat.lt_size_self n
  by_cases small : n.size ≤ digits
  · rw [round_of_size_le small]
    exact ⟨lower, upper.le⟩
  · have floor : 2 ^ (n.size - 1) = 2 ^ (digits - 1) * spacing digits n := by
      rw [spacing, ← pow_add]
      congr 1
      omega
    have ceil : 2 ^ n.size = 2 ^ digits * spacing digits n := by
      rw [spacing, ← pow_add]
      congr 1
      omega
    constructor
    · have least : 2 ^ (digits - 1) ≤ n / spacing digits n :=
        (Nat.le_div_iff_mul_le (spacing_pos digits n)).mpr (floor ▸ lower)
      rw [floor]
      exact (Nat.mul_le_mul_right _ least).trans (floor_le_round digits n)
    · have most : n / spacing digits n < 2 ^ digits :=
        (Nat.div_lt_iff_lt_mul (spacing_pos digits n)).mpr (ceil ▸ upper)
      rw [ceil]
      exact (round_le_ceil digits n).trans (Nat.mul_le_mul_right _ most)

theorem round_pos (some_digit : 0 < digits) (positive : 0 < n) : 0 < round digits n :=
  lt_of_lt_of_le (Nat.two_pow_pos _) (round_bounds some_digit positive).1

theorem round_mono (some_digit : 0 < digits) (below : m ≤ n) : round digits m ≤ round digits n := by
  rcases Nat.eq_zero_or_pos m with rfl | positive
  · rw [round_of_size_le (by simp)]
    exact Nat.zero_le _
  · have sizes : m.size ≤ n.size := Nat.size_le_size below
    rcases sizes.lt_or_eq with smaller | same
    · have up := (round_bounds some_digit positive).2
      have down := (round_bounds some_digit (lt_of_lt_of_le positive below)).1
      exact (up.trans (Nat.pow_le_pow_right (by omega) (by omega))).trans down
    · have spaced : spacing digits m = spacing digits n := by rw [spacing, spacing, same]
      have quotients : m / spacing digits n ≤ n / spacing digits n := Nat.div_le_div_right below
      rcases quotients.lt_or_eq with fewer | level
      · have up := round_le_ceil digits m
        rw [spaced] at up
        exact (up.trans (Nat.mul_le_mul_right _ fewer)).trans (floor_le_round digits n)
      · have remainders : m % spacing digits n ≤ n % spacing digits n := by
          have first := Nat.div_add_mod m (spacing digits n)
          have second := Nat.div_add_mod n (spacing digits n)
          rw [level] at first
          omega
        have rising : roundsUp digits m → roundsUp digits n := by
          unfold roundsUp
          rw [spaced, level]
          omega
        rw [round, round, spaced, level]
        apply Nat.mul_le_mul_right
        by_cases up : roundsUp digits m
        · rw [if_pos up, if_pos (rising up)]
        · rw [if_neg up]
          omega

/-- A number is in range when it is nearer to the last float than to the end of the range. -/
theorem round_lt_iff (some_digit : 0 < digits) (fits : digits < range) :
    round digits n < 2 ^ range ↔ n < 2 ^ range - 2 ^ (range - digits - 1) := by
  have gap : 2 ^ (range - digits - 1) < 2 ^ (range - 1) := Nat.pow_lt_pow_right (by omega) (by omega)
  have half : 2 ^ range = 2 * 2 ^ (range - 1) := by
    rw [← pow_succ']
    congr 1
    omega
  have margin : 2 ^ (range - digits - 1) < 2 ^ range := gap.trans (Nat.pow_lt_pow_right (by omega) (by omega))
  rcases Nat.eq_zero_or_pos n with rfl | positive
  · rw [round_of_size_le (by simp)]
    exact ⟨fun _ => Nat.sub_pos_of_lt margin, fun _ => Nat.two_pow_pos _⟩
  · rw [Nat.lt_sub_iff_add_lt]
    obtain ⟨down, up⟩ := round_bounds some_digit positive
    have upper : n < 2 ^ n.size := Nat.lt_size_self n
    have lower : 2 ^ (n.size - 1) ≤ n := Nat.lt_size.mp (by have := Nat.size_pos.mpr positive; omega)
    rcases lt_trichotomy n.size range with smaller | same | greater
    · have most : 2 ^ n.size ≤ 2 ^ (range - 1) := Nat.pow_le_pow_right (by omega) (by omega)
      omega
    · have width : spacing digits n = 2 * 2 ^ (range - digits - 1) := by
        rw [spacing, same, ← pow_succ']
        congr 1
        omega
      have whole : 2 ^ range = 2 ^ digits * spacing digits n := by
        rw [spacing, same, ← pow_add]
        congr 1
        omega
      have parity : 2 ^ digits = 2 * 2 ^ (digits - 1) := by
        rw [← pow_succ']
        congr 1
        omega
      rw [same, whole] at upper
      have most : n / spacing digits n < 2 ^ digits :=
        (Nat.div_lt_iff_lt_mul (spacing_pos digits n)).mpr upper
      have parts := Nat.div_add_mod n (spacing digits n)
      have remainder := Nat.mod_lt n (spacing_pos digits n)
      have step : (n / spacing digits n + 1) * spacing digits n =
          spacing digits n * (n / spacing digits n) + spacing digits n := by
        ring
      rcases (Nat.succ_le_of_lt most).lt_or_eq with room | last
      · -- there is a float above the number
        have next : (n / spacing digits n + 2) * spacing digits n ≤ 2 ^ digits * spacing digits n :=
          Nat.mul_le_mul_right _ room
        have beyond : (n / spacing digits n + 2) * spacing digits n =
            (n / spacing digits n + 1) * spacing digits n + spacing digits n := by
          ring
        have ceil := round_le_ceil digits n
        have positive_width := spacing_pos digits n
        omega
      · -- the number stands between the last float and the end of the range
        have last_up : (n / spacing digits n + 1) * spacing digits n = 2 ^ range := by
          rw [whole]
          exact congrArg (· * spacing digits n) last
        have odd : n / spacing digits n % 2 = 1 := by omega
        have floor : n / spacing digits n * spacing digits n =
            spacing digits n * (n / spacing digits n) :=
          Nat.mul_comm _ _
        by_cases rising : roundsUp digits n
        · rw [round, if_pos rising, last_up]
          unfold roundsUp at rising
          omega
        · rw [round, if_neg rising, Nat.add_zero]
          unfold roundsUp at rising
          have below : 2 * (n % spacing digits n) < spacing digits n := by omega
          omega
    · have least : 2 ^ range ≤ 2 ^ (n.size - 1) := Nat.pow_le_pow_right (by omega) (by omega)
      have some_margin := Nat.two_pow_pos (range - digits - 1)
      omega

theorem round_lt_of_small (fits : digits ≤ range) (small : n < 2 ^ digits) : round digits n < 2 ^ range := by
  rw [round_of_size_le (Nat.size_le.mpr small)]
  exact lt_of_lt_of_le small (Nat.pow_le_pow_right (by omega) fits)

theorem ofInt_of_pos {n : Int} (positive : 0 < n) (inside : round digits n.toNat < 2 ^ range) :
    ofInt digits range n = some (round digits n.toNat : Int) := by
  have same : n.natAbs = n.toNat := by omega
  rw [ofInt, same, if_pos inside, Int.sign_eq_one_of_pos positive, one_mul]

end TokenPak.Library.FloatRange

/-! What programs use of floating-point numbers that are quotients of counts: zero, one, the
quotient and a comparison. -/

namespace TokenPak.Library

class Ratios (F : Type) where
  divide : Nat → Nat → F
  zero : F
  one : F
  atLeast : F → F → Bool
  divide_self : ∀ n, 0 < n → divide n n = one

instance : Ratios Rat where
  divide part whole := part / whole
  zero := 0
  one := 1
  atLeast a b := decide (b ≤ a)
  divide_self _ positive := div_self (Nat.cast_ne_zero.mpr (Nat.ne_of_gt positive))

end TokenPak.Library
