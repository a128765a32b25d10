import Mathlib.Order.Nat

/-! Bisection between a number that is good and one that is not: it ends at a good number whose
successor is not good, the greatest one when what lies below a good number is good. -/

namespace TokenPak.Library
variable {good : Nat → Bool} {lo hi : Nat}

def bisect (good : Nat → Bool) (lo hi : Nat) : Nat :=
  if lo + 1 < hi then
    if good ((lo + hi) / 2) then bisect good ((lo + hi) / 2) hi else bisect good lo ((lo + hi) / 2)
  else lo
termination_by hi - lo

theorem bisect_spec (order : lo < hi) (low : good lo = true) (high : good hi = false) :
    lo ≤ bisect good lo hi ∧ bisect good lo hi < hi ∧ good (bisect good lo hi) = true ∧
      good (bisect good lo hi + 1) = false := by
  induction lo, hi using bisect.induct good with
  | case1 lo hi wide fits ih =>
    rw [bisect, if_pos wide, if_pos fits]
    obtain ⟨above, below, found⟩ := ih (by omega) fits high
    exact ⟨by omega, below, found⟩
  | case2 lo hi wide large ih =>
    rw [bisect, if_pos wide, if_neg large]
    obtain ⟨above, below, found⟩ := ih (by omega) low (by simpa using large)
    exact ⟨above, by omega, found⟩
  | case3 lo hi narrow =>
    rw [bisect, if_neg narrow]
    have next : lo + 1 = hi := by omega
    exact ⟨le_refl _, order, low, next ▸ high⟩

theorem bisect_greatest (order : lo < hi) (low : good lo = true) (high : good hi = false)
    (downward : ∀ n m, n ≤ m → good m = true → good n = true) : IsGreatest {n | good n = true}
    (bisect good lo hi) := by
  obtain ⟨-, -, found, next⟩ := bisect_spec order low high
  refine ⟨found, ?_⟩
  intro n fits
  by_contra beyond
  have again := downward (bisect good lo hi + 1) n (by omega) fits
  rw [next] at again
  cases again

end TokenPak.Library
