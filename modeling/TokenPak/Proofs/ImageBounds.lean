import TokenPak.SpendGuard.Media

/-! An image of known size costs no more than one of unknown size, and the resizing of the Claude
models finds the largest size within the limits: along the aspect of an image a smaller size fits
when a larger one does. -/

namespace TokenPak.SpendGuard.Media
open Library
variable (floats : Floats) {edge cap length part count whole bound w h : Nat} {scale aspect multiplier : ℚ}

section Parts

theorem parts_mono {more : Nat} (part : Nat) (below : length ≤ more) :
    parts floats length part ≤ parts floats more part := by
  refine Nat.ceil_mono (floats.mono ?_)
  have cast : (length : ℚ) ≤ more := Nat.cast_le.mpr below
  exact div_le_div_of_nonneg_right cast (Nat.cast_nonneg part)

theorem parts_le (positive : 0 < part) (small : count ≤ 2 ^ 53) (within : length ≤ count * part) :
    parts floats length part ≤ count := by
  refine Nat.ceil_le.mpr (floats.round_nat small ?_)
  rw [div_le_iff₀ (Nat.cast_pos.mpr positive)]
  exact_mod_cast within

theorem patches_mono {w' h' : Nat} (wide : w ≤ w') (high : h ≤ h') :
    patches floats w h ≤ patches floats w' h' :=
  Nat.mul_le_mul (parts_mono floats 28 wide) (parts_mono floats 28 high)

theorem fits_comm : fits floats edge cap w h = fits floats edge cap h w := by
  have same : patches floats w h = patches floats h w := Nat.mul_comm ..
  rw [fits, fits, same, Bool.and_comm (decide (parts floats w 28 * 28 ≤ edge))]

theorem fits_iff : fits floats edge cap w h = true ↔
    (parts floats w 28 * 28 ≤ edge ∧ parts floats h 28 * 28 ≤ edge) ∧ patches floats w h ≤ cap := by
  simp [fits]

theorem fits_mono {w' h' : Nat} (wide : w ≤ w') (high : h ≤ h') (larger : fits floats edge cap w' h' = true) :
    fits floats edge cap w h = true := by
  rw [fits_iff] at larger ⊢
  have first := parts_mono floats 28 wide
  have second := parts_mono floats 28 high
  have third := patches_mono floats wide high
  omega

end Parts

section Claude

theorem claudeTokens_le (width height : Nat) : claudeTokens floats edge cap width height ≤ cap := by
  rw [claudeTokens]
  split
  next inside => exact ((fits_iff floats).mp inside).2
  next => exact Nat.min_le_left ..

theorem scaledSide_mono {mid more : Nat} (nonneg : 0 ≤ aspect) (below : mid ≤ more) :
    scaledSide floats aspect mid ≤ scaledSide floats aspect more := by
  have cast : floats.round mid ≤ floats.round more := floats.mono (Nat.cast_le.mpr below)
  have quotient := nearestEven_mono (floats.mono (div_le_div_of_nonneg_right cast nonneg))
  have whole := Int.toNat_le_toNat quotient
  simp only [scaledSide]
  omega

theorem one_le_aspect {long short : Nat} (positive : 0 < short) (order : short ≤ long) :
    1 ≤ floats.round ((long : ℚ) / short) := by
  have quotient : ((1 : Nat) : ℚ) ≤ (long : ℚ) / short := by
    rw [le_div_iff₀ (Nat.cast_pos.mpr positive), Nat.cast_one, one_mul]
    exact Nat.cast_le.mpr order
  exact_mod_cast floats.nat_round (by omega) quotient

theorem fits_one (roomy : 28 ≤ edge) (some : 1 ≤ cap) (wide : 1 ≤ aspect) :
    fits floats edge cap 1 (scaledSide floats aspect 1) = true := by
  have small : floats.round (floats.round ((1 : Nat) : ℚ) / aspect) ≤ ((1 : Nat) : ℚ) := by
    refine floats.round_nat (by omega) ?_
    rw [floats.exact 1 (by omega), Nat.cast_one, div_le_one (by linarith)]
    exact wide
  have side : scaledSide floats aspect 1 = 1 := by
    have rounded := nearestEven_mono small
    have whole : nearestEven ((1 : Nat) : ℚ) = 1 := by decide +kernel
    rw [whole] at rounded
    simp only [scaledSide]
    omega
  have part : parts floats 1 28 ≤ 1 := parts_le floats (by omega) (by omega) (by omega)
  have one : patches floats 1 1 ≤ 1 := (Nat.mul_le_mul part part).trans_eq (Nat.mul_one 1)
  rw [side, fits_iff]
  omega

theorem scaledSide_long {long short : Nat} (positive : 0 < short) (order : short ≤ long)
    (small : long ≤ 10000) :
    scaledSide floats (floats.round ((long : ℚ) / short)) long = short := by
  have shortPos : (0 : ℚ) < short := Nat.cast_pos.mpr positive
  have longPos : (0 : ℚ) < long := Nat.cast_pos.mpr (by omega)
  have shortLe : (short : ℚ) ≤ 10000 := by exact_mod_cast order.trans small
  have wide := one_le_aspect floats positive order
  have upper := floats.round_le (q := (long : ℚ) / short) (by positivity)
  have lower := floats.le_round (q := (long : ℚ) / short) (by positivity)
  generalize floats.round ((long : ℚ) / short) = aspect at wide upper lower
  have aspectPos : 0 < aspect := by linarith
  have quotientPos : 0 ≤ (long : ℚ) / aspect := by positivity
  -- Both roundings are off by a tiny part of a pixel.
  have above : (long : ℚ) / aspect * (1 - 1 / 2 ^ 53) ≤ short := by
    rw [div_mul_eq_mul_div, div_le_iff₀ aspectPos]
    have scaled := mul_le_mul_of_nonneg_left lower shortPos.le
    have whole : (short : ℚ) * (long / short) = long := by field_simp
    linarith
  have below : (short : ℚ) ≤ long / aspect * (1 + 1 / 2 ^ 53) := by
    rw [div_mul_eq_mul_div, le_div_iff₀ aspectPos]
    have scaled := mul_le_mul_of_nonneg_left upper shortPos.le
    have whole : (short : ℚ) * (long / short) = long := by field_simp
    linarith
  have rounded : nearestEven (floats.round ((long : ℚ) / aspect)) = (short : ℤ) := by
    have high := floats.round_le quotientPos
    have low := floats.le_round quotientPos
    apply nearestEven_of_near
    rw [abs_lt, Int.cast_natCast]
    constructor <;> linarith
  rw [scaledSide, floats.exact long (by omega), rounded, Int.toNat_natCast]
  omega

theorem le_edge_of_parts (within : parts floats length 28 * 28 ≤ edge) (small : edge ≤ 5000) :
    length ≤ 10000 := by
  have ceiling : floats.round ((length : ℚ) / (28 : Nat)) ≤ parts floats length 28 := Nat.le_ceil _
  have lower := floats.le_round (q := (length : ℚ) / (28 : Nat)) (by positivity)
  have few : (parts floats length 28 : ℚ) * 28 ≤ 5000 := by exact_mod_cast within.trans small
  have cast : (length : ℚ) ≤ (10000 : Nat) := by
    push_cast at lower ceiling ⊢
    linarith
  exact_mod_cast cast

/-- What resizing finds: the image as it is, or the size along its aspect that is the largest within
the limits. -/
def Resized (edge cap width height tokens : Nat) : Prop :=
  (fits floats edge cap width height = true ∧ tokens = patches floats width height) ∨
    fits floats edge cap width height = false ∧
      let side := scaledSide floats (floats.round ((max width height : Nat) / (min width height : Nat)))
      ∃ size, IsGreatest {size | fits floats edge cap size (side size) = true} size ∧
        size < max width height ∧
        tokens = patches floats size (side size)

theorem claudeTokens_resized (positive : 0 < w ∧ 0 < h) (roomy : 28 ≤ edge) (small : edge ≤ 5000)
    (some : 1 ≤ cap) :
    Resized floats edge cap w h (claudeTokens floats edge cap w h) := by
  cases inside : fits floats edge cap w h with
  | true => exact .inl ⟨inside, by simp [claudeTokens, inside]⟩
  | false =>
    have order : min w h ≤ max w h := by omega
    have wide := one_le_aspect floats (by omega : 0 < min w h) order
    have large : fits floats edge cap (max w h)
        (scaledSide floats (floats.round ((max w h : Nat) / (min w h : Nat))) (max w h)) = false := by
      by_contra within
      rw [Bool.not_eq_false] at within
      have short := le_edge_of_parts floats ((fits_iff floats).mp within).1.1 small
      rw [scaledSide_long floats (by omega) order short] at within
      rcases le_total w h with below | below
      · rw [max_eq_right below, min_eq_left below, fits_comm, inside] at within
        cases within
      · rw [max_eq_left below, min_eq_right below, inside] at within
        cases within
    have one := fits_one floats roomy some wide
    have long : 1 < max w h := by
      by_contra single
      have same : max w h = 1 := by omega
      rw [same] at large one
      rw [large] at one
      cases one
    have greatest := bisect_greatest long one large fun n m below larger =>
      fits_mono floats below (scaledSide_mono floats (by linarith) below) larger
    have spec :=
      @bisect_spec (fun mid =>
        fits floats edge cap mid (scaledSide floats _ mid)) _ _ long one large
    refine .inr ⟨inside, _, greatest, spec.2.1, ?_⟩
    simp only [claudeTokens, inside]
    exact Nat.min_eq_right ((fits_iff floats).mp spec.2.2.1).2

theorem claudeLimits_cases (digit : Char → Option Nat) (model : String) :
    claudeLimits digit model = (1568, 1568) ∨ claudeLimits digit model = (2576, 4784) := by
  unfold claudeLimits
  split
  · split <;> simp
  · simp

end Claude

section Openai

theorem charged_mono {more : Nat} (nonneg : 0 ≤ multiplier) (below : count ≤ more) :
    charged floats count multiplier ≤ charged floats more multiplier := by
  have cast : floats.round count ≤ floats.round more := floats.mono (Nat.cast_le.mpr below)
  exact Nat.ceil_mono (floats.mono (mul_le_mul_of_nonneg_right cast (floats.round_nonneg nonneg)))

/-- A side that is scaled down to a bound stays within it. -/
theorem scaled_floor_le (bound : Nat) (positive : 0 < whole) (within : length ≤ whole) (nonneg : 0 ≤ scale)
    (small : scale ≤ floats.round (bound / whole)) (few : bound ≤ 10000) :
    ⌊scaled floats length scale⌋₊ ≤ bound := by
  have wholePos : (0 : ℚ) < whole := Nat.cast_pos.mpr positive
  have boundLe : (bound : ℚ) ≤ 10000 := by exact_mod_cast few
  have boundPos : (0 : ℚ) ≤ bound := Nat.cast_nonneg bound
  have side : floats.round length ≤ whole * (1 + 1 / 2 ^ 53) :=
    (floats.mono (Nat.cast_le.mpr within)).trans (floats.round_le wholePos.le)
  have quotient := small.trans (floats.round_le (q := (bound : ℚ) / whole) (by positivity))
  have product : floats.round length * scale ≤ bound * ((1 + 1 / 2 ^ 53) * (1 + 1 / 2 ^ 53)) := by
    calc floats.round length * scale ≤ whole * (1 + 1 / 2 ^ 53) * (bound / whole * (1 + 1 / 2 ^ 53)) :=
          mul_le_mul side quotient nonneg (by positivity)
      _ = bound * ((1 + 1 / 2 ^ 53) * (1 + 1 / 2 ^ 53)) := by field_simp
  have sidePos : 0 ≤ floats.round length * scale :=
    mul_nonneg (floats.round_nonneg (Nat.cast_nonneg length)) nonneg
  have rounded : scaled floats length scale < (bound + 1 : Nat) := by
    have last := floats.round_le sidePos
    rw [scaled]
    push_cast
    nlinarith
  have floor := Nat.floor_lt (floats.round_nonneg sidePos) |>.mpr rounded
  rw [scaled]
  omega

theorem tileTokens_le {tile : Nat} (positive : 0 < w ∧ 0 < h) :
    tileTokens floats edge tile w h ≤ edge + 8 * tile := by
  simp only [tileTokens]
  generalize chosen : min 1 (min (floats.round (2048 / (max w h : Nat))) (floats.round (768 / (min w h : Nat)))) = scale
  have nonneg : 0 ≤ scale := by
    rw [← chosen]
    have first : 0 ≤ floats.round (2048 / (max w h : Nat)) := floats.round_nonneg (by positivity)
    have second : 0 ≤ floats.round (768 / (min w h : Nat)) := floats.round_nonneg (by positivity)
    exact le_min (by norm_num) (le_min first second)
  have large : ∀ side, side ≤ max w h → parts floats (max 1 ⌊scaled floats side scale⌋₊) 512 ≤ 4 := by
    intro side within
    have floor := scaled_floor_le floats 2048 (by omega) within nonneg
      (by rw [← chosen]; exact (min_le_right _ _).trans (min_le_left _ _)) (by omega)
    exact parts_le floats (by omega) (by omega) (by omega)
  have small : ∀ side, side ≤ min w h → parts floats (max 1 ⌊scaled floats side scale⌋₊) 512 ≤ 2 := by
    intro side within
    have floor := scaled_floor_le floats 768 (by omega) within nonneg
      (by rw [← chosen]; exact (min_le_right _ _).trans (min_le_right _ _)) (by omega)
    exact parts_le floats (by omega) (by omega) (by omega)
  have tiles : parts floats (max 1 ⌊scaled floats w scale⌋₊) 512 *
      parts floats (max 1 ⌊scaled floats h scale⌋₊) 512 ≤ 8 := by
    rcases le_total w h with below | below
    · exact Nat.mul_le_mul (small w (by omega)) (large h (by omega))
    · exact Nat.mul_le_mul (large w (by omega)) (small h (by omega))
  exact Nat.add_le_add_left (Nat.mul_le_mul_right tile tiles) edge

theorem patchTokens_le {budget : Option Nat} (nonneg : 0 ≤ multiplier) :
    patchTokens floats edge cap budget multiplier w h ≤ charged floats cap multiplier := by
  simp only [patchTokens]
  split
  · exact charged_mono floats nonneg (Nat.min_le_left ..)
  · split
    · exact le_refl _
    · exact charged_mono floats nonneg (Nat.min_le_left ..)

theorem factors_nonneg : ∀ factor ∈ factors, 0 ≤ factor.2 := by decide +kernel

theorem ite_multiplier_nonneg {condition : Prop} [Decidable condition] {first second : Rules}
    (taken : 0 ≤ first.multiplier) (other : 0 ≤ second.multiplier) :
    0 ≤ (if condition then first else second).multiplier := by
  split
  · exact taken
  · exact other

theorem multiplier_nonneg (model detail : String) : 0 ≤ (openaiRules model detail).multiplier := by
  have found : 0 ≤ ((factors.find? fun factor => startsWith model factor.1).map Prod.snd).getD (12 / 10) := by
    cases here : factors.find? fun factor => startsWith model factor.1 with
    | none => norm_num
    | some factor => exact factors_nonneg factor (List.mem_of_find?_eq_some here)
  have one : (0 : ℚ) ≤ 1 := zero_le_one
  simp only [openaiRules]
  generalize ((factors.find? fun factor => startsWith model factor.1).map Prod.snd).getD (12 / 10) =
    multiplier at found
  refine ite_multiplier_nonneg one (ite_multiplier_nonneg one (ite_multiplier_nonneg one
    (ite_multiplier_nonneg one (ite_multiplier_nonneg ?_ (ite_multiplier_nonneg ?_
      (ite_multiplier_nonneg found (ite_multiplier_nonneg found one)))))))
  · exact ite_multiplier_nonneg found (ite_multiplier_nonneg found found)
  · exact ite_multiplier_nonneg found (ite_multiplier_nonneg found found)

end Openai

/-- Known sizes cost no more than unknown ones, and resizing finds the largest size within the limits. -/
theorem image_tokens_bounded (floats : Floats) (digit : Char → Option Nat) (size : Size)
    (model detail : String) (anthropic : Bool) :
    imageTokens floats digit (some size) model detail anthropic ≤
      imageTokens floats digit none model detail anthropic ∧
      Resized floats (claudeLimits digit model).1 (claudeLimits digit model).2 size.width size.height
        (imageTokens floats digit (some size) model detail true) := by
  constructor
  · cases anthropic with
    | true => exact claudeTokens_le floats size.width size.height
    | false =>
      simp only [imageTokens, Bool.false_eq_true, if_false]
      cases (openaiRules model detail).method with
      | unknown => exact le_refl _
      | patches => exact patchTokens_le floats (multiplier_nonneg model detail)
      | tiles =>
        by_cases low : detail = "low"
        · simp only [if_pos low, le_refl]
        · simp only [if_neg low]
          exact tileTokens_le floats ⟨size.width_pos, size.height_pos⟩
  · have limits := claudeLimits_cases digit model
    rcases limits with limits | limits <;>
      · simp only [imageTokens, limits]
        exact claudeTokens_resized floats ⟨size.width_pos, size.height_pos⟩ (by omega) (by omega) (by omega)

theorem photo_accepted : 0 < 1920 ∧ 0 < 1080 ∧ 1920 ≤ 1000000 ∧ 1080 ≤ 1000000 := by decide

def photo : Size :=
  ⟨1920, 1080, photo_accepted.1, photo_accepted.2.1, photo_accepted.2.2.1, photo_accepted.2.2.2⟩

def decimal (c : Char) : Option Nat := if '0' ≤ c ∧ c ≤ '9' then some (c.toNat - '0'.toNat) else none

/-- A photo that is cut down for the model. -/
theorem photo_bounded :
    imageTokens Floats.binary decimal (some photo) "claude-sonnet-4-5" "auto" true ≤
      imageTokens Floats.binary decimal none "claude-sonnet-4-5" "auto" true ∧
      Resized Floats.binary (claudeLimits decimal "claude-sonnet-4-5").1
        (claudeLimits decimal "claude-sonnet-4-5").2 photo.width photo.height
        (imageTokens Floats.binary decimal (some photo) "claude-sonnet-4-5" "auto" true) :=
  image_tokens_bounded Floats.binary decimal photo "claude-sonnet-4-5" "auto" true

end TokenPak.SpendGuard.Media
