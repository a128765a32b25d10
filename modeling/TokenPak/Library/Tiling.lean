import Mathlib.Data.List.Basic

/-! Texts cut into pieces that lie one behind the other. -/

namespace TokenPak.Library.Tiling
variable {Symbol : Type} {text : List Symbol} {start middle stop : Nat} {pieces more : List (Nat × Nat)}

/-- `text[start:stop]` -/
def slice (text : List Symbol) (start stop : Nat) : List Symbol := (text.drop start).take (stop - start)

theorem slice_nil : slice text start start = [] := by simp [slice]

theorem slice_length : slice text start text.length = text.drop start := by
  rw [slice, ← List.length_drop, List.take_length]

theorem slice_all : slice text 0 text.length = text := slice_length

theorem length_slice (within : stop ≤ text.length) : (slice text start stop).length = stop - start := by
  rw [slice, List.length_take, List.length_drop]
  omega

theorem slice_append (first : start ≤ middle) (second : middle ≤ stop) :
    slice text start middle ++ slice text middle stop = slice text start stop := by
  have lengths : stop - start = (middle - start) + (stop - middle) := by omega
  have behind : text.drop middle = (text.drop start).drop (middle - start) := by
    rw [List.drop_drop]
    congr 1
    omega
  rw [slice, slice, slice, lengths, List.take_add, behind]

theorem getElem?_slice {place : Nat} (first : start ≤ place) (last : place < stop) :
    (slice text start stop)[place - start]? = text[place]? := by
  rw [slice, List.getElem?_take_of_lt (by omega), List.getElem?_drop]
  congr 1
  omega

/-- The pieces lie one behind the other from `start` to `stop`. -/
inductive Tiles : Nat → Nat → List (Nat × Nat) → Prop
  | nil (start : Nat) : Tiles start start []
  | cons {start middle stop : Nat} {pieces : List (Nat × Nat)} (first : start ≤ middle) (rest : Tiles middle stop pieces) :
      Tiles start stop ((start, middle) :: pieces)

theorem Tiles.le (tiles : Tiles start stop pieces) : start ≤ stop := by
  induction tiles with
  | nil => exact Nat.le_refl _
  | cons first _ ih => omega

theorem Tiles.append (front : Tiles start middle pieces) (back : Tiles middle stop more) :
    Tiles start stop (pieces ++ more) := by
  induction front with
  | nil => exact back
  | cons first _ ih => exact .cons first (ih back)

theorem Tiles.one (ordered : start ≤ stop) : Tiles start stop [(start, stop)] := .cons ordered (.nil stop)

/-- Nothing of the text is lost, and nothing is there twice. -/
theorem Tiles.flatMap_slice (tiles : Tiles start stop pieces) :
    (pieces.flatMap fun piece => slice text piece.1 piece.2) = slice text start stop := by
  induction tiles with
  | nil => rw [slice_nil, List.flatMap_nil]
  | cons first rest ih => rw [List.flatMap_cons, ih, slice_append first rest.le]

theorem Tiles.within (tiles : Tiles start stop pieces) {piece : Nat × Nat} (member : piece ∈ pieces) :
    start ≤ piece.1 ∧ piece.1 ≤ piece.2 ∧ piece.2 ≤ stop := by
  induction tiles with
  | nil => cases member
  | cons first rest ih =>
    have beyond := rest.le
    rcases List.mem_cons.mp member with rfl | member
    · exact ⟨Nat.le_refl _, first, beyond⟩
    · obtain ⟨low, ordered, high⟩ := ih member
      exact ⟨by omega, ordered, high⟩

end TokenPak.Library.Tiling
