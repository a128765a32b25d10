import TokenPak.Services.ProtectedSpans

/-! Merging keeps the protected positions, and a rewrite outside the merged spans goes through the text
once, span by span and gap by gap. -/

namespace TokenPak.Services.ProtectedSpans
open Library.StableSort Library.Tiling
variable {Kind : Type} {span last : ProtectedSpan Kind} {spans merged : List (ProtectedSpan Kind)}
  {text : List Char} {rewrite : List Char → List Char} {cursor size start stop position : Nat}

def ProtectedSpan.Covers (span : ProtectedSpan Kind) (position : Nat) : Prop :=
  span.start ≤ position ∧ position < span.stop

def Covered (spans : List (ProtectedSpan Kind)) (position : Nat) :
    Prop := ∃ span ∈ spans, span.Covers position

def ProtectedSpan.Within (size : Nat) (span : ProtectedSpan Kind) : Prop :=
  span.start ≤ span.stop ∧ span.stop ≤ size

/-- The spans follow one another between `cursor` and `size`. -/
inductive Chain (size : Nat) : Nat → List (ProtectedSpan Kind) → Prop
  | nil {cursor : Nat} (inside : cursor ≤ size) : Chain size cursor []
  | cons {cursor : Nat} {span : ProtectedSpan Kind} {spans : List (ProtectedSpan Kind)} (behind : cursor ≤ span.start)
      (ordered : span.start ≤ span.stop)
        (rest : Chain size span.stop spans) : Chain size cursor (span :: spans)

theorem Chain.le (chain : Chain size cursor spans) : cursor ≤ size := by
  induction chain with
  | nil inside => exact inside
  | cons behind ordered _ ih => omega

theorem Chain.bounds (chain : Chain size cursor spans) (member : span ∈ spans) :
    cursor ≤ span.start ∧ span.start ≤ span.stop ∧ span.stop ≤ size := by
  induction chain with
  | nil => cases member
  | cons behind ordered rest ih =>
    have inside := rest.le
    rcases List.mem_cons.mp member with rfl | member
    · exact ⟨behind, ordered, inside⟩
    · obtain ⟨low, ordered', high⟩ := ih member
      exact ⟨by omega, ordered', high⟩

theorem Chain.disjoint (chain : Chain size cursor spans) :
    spans.Pairwise fun first second => first.start ≤ second.start ∧ first.stop ≤ second.start := by
  induction chain with
  | nil => exact .nil
  | cons behind ordered rest ih =>
    apply List.pairwise_cons.mpr ⟨?_, ih⟩
    intro later member
    obtain ⟨low, _, _⟩ := rest.bounds member
    exact ⟨by omega, low⟩

section Merging

theorem sweep_chain (behind : cursor ≤ last.start) (valid : last.Within size)
    (inside : ∀ span ∈ spans, span.Within size)
    (sorted : ∀ span ∈ spans, last.start ≤ span.start)
    (order : spans.Pairwise fun first second => first.start ≤ second.start) :
    Chain size cursor (sweep last spans) := by
  induction spans generalizing cursor last with
  | nil => exact .cons behind valid.1 (.nil valid.2)
  | cons span spans ih =>
    obtain ⟨here, inside⟩ := List.forall_mem_cons.mp inside
    obtain ⟨above, sorted⟩ := List.forall_mem_cons.mp sorted
    obtain ⟨next, order⟩ := List.pairwise_cons.mp order
    rw [sweep]
    split
    next overlap =>
      split
      next longer => exact ih behind ⟨by dsimp only; omega, here.2⟩ inside sorted order
      next => exact ih behind valid inside sorted order
    next apart => exact .cons behind valid.1 (ih (by omega) here inside next order)

theorem sweep_covered (valid : last.start ≤ last.stop) (inside : ∀ span ∈ spans, span.start ≤ span.stop)
    (sorted : ∀ span ∈ spans, last.start ≤ span.start)
    (order : spans.Pairwise fun first second => first.start ≤ second.start) :
    Covered (sweep last spans) position ↔ last.Covers position ∨ Covered spans position := by
  induction spans generalizing last with
  | nil => simp [sweep, Covered]
  | cons span spans ih =>
    obtain ⟨here, inside⟩ := List.forall_mem_cons.mp inside
    obtain ⟨above, sorted⟩ := List.forall_mem_cons.mp sorted
    obtain ⟨next, order⟩ := List.pairwise_cons.mp order
    have split_first : Covered (span :: spans) position ↔ span.Covers position ∨
        Covered spans position := by
      simp [Covered]
    rw [split_first, ← or_assoc, sweep]
    split
    next overlap =>
      split
      next longer =>
        -- the two ranges and the stretched one have the same positions
        have joined : ProtectedSpan.Covers ⟨last.start, span.stop, last.spanType⟩ position ↔
            last.Covers position ∨ span.Covers position := by
          simp only [ProtectedSpan.Covers]
          omega
        rw [← joined]
        exact ih (show last.start ≤ span.stop by omega) inside sorted order
      next shorter =>
        have joined : last.Covers position ↔ last.Covers position ∨ span.Covers position := by
          simp only [ProtectedSpan.Covers]
          omega
        rw [ih valid inside sorted order, ← joined]
    next apart =>
      have first : Covered (last :: sweep span spans) position ↔ last.Covers position ∨ Covered (sweep span spans) position := by
        simp [Covered]
      rw [first, ih here inside next order, or_assoc]

theorem sorted_starts :
    (sortBy ProtectedSpan.key spans).Pairwise fun first second => first.start ≤ second.start := by
  apply pairwise_sortBy.imp
  intro first second before
  rcases Prod.Lex.toLex_le_toLex.mp before with less | ⟨same, _⟩
  · exact less.le
  · exact same.le

theorem mem_sorted : span ∈ sortBy ProtectedSpan.key spans ↔ span ∈ spans := sortBy_perm.mem_iff

theorem mergeOverlapping_chain (inside : ∀ span ∈ spans, span.Within size) :
    Chain size 0 (mergeOverlapping spans) := by
  have order := @sorted_starts _ spans
  have members : ∀ span ∈ sortBy ProtectedSpan.key spans, span.Within size :=
    fun span member => inside span (mem_sorted.mp member)
  rw [mergeOverlapping]
  split
  next => exact .nil (Nat.zero_le size)
  next first rest found =>
    rw [found] at order members
    obtain ⟨here, members⟩ := List.forall_mem_cons.mp members
    obtain ⟨next, order⟩ := List.pairwise_cons.mp order
    exact sweep_chain (Nat.zero_le _) here members next order

theorem mergeOverlapping_covered (valid : ∀ span ∈ spans, span.start ≤ span.stop) :
    Covered (mergeOverlapping spans) position ↔ Covered spans position := by
  have order := @sorted_starts _ spans
  have members : ∀ span ∈ sortBy ProtectedSpan.key spans, span.start ≤ span.stop :=
    fun span member => valid span (mem_sorted.mp member)
  have same : Covered (sortBy ProtectedSpan.key spans) position ↔ Covered spans position := by
    simp only [Covered, mem_sorted]
  rw [← same, mergeOverlapping]
  split
  next found => rw [found]
  next first rest found =>
    rw [found] at order members ⊢
    obtain ⟨here, members⟩ := List.forall_mem_cons.mp members
    obtain ⟨next, order⟩ := List.pairwise_cons.mp order
    rw [sweep_covered here members next order]
    simp [Covered]

theorem covered_perm {others : List (ProtectedSpan Kind)} (perm : others.Perm spans) :
    Covered others position ↔ Covered spans position := by
  simp only [Covered, perm.mem_iff]

end Merging

section Rewriting

inductive Piece (Kind : Type)
  | kept (span : ProtectedSpan Kind)
  | gap (start stop : Nat)

namespace Piece

def range : Piece Kind → Nat × Nat
  | kept span => (span.start, span.stop)
  | gap start stop => (start, stop)

def span? : Piece Kind → Option (ProtectedSpan Kind)
  | kept span => some span
  | gap _ _ => none

def output (text : List Char) (rewrite : List Char → List Char) : Piece Kind → List Char
  | kept span => slice text span.start span.stop
  | gap start stop => rewrite (slice text start stop)

end Piece

/-- The range from `start` to `stop` has no position of the span and does not lie across it. -/
def ProtectedSpan.Avoids (span : ProtectedSpan Kind) (start stop : Nat) : Prop :=
  stop ≤ span.start ∨ span.stop ≤ start

/-- No larger range of the text avoids the spans. -/
structure MaximalGap (merged : List (ProtectedSpan Kind)) (size start stop : Nat) : Prop where
  inside : stop ≤ size
  avoids : ∀ span ∈ merged, span.Avoids start stop
  maximal : ∀ low high, low ≤ start → stop ≤ high → high ≤ size →
    (∀ span ∈ merged, span.Avoids low high) → low = start ∧ high = stop
  /-- Without spans the text is one gap even when it is empty. -/
  proper : start < stop ∨ merged = []

/-- The pieces are the spans and the gaps between them, in the order of the text. -/
structure Laid (size : Nat) (merged : List (ProtectedSpan Kind)) (pieces : List (Piece Kind)) : Prop where
  tiles : Tiles 0 size (pieces.map Piece.range)
  spans : pieces.filterMap Piece.span? = merged
  gaps : ∀ start stop, .gap start stop ∈ pieces → MaximalGap merged size start stop

def between (start stop : Nat) : List (Piece Kind) := if start < stop then [.gap start stop] else []

def piecesFrom (size cursor : Nat) : List (ProtectedSpan Kind) → List (Piece Kind)
  | [] => between cursor size
  | span :: spans => between cursor span.start ++ .kept span :: piecesFrom size span.stop spans

def pieces (size : Nat) (merged : List (ProtectedSpan Kind)) : List (Piece Kind) :=
  if merged = [] then [.gap 0 size] else piecesFrom size 0 merged

theorem between_tiles (ordered : start ≤ stop) :
    Tiles start stop ((between start stop).map (@Piece.range Kind)) := by
  unfold between
  split
  next => exact .one ordered
  next close =>
    obtain rfl : start = stop := by omega
    exact .nil start

theorem between_spans : (between start stop).filterMap (@Piece.span? Kind) = [] := by
  unfold between
  split <;> rfl

theorem between_output : (between start stop).map (@Piece.output Kind text rewrite) =
    if stop > start then [rewrite (slice text start stop)] else [] := by
  unfold between
  split <;> rfl

theorem mem_between {piece : Piece Kind} (member : piece ∈ between start stop) :
    start < stop ∧ piece = .gap start stop := by
  unfold between at member
  split at member
  next less => exact ⟨less, List.mem_singleton.mp member⟩
  next => cases member

theorem piecesFrom_tiles (chain : Chain size cursor spans) :
    Tiles cursor size ((piecesFrom size cursor spans).map Piece.range) := by
  induction chain with
  | nil inside => exact between_tiles inside
  | cons behind ordered _ ih =>
    rw [piecesFrom, List.map_append, List.map_cons]
    exact (between_tiles behind).append (.cons ordered ih)

theorem piecesFrom_spans : (piecesFrom size cursor spans).filterMap Piece.span? = spans := by
  induction spans generalizing cursor with
  | nil => exact between_spans
  | cons span spans ih =>
    rw [piecesFrom, List.filterMap_append, between_spans, List.nil_append, List.filterMap_cons, ih]
    rfl

theorem piecesFrom_output :
    (piecesFrom text.length cursor spans).map (Piece.output text rewrite) =
    rewriteFrom text rewrite cursor spans := by
  induction spans generalizing cursor with
  | nil => rw [piecesFrom, between_output, rewriteFrom, slice_length]
  | cons span spans ih =>
    rw [piecesFrom, List.map_append, between_output, List.map_cons, ih, rewriteFrom]
    rfl

theorem piecesFrom_gap (chain : Chain size cursor spans)
    (member : .gap start stop ∈ piecesFrom size cursor spans) :
    start < stop ∧ cursor ≤ start ∧ stop ≤ size ∧ (∀ span ∈ spans, span.Avoids start stop) ∧
      (start = cursor ∨ ∃ span ∈ spans, span.stop = start) ∧
          (stop = size ∨ ∃ span ∈ spans, span.start = stop) := by
  induction chain with
  | nil =>
    obtain ⟨less, same⟩ := mem_between member
    injection same with first second
    exact ⟨by omega, first.ge, second.le, by simp, .inl first, .inl second⟩
  | @cons cursor span spans behind ordered rest ih =>
    rw [piecesFrom, List.mem_append, List.mem_cons] at member
    rcases member with member | same | member
    · obtain ⟨less, same⟩ := mem_between member
      injection same with first second
      have inside := rest.le
      refine ⟨by omega, first.ge, by omega, ?_, .inl first, .inr ⟨span, List.mem_cons_self, second.symm⟩⟩
      intro other there
      apply Or.inl
      rcases List.mem_cons.mp there with rfl | there
      · exact second.le
      · obtain ⟨low, _, _⟩ := rest.bounds there
        omega
    · cases same
    · obtain ⟨less, low, high, avoids, left, right⟩ := ih member
      refine ⟨less, by omega, high, List.forall_mem_cons.mpr ⟨.inr low, avoids⟩, ?_, ?_⟩
      · apply Or.inr
        rcases left with left | ⟨other, there, left⟩
        · exact ⟨span, List.mem_cons_self, left.symm⟩
        · exact ⟨other, List.mem_cons_of_mem _ there, left⟩
      · rcases right with right | ⟨other, there, right⟩
        · exact .inl right
        · exact .inr ⟨other, List.mem_cons_of_mem _ there, right⟩

theorem piecesFrom_maximal (chain : Chain size 0 merged)
    (member : .gap start stop ∈ piecesFrom size 0 merged) :
    MaximalGap merged size start stop := by
  obtain ⟨less, _, high, avoids, left, right⟩ := piecesFrom_gap chain member
  refine ⟨high, avoids, ?_, .inl less⟩
  intro low high' below above inside avoided
  constructor
  · rcases left with left | ⟨span, there, left⟩
    · omega
    · obtain ⟨_, ordered, _⟩ := chain.bounds there
      rcases avoided span there with before | behind <;> omega
  · rcases right with right | ⟨span, there, right⟩
    · omega
    · obtain ⟨_, ordered, _⟩ := chain.bounds there
      rcases avoided span there with before | behind <;> omega

theorem laid (chain : Chain size 0 merged) : Laid size merged (pieces size merged) := by
  rw [pieces]
  split
  next empty =>
    subst empty
    refine ⟨.one (Nat.zero_le size), rfl, ?_⟩
    intro start stop member
    injection List.mem_singleton.mp member with first second
    refine ⟨by omega, by simp, ?_, .inr rfl⟩
    intro low high below above inside _
    omega
  next =>
    exact ⟨piecesFrom_tiles chain, piecesFrom_spans, fun start stop member =>
      piecesFrom_maximal chain member⟩

theorem rewriteOutsideSpans_eq :
    rewriteOutsideSpans text merged rewrite =
    (pieces text.length merged).flatMap (Piece.output text rewrite) := by
  cases merged with
  | nil => simp [rewriteOutsideSpans, pieces, Piece.output, slice_all]
  | cons span spans =>
    rw [rewriteOutsideSpans, pieces, if_neg (by simp), List.flatMap_def, piecesFrom_output]
    simp

end Rewriting

section Survival

theorem flatMap_output_id {pieces : List (Piece Kind)} :
    pieces.flatMap (Piece.output text id) = (pieces.map Piece.range).flatMap fun piece =>
      slice text piece.1 piece.2 := by
  rw [List.flatMap_map]
  congr 1
  funext piece
  cases piece <;> rfl

theorem Laid.identity (laid : Laid text.length merged (pieces text.length merged)) :
    rewriteOutsideSpans text merged id = text := by
  rw [rewriteOutsideSpans_eq, flatMap_output_id, laid.tiles.flatMap_slice, slice_all]

/-- Every protected character is in the result, and the protected characters have their order. -/
def Survives (text : List Char) (merged : List (ProtectedSpan Kind)) (result : List Char) : Prop :=
  ∃ place : Nat → Nat, (∀ position, Covered merged position → result[place position]? = text[position]?) ∧
    ∀ first second, Covered merged first → Covered merged second → first < second → place first < place second

/-- Where a position of the text is in the output of the pieces. -/
def placeIn (text : List Char) (rewrite : List Char → List Char) : List (Piece Kind) → Nat → Nat
  | [], position => position
  | piece :: pieces, position =>
    if position < piece.range.2 then position - piece.range.1
    else (piece.output text rewrite).length + placeIn text rewrite pieces position

def KeptAt (pieces : List (Piece Kind)) (position : Nat) : Prop :=
  Covered (pieces.filterMap Piece.span?) position

theorem keptAt_kept {pieces : List (Piece Kind)} :
    KeptAt (.kept span :: pieces) position ↔ span.Covers position ∨ KeptAt pieces position := by
  simp [KeptAt, Covered, Piece.span?]

theorem keptAt_gap {pieces : List (Piece Kind)} :
    KeptAt (.gap start stop :: pieces) position ↔ KeptAt pieces position := by
  simp [KeptAt, Covered, Piece.span?]

theorem KeptAt.bounds {ranges : List (Nat × Nat)} (tiles : Tiles start stop ranges)
    {pieces : List (Piece Kind)} (same : pieces.map Piece.range = ranges)
    (kept : KeptAt pieces position) : start ≤ position ∧ position < stop := by
  obtain ⟨span, member, low, high⟩ := kept
  obtain ⟨piece, there, found⟩ := List.mem_filterMap.mp member
  cases piece with
  | gap => cases found
  | kept other =>
    cases found
    have range : (span.start, span.stop) ∈ ranges := by
      rw [← same]
      exact List.mem_map.mpr ⟨.kept span, there, rfl⟩
    obtain ⟨first, _, last⟩ := tiles.within range
    dsimp only at first last
    omega

/-- A kept position is behind every gap in front of it. -/
theorem placed {ranges : List (Nat × Nat)} (tiles : Tiles start stop ranges)
    (inside : stop ≤ text.length) {pieces : List (Piece Kind)}
    (same : pieces.map Piece.range = ranges) :
    (∀ position, KeptAt pieces position →
      (pieces.flatMap (Piece.output text rewrite))[placeIn text rewrite pieces position]? =
      text[position]?) ∧
      ∀ first second, KeptAt pieces first → KeptAt pieces second → first < second →
        placeIn text rewrite pieces first < placeIn text rewrite pieces second := by
  induction tiles generalizing pieces with
  | nil =>
    obtain rfl := List.map_eq_nil_iff.mp same
    have nothing : ∀ position, ¬ KeptAt ([] : List (Piece Kind)) position := by
      rintro position ⟨span, member, _⟩
      cases member
    exact ⟨fun position kept => absurd kept (nothing position),
      fun first _ kept => absurd kept (nothing first)⟩
  | @cons start middle stop ranges ordered rest ih =>
    obtain ⟨piece, pieces, rfl, range, same⟩ := List.map_eq_cons_iff.mp same
    obtain ⟨placed, increasing⟩ := ih inside same
    have beyond : ∀ position, KeptAt pieces position → middle ≤ position :=
      fun position kept => (kept.bounds rest same).1
    have later : ∀ position, KeptAt pieces position →
        placeIn text rewrite (piece :: pieces) position = (piece.output text rewrite).length +
            placeIn text rewrite pieces position := by
      intro position kept
      have far := beyond position kept
      rw [placeIn, range, if_neg (by omega)]
    have there : ∀ position, KeptAt pieces position →
        ((piece :: pieces).flatMap (Piece.output text rewrite))[placeIn text rewrite (piece :: pieces) position]? = text[position]? := by
      intro position kept
      rw [later position kept, List.flatMap_cons, List.getElem?_append_right (by omega),
        Nat.add_sub_cancel_left]
      exact placed position kept
    have onwards : ∀ first second, KeptAt pieces first → KeptAt pieces second → first < second →
        placeIn text rewrite (piece :: pieces) first < placeIn text rewrite (piece :: pieces) second := by
      intro first second kept kept' less
      rw [later first kept, later second kept']
      have := increasing first second kept kept' less
      omega
    cases piece with
    | gap low high =>
      simp only [keptAt_gap]
      exact ⟨there, onwards⟩
    | kept span =>
      obtain ⟨rfl, rfl⟩ := Prod.mk.inj range
      have bound := rest.le
      have length : (Piece.output text rewrite (.kept span)).length = span.stop - span.start :=
        length_slice (by omega)
      have here : ∀ position, span.Covers position →
          placeIn text rewrite (.kept span :: pieces) position = position - span.start := by
        intro position covers
        rw [placeIn, range, if_pos covers.2]
      simp only [keptAt_kept]
      constructor
      · intro position kept
        rcases kept with covers | kept
        · obtain ⟨low, high⟩ := covers
          rw [here position ⟨low, high⟩, List.flatMap_cons, List.getElem?_append_left (by omega)]
          exact getElem?_slice low high
        · exact there position kept
      · intro first second kept kept' less
        rcases kept with covers | kept <;> rcases kept' with covers' | kept'
        · rw [here first covers, here second covers']
          have low := covers.1
          omega
        · rw [here first covers, later second kept', length]
          obtain ⟨low, high⟩ := covers
          omega
        · have far := beyond first kept
          have near := covers'.2
          omega
        · exact onwards first second kept kept' less

theorem Laid.survives {all : List (Piece Kind)} (laid : Laid text.length merged all) :
    Survives text merged (all.flatMap (Piece.output text rewrite)) := by
  have result := @placed _ _ rewrite _ _ _ laid.tiles (Nat.le_refl _) _ rfl
  simp only [KeptAt, laid.spans] at result
  exact ⟨placeIn text rewrite all, result⟩

end Survival

/-- Protected text survives every rewrite. -/
theorem protected_text_survives (text : List Char) (spans : List (ProtectedSpan Kind))
    (inside : ∀ span ∈ spans, span.Within text.length) :
    ((mergeOverlapping spans).Pairwise fun first second => first.start ≤ second.start ∧ first.stop ≤ second.start) ∧
      (∀ span ∈ mergeOverlapping spans, span.Within text.length) ∧
      (∀ position, Covered (mergeOverlapping spans) position ↔ Covered spans position) ∧
      (∀ others : List (ProtectedSpan Kind), others.Perm spans →
        ∀ position, Covered (mergeOverlapping others) position ↔ Covered (mergeOverlapping spans) position) ∧
      (∃ pieces, Laid text.length (mergeOverlapping spans) pieces ∧
        ∀ rewrite, rewriteOutsideSpans text (mergeOverlapping spans) rewrite = pieces.flatMap (Piece.output text rewrite)) ∧
      rewriteOutsideSpans text (mergeOverlapping spans) id = text ∧
      ∀ rewrite, Survives text (mergeOverlapping spans)
          (rewriteOutsideSpans text (mergeOverlapping spans) rewrite) := by
  have chain := mergeOverlapping_chain inside
  have laid := laid chain
  have valid : ∀ span ∈ spans, span.start ≤ span.stop := fun span member => (inside span member).1
  refine ⟨chain.disjoint, ?_, fun position => mergeOverlapping_covered valid, ?_,
    ⟨_, laid, fun rewrite => rewriteOutsideSpans_eq⟩, laid.identity, ?_⟩
  · intro span member
    obtain ⟨_, ordered, last⟩ := chain.bounds member
    exact ⟨ordered, last⟩
  · intro others perm position
    rw [mergeOverlapping_covered fun span member => valid span (perm.mem_iff.mp member),
      mergeOverlapping_covered valid]
    exact covered_perm perm
  · intro rewrite
    rw [rewriteOutsideSpans_eq]
    exact laid.survives

/-- A nested span and one that touches the end. -/
def sampleSpans : List (ProtectedSpan Nat) := [⟨5, 6, 2⟩, ⟨1, 4, 0⟩, ⟨2, 3, 1⟩]

theorem sampleSpans_survive :
    rewriteOutsideSpans "abcdef".toList (mergeOverlapping sampleSpans) (fun _ => ['-']) = "-bcd-f".toList ∧
      Survives "abcdef".toList (mergeOverlapping sampleSpans)
        (rewriteOutsideSpans "abcdef".toList (mergeOverlapping sampleSpans) fun _ => ['-']) := by
  have inside : ∀ span ∈ sampleSpans, span.Within "abcdef".toList.length := by
    simp only [sampleSpans, List.forall_mem_cons, ProtectedSpan.Within]
    decide
  exact ⟨by decide +kernel, (protected_text_survives "abcdef".toList sampleSpans inside).2.2.2.2.2.2 _⟩

section Detection
variable {detectors : Detectors Kind} {active others : List Kind}

/-- The range of a span alone. -/
def ProtectedSpan.untyped (span : ProtectedSpan Kind) : ProtectedSpan Unit := ⟨span.start, span.stop, ()⟩

@[simp] theorem untyped_start : span.untyped.start = span.start := rfl

@[simp] theorem untyped_stop : span.untyped.stop = span.stop := rfl

theorem sweep_untyped : sweep last.untyped (spans.map .untyped) = (sweep last spans).map .untyped := by
  induction spans generalizing last with
  | nil => rfl
  | cons span spans ih =>
    by_cases overlap : span.start < last.stop
    · by_cases longer : span.stop > last.stop
      · simp only [List.map_cons, sweep, untyped_start, untyped_stop, overlap, longer, if_true]
        exact @ih ⟨last.start, span.stop, last.spanType⟩
      · simp [sweep, overlap, longer, ih]
    · simp [sweep, overlap, ih]

theorem mergeOverlapping_untyped :
    mergeOverlapping (spans.map .untyped) = (mergeOverlapping spans).map .untyped := by
  have order : sortBy ProtectedSpan.key (spans.map .untyped) =
      (sortBy ProtectedSpan.key spans).map .untyped :=
    sortBy_map _
  rw [mergeOverlapping, mergeOverlapping, order]
  cases sortBy ProtectedSpan.key spans with
  | nil => rfl
  | cons first rest => exact sweep_untyped

theorem mergeOverlapping_perm {spans others : List (ProtectedSpan Unit)} (perm : spans.Perm others) :
    mergeOverlapping spans = mergeOverlapping others := by
  have same : sortBy ProtectedSpan.key spans = sortBy ProtectedSpan.key others := by
    apply List.Perm.eq_of_pairwise _ pairwise_sortBy pairwise_sortBy ((sortBy_perm.trans perm).trans sortBy_perm.symm)
    intro first second _ _ before behind
    cases first
    cases second
    cases le_antisymm before behind
    rfl
  rw [mergeOverlapping, same, mergeOverlapping]

theorem rewriteFrom_untyped :
    rewriteFrom text rewrite cursor (spans.map .untyped) =
    rewriteFrom text rewrite cursor spans := by
  induction spans generalizing cursor with
  | nil => rfl
  | cons span spans ih =>
    rw [List.map_cons, rewriteFrom, untyped_stop, ih]
    rfl

theorem rewriteOutsideSpans_untyped :
    rewriteOutsideSpans text (spans.map .untyped) rewrite = rewriteOutsideSpans text spans rewrite := by
  cases spans with
  | nil => rfl
  | cons span spans => exact congrArg List.flatten (@rewriteFrom_untyped _ (span :: spans) text rewrite 0)

theorem detect_untyped (detectors : Detectors Kind) (text : List Char) (perm : active.Perm others) :
    (detectProtectedSpans detectors text active).map ProtectedSpan.untyped =
      (detectProtectedSpans detectors text others).map ProtectedSpan.untyped := by
  rw [detectProtectedSpans, detectProtectedSpans, ← mergeOverlapping_untyped, ← mergeOverlapping_untyped]
  exact mergeOverlapping_perm ((perm.flatMap_right _).map _)

theorem sweep_ne_nil : sweep last spans ≠ [] := by
  induction spans generalizing last with
  | nil => simp [sweep]
  | cons span spans ih =>
    rw [sweep]
    repeat' split
    all_goals first | exact ih | simp

theorem mergeOverlapping_eq_nil : mergeOverlapping spans = [] ↔ spans = [] := by
  have sorted : (sortBy ProtectedSpan.key spans).length = spans.length := sortBy_perm.length_eq
  rw [mergeOverlapping, ← List.length_eq_zero_iff (l := spans), ← sorted]
  cases sortBy ProtectedSpan.key spans with
  | nil => simp
  | cons first rest => simp [sweep_ne_nil]

theorem textIsProtected_iff :
    textIsProtected detectors text active = true ↔
    detectProtectedSpans detectors text active ≠ [] := by
  rw [detectProtectedSpans, Ne, mergeOverlapping_eq_nil]
  simp [textIsProtected, runDetector, List.flatMap_eq_nil_iff]

/-- The order in which the set of requested types is gone through shows neither in the ranges found
nor in a rewritten text. -/
theorem detection_order_free (detectors : Detectors Kind) (text : List Char)
    (active others : List Kind) (perm : active.Perm others) :
    (detectProtectedSpans detectors text active).map ProtectedSpan.key =
      (detectProtectedSpans detectors text others).map ProtectedSpan.key ∧
      (∀ rewrite, rewriteOutsideSpans text (detectProtectedSpans detectors text active) rewrite =
        rewriteOutsideSpans text (detectProtectedSpans detectors text others) rewrite) ∧
      (textIsProtected detectors text others = true ↔ detectProtectedSpans detectors text active ≠ []) := by
  have ranges := detect_untyped detectors text perm
  refine ⟨?_, ?_, ?_⟩
  · have keys := congrArg (List.map ProtectedSpan.key) ranges
    rw [List.map_map, List.map_map] at keys
    exact keys
  · intro rewrite
    rw [← rewriteOutsideSpans_untyped, ranges, rewriteOutsideSpans_untyped]
  · rw [textIsProtected_iff, Ne, Ne, ← List.map_eq_nil_iff (f := ProtectedSpan.untyped), ← ranges,
      List.map_eq_nil_iff]

/-- One type whose span holds a span of the other. -/
def sampleDetectors : Detectors Bool :=
  fun nested => if nested then [fun _ => [(2, 3)], fun _ => [(5, 6)]] else [fun _ => [(1, 4)]]

theorem sampleDetectors_order :
    rewriteOutsideSpans "abcdef".toList (detectProtectedSpans sampleDetectors "abcdef".toList [true,
      false]) (fun _ => ['-']) =
        "-bcd-f".toList ∧
      rewriteOutsideSpans "abcdef".toList (detectProtectedSpans sampleDetectors "abcdef".toList [false, true]) (fun _ => ['-']) =
        rewriteOutsideSpans "abcdef".toList (detectProtectedSpans sampleDetectors "abcdef".toList [true, false]) fun _ => ['-'] :=
  ⟨by decide +kernel, (detection_order_free sampleDetectors "abcdef".toList [false, true] [true, false] (.swap true false [])).2.1 _⟩

end Detection

end TokenPak.Services.ProtectedSpans
