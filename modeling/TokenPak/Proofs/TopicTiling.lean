import TokenPak.Compression.TopicSegments

/-! The segments of a text lie one behind the other and have the text as their content. -/

namespace TokenPak.Compression.TopicSegments
open Library.Tiling
variable {F : Type} {measures : Measures F} {detector : TopicBoundaryDetector F} {text : List Char}

def TopicSegment.range (segment : TopicSegment F) : Nat × Nat := (segment.start, segment.stop)

/-- The segments are the pieces of the text from `0` to `stop`. -/
structure Segmented (text : List Char) (stop : Nat) (segments : List (TopicSegment F)) : Prop where
  tiles : Tiles 0 stop (segments.map TopicSegment.range)
  contents : ∀ segment ∈ segments, segment.content = slice text segment.start segment.stop

def LongEnough (detector : TopicBoundaryDetector F) (segments : List (TopicSegment F)) : Prop :=
  ∀ segment ∈ segments, detector.minSegmentChars ≤ segment.content.length

variable {segments : List (TopicSegment F)}

theorem LongEnough.append {segment : TopicSegment F} (long : LongEnough detector segments)
    (enough : detector.minSegmentChars ≤ segment.content.length) :
    LongEnough detector (segments ++ [segment]) := by
  intro other member
  rcases List.mem_append.mp member with member | member
  · exact long other member
  · rw [List.mem_singleton.mp member]
    exact enough

theorem Segmented.nil : Segmented text 0 ([] : List (TopicSegment F)) := ⟨.nil 0, by simp⟩

theorem Segmented.append {middle : Nat} (segmented : Segmented text middle segments)
    {segment : TopicSegment F} (start : segment.start = middle)
    (ordered : segment.start ≤ segment.stop)
    (content : segment.content = slice text segment.start segment.stop) :
    Segmented text segment.stop (segments ++ [segment]) := by
  constructor
  · rw [List.map_append]
    exact segmented.tiles.append (start ▸ Tiles.one ordered)
  · intro other member
    rcases List.mem_append.mp member with member | member
    · exact segmented.contents other member
    · rw [List.mem_singleton.mp member]
      exact content

theorem Segmented.dropLast {last : TopicSegment F} {stop : Nat}
    (segmented : Segmented text stop (segments ++ [last])) :
    Segmented text last.start segments ∧ last.start ≤ last.stop ∧ last.stop = stop := by
  have split : ∀ {start : Nat} {front : List (Nat × Nat)},
    Tiles start stop (front ++ [(last.start, last.stop)]) →
      Tiles start last.start front ∧ last.start ≤ last.stop ∧ last.stop = stop := by
    intro start front tiles
    induction front generalizing start with
    | nil =>
      cases tiles with
      | cons first rest =>
        cases rest
        exact ⟨.nil _, first, rfl⟩
    | cons piece front ih =>
      cases tiles with
      | cons first rest =>
        obtain ⟨tiles, ordered, stops⟩ := ih rest
        exact ⟨.cons first tiles, ordered, stops⟩
  have tiles := segmented.tiles
  rw [List.map_append] at tiles
  obtain ⟨front, ordered, stops⟩ := split tiles
  exact ⟨⟨front, fun segment member => segmented.contents segment (List.mem_append_left _ member)⟩,
    ordered, stops⟩

theorem Segmented.contents_joined (segmented : Segmented text text.length segments) :
    segments.flatMap TopicSegment.content = text := by
  have joined := @Tiles.flatMap_slice _ text _ _ _ segmented.tiles
  rw [slice_all, List.flatMap_map] at joined
  rw [← joined]
  exact List.flatMap_congr segmented.contents

namespace TopicBoundaryDetector

section Boundaries

variable {size : Nat}

theorem mem_cuts {boundaries : List Nat} {place : Nat} :
    place ∈ cuts boundaries size ↔ place = 0 ∨ place ∈ boundaries ∨ place = size := by
  simp [cuts]

theorem cuts_sorted {boundaries : List Nat} : (cuts boundaries size).Pairwise (· ≤ ·) :=
  List.pairwise_insertionSort _ _

theorem findBoundaries_le {similarities : List F} {place : Nat}
    (fits : ∀ i < similarities.length, (i + 1) * detector.stride ≤ size)
    (member : place ∈ detector.findBoundaries measures similarities) : place ≤ size := by
  obtain ⟨entry, there, found⟩ := List.mem_filterMap.mp member
  have index := List.snd_lt_of_mem_zipIdx there
  split at found
  next =>
    cases found
    exact fits entry.2 (by omega)
  next => cases found

theorem offset_fits {count stride : Nat} (positive : 0 < stride)
    (less : count < (size + stride - 1) / stride) : count * stride ≤ size := by
  have bound := (Nat.le_div_iff_mul_le positive).mp (Nat.succ_le_of_lt less)
  rw [Nat.succ_mul] at bound
  omega

theorem similarities_fit {chunks : List (List Char)} (made : detector.makeChunks text = some chunks) (i : Nat)
    (less : i < (computeSimilarities measures chunks).length) : (i + 1) * detector.stride ≤ text.length := by
  unfold makeChunks offsets at made
  split at made
  next => cases made
  next nonzero =>
    have count : chunks.length ≤ (text.length + detector.stride - 1) / detector.stride := by
      cases made
      apply (List.length_filter_le _ _).trans
      simp
    unfold computeSimilarities at less
    split at less
    next => cases less
    next =>
      rw [List.length_zipWith, List.length_tail] at less
      exact offset_fits (Nat.pos_of_ne_zero nonzero) (by omega)

end Boundaries

section Loop

/-- The segments end at `done`, and the skipped content is what lies from there to `stop`. -/
structure Reached (detector : TopicBoundaryDetector F) (text : List Char) (stop : Nat)
    (progress : Progress F) : Prop where
  segments : ∃ done, Segmented text done progress.segments ∧ done ≤ stop ∧
    (progress.skippedContent = [] → done = stop) ∧
    (progress.skippedContent ≠ [] → progress.skippedStart = done ∧
      progress.skippedContent.flatten = slice text done stop)
  long : LongEnough detector progress.segments

theorem Reached.visit {progress : Progress F} {start stop : Nat}
    (reached : Reached detector text start progress) (ordered : start ≤ stop) :
    Reached detector text stop (detector.visit measures text progress (start, stop)) := by
  obtain ⟨⟨done, segmented, below, fresh, skipped⟩, long⟩ := reached
  unfold TopicBoundaryDetector.visit
  dsimp only
  split
  next enough =>
    by_cases empty : progress.skippedContent = []
    · rw [if_neg (not_not.mpr empty)]
      obtain rfl := fresh empty
      have longer := @Segmented.append _ _ _ _ segmented (makeSegment measures (slice text done stop) done stop (nextId progress.counter)) rfl ordered rfl
      exact ⟨⟨stop, longer, le_rfl, fun _ => rfl, fun some_left => absurd rfl some_left⟩,
        LongEnough.append long enough⟩
    · rw [if_pos empty]
      obtain ⟨begins, joined⟩ := skipped empty
      have content : progress.skippedContent.flatten ++
          slice text start stop = slice text progress.skippedStart stop := by
        rw [joined, begins, slice_append below ordered]
      have longer := @Segmented.append _ _ _ _ segmented (makeSegment measures (progress.skippedContent.flatten ++ slice text start stop)
        progress.skippedStart stop (nextId progress.counter)) begins (show progress.skippedStart ≤ stop by omega) content
      refine ⟨⟨stop, longer, le_rfl, fun _ => rfl, fun some_left => absurd rfl some_left⟩,
        LongEnough.append long ?_⟩
      apply enough.trans
      rw [makeSegment, List.length_append]
      omega
  next =>
    refine ⟨⟨done, segmented, below.trans ordered, ?_, ?_⟩, long⟩
    · intro nothing
      simp at nothing
    · intro _
      by_cases empty : progress.skippedContent = []
      · obtain rfl := fresh empty
        simp [empty]
      · obtain ⟨begins, joined⟩ := skipped empty
        rw [if_neg empty, List.flatten_append, joined, List.flatten_cons, List.flatten_nil,
          List.append_nil, slice_append below ordered]
        exact ⟨begins, rfl⟩

/-- The loop goes through the sorted boundaries up to the largest. -/
theorem Reached.run {places : List Nat} {progress : Progress F} {start stop : Nat}
    (reached : Reached detector text start progress)
    (sorted : (start :: places).Pairwise (· ≤ ·)) (most : ∀ place ∈ start :: places, place ≤ stop)
    (last : stop ∈ start :: places) :
    Reached detector text stop ((pieces (start :: places)).foldl (detector.visit measures text) progress) := by
  induction places generalizing progress start with
  | nil =>
    rw [List.mem_singleton.mp last]
    exact reached
  | cons next places ih =>
    obtain ⟨first, sorted⟩ := List.pairwise_cons.mp sorted
    obtain ⟨_, most'⟩ := List.forall_mem_cons.mp most
    have step : start ≤ next := first next List.mem_cons_self
    have later : stop ∈ next :: places := by
      rcases List.mem_cons.mp last with rfl | later
      · rw [show stop = next from le_antisymm step (most' next List.mem_cons_self)]
        exact List.mem_cons_self
      · exact later
    exact ih (reached.visit step) sorted most' later

theorem reached_end {boundaries : List Nat} (counter : Nat)
    (inside : ∀ place ∈ boundaries, place ≤ text.length) :
    Reached detector text text.length
      ((pieces (cuts boundaries text.length)).foldl (detector.visit measures text) ⟨[], [], 0, counter⟩) := by
  have sorted := @cuts_sorted text.length boundaries
  have most : ∀ place ∈ cuts boundaries text.length, place ≤ text.length := by
    intro place member
    rcases mem_cuts.mp member with rfl | member | rfl
    · exact Nat.zero_le _
    · exact inside place member
    · exact le_rfl
  have first : 0 ∈ cuts boundaries text.length := mem_cuts.mpr (.inl rfl)
  have last : text.length ∈ cuts boundaries text.length := mem_cuts.mpr (.inr (.inr rfl))
  have begun : Reached detector text 0 (⟨[], [], 0, counter⟩ : Progress F) :=
    ⟨⟨0, .nil, le_rfl, fun _ => rfl, fun some_left => absurd rfl some_left⟩, by simp [LongEnough]⟩
  cases places : cuts boundaries text.length with
  | nil =>
    rw [places] at first
    cases first
  | cons start places' =>
    rw [places] at sorted most first last
    have zero : start = 0 := by
      rcases List.mem_cons.mp first with same | behind
      · exact same.symm
      · exact Nat.le_zero.mp ((List.pairwise_cons.mp sorted).1 0 behind)
    subst zero
    exact begun.run sorted most last

end Loop

section Ends

theorem mergeRest_segmented {progress : Progress F} (reached : Reached detector text text.length progress) :
    Segmented text text.length (mergeRest measures text progress).1 ∧
      (1 < (mergeRest measures text progress).1.length →
          LongEnough detector (mergeRest measures text progress).1) := by
  obtain ⟨⟨done, segmented, below, fresh, skipped⟩, long⟩ := reached
  rw [mergeRest]
  by_cases empty : progress.skippedContent = []
  · rw [if_neg (not_not.mpr empty)]
    obtain rfl := fresh empty
    exact ⟨segmented, fun _ => long⟩
  · rw [if_pos empty]
    obtain ⟨_, joined⟩ := skipped empty
    rcases List.eq_nil_or_concat progress.segments with none_made | ⟨front, last, made⟩
    · rw [none_made] at segmented
      obtain rfl : done = 0 := by
        have tiles := segmented.tiles
        cases tiles
        rfl
      simp only [none_made, List.getLast?_nil]
      refine ⟨@Segmented.append _ _ _ _ .nil (makeSegment measures _ _ _ _) rfl below joined, ?_⟩
      intro several
      simp at several
    · rw [List.concat_eq_append] at made
      rw [made] at segmented long
      simp only [made, List.getLast?_concat, List.dropLast_concat]
      obtain ⟨before, ordered, rfl⟩ := segmented.dropLast
      have content := segmented.contents last (by simp)
      constructor
      · apply @Segmented.append _ _ _ _ before (makeSegment measures _ _ _ _) rfl (ordered.trans below)
        show last.content ++ progress.skippedContent.flatten = slice text last.start text.length
        rw [content, joined, slice_append ordered below]
      · intro _
        have enough := long last (by simp)
        apply LongEnough.append fun segment member => long segment (List.mem_append_left _ member)
        apply enough.trans
        rw [makeSegment, List.length_append]
        omega

theorem orWhole_of_segmented {result : List (TopicSegment F) × Nat}
    (segmented : Segmented text text.length result.1) (some_text : text ≠ []) :
    orWhole measures text result = result := by
  rw [orWhole, if_neg]
  intro nothing
  have tiles := segmented.tiles
  rw [nothing] at tiles
  have size : text.length = 0 := by
    generalize text.length = size at tiles
    cases tiles
    rfl
  exact some_text (List.length_eq_zero_iff.mp size)

end Ends

theorem whole_segmented (topicId : String) :
    Segmented text text.length [makeSegment measures text 0 text.length topicId] :=
  @Segmented.append _ _ _ _ .nil (makeSegment measures _ _ _ _) rfl (Nat.zero_le _) slice_all.symm

/-- Topic segmentation is a partition of the text. -/
theorem segment_partition (counter : Nat) (text : List Char) (enough : 2 ≤ detector.chunkSize) :
    ∃ segments after, detector.segment measures counter text = some (segments, after) ∧
      segments.flatMap TopicSegment.content = text ∧ Tiles 0 text.length (segments.map TopicSegment.range) ∧
      (∀ segment ∈ segments, segment.content = slice text segment.start segment.stop) ∧
      (1 < segments.length → ∀ segment ∈ segments, detector.minSegmentChars ≤ segment.content.length) := by
  have summary : ∃ segments after, detector.segment measures counter text = some (segments, after) ∧
      Segmented text text.length segments ∧ (1 < segments.length → LongEnough detector segments) := by
    unfold TopicBoundaryDetector.segment
    split
    next empty =>
      subst empty
      exact ⟨[], counter, rfl, .nil, fun several => absurd several (by simp)⟩
    next some_text =>
      split
      next => exact ⟨_, _, rfl, whole_segmented _, fun several => absurd several (by simp)⟩
      next =>
        have positive : detector.stride ≠ 0 := by
          rw [stride]
          omega
        obtain ⟨chunks, made⟩ : ∃ chunks, detector.makeChunks text = some chunks := by
          rw [makeChunks, offsets, if_neg positive]
          exact ⟨_, rfl⟩
        have inside : ∀ place ∈
            detector.findBoundaries measures (computeSimilarities measures chunks),
            place ≤ text.length :=
          fun place => findBoundaries_le (similarities_fit made)
        have rest := @mergeRest_segmented _ measures _ _ _ (@reached_end _ measures detector _ _ counter inside)
        simp only [made, Option.bind_eq_bind, Option.bind_some]
        rw [orWhole_of_segmented rest.1 some_text]
        exact ⟨_, _, rfl, rest⟩
  obtain ⟨segments, after, found, segmented, long⟩ := summary
  exact ⟨segments, after, found, segmented.contents_joined, segmented.tiles, segmented.contents, long⟩

/-- Similarities in thousandths, and no scores. -/
def countingMeasures : Measures Nat where
  lower text := text
  isWord c := c.isAlphanum
  quotient part whole := 1000 * part / whole
  zero := 0
  less a b := decide (a < b)
  scoreActivity _ := 0
  scoreRecency _ := 0
  countCrossReferences _ := 0

def shortDetector : TopicBoundaryDetector Nat := ⟨4, 300, 2⟩

theorem shortDetector_partition :
    ((shortDetector.segment countingMeasures 0 "abcdefg".toList).map fun result =>
      result.1.map TopicSegment.range) = some [(0, 2), (2, 4), (4, 7)] ∧
      ∃ segments after, shortDetector.segment countingMeasures 0 "abcdefg".toList = some (segments, after) ∧
        segments.flatMap TopicSegment.content = "abcdefg".toList := by
  obtain ⟨segments, after, found, joined, _⟩ :=
    @segment_partition _ countingMeasures shortDetector 0 "abcdefg".toList (by decide)
  exact ⟨by decide +kernel, segments, after, found, joined⟩

end TopicBoundaryDetector

end TokenPak.Compression.TopicSegments
