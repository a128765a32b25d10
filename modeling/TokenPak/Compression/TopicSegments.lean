import Mathlib.Data.List.Dedup
import Mathlib.Data.List.Sort
import TokenPak.Library.Text
import TokenPak.Library.Tiling

/-! Topic boundaries in a text. Case folding, the word characters, the arithmetic of similarities and the
scores of a segment are parameters. -/

namespace TokenPak.Compression.TopicSegments
open Library.Tiling

structure TopicSegment (F : Type) where
  start : Nat
  stop : Nat
  content : List Char
  topicId : String
  activityScore : F
  referenceCount : Nat
  recencyScore : F
  deriving DecidableEq

structure Measures (F : Type) where
  lower : List Char → List Char
  isWord : Char → Bool
  quotient : Nat → Nat → F
  zero : F
  less : F → F → Bool
  scoreActivity : List Char → F
  scoreRecency : List Char → F
  countCrossReferences : List Char → Nat

structure TopicBoundaryDetector (F : Type) where
  chunkSize : Nat
  similarityThreshold : F
  minSegmentChars : Int

section Similarity
variable {F : Type} (measures : Measures F)

/-- The maximal runs of word characters, behind the beginning of a run. -/
def runsFrom (run : List Char) : List Char → List (List Char)
  | [] => if run = [] then [] else [run]
  | c :: rest =>
    if measures.isWord c then runsFrom (run ++ [c]) rest
    else if run = [] then runsFrom [] rest
    else run :: runsFrom [] rest

def tokenize (text : List Char) : List (List Char) :=
  (runsFrom measures [] (measures.lower text)).filter fun word => decide (word.length > 2)

def chunkSimilarity (first second : List Char) : F :=
  let words := (tokenize measures first).dedup
  let others := (tokenize measures second).dedup
  if words = [] ∨ others = [] then measures.zero
  else
    let union := (words ++ others).dedup.length
    if union > 0 then measures.quotient (words.filter (· ∈ others)).length union else measures.zero

def computeSimilarities (chunks : List (List Char)) : List F :=
  if chunks.length < 2 then [] else List.zipWith (chunkSimilarity measures) chunks chunks.tail

end Similarity

namespace TopicBoundaryDetector
variable {F : Type} (measures : Measures F) (detector : TopicBoundaryDetector F)

def stride : Nat := detector.chunkSize / 2

/-- `range(0, size, stride)`: fails for a stride of zero. -/
def offsets (size : Nat) : Option (List Nat) :=
  if detector.stride = 0 then none
  else some ((List.range ((size + detector.stride - 1) / detector.stride)).map (· * detector.stride))

def makeChunks (text : List Char) : Option (List (List Char)) :=
  (detector.offsets text.length).map fun offsets =>
    (offsets.map fun i => slice text i (i + detector.chunkSize)).filter (· ≠ [])

def findBoundaries (similarities : List F) : List Nat :=
  similarities.zipIdx.filterMap fun entry =>
    if measures.less entry.1 detector.similarityThreshold then some ((entry.2 + 1) * detector.stride) else none

def makeSegment (content : List Char) (start stop : Nat) (topicId : String) : TopicSegment F where
  start := start
  stop := stop
  content := content
  topicId := topicId
  activityScore := measures.scoreActivity content
  referenceCount := measures.countCrossReferences content
  recencyScore := measures.scoreRecency content

/-- The topic counter is a field of the detector in the source. -/
def nextId (counter : Nat) : String := "topic_" ++ toString counter

/-- The local variables of `segment`. -/
structure Progress (F : Type) where
  segments : List (TopicSegment F)
  skippedContent : List (List Char)
  skippedStart : Nat
  counter : Nat

/-- The body of the loop for the boundaries `piece`. -/
def visit (text : List Char) (progress : Progress F) (piece : Nat × Nat) : Progress F :=
  let segmentText := slice text piece.1 piece.2
  if (segmentText.length : Int) ≥ detector.minSegmentChars then
    let id := nextId progress.counter
    let segment :=
      if progress.skippedContent ≠ [] then
        makeSegment measures (progress.skippedContent.flatten ++ segmentText) progress.skippedStart piece.2 id
      else makeSegment measures segmentText piece.1 piece.2 id
    { progress with segments := progress.segments ++ [segment], skippedContent := [], counter := progress.counter + 1 }
  else
    { progress with
      skippedStart := if progress.skippedContent = [] then piece.1 else progress.skippedStart
      skippedContent := progress.skippedContent ++ [segmentText] }

/-- Skipped content that is left goes to the last segment. -/
def mergeRest (text : List Char) (progress : Progress F) : List (TopicSegment F) × Nat :=
  if progress.skippedContent ≠ [] then
    let remaining := progress.skippedContent.flatten
    match progress.segments.getLast? with
    | some last =>
      (progress.segments.dropLast ++
        [makeSegment measures (last.content ++ remaining) last.start text.length last.topicId],
        progress.counter)
    | none => ([makeSegment measures remaining 0 text.length (nextId progress.counter)], progress.counter + 1)
  else (progress.segments, progress.counter)

def orWhole (text : List Char) (result : List (TopicSegment F) × Nat) : List (TopicSegment F) × Nat :=
  if result.1 = [] then ([makeSegment measures text 0 text.length (nextId result.2)], result.2 + 1)
    else result

/-- `sorted(set([0] + boundaries + [size]))` -/
def cuts (boundaries : List Nat) (size : Nat) : List Nat :=
  ([0] ++ boundaries ++ [size]).dedup.insertionSort (· ≤ ·)

def pieces (cuts : List Nat) : List (Nat × Nat) := cuts.zip cuts.tail

def segment (counter : Nat) (text : List Char) : Option (List (TopicSegment F) × Nat) :=
  if text = [] then some ([], counter)
  else if text.length < detector.chunkSize then
    some ([makeSegment measures text 0 text.length (nextId counter)], counter + 1)
  else do
    let chunks ← detector.makeChunks text
    let boundaries := detector.findBoundaries measures (computeSimilarities measures chunks)
    let progress :=
      (pieces (cuts boundaries text.length)).foldl (detector.visit measures text)
        ⟨[], [], 0, counter⟩
    some (orWhole measures text (mergeRest measures text progress))

end TopicBoundaryDetector

end TokenPak.Compression.TopicSegments
