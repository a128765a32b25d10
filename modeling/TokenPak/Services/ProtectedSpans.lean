import Mathlib.Data.Prod.Lex
import TokenPak.Library.StableSort
import TokenPak.Library.Tiling

/-! Slices of a request text that compression must preserve. The detectors are parameters: each pattern
of a span type is given by the ranges it finds in a text. -/

namespace TokenPak.Services.ProtectedSpans
open Library.StableSort Library.Tiling
variable {Kind : Type}

structure ProtectedSpan (Kind : Type) where
  start : Nat
  stop : Nat
  spanType : Kind
  deriving DecidableEq, Repr

def ProtectedSpan.key (span : ProtectedSpan Kind) : Nat ×ₗ Nat := toLex (span.start, span.stop)

/-- The loop of `merge_overlapping`; `last` is the span merged last. -/
def sweep (last : ProtectedSpan Kind) : List (ProtectedSpan Kind) → List (ProtectedSpan Kind)
  | [] => [last]
  | span :: spans =>
    if span.start < last.stop then
      if span.stop > last.stop then sweep ⟨last.start, span.stop, last.spanType⟩ spans
      else sweep last spans
    else last :: sweep span spans

def mergeOverlapping (spans : List (ProtectedSpan Kind)) : List (ProtectedSpan Kind) :=
  match sortBy ProtectedSpan.key spans with
  | [] => []
  | first :: rest => sweep first rest

/-- The patterns of a span type, each with the ranges it finds in a text. -/
abbrev Detectors (Kind : Type) := Kind → List (List Char → List (Nat × Nat))

def runDetector (detectors : Detectors Kind) (text : List Char) (spanType : Kind) :
    List (ProtectedSpan Kind) :=
  (detectors spanType).flatMap fun pattern => (pattern text).map fun found => ⟨found.1, found.2, spanType⟩

/-- `active` lists the requested types in the order in which the set of them is gone through. -/
def detectProtectedSpans (detectors : Detectors Kind) (text : List Char) (active : List Kind) :
    List (ProtectedSpan Kind) :=
  mergeOverlapping (active.flatMap (runDetector detectors text))

/-- The loop of `rewrite_outside_spans` with what follows it, from `cursor` on. -/
def rewriteFrom (text : List Char) (rewrite : List Char → List Char) (cursor : Nat) :
    List (ProtectedSpan Kind) → List (List Char)
  | [] => if cursor < text.length then [rewrite (text.drop cursor)] else []
  | span :: spans =>
    (if span.start > cursor then [rewrite (slice text cursor span.start)] else []) ++
      slice text span.start span.stop :: rewriteFrom text rewrite span.stop spans

def rewriteOutsideSpans (text : List Char) (spans : List (ProtectedSpan Kind))
    (rewrite : List Char → List Char) : List Char :=
  match spans with
  | [] => rewrite text
  | spans => (rewriteFrom text rewrite 0 spans).flatten

/-- Whether a pattern of a requested type finds anything. -/
def textIsProtected (detectors : Detectors Kind) (text : List Char) (active : List Kind) : Bool :=
  active.any fun spanType => (detectors spanType).any fun pattern => !(pattern text).isEmpty

end TokenPak.Services.ProtectedSpans
