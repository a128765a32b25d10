import Mathlib.Data.List.Forall2
import Mathlib.Data.List.Induction

/-! Regular expressions as a backtracking matcher reads them: the ways to match in front of a text
come in the order in which they are tried, and a substitution replaces the first way at each place
that it reaches. A boundary sees only whether the letters beside it belong to words. -/

namespace TokenPak.Library.Regex

inductive Expression (Letter : Type) where
  | one (accepts : Letter → Bool)
  | many (accepts : Letter → Bool)
  | boundary
  | empty
  | seq (first second : Expression Letter)
  | alt (first second : Expression Letter)

variable {Letter : Type}

def optional (pattern : Expression Letter) : Expression Letter := .alt pattern .empty

def all : List (Expression Letter) → Expression Letter
  | [] => .empty
  | [pattern] => pattern
  | pattern :: patterns => .seq pattern (all patterns)

def runs (accepts : Letter → Bool) : Option Letter → List Letter → List (Option Letter × List Letter)
  | behind, [] => [(behind, [])]
  | behind, c :: text =>
      if accepts c then runs accepts (some c) text ++ [(behind, c :: text)]
        else [(behind, c :: text)]

section Words
variable (word : Letter → Bool)

def isWord : Option Letter → Bool
  | none => false
  | some c => word c

/-- Each way gives the letter in front of what is left, and that. -/
def ways : Expression Letter → Option Letter → List Letter → List (Option Letter × List Letter)
  | .one _, _, [] => []
  | .one accepts, _, c :: text => if accepts c then [(some c, text)] else []
  | .many accepts, behind, text => runs accepts behind text
  | .boundary, behind, text => if isWord word behind = isWord word text.head? then [] else [(behind, text)]
  | .empty, behind, text => [(behind, text)]
  | .seq first second, behind, text =>
      (ways first behind text).flatMap fun found => ways second found.1 found.2
  | .alt first second, behind, text => ways first behind text ++ ways second behind text

/-- A letter that stays, or a text that matches. -/
inductive Item (Letter : Type) where
  | kept (c : Letter)
  | hit (text : List Letter)

/-- The items of a text; each turn takes a letter or a match. -/
def scan (pattern : Expression Letter) : Nat → Option Letter → List Letter → List (Item Letter)
  | 0, _, _ => []
  | _, _, [] => []
  | turns + 1, behind, c :: text =>
    match (ways word pattern behind (c :: text)).head? with
    | some (last, left) =>
      if left.length ≤ text.length then .hit ((c :: text).take (text.length + 1 - left.length)) ::
        scan pattern turns last left
      else .kept c :: scan pattern turns (some c) text
    | none => .kept c :: scan pattern turns (some c) text

def Item.render (replacement : List Letter) : Item Letter → List Letter
  | .kept c => [c]
  | .hit _ => replacement

/-- `pattern.sub(replacement, text)` -/
def sub (pattern : Expression Letter) (replacement text : List Letter) : List Letter :=
  (scan word pattern text.length none text).flatMap (Item.render replacement)

def searchFrom (pattern : Expression Letter) : Option Letter → List Letter → Bool
  | behind, [] => ! (ways word pattern behind []).isEmpty
  | behind, c :: text => ! (ways word pattern behind (c :: text)).isEmpty || searchFrom pattern (some c) text

/-- `pattern.search(text) is not None` -/
def search (pattern : Expression Letter) (text : List Letter) : Bool := searchFrom word pattern none text

end Words

end TokenPak.Library.Regex

/-! Patterns without alternatives: a sequence of pieces, each of which takes one
letter, a run of letters, or at most one run with its closing letter. A match is of
the whole word. -/

namespace TokenPak.Library.Pattern
variable {Letter : Type}

inductive Piece (Letter : Type) where
  | one (accepts : Letter → Bool)
  | many (accepts : Letter → Bool)
  | optionally (accepts : Letter → Bool) (closing : Letter)

def takes (accepts : Letter → Bool) (rest : List Letter → Bool) : List Letter → Bool
  | [] => false
  | letter :: word => accepts letter && rest word

/-- Any number of letters of a kind, then the rest. -/
def skips (accepts : Letter → Bool) (rest : List Letter → Bool) : List Letter → Bool
  | [] => rest []
  | letter :: word => rest (letter :: word) || (accepts letter && skips accepts rest word)

def Piece.run [DecidableEq Letter] (rest : List Letter → Bool) (word : List Letter) : Piece Letter → Bool
  | .one accepts => takes accepts rest word
  | .many accepts => skips accepts rest word
  | .optionally accepts closing => rest word || skips accepts (takes (· = closing) rest) word

def fullmatch [DecidableEq Letter] : List (Piece Letter) → List Letter → Bool
  | [], word => word.isEmpty
  | piece :: pieces, word => piece.run (fullmatch pieces) word

/-- The pieces accept the same letters of a word. -/
inductive Piece.Agrees (word : List Letter) : Piece Letter → Piece Letter → Prop where
  | one {accepts other} (same : ∀ letter ∈ word, accepts letter = other letter) : Agrees word (.one accepts) (.one other)
  | many {accepts other} (same : ∀ letter ∈ word, accepts letter = other letter) : Agrees word (.many accepts) (.many other)
  | optionally {accepts other closing} (same : ∀ letter ∈ word, accepts letter = other letter) :
    Agrees word (.optionally accepts closing) (.optionally other closing)

section Agreement
variable {word : List Letter} {accepts other : Letter → Bool} {rest last : List Letter → Bool}

theorem takes_congr (same : ∀ letter ∈ word, accepts letter = other letter)
    (agree : ∀ part ⊆ word, rest part = last part) {part : List Letter} (inside : part ⊆ word) :
    takes accepts rest part = takes other last part := by
  cases part with
  | nil => rfl
  | cons letter part =>
    obtain ⟨member, within⟩ := List.cons_subset.mp inside
    simp only [takes, same letter member, agree part within]

theorem skips_congr (same : ∀ letter ∈ word, accepts letter = other letter)
    (agree : ∀ part ⊆ word, rest part = last part) {part : List Letter} (inside : part ⊆ word) :
    skips accepts rest part = skips other last part := by
  induction part with
  | nil => exact agree [] inside
  | cons letter part ih =>
    obtain ⟨member, within⟩ := List.cons_subset.mp inside
    simp only [skips, agree _ inside, same letter member, ih within]

theorem fullmatch_congr [DecidableEq Letter] {pieces others : List (Piece Letter)}
    (agree : List.Forall₂ (Piece.Agrees word) pieces others) :
    ∀ part ⊆ word, fullmatch pieces part = fullmatch others part := by
  induction agree with
  | nil => exact fun _ _ => rfl
  | @cons piece other pieces others first _ ih =>
    intro part inside
    simp only [fullmatch]
    cases first with
    | one same => exact takes_congr same ih inside
    | many same => exact skips_congr same ih inside
    | @optionally _ _ closing same =>
      have closes : ∀ part ⊆ word, takes (· = closing) (fullmatch pieces) part = takes (· = closing)
          (fullmatch others) part :=
        fun part within => takes_congr (fun _ _ => rfl) ih within
      simp only [Piece.run, ih part inside, skips_congr same closes inside]

end Agreement

/-- A run up to the end takes the words of its letters. -/
theorem fullmatch_many [DecidableEq Letter] (accepts : Letter → Bool) (word : List Letter) :
    fullmatch [.many accepts] word = word.all accepts := by
  change skips accepts List.isEmpty word = _
  induction word with
  | nil => rfl
  | cons letter word ih => simp [skips, ih]

end TokenPak.Library.Pattern
