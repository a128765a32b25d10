import Mathlib.Data.List.DropRight
import TokenPak.Library.Text

/-! Lines of a text. A text is cut at every boundary; what is left of the pieces once blanks are
trimmed and blank pieces dropped does not depend on whether two boundaries count as one, and goes
through the lines of a coarser cut one by one. -/

namespace TokenPak.Library.Lines
variable {Letter : Type} (space boundary : Letter → Bool)

def trim (text : List Letter) : List Letter := ((text.dropWhile space).reverse.dropWhile space).reverse

/-- The trimmed text, unless it is blank. -/
def solid (text : List Letter) : List (List Letter) := if trim space text = [] then [] else [trim space text]

/-- The pieces between boundaries that are not blank, trimmed, behind the beginning of a piece. -/
def solidFrom (word : List Letter) : List Letter → List (List Letter)
  | [] => solid space word
  | c :: rest => if boundary c then solid space word ++ solidFrom [] rest else solidFrom (word ++ [c]) rest

/-- The lines that end in a mark, and what follows the last one. -/
def linesFrom (mark : Letter → Bool) (line : List Letter) : List Letter → List (List Letter)
  | [] => [line]
  | c :: rest => if mark c then line :: linesFrom mark [] rest else linesFrom mark (line ++ [c]) rest

variable {space boundary} {c : Letter} {text rest word : List Letter}

section Trim

theorem dropWhile_blank (blank : ∀ c ∈ text, space c = true) (rest : List Letter) :
    (text ++ rest).dropWhile space = rest.dropWhile space := List.dropWhile_append_of_pos blank

theorem trim_eq_nil_iff : trim space text = [] ↔ ∀ c ∈ text, space c = true := by
  rw [trim, List.reverse_eq_nil_iff, List.dropWhile_eq_nil_iff]
  simp only [List.mem_reverse]
  constructor
  · intro blank
    have whole := @List.takeWhile_append_dropWhile _ space text
    intro c member
    rw [← whole] at member
    rcases List.mem_append.mp member with front | back
    · exact List.mem_takeWhile_imp front
    · exact blank c back
  · intro blank c member
    exact blank c ((List.dropWhile_sublist space).subset member)

theorem trim_cons (blank : space c = true) : trim space (c :: text) = trim space text := by
  rw [trim, List.dropWhile_cons_of_pos blank, trim]

theorem trim_concat (blank : space c = true) : trim space (text ++ [c]) = trim space text := by
  cases all : text.dropWhile space with
  | nil =>
    have front : ∀ d ∈ text, space d = true := List.dropWhile_eq_nil_iff.mp all
    rw [trim_eq_nil_iff.mpr front, trim_eq_nil_iff]
    intro d member
    rcases List.mem_append.mp member with front' | last
    · exact front d front'
    · rwa [List.mem_singleton.mp last]
  | cons d more =>
    have kept : (text ++ [c]).dropWhile space = text.dropWhile space ++ [c] := by
      rw [List.dropWhile_append, all]
      simp
    rw [trim, trim, kept, List.reverse_append]
    simp [blank]

theorem exists_trim (space : Letter → Bool) (text : List Letter) :
    ∃ front back, text = front ++ trim space text ++ back ∧
    (∀ c ∈ front, space c = true) ∧ ∀ c ∈ back, space c = true := by
  refine ⟨text.takeWhile space, ((text.dropWhile space).reverse.takeWhile space).reverse, ?_, ?_, ?_⟩
  · rw [List.append_assoc, trim, ← List.reverse_append, List.takeWhile_append_dropWhile, List.reverse_reverse,
      List.takeWhile_append_dropWhile]
  · intro c member
    exact List.mem_takeWhile_imp member
  · intro c member
    exact List.mem_takeWhile_imp (List.mem_reverse.mp member)

theorem trim_head (first : (trim space text).head? = some c) : space c = false := by
  have solid := List.head?_dropWhile_not space text
  cases all : text.dropWhile space with
  | nil => simp [trim, all] at first
  | cons d more =>
    rw [all] at solid
    have same : (trim space text).head? = some d := by
      have front : space d = false := by simpa using solid
      rw [trim, all, List.reverse_cons]
      by_cases blank : ∀ e ∈ more.reverse, space e = true
      · rw [dropWhile_blank blank]
        simp [front]
      · rw [List.dropWhile_append, if_neg (by simpa using blank)]
        simp
    rw [same] at first
    cases first
    simpa using solid

theorem trim_getLast (last : (trim space text).getLast? = some c) : space c = false := by
  have solid := List.head?_dropWhile_not space (text.dropWhile space).reverse
  rw [trim, List.getLast?_reverse] at last
  rw [last] at solid
  simpa using solid

end Trim

section Pieces

theorem solidFrom_cons_blank (blank : space c = true) (word text : List Letter) :
    solidFrom space boundary (c :: word) text = solidFrom space boundary word text := by
  induction text generalizing word with
  | nil => rw [solidFrom, solidFrom, solid, solid, trim_cons blank]
  | cons d rest ih => rw [solidFrom, solidFrom, List.cons_append, ih, solid, solid, trim_cons blank]

variable (inner : ∀ c, boundary c = true → space c = true)
include inner

omit inner in
theorem solidFrom_blank (blank : space c = true) (text : List Letter) :
    solidFrom space boundary [] (c :: text) = solidFrom space boundary [] text := by
  rw [solidFrom]
  split
  · simp [solid, trim]
  · exact solidFrom_cons_blank blank [] text

omit inner in
theorem solidFrom_concat (blank : space c = true) (word text : List Letter) :
    solidFrom space boundary word (text ++ [c]) = solidFrom space boundary word text := by
  induction text generalizing word with
  | nil =>
    simp only [List.nil_append, solidFrom]
    split
    · simp [solid, trim]
    · rw [solid, solid, trim_concat blank]
  | cons d rest ih => simp only [List.cons_append, solidFrom, ih]

omit inner in
theorem solidFrom_append (mark : boundary c = true) (word text rest : List Letter) :
    solidFrom space boundary word (text ++ c :: rest) = solidFrom space boundary word text ++
      solidFrom space boundary [] rest := by
  induction text generalizing word with
  | nil => simp only [List.nil_append, solidFrom, if_pos mark]
  | cons d more ih =>
    simp only [List.cons_append, solidFrom, ih]
    split
    · rw [List.append_assoc]
    · rfl

omit inner in
theorem solidFrom_lines {mark : Letter → Bool} (coarser : ∀ c, mark c = true → boundary c = true)
    (line text : List Letter) :
    solidFrom space boundary []
    (line ++ text) = (linesFrom mark line text).flatMap (solidFrom space boundary []) := by
  induction text generalizing line with
  | nil => simp [linesFrom]
  | cons d rest ih =>
    rw [linesFrom]
    split
    next ends =>
      have further := ih []
      rw [List.nil_append] at further
      rw [solidFrom_append (coarser d ends), List.flatMap_cons, further]
    · rw [← ih, List.append_assoc]
      rfl

omit inner in
theorem solidFrom_trim (text : List Letter) :
    solidFrom space boundary [] text = solidFrom space boundary [] (trim space text) := by
  obtain ⟨front, back, whole, before, behind⟩ := exists_trim space text
  have closing : ∀ back : List Letter, (∀ c ∈ back, space c = true) → ∀ text,
      solidFrom space boundary [] (text ++ back) = solidFrom space boundary [] text := by
    intro back
    induction back with
    | nil => intro _ text; rw [List.append_nil]
    | cons d back ih =>
      intro blank text
      rw [List.append_cons, ih fun c member => blank c (List.mem_cons_of_mem _ member)]
      exact solidFrom_concat (blank d List.mem_cons_self) [] text
  have opening : ∀ front : List Letter, (∀ c ∈ front, space c = true) → ∀ text,
      solidFrom space boundary [] (front ++ text) = solidFrom space boundary [] text := by
    intro front
    induction front with
    | nil => intro _ text; rfl
    | cons d front ih =>
      intro blank text
      rw [List.cons_append, solidFrom_blank (blank d List.mem_cons_self)]
      exact ih (fun c member => blank c (List.mem_cons_of_mem _ member)) text
  calc solidFrom space boundary [] text
    _ = solidFrom space boundary [] (front ++ trim space text ++ back) := congrArg _ whole
    _ = solidFrom space boundary [] (trim space text) := by rw [closing back behind, opening front before]

omit inner in
theorem solidFrom_whole (none : ∀ c ∈ text, boundary c = false) (word : List Letter) :
    solidFrom space boundary word text = solid space (word ++ text) := by
  induction text generalizing word with
  | nil => rw [solidFrom, List.append_nil]
  | cons d rest ih =>
    rw [solidFrom, if_neg (by simp [none d]), ih fun c member =>
      none c (List.mem_cons_of_mem _ member), List.append_assoc]
    rfl

theorem solidFrom_eq_nil (none : solidFrom space boundary word text = []) :
    ∀ c ∈ word ++ text, space c = true := by
  have blank : ∀ word : List Letter, solid space word = [] → ∀ c ∈ word, space c = true := by
    intro word none
    unfold solid at none
    split at none
    next empty => exact trim_eq_nil_iff.mp empty
    · cases none
  induction text generalizing word with
  | nil => simpa using blank word none
  | cons d rest ih =>
    rw [solidFrom] at none
    split at none
    next ends =>
      obtain ⟨first, others⟩ := List.append_eq_nil_iff.mp none
      intro c member
      rcases List.mem_append.mp member with here | there
      · exact blank word first c here
      · rcases List.mem_cons.mp there with rfl | there
        · exact inner c ends
        · exact ih others c (by simpa using there)
    · intro c member
      exact ih none c (by simpa using member)

theorem solidFrom_cases (text : List Letter) :
    (trim space text = [] ∧ solidFrom space boundary [] text = []) ∨
    (trim space text ≠ [] ∧ (∀ c ∈ trim space text, boundary c = false) ∧
      solidFrom space boundary [] text = [trim space text]) ∨
    (trim space text ≠ [] ∧ (∃ c ∈ trim space text, boundary c = true) ∧
      2 ≤ (solidFrom space boundary [] text).length) := by
  rw [solidFrom_trim]
  by_cases empty : trim space text = []
  · exact .inl ⟨empty, by rw [empty]; simp [solidFrom, solid, trim]⟩
  · right
    by_cases whole : ∀ c ∈ trim space text, boundary c = false
    · refine .inl ⟨empty, whole, ?_⟩
      have again : trim space (trim space text) = trim space text := by
        obtain ⟨first, more, begins⟩ := List.exists_cons_of_ne_nil empty
        have front : space first = false := trim_head (by rw [begins, List.head?_cons])
        have last := List.getLast?_eq_some_getLast empty
        have back := trim_getLast last
        rw [trim.eq_def space (trim space text), begins,
          List.dropWhile_cons_of_neg (by simp [front]), ← begins]
        rw [List.getLast?_eq_head?_reverse] at last
        obtain ⟨more', ends⟩ := List.head?_eq_some_iff.mp last
        rw [ends, List.dropWhile_cons_of_neg (by simp [back]), ← ends, List.reverse_reverse]
      rw [solidFrom_whole whole, List.nil_append, solid, again, if_neg empty]
    · refine .inr ⟨empty, by simpa using whole, ?_⟩
      obtain ⟨c, member, ends⟩ : ∃ c ∈ trim space text, boundary c = true := by simpa using whole
      obtain ⟨before, behind, split⟩ := List.append_of_mem member
      rw [split, solidFrom_append ends, List.length_append]
      have first : solidFrom space boundary [] before ≠ [] := by
        intro none
        have blank := solidFrom_eq_nil inner none
        cases before with
        | nil =>
          have front : space c = false := trim_head (by rw [split]; rfl)
          rw [inner c ends] at front
          cases front
        | cons d before =>
          have front : space d = false := trim_head (by rw [split]; rfl)
          rw [blank d (by simp)] at front
          cases front
      have second : solidFrom space boundary [] behind ≠ [] := by
        intro none
        have blank := solidFrom_eq_nil inner none
        have last : (trim space text).getLast? = some ((c :: behind).getLast (List.cons_ne_nil _ _)) := by
          rw [split, List.getLast?_append, List.getLast?_eq_some_getLast (List.cons_ne_nil _ _)]
          rfl
        have back := trim_getLast last
        rcases List.mem_cons.mp (List.getLast_mem (List.cons_ne_nil c behind)) with same | inside
        · rw [same, inner c ends] at back
          cases back
        · rw [blank _ (by simpa using inside)] at back
          cases back
      have one := List.length_pos_iff.mpr first
      have two := List.length_pos_iff.mpr second
      omega

theorem solidFrom_of_solid (line : List Letter)
    (whole : ∀ piece ∈ solid space line, ∀ c ∈ piece, boundary c = false) :
    solidFrom space boundary [] line = solid space line := by
  rcases solidFrom_cases inner line with ⟨empty, none⟩ | ⟨some, _, one⟩ | ⟨some, ⟨c, member, ends⟩, _⟩
  · rw [none, solid, if_pos empty]
  · rw [one, solid, if_neg some]
  · have apart :=
      whole (trim space line) (by rw [solid, if_neg some]; exact List.mem_singleton_self _) c member
    rw [ends] at apart
    cases apart

theorem length_solid_le (line : List Letter) :
    (solid space line).length ≤ (solidFrom space boundary [] line).length := by
  unfold solid
  rcases solidFrom_cases inner line with ⟨empty, _⟩ | ⟨some, _, one⟩ | ⟨some, _, several⟩
  · simp [empty]
  · simp [some, one]
  · simp [some]
    omega

theorem length_pieces_le (lines : List (List Letter)) :
    (lines.flatMap (solid space)).length ≤ (lines.flatMap (solidFrom space boundary [])).length := by
  induction lines with
  | nil => simp
  | cons line lines ih =>
    rw [List.flatMap_cons, List.flatMap_cons, List.length_append, List.length_append]
    exact Nat.add_le_add (length_solid_le inner line) ih

/-- Cut further, the lines are as many pieces only where no boundary lies inside one. -/
theorem whole_of_length {lines : List (List Letter)}
    (few : (lines.flatMap (solidFrom space boundary [])).length ≤ (lines.flatMap (solid space)).length) :
    ∀ piece ∈ lines.flatMap (solid space), ∀ c ∈ piece, boundary c = false := by
  induction lines with
  | nil => simp
  | cons line lines ih =>
    simp only [List.flatMap_cons, List.length_append] at few
    have here := length_solid_le inner line
    have there := length_pieces_le inner lines
    intro piece member
    rw [List.flatMap_cons] at member
    rcases List.mem_append.mp member with first | rest
    · rcases solidFrom_cases inner line with ⟨empty, _⟩ | ⟨some, whole, _⟩ | ⟨some, _, several⟩
      · simp [solid, empty] at first
      · rw [solid, if_neg some] at first
        rw [List.mem_singleton.mp first]
        exact whole
      · have one : (solid space line).length = 1 := by rw [solid, if_neg some, List.length_singleton]
        omega
    · exact ih (by omega) piece rest

end Pieces

section Language

/-- The characters at which `splitlines` ends a line. -/
def isBoundary (c : Char) : Bool :=
  let n := c.toNat
  (0x0a ≤ n && n ≤ 0x0d) || (0x1c ≤ n && n ≤ 0x1e) || n == 0x85 || n == 0x2028 || n == 0x2029

/-- The line ends of a file, as reading it in text mode gives them. -/
def translate : List Char → List Char
  | '\r' :: '\n' :: rest => '\n' :: translate rest
  | '\r' :: rest => '\n' :: translate rest
  | c :: rest => c :: translate rest
  | [] => []

/-- `splitlines`, behind the beginning of a line: a carriage return and the line feed behind it end
one line, and a text does not end in an empty line. -/
def splitlinesFrom (line : List Char) : List Char → List (List Char)
  | [] => if line = [] then [] else [line]
  | '\r' :: '\n' :: rest => line :: splitlinesFrom [] rest
  | c :: rest => if isBoundary c then line :: splitlinesFrom [] rest else splitlinesFrom (line ++ [c]) rest

def splitlines (text : List Char) : List (List Char) := splitlinesFrom [] text

theorem isSpace_of_isBoundary (c : Char) (ends : isBoundary c = true) : Text.isSpace c = true := by
  simp only [isBoundary, Text.isSpace, Bool.or_eq_true, Bool.and_eq_true, decide_eq_true_eq,
    beq_iff_eq] at ends ⊢
  omega

theorem solidFrom_splitlines (line text : List Char) :
    (splitlinesFrom line text).flatMap (solid Text.isSpace) =
      solidFrom Text.isSpace isBoundary line text := by
  have empty : solid Text.isSpace [] = [] := rfl
  fun_induction splitlinesFrom line text with
  | case1 => exact empty.symm
  | case2 line _ => rw [List.flatMap_singleton, solidFrom]
  | case3 line rest ih =>
    have carriage : isBoundary '\r' = true := by decide
    have feed : isBoundary '\n' = true := by decide
    rw [List.flatMap_cons, ih, solidFrom, if_pos carriage, solidFrom, if_pos feed, empty, List.nil_append]
  | case4 line c rest _ ends ih => rw [List.flatMap_cons, ih, solidFrom, if_pos ends]
  | case5 line c rest _ inside ih => rw [ih, solidFrom, if_neg inside]

theorem solidFrom_translate (word text : List Char) :
    solidFrom Text.isSpace isBoundary word (translate text) =
      solidFrom Text.isSpace isBoundary word text := by
  have empty : solid Text.isSpace [] = [] := rfl
  have carriage : isBoundary '\r' = true := by decide
  have feed : isBoundary '\n' = true := by decide
  fun_induction translate text generalizing word with
  | case1 rest ih =>
      rw [solidFrom, if_pos feed, ih, solidFrom, if_pos carriage, solidFrom, if_pos feed, empty,
        List.nil_append]
  | case2 rest _ ih => rw [solidFrom, if_pos feed, ih, solidFrom, if_pos carriage]
  | case3 c rest _ _ ih => rw [solidFrom, ih, ih, solidFrom]
  | case4 => rfl

/-- `"\\n".join(lines)` -/
def join : List (List Char) → List Char
  | [] => []
  | [line] => line
  | line :: next :: lines => line ++ '\n' :: join (next :: lines)

def Unbroken (line : List Char) : Prop := ∀ c ∈ line, isBoundary c = false

variable {lines : List (List Char)}

theorem isSpace_feed : Text.isSpace '\n' = true := by decide

theorem isBoundary_feed : isBoundary '\n' = true := by decide

theorem splitlinesFrom_feed (word text : List Char) :
    splitlinesFrom word ('\n' :: text) = word :: splitlinesFrom [] text := by
  rw [splitlinesFrom, if_pos isBoundary_feed]
  intro rest same
  cases same

theorem splitlinesFrom_append {line : List Char} (unbroken : Unbroken line) (word text : List Char) :
    splitlinesFrom word (line ++ text) = splitlinesFrom (word ++ line) text := by
  induction line generalizing word with
  | nil => rw [List.nil_append, List.append_nil]
  | cons c line ih =>
    have apart := unbroken c List.mem_cons_self
    rw [List.cons_append, splitlinesFrom, if_neg (by simp [apart]), ih fun d member =>
      unbroken d (List.mem_cons_of_mem _ member),
      List.append_assoc, List.singleton_append]
    intro rest same
    subst same
    have carriage : isBoundary '\r' = true := by decide
    rw [carriage] at apart
    cases apart

theorem splitlines_join {last : List Char} (unbroken : ∀ line ∈ lines, Unbroken line)
    (solid : Unbroken last) :
    splitlines (join (lines ++ [last])) = lines ++ if last = [] then [] else [last] := by
  induction lines with
  | nil =>
    have whole := splitlinesFrom_append solid [] []
    rw [List.append_nil] at whole
    exact whole
  | cons line lines ih =>
    have rest := ih fun other member => unbroken other (List.mem_cons_of_mem _ member)
    have joined : join (line :: lines ++ [last]) = line ++ '\n' :: join (lines ++ [last]) := by
      cases lines <;> rfl
    rw [joined, splitlines, splitlinesFrom_append (unbroken line List.mem_cons_self),
      splitlinesFrom_feed, ← splitlines, rest]
    rfl

theorem length_splitlines_join (unbroken : ∀ line ∈ lines, Unbroken line) :
    (splitlines (join lines)).length ≤ lines.length := by
  rcases List.eq_nil_or_concat lines with rfl | ⟨front, last, rfl⟩
  · exact le_rfl
  · rw [List.concat_eq_append] at unbroken ⊢
    rw [splitlines_join (fun line member =>
      unbroken line (List.mem_append_left _ member)) (unbroken last (by simp)), List.length_append,
      List.length_append]
    split <;> simp

theorem unbroken_of_mem {word text line : List Char} (start : Unbroken word)
    (member : line ∈ splitlinesFrom word text) : Unbroken line := by
  have nothing : Unbroken [] := by simp [Unbroken]
  fun_induction splitlinesFrom word text with
  | case1 => simp at member
  | case2 word _ =>
    rw [List.mem_singleton.mp member]
    exact start
  | case3 word rest ih =>
    rcases List.mem_cons.mp member with rfl | later
    · exact start
    · exact ih nothing later
  | case4 word c rest _ _ ih =>
    rcases List.mem_cons.mp member with rfl | later
    · exact start
    · exact ih nothing later
  | case5 word c rest _ inside ih =>
    refine ih (fun d found => ?_) member
    rcases List.mem_append.mp found with old | new
    · exact start d old
    · rw [List.mem_singleton.mp new]
      simpa using inside

theorem unbroken_splitlines (text : List Char) : ∀ line ∈ splitlines text, Unbroken line :=
  fun _ => unbroken_of_mem (by simp [Unbroken])

/-- The pieces of joined lines are the lines. -/
theorem solidFrom_join (unbroken : ∀ line ∈ lines, Unbroken line) :
    solidFrom Text.isSpace isBoundary [] (join lines) = lines.flatMap (solid Text.isSpace) := by
  fun_induction join lines with
  | case1 => rfl
  | case2 line =>
    rw [solidFrom_whole (unbroken line List.mem_cons_self), List.flatMap_singleton]
    rfl
  | case3 line next lines ih =>
    rw [solidFrom_append isBoundary_feed, solidFrom_whole (unbroken line List.mem_cons_self),
      ih fun other member => unbroken other (List.mem_cons_of_mem _ member), List.flatMap_cons]
    rfl

theorem exists_first {text : List Char} (word : List Char) (full : word ++ text ≠ [])
    (solid : ∀ c ∈ (word ++ text).head?, isBoundary c = false) :
    ∃ line lines, splitlinesFrom word text = line :: lines ∧ line.head? = (word ++ text).head? := by
  fun_induction splitlinesFrom word text with
  | case1 => exact absurd rfl full
  | case2 word _ => exact ⟨word, [], rfl, by rw [List.append_nil]⟩
  | case3 word rest _ =>
    cases word with
    | nil =>
      have carriage : isBoundary '\r' = true := by decide
      rw [solid '\r' (by simp)] at carriage
      cases carriage
    | cons c word => exact ⟨_, _, rfl, rfl⟩
  | case4 word c rest _ ends _ =>
    cases word with
    | nil =>
      rw [solid c (by simp)] at ends
      cases ends
    | cons d word => exact ⟨_, _, rfl, rfl⟩
  | case5 word c rest _ _ ih =>
    rw [List.append_assoc, List.singleton_append] at ih
    exact ih full solid

section Strip

def isBlank (line : List Char) : Bool := trim Text.isSpace line = []

theorem isBlank_iff {line : List Char} : isBlank line = true ↔ ∀ c ∈ line, Text.isSpace c = true := by
  rw [isBlank, decide_eq_true_eq, trim_eq_nil_iff]

theorem isBlank_reverse (line : List Char) : isBlank line.reverse = isBlank line := by
  rw [Bool.eq_iff_iff, isBlank_iff, isBlank_iff]
  simp

theorem isBlank_dropWhile (line : List Char) : isBlank (line.dropWhile Text.isSpace) = isBlank line := by
  rw [isBlank, trim, List.dropWhile_idempotent, isBlank, trim]

/-- Lines without the blanks that they start with. -/
def front (lines : List (List Char)) : List (List Char) :=
  match lines.dropWhile isBlank with
  | [] => []
  | first :: rest => first.dropWhile Text.isSpace :: rest

def mirror (lines : List (List Char)) : List (List Char) := (lines.map List.reverse).reverse

theorem dropWhile_join (lines : List (List Char)) :
    (join lines).dropWhile Text.isSpace = join (front lines) := by
  have drops : ∀ line rest : List Char, isBlank line = true →
      (line ++ rest).dropWhile Text.isSpace = rest.dropWhile Text.isSpace :=
    fun line rest blank => dropWhile_blank (isBlank_iff.mp blank) rest
  have keeps : ∀ line rest : List Char, isBlank line ≠ true →
      (line ++ rest).dropWhile Text.isSpace = line.dropWhile Text.isSpace ++ rest := by
    intro line rest solid
    rw [Ne, isBlank_iff, ← List.dropWhile_eq_nil_iff] at solid
    rw [List.dropWhile_append, if_neg (by simpa using solid)]
  induction lines with
  | nil => rfl
  | cons line lines ih =>
    by_cases blank : isBlank line = true
    · have rest : front (line :: lines) = front lines := by
        rw [front, List.dropWhile_cons_of_pos blank, front]
      rw [rest, ← ih]
      cases lines with
      | nil => simpa [join] using isBlank_iff.mp blank
      | cons next lines =>
        rw [join, drops _ _ blank, List.dropWhile_cons_of_pos isSpace_feed]
    · have first : front (line :: lines) = line.dropWhile Text.isSpace :: lines := by
        rw [front, List.dropWhile_cons_of_neg blank]
      rw [first]
      cases lines with
      | nil => rfl
      | cons next lines => exact keeps _ _ blank

theorem join_concat (lines : List (List Char)) (first last : List Char) :
    join (first :: lines ++ [last]) = join (first :: lines) ++ '\n' :: last := by
  induction lines generalizing first with
  | nil => rfl
  | cons next lines ih =>
    have joined : join (first :: next :: lines ++ [last]) =
        first ++ '\n' :: join (next :: lines ++ [last]) :=
      rfl
    have parts : join (first :: next :: lines) = first ++ '\n' :: join (next :: lines) := rfl
    rw [joined, ih, parts, List.append_assoc, List.cons_append]

theorem reverse_join (lines : List (List Char)) : (join lines).reverse = join (mirror lines) := by
  induction lines with
  | nil => rfl
  | cons line lines ih =>
    cases lines with
    | nil => rfl
    | cons next lines =>
      have parts : join (line :: next :: lines) = line ++ '\n' :: join (next :: lines) := rfl
      obtain ⟨first, rest, mirrored⟩ : ∃ first rest, mirror (next :: lines) = first :: rest :=
        List.exists_cons_of_ne_nil (by simp [mirror])
      have whole : mirror (line :: next :: lines) = first :: rest ++ [line.reverse] := by
        rw [← mirrored]
        simp [mirror]
      rw [parts, List.reverse_append, List.reverse_cons, ih, whole, join_concat, mirrored]
      simp

theorem blanks_front (lines : List (List Char)) :
    (front lines).map isBlank = (lines.dropWhile isBlank).map isBlank := by
  unfold front
  split
  next none => rw [none]
  next first rest some => rw [some, List.map_cons, List.map_cons, isBlank_dropWhile]

theorem blanks_mirror (lines : List (List Char)) :
    (mirror lines).map isBlank = (lines.map isBlank).reverse := by
  rw [mirror, List.map_reverse, List.map_map]
  congr 1
  exact List.map_congr_left fun line _ => isBlank_reverse line

theorem blanks_dropWhile (lines : List (List Char)) :
    (lines.dropWhile isBlank).map isBlank = (lines.map isBlank).dropWhile id := by
  rw [List.dropWhile_map]
  rfl

theorem front_solid {first : List Char} {rest : List (List Char)}
    (starts : front lines = first :: rest) : first ≠ [] := by
  have out := List.head?_dropWhile_not isBlank lines
  unfold front at starts
  split at starts
  · cases starts
  next head others some =>
    cases starts
    rw [some] at out
    have solid : isBlank head ≠ true := by simpa using out
    rwa [Ne, isBlank_iff, ← List.dropWhile_eq_nil_iff] at solid

theorem unbroken_front (unbroken : ∀ line ∈ lines, Unbroken line) : ∀ line ∈ front lines, Unbroken line := by
  have kept : ∀ line ∈ lines.dropWhile isBlank, Unbroken line := fun line member =>
    unbroken line ((List.dropWhile_sublist _).subset member)
  unfold front
  split
  · simp
  next first rest some =>
    rw [some] at kept
    intro line member
    rcases List.mem_cons.mp member with rfl | later
    · exact fun c inside => kept first List.mem_cons_self c ((List.dropWhile_sublist _).subset inside)
    · exact kept line (List.mem_cons_of_mem _ later)

theorem unbroken_mirror (unbroken : ∀ line ∈ lines, Unbroken line) :
    ∀ line ∈ mirror lines, Unbroken line := by
  intro line member
  obtain ⟨source, inside, rfl⟩ := List.mem_map.mp (List.mem_reverse.mp member)
  exact fun c found => unbroken source inside c (List.mem_reverse.mp found)

/-- Stripped, joined lines are as many as are left without the blank ones at both ends. -/
theorem length_strip_join (unbroken : ∀ line ∈ lines, Unbroken line) :
    (splitlines (trim Text.isSpace (join lines))).length = (trim isBlank lines).length := by
  have stripped : trim Text.isSpace (join lines) = join (mirror (front (mirror (front lines)))) := by
    rw [trim, dropWhile_join, reverse_join, dropWhile_join, reverse_join]
  have count : (mirror (front (mirror (front lines)))).length = (trim isBlank lines).length := by
    rw [← List.length_map isBlank, ← @List.length_map _ _ (trim isBlank lines) isBlank]
    simp only [blanks_mirror, blanks_front, blanks_dropWhile, trim, List.map_reverse]
  rw [stripped, ← count]
  have whole := unbroken_mirror (unbroken_front (unbroken_mirror (unbroken_front unbroken)))
  cases ends : front (mirror (front lines)) with
  | nil => rfl
  | cons first rest =>
    have full : first.reverse ≠ [] := by
      rw [Ne, List.reverse_eq_nil_iff]
      exact front_solid ends
    have parts : mirror (first :: rest) = mirror rest ++ [first.reverse] := by simp [mirror]
    rw [ends, parts] at whole
    rw [parts, splitlines_join (fun line member =>
      whole line (List.mem_append_left _ member)) (whole _ (by simp)), if_neg full]

end Strip

end Language
end TokenPak.Library.Lines
