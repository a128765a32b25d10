import Mathlib.Data.List.TakeWhile

/-! The text operations of the source language on which header and identity
comparisons rest. Case mapping is exact for the characters a header can carry:
header values are decoded from one byte per character. -/

namespace TokenPak.Library.Text

/-- Named, so that every membership test uses this proof. -/
instance lawfulWord : LawfulBEq (List Char) := inferInstance

/-- The characters that `strip` removes and `isspace` accepts. -/
def isSpace (c : Char) : Bool :=
  let n := c.toNat
  (0x09 ≤ n && n ≤ 0x0d) || (0x1c ≤ n && n ≤ 0x20) || n == 0x85 || n == 0xa0 || n == 0x1680 ||
    (0x2000 ≤ n && n ≤ 0x200a) || n == 0x2028 || n == 0x2029 || n == 0x202f || n == 0x205f || n == 0x3000

def strip (text : String) : String :=
  String.ofList ((text.toList.dropWhile isSpace).reverse.dropWhile isSpace).reverse

def lowerChar (c : Char) : Char :=
  let n := c.toNat
  if (0x41 ≤ n ∧ n ≤ 0x5a) ∨ (0xc0 ≤ n ∧ n ≤ 0xde ∧ n ≠ 0xd7) then Char.ofNat (n + 32) else c

def lower (text : String) : String := String.ofList (text.toList.map lowerChar)

theorem lowerChar_lowerChar (c : Char) : lowerChar (lowerChar c) = lowerChar c := by
  by_cases upper : (0x41 ≤ c.toNat ∧ c.toNat ≤ 0x5a) ∨ (0xc0 ≤ c.toNat ∧ c.toNat ≤ 0xde ∧ c.toNat ≠ 0xd7)
  · have mapped : lowerChar c = Char.ofNat (c.toNat + 32) := if_pos upper
    have valid : (c.toNat + 32).isValidChar := .inl (by omega)
    have value : (lowerChar c).toNat = c.toNat + 32 := by rw [mapped, Char.ofNat, dif_pos valid]; rfl
    exact if_neg fun again => by omega
  · have same : lowerChar c = c := if_neg upper
    rw [same, same]

theorem lower_lower (text : String) : lower (lower text) = lower text := by
  rw [lower, lower, String.toList_ofList, List.map_map]
  exact congrArg String.ofList (List.map_congr_left fun c _ => lowerChar_lowerChar c)

/-- Each run of blanks becomes one; behind a blank that was written the run goes on. -/
def collapseFrom (behind : Bool) : List Char → List Char
  | [] => []
  | c :: rest =>
    if isSpace c then
      if behind then collapseFrom true rest else ' ' :: collapseFrom true rest
    else c :: collapseFrom false rest

def collapse (text : List Char) : List Char := collapseFrom false text

/-- The words of a text, behind the beginning of a word. -/
def splitFrom (word : List Char) : List Char → List (List Char)
  | [] => if word = [] then [] else [word]
  | c :: rest =>
    if isSpace c then
      if word = [] then splitFrom [] rest else word :: splitFrom [] rest
    else splitFrom (word ++ [c]) rest

/-- `str.split` -/
def split (text : List Char) : List (List Char) := splitFrom [] text

theorem splitFrom_collapseFrom {behind : Bool} {word : List Char}
    (between : behind = true → word = []) (text : List Char) :
    splitFrom word (collapseFrom behind text) = splitFrom word text := by
  induction text generalizing behind word with
  | nil => rfl
  | cons c rest ih =>
    have blank : isSpace ' ' = true := by decide
    by_cases space : isSpace c = true
    · cases behind with
      | true =>
        have none_yet := between rfl
        subst none_yet
        simp only [collapseFrom, splitFrom, space, if_true]
        exact ih fun _ => rfl
      | false =>
        simp only [collapseFrom, splitFrom, space, blank, if_true, Bool.false_eq_true, if_false]
        rw [ih fun _ => rfl]
    · simp only [collapseFrom, splitFrom, space, Bool.false_eq_true, if_false]
      exact ih fun written => by cases written

theorem split_collapse (text : List Char) : split (collapse text) = split text :=
  splitFrom_collapseFrom (fun written => by cases written) text

theorem split_dropWhile (text : List Char) : split (text.dropWhile isSpace) = split text := by
  induction text with
  | nil => rfl
  | cons c rest ih =>
    by_cases space : isSpace c = true
    · rw [List.dropWhile_cons_of_pos space, ih]
      simp [split, splitFrom, space]
    · rw [List.dropWhile_cons_of_neg space]

theorem splitFrom_blanks {word blanks : List Char} (all : ∀ c ∈ blanks, isSpace c = true) :
    splitFrom word blanks = if word = [] then [] else [word] := by
  induction blanks generalizing word with
  | nil => rfl
  | cons c rest ih =>
    have others := fun c member => all c (List.mem_cons_of_mem _ member)
    simp only [splitFrom, all c List.mem_cons_self, if_true]
    rw [ih others]
    simp

theorem splitFrom_append_blanks {blanks : List Char} (all : ∀ c ∈ blanks, isSpace c = true)
    (word text : List Char) :
    splitFrom word (text ++ blanks) = splitFrom word text := by
  induction text generalizing word with
  | nil => exact splitFrom_blanks all
  | cons c rest ih =>
    simp only [List.cons_append, splitFrom]
    rw [ih, ih]

theorem split_strip (text : String) : split (strip text).toList = split text.toList := by
  let inner := text.toList.dropWhile isSpace
  have parts : inner = (inner.reverse.dropWhile isSpace).reverse ++
      (inner.reverse.takeWhile isSpace).reverse := by
    rw [← List.reverse_append, List.takeWhile_append_dropWhile, List.reverse_reverse]
  have blanks : ∀ c ∈ (inner.reverse.takeWhile isSpace).reverse, isSpace c = true := by
    intro c member
    exact List.mem_takeWhile_imp (List.mem_reverse.mp member)
  have stripped : (strip text).toList = (inner.reverse.dropWhile isSpace).reverse := by
    rw [strip, String.toList_ofList]
  calc split (strip text).toList
      = splitFrom [] ((inner.reverse.dropWhile isSpace).reverse ++
          (inner.reverse.takeWhile isSpace).reverse) := by
        rw [splitFrom_append_blanks blanks, stripped]
        rfl
    _ = split inner := by
        rw [← parts]
        rfl
    _ = split text.toList := split_dropWhile text.toList

theorem strip_solid {text blanks : List Char} (starts : ∀ c ∈ text.head?, isSpace c = false)
    (ends : ∀ c ∈ text.getLast?, isSpace c = false)
    (all : ∀ c ∈ blanks, isSpace c = true) : strip (String.ofList (text ++ blanks)) = String.ofList text := by
  have front : (text ++ blanks).dropWhile isSpace = if text = [] then [] else text ++ blanks := by
    cases text with
    | nil => simpa using List.dropWhile_eq_nil_iff.mpr all
    | cons c text => simp [starts c rfl]
  have back : ((text ++ blanks).reverse.dropWhile isSpace).reverse = text := by
    rw [List.reverse_append, List.dropWhile_append_of_pos (by simpa using all)]
    cases reversed : text.reverse with
    | nil => simp [List.reverse_eq_nil_iff.mp reversed]
    | cons c others =>
      have last : text.getLast? = some c := by rw [List.getLast?_eq_head?_reverse, reversed, List.head?_cons]
      rw [List.dropWhile_cons_of_neg (by simp [ends c last]), ← reversed, List.reverse_reverse]
  rw [strip, String.toList_ofList, front]
  by_cases empty : text = []
  · simp [empty]
  · rw [if_neg empty, back]

theorem span_ends {p : Char → Bool} {text : List Char} (rest : List Char) (all : ∀ c ∈ text, p c = true)
    (ends : ∀ c ∈ rest.head?, p c = false) :
    (text ++ rest).takeWhile p = text ∧ (text ++ rest).dropWhile p = rest := by
  rw [List.takeWhile_append_of_pos all, List.dropWhile_append_of_pos all]
  cases rest with
  | nil => simp
  | cons c rest => simp [ends c rfl]

section Marks
variable {Letter : Type} {a b c d : List Letter} {mark : Letter}

/-- Behind the last mark of a text is what stands behind the marks that are given. -/
theorem split_at_last (same : a ++ mark :: c = b ++ mark :: d) (first : mark ∉ c) (second : mark ∉ d) :
    a = b ∧ c = d := by
  have between {rest c d : List Letter} (apart : mark ∉ c)
      (split : mark :: c = rest ++ mark :: d) : rest = [] ∧ c = d := by
    cases rest with
    | nil => exact ⟨rfl, (List.cons.inj split).2⟩
    | cons _ rest =>
      rw [(List.cons.inj split).2] at apart
      exact absurd (List.mem_append_right rest List.mem_cons_self) apart
  rcases List.append_eq_append_iff.mp same with ⟨rest, left, right⟩ | ⟨rest, left, right⟩
  · obtain ⟨none_between, tails⟩ := between first right
    exact ⟨by rw [left, none_between, List.append_nil], tails⟩
  · obtain ⟨none_between, tails⟩ := between second right
    exact ⟨by rw [left, none_between, List.append_nil], tails.symm⟩

theorem split_at_first (same : a ++ mark :: c = b ++ mark :: d) (first : mark ∉ a) (second : mark ∉ b) :
    a = b ∧ c = d := by
  have between {rest a b c d : List Letter} (apart : mark ∉ b) (whole : b = a ++ rest)
      (split : mark :: c = rest ++ mark :: d) : rest = [] ∧ c = d := by
    cases rest with
    | nil => exact ⟨rfl, (List.cons.inj split).2⟩
    | cons _ rest =>
      rw [whole, ← (List.cons.inj split).1] at apart
      exact absurd (List.mem_append_right a List.mem_cons_self) apart
  rcases List.append_eq_append_iff.mp same with ⟨rest, left, right⟩ | ⟨rest, left, right⟩
  · obtain ⟨none_between, tails⟩ := between second left right
    exact ⟨by rw [left, none_between, List.append_nil], tails⟩
  · obtain ⟨none_between, tails⟩ := between first left right
    exact ⟨by rw [left, none_between, List.append_nil], tails.symm⟩

end Marks

end TokenPak.Library.Text
