import TokenPak.SpendGuard.TipHeader

/-! What the parser reads from a written header: the keys in lower case and the values of all
directives in order, and the text behind the header without the blanks between them. A bracket
inside of quotes ends the header, and an empty quoted value counts as none: directives with such
values are outside of the results. -/

namespace TokenPak.SpendGuard.TipHeader
open Library

section Grammar

inductive Written where
  | bare (text : List Char)
  | quoted (mark : Char) (text : List Char)

def Written.text : Written → List Char
  | .bare text => text
  | .quoted _ text => text

def Written.render : Written → List Char
  | .bare text => text
  | .quoted mark text => mark :: (text ++ [mark])

def isMark (c : Char) : Bool := c = '"' || c = '\''

def Written.WellFormed : Written → Prop
  | .bare text => text ≠ [] ∧ (∀ c ∈ text, isBareChar c = true) ∧ ∀ c ∈ text.head?, isMark c = false
  | .quoted mark text => isMark mark = true ∧ mark ∉ text

structure Directive where
  key : List Char
  value : Option Written

def renderValue : Option Written → List Char
  | none => []
  | some value => '=' :: value.render

def Directive.render (directive : Directive) : List Char := directive.key ++ renderValue directive.value

structure Directive.WellFormed (directive : Directive) : Prop where
  named : directive.key ≠ []
  letters : ∀ c ∈ directive.key, isKeyChar c = true
  valued : ∀ value ∈ directive.value, value.WellFormed

/-- The parser can tell the value of the directive from none, and its end from that of the header. -/
def Directive.Legible (directive : Directive) :
    Prop := ∀ value ∈ directive.value, value.text ≠ [] ∧ ']' ∉ value.text

def Directive.entry (directive : Directive) : List Char × Option (List Char) :=
  (lowerKey directive.key, directive.value.map Written.text)

def renderBehind (directives : List Directive) : List Char :=
  directives.flatMap fun directive => ' ' :: directive.render

def renderAll : List Directive → List Char
  | [] => []
  | directive :: directives => directive.render ++ renderBehind directives

def opening : List Char := ['[', 'T', 'I', 'P', ':', ' ']

def renderHeader (directives : List Directive) (remainder : List Char) : List Char :=
  opening ++ renderAll directives ++ ']' :: remainder

/-- A text that a scanned directive may be followed by. -/
def Apart (text : List Char) : Prop := text = [] ∨ ∃ rest, text = ' ' :: rest

theorem apart_behind (directives : List Directive) : Apart (renderBehind directives) := by
  cases directives with
  | nil => exact .inl rfl
  | cons directive directives =>
      exact .inr ⟨directive.render ++ renderBehind directives, by simp [renderBehind]⟩

variable {text rest : List Char}

theorem Apart.ends {p : Char → Bool} (apart : Apart text) (stops : p ' ' = false) :
    ∀ c ∈ text.head?, p c = false := by
  intro c first
  rcases apart with rfl | ⟨rest, rfl⟩
  · cases first
  · rwa [← Option.some.inj first]

theorem scanBare_bare (some_text : text ≠ []) (all : ∀ c ∈ text, isBareChar c = true)
    (apart : Apart rest) : scanBare (text ++ rest) = some (text, rest) := by
  have stops : isBareChar ' ' = false := by decide
  obtain ⟨taken, left⟩ := Text.span_ends rest all (apart.ends stops)
  simp only [scanBare, taken, left, some_text, if_false]

theorem scanValue_unmarked (unmarked : ∀ c ∈ text.head?, isMark c = false) :
    scanValue text = scanBare text := by
  unfold scanValue
  split
  · exact absurd (unmarked '"' rfl) (by decide)
  · exact absurd (unmarked '\'' rfl) (by decide)
  · rfl

theorem scan_quoted {mark : Char} (unmarked : mark ∉ text) (rest : List Char) :
    (text ++ mark :: rest).takeWhile (· ≠ mark) = text ∧
      ((text ++ mark :: rest).dropWhile (· ≠ mark)).tail = rest := by
  have all : ∀ c ∈ text, decide (c ≠ mark) = true := by
    intro c member
    exact decide_eq_true fun same => unmarked (same ▸ member)
  obtain ⟨taken, left⟩ := Text.span_ends (mark :: rest) all (by simp)
  exact ⟨taken, by rw [left, List.tail_cons]⟩

theorem scanValue_render {value : Written} (well_formed : value.WellFormed) (apart : Apart rest) :
    scanValue (value.render ++ rest) = some (value.text, rest) := by
  cases value with
  | bare text =>
    obtain ⟨some_text, all, unmarked⟩ := well_formed
    have first : (text ++ rest).head? = text.head? := by
      cases text with
      | nil => exact absurd rfl some_text
      | cons c text => rfl
    rw [Written.render, scanValue_unmarked (by rwa [first]), scanBare_bare some_text all apart]
    rfl
  | quoted mark text =>
    obtain ⟨marked, unmarked⟩ := well_formed
    have shape : (Written.quoted mark text).render ++ rest = mark :: (text ++ mark :: rest) := by
      simp [Written.render]
    have present : mark ∈ text ++ mark :: rest := by simp
    obtain ⟨inner, behind⟩ := scan_quoted unmarked rest
    have kinds : mark = '"' ∨ mark = '\'' := by simpa [isMark] using marked
    rw [shape]
    rcases kinds with rfl | rfl
    · simp only [scanValue, present, if_true, inner, behind, Written.text]
    · simp only [scanValue, present, if_true, inner, behind, Written.text]

theorem scanRest_render {value : Option Written} (well_formed : ∀ text ∈ value, text.WellFormed)
    (apart : Apart rest) :
    scanRest (renderValue value ++ rest) = (value.map Written.text, rest) := by
  cases value with
  | none =>
    rcases apart with rfl | ⟨rest, rfl⟩
    · rfl
    · rfl
  | some value =>
    have scanned := scanValue_render (well_formed value rfl) apart
    simp only [renderValue, List.cons_append, scanRest, scanned, Option.map_some]

theorem key_ends (value : Option Written) (apart : Apart rest) :
    ∀ c ∈ (renderValue value ++ rest).head?, isKeyChar c = false := by
  intro c first
  have kinds : c = ' ' ∨ c = '=' := by
    cases value with
    | none =>
      rcases apart with rfl | ⟨rest, rfl⟩
      · cases first
      · exact .inl (Option.some.inj first).symm
    | some value => exact .inr (Option.some.inj first).symm
  rcases kinds with rfl | rfl <;> decide

theorem keyValues_directive {directive : Directive} (well_formed : directive.WellFormed)
    (apart : Apart rest) (rounds : Nat) : keyValues (rounds + 1)
    (directive.render ++ rest) = (directive.key, directive.value.map Written.text) ::
      keyValues rounds rest := by
  have shape : directive.render ++ rest = directive.key ++
      (renderValue directive.value ++ rest) := by
    simp [Directive.render]
  obtain ⟨key, behind⟩ := Text.span_ends _ well_formed.letters (key_ends directive.value apart)
  have scanned := scanRest_render well_formed.valued apart
  obtain ⟨c, letters, spelled⟩ := List.exists_cons_of_ne_nil well_formed.named
  have first : isKeyChar c = true := well_formed.letters c (by simp [spelled])
  have start : (directive.render ++ rest).dropWhile (!isKeyChar ·) = directive.render ++ rest := by
    rw [shape, spelled, List.cons_append]
    exact List.dropWhile_cons_of_neg (by simp [first])
  rw [keyValues, start, shape]
  split
  next missing => simp [spelled] at missing
  next => rw [behind, key, scanned]

variable {directives : List Directive}

theorem keyValues_behind (well_formed : ∀ directive ∈ directives, directive.WellFormed)
    {rounds : Nat} (enough : directives.length ≤ rounds) :
    keyValues rounds (renderBehind directives) = directives.map fun directive =>
      (directive.key, directive.value.map Written.text) := by
  induction directives generalizing rounds with
  | nil => cases rounds <;> rfl
  | cons directive directives ih =>
    obtain ⟨rounds, rfl⟩ := Nat.exists_eq_add_of_le' (Nat.lt_of_lt_of_le (Nat.succ_pos _) enough)
    have first := well_formed directive List.mem_cons_self
    have others : ∀ other ∈ directives, other.WellFormed :=
      fun other member => well_formed other (List.mem_cons_of_mem _ member)
    have blank : keyValues (rounds + 1) (renderBehind (directive :: directives))
        = keyValues (rounds + 1) (directive.render ++ renderBehind directives) := by
      have letter : isKeyChar ' ' = false := by decide
      simp only [renderBehind, List.flatMap_cons, List.cons_append, keyValues, List.dropWhile_cons,
        letter, Bool.not_false, if_true]
    rw [blank, keyValues_directive first (apart_behind directives), ih others (by simpa using enough)]
    rfl

theorem length_renderBehind (directives : List Directive) :
    directives.length ≤ (renderBehind directives).length := by
  induction directives with
  | nil => exact Nat.le_refl _
  | cons directive directives ih =>
    simp only [renderBehind, List.flatMap_cons, List.length_append, List.length_cons] at ih ⊢
    omega

theorem keyValues_renderAll (well_formed : ∀ directive ∈ directives, directive.WellFormed) :
    keyValues (renderAll directives).length (renderAll directives) =
      directives.map fun directive => (directive.key, directive.value.map Written.text) := by
  cases directives with
  | nil => rfl
  | cons directive directives =>
    have first := well_formed directive List.mem_cons_self
    have others : ∀ other ∈ directives, other.WellFormed :=
      fun other member => well_formed other (List.mem_cons_of_mem _ member)
    have long := length_renderBehind directives
    have named := List.length_pos_of_ne_nil first.named
    obtain ⟨rounds, length⟩ : ∃ rounds, (renderAll (directive :: directives)).length = rounds + 1 ∧
        directives.length ≤ rounds := by
      refine ⟨(renderAll (directive :: directives)).length - 1, ?_, ?_⟩
      all_goals
        simp only [renderAll, Directive.render, List.length_append]
        omega
    rw [length.1]
    exact (keyValues_directive first (apart_behind directives) rounds).trans
      (congrArg (List.cons _) (keyValues_behind others length.2))

theorem directives_renderAll (well_formed : ∀ directive ∈ directives, directive.WellFormed)
    (legible : ∀ directive ∈ directives, directive.Legible) :
    TipHeader.directives (renderAll directives) = directives.map Directive.entry := by
  rw [TipHeader.directives, keyValues_renderAll well_formed, List.map_map]
  apply List.map_congr_left
  intro directive member
  have kept : (directive.value.map Written.text).filter (· ≠ []) = directive.value.map Written.text := by
    cases valued : directive.value with
    | none => rfl
    | some value => simp [(legible directive member value valued).1]
  simp only [Function.comp_apply, kept, Directive.entry]

end Grammar

section Header

variable {c : Char}

theorem key_solid (letter : isKeyChar c = true) : Text.isSpace c = false := by
  have range : (0x41 ≤ c.toNat ∧ c.toNat ≤ 0x7a) := by
    simp only [isKeyChar, Bool.or_eq_true, Bool.and_eq_true, decide_eq_true_eq, Char.le_def,
      UInt32.le_iff_toNat_le] at letter
    rcases letter with (⟨low, high⟩ | ⟨low, high⟩) | rfl
    · exact ⟨Nat.le_trans (by decide) low, Nat.le_trans high (by decide)⟩
    · exact ⟨Nat.le_trans (by decide) low, Nat.le_trans high (by decide)⟩
    · decide
  simp only [Text.isSpace, Bool.or_eq_false_iff, Bool.and_eq_false_imp, decide_eq_true_eq,
    decide_eq_false_iff_not, beq_eq_false_iff_ne]
  omega

def Ends (text : List Char) : Prop := ∀ c ∈ text.getLast?, Text.isSpace c = false

theorem Ends.append {first second : List Char} (front : Ends first) (back : Ends second) :
    Ends (first ++ second) := by
  intro c last
  rw [List.getLast?_append] at last
  rcases Option.or_eq_some_iff.mp last with behind | ⟨_, before⟩
  · exact back c behind
  · exact front c before

theorem Ends.cons {text : List Char} (some_text : text ≠ []) (back : Ends text) :
    Ends (c :: text) := by
  intro last
  rw [List.getLast?_cons_of_ne_nil some_text]
  exact back last

theorem ends_of_all {text : List Char} (all : ∀ c ∈ text, Text.isSpace c = false) : Ends text := by
  intro c last
  exact all c (List.mem_of_getLast? last)

theorem bare_solid (bare : isBareChar c = true) : Text.isSpace c = false := by
  simp only [isBareChar, Bool.and_eq_true, Bool.not_eq_true'] at bare
  exact bare.1

theorem ends_renderValue {value : Option Written} (well_formed : ∀ text ∈ value, text.WellFormed) :
    Ends (renderValue value) := by
  cases value with
  | none => exact ends_of_all (by simp [renderValue])
  | some value =>
    have written := well_formed value rfl
    cases value with
    | bare text => exact .cons written.1 (ends_of_all fun c member => bare_solid (written.2.1 c member))
    | quoted mark text =>
      have marked : mark = '"' ∨ mark = '\'' := by simpa [isMark] using written.1
      have solid : Text.isSpace mark = false := by rcases marked with rfl | rfl <;> decide
      intro c last
      have same : mark = c := by simpa [renderValue, Written.render, List.getLast?_cons] using last
      exact same ▸ solid

variable {directive : Directive}

theorem ends_render (well_formed : directive.WellFormed) : Ends directive.render :=
  .append (ends_of_all fun c member => key_solid (well_formed.letters c member))
    (ends_renderValue well_formed.valued)

theorem render_ne_nil (well_formed : directive.WellFormed) : directive.render ≠ [] := by
  simp [Directive.render, well_formed.named]

variable {directives : List Directive}

theorem ends_renderAll (well_formed : ∀ directive ∈ directives, directive.WellFormed) :
    Ends (renderAll directives) := by
  cases directives with
  | nil => exact ends_of_all (by simp [renderAll])
  | cons directive directives =>
    apply (ends_render (well_formed directive List.mem_cons_self)).append
    have others : ∀ other ∈ directives, other.WellFormed :=
      fun other member => well_formed other (List.mem_cons_of_mem _ member)
    clear well_formed
    induction directives with
    | nil => exact ends_of_all (by simp [renderBehind])
    | cons directive directives ih =>
      have first := others directive List.mem_cons_self
      exact (Ends.cons (render_ne_nil first) (ends_render first)).append (ih fun other member =>
        others other (List.mem_cons_of_mem _ member))

theorem starts_renderAll (well_formed : ∀ directive ∈ directives, directive.WellFormed) :
    ∀ c ∈ (renderAll directives).head?, Text.isSpace c = false := by
  intro c first
  cases directives with
  | nil => cases first
  | cons directive directives =>
    have written := well_formed directive List.mem_cons_self
    obtain ⟨letter, letters, spelled⟩ := List.exists_cons_of_ne_nil written.named
    have same : letter = c := by simpa [renderAll, Directive.render, spelled] using first
    exact key_solid (written.letters c (by simp [spelled, same]))

theorem no_bracket_render (well_formed : directive.WellFormed) (legible : directive.Legible) :
    ']' ∉ directive.render := by
  have key : ']' ∉ directive.key := fun member => absurd (well_formed.letters _ member) (by decide)
  intro member
  rcases List.mem_append.mp member with inside | inside
  · exact key inside
  cases valued : directive.value with
  | none => simp [valued, renderValue] at inside
  | some value =>
    have absent := (legible value valued).2
    have written := well_formed.valued value valued
    rw [valued, renderValue, List.mem_cons] at inside
    rcases inside with sign | inside
    · exact absurd sign (by decide)
    cases value with
    | bare text => exact absent inside
    | quoted mark text =>
      have other : isMark ']' = false := by decide
      have unlike : ']' ≠ mark := fun same => by simp [Written.WellFormed, ← same, other] at written
      simp only [Written.render, List.mem_cons, List.mem_append, List.not_mem_nil, or_false, unlike,
        false_or] at inside
      exact absent inside

theorem no_bracket_renderAll (well_formed : ∀ directive ∈ directives, directive.WellFormed)
    (legible : ∀ directive ∈ directives, directive.Legible) : ']' ∉ renderAll directives := by
  cases directives with
  | nil => exact List.not_mem_nil
  | cons first directives =>
    intro member
    rcases List.mem_append.mp member with inside | behind
    · exact no_bracket_render (well_formed first List.mem_cons_self) (legible first List.mem_cons_self) inside
    · obtain ⟨directive, listed, written⟩ := List.mem_flatMap.mp behind
      rcases List.mem_cons.mp written with blank | written
      · exact absurd blank (by decide)
      · exact no_bracket_render (well_formed directive (List.mem_cons_of_mem _ listed))
          (legible directive (List.mem_cons_of_mem _ listed)) written

/-- The header ends with the first bracket and the blanks behind it. -/
theorem matchTip_bracket {inside : List Char} (starts : ∀ c ∈ inside.head?, Text.isSpace c = false)
    (unclosed : ']' ∉ inside)
    (remainder : List Char) :
    matchTip (opening ++ inside ++ ']' :: remainder) = some {
      whole := opening ++ inside ++ ']' :: remainder.takeWhile Text.isSpace
      inside
      remainder := remainder.dropWhile Text.isSpace } := by
  have text : opening ++ inside ++ ']' :: remainder = '[' :: 'T' :: 'I' :: 'P' :: ':' :: ' ' ::
      (inside ++ ']' :: remainder) := by
    simp [opening]
  have bracket : Text.isSpace '[' = false := by decide
  have closing : Text.isSpace ']' = false := by decide
  have blank : Text.isSpace ' ' = true := by decide
  have tip : isTip 'T' 'I' 'P' = true := by decide
  have body : (' ' :: (inside ++ ']' :: remainder)).dropWhile Text.isSpace = inside ++ ']' :: remainder := by
    rw [List.dropWhile_cons_of_pos blank]
    cases inside with
    | nil => exact List.dropWhile_cons_of_neg (by simp [closing])
    | cons c inside => exact List.dropWhile_cons_of_neg (by simp [starts c rfl])
  have all : ∀ c ∈ inside, decide (c ≠ ']') = true := by
    intro c member
    exact decide_eq_true fun same => unclosed (same ▸ member)
  obtain ⟨taken, left⟩ := Text.span_ends (']' :: remainder) all (by simp)
  have whole : (opening ++ inside ++ ']' :: remainder).take
        ((opening ++ inside ++ ']' :: remainder).length - (remainder.dropWhile Text.isSpace).length)
      = opening ++ inside ++ ']' :: remainder.takeWhile Text.isSpace := by
    have parts : opening ++ inside ++ ']' :: remainder
        = (opening ++ inside ++ ']' :: remainder.takeWhile Text.isSpace) ++
            remainder.dropWhile Text.isSpace := by
      rw [List.append_assoc _ (']' :: _), List.cons_append, List.takeWhile_append_dropWhile]
    rw [parts, List.length_append, Nat.add_sub_cancel, List.take_left]
  have skip : (opening ++ inside ++ ']' :: remainder).dropWhile Text.isSpace
      = '[' :: 'T' :: 'I' :: 'P' :: ':' :: ' ' :: (inside ++ ']' :: remainder) := by
    rw [text, List.dropWhile_cons_of_neg (by simp [bracket])]
  unfold matchTip
  rw [skip]
  simp only [tip, if_true, body, left, taken, whole]

end Header

section RoundTrip
variable {F : Type} (builtins : Builtins F)

/-- The handlers of the directives are called with these keys and values, in order, and the text
behind the header is left. -/
def Reads (directives : List Directive) (remainder : List Char)
    (entries : List (List Char × Option (List Char))) (left : List Char) : Prop :=
  parseTipHeader builtins (renderHeader directives remainder) =
    (some (entries.foldl (handle builtins) (.blank (renderHeader directives []))), left)

theorem stripped_solid {text : List Char} (blanks : List Char)
    (starts : ∀ c ∈ text.head?, Text.isSpace c = false) (ends : Ends text)
    (all : ∀ c ∈ blanks, Text.isSpace c = true) : stripped (text ++ blanks) = text := by
  rw [stripped, Text.strip_solid starts ends all, String.toList_ofList]

theorem header_round_trip {directives : List Directive}
    (well_formed : ∀ directive ∈ directives, directive.WellFormed)
    (legible : ∀ directive ∈ directives, directive.Legible) (remainder : List Char) :
    Reads builtins directives remainder (directives.map Directive.entry)
    (remainder.dropWhile Text.isSpace) := by
  have matched :=
    matchTip_bracket (starts_renderAll well_formed)
      (no_bracket_renderAll well_formed legible) remainder
  have inside : stripped (renderAll directives) = renderAll directives := by
    have solid := stripped_solid [] (starts_renderAll well_formed) (ends_renderAll well_formed) (by simp)
    rwa [List.append_nil] at solid
  have raw : stripped (opening ++ renderAll directives ++ ']' :: remainder.takeWhile Text.isSpace) =
      renderHeader directives [] := by
    have shape : opening ++ renderAll directives ++ ']' :: remainder.takeWhile Text.isSpace
        = renderHeader directives [] ++ remainder.takeWhile Text.isSpace := List.append_cons _ _ _
    have starts : ∀ c ∈ (renderHeader directives []).head?, Text.isSpace c = false := by
      intro c first
      have same : '[' = c := by simpa [renderHeader, opening] using first
      exact same ▸ by decide
    have ends : Ends (renderHeader directives []) := by
      intro c last
      rw [renderHeader, List.getLast?_concat] at last
      have same := Option.some.inj last
      exact same ▸ by decide
    rw [shape]
    exact stripped_solid _ starts ends fun c member => List.mem_takeWhile_imp member
  unfold Reads parseTipHeader
  rw [renderHeader, matched]
  dsimp only
  rw [inside, raw, directives_renderAll well_formed legible]

end RoundTrip

section Sample

def wholeNumbers : Builtins Nat where
  float text := (String.ofList text).toNat?
  int number := .ok number
  tokens _ := none
  lower text := text.map Text.lowerChar

def sampleDirectives : List Directive :=
  [⟨"allow".toList, some (.bare "once".toList)⟩, ⟨"bypass".toList, none⟩,
    ⟨"max".toList, some (.bare "$15".toList)⟩,
    ⟨"reason".toList, some (.quoted '"' "first, a=b [then".toList)⟩]

theorem sample_well_formed : ∀ directive ∈ sampleDirectives, directive.WellFormed := by
  simp only [sampleDirectives, List.forall_mem_cons, List.not_mem_nil, false_imp_iff, implies_true, and_true]
  have letters (key : List Char) (all : key.all isKeyChar = true) : ∀ c ∈ key, isKeyChar c = true :=
    List.all_eq_true.mp all
  have bare (text : List Char) (some : text ≠ []) (all : text.all isBareChar = true)
    (plain : text.head?.all (!isMark ·) = true) :
      Written.WellFormed (.bare text) := by
    refine ⟨some, List.all_eq_true.mp all, ?_⟩
    intro c first
    rw [Option.mem_def.mp first] at plain
    simpa using plain
  refine ⟨⟨by decide, letters _ (by decide), ?_⟩, ⟨by decide, letters _ (by decide), ?_⟩,
    ⟨by decide, letters _ (by decide), ?_⟩,
    ⟨by decide, letters _ (by decide), ?_⟩⟩
  · intro value given
    obtain rfl := Option.some.inj given
    exact bare _ (by decide) (by decide) (by decide)
  · intro value given
    cases given
  · intro value given
    obtain rfl := Option.some.inj given
    exact bare _ (by decide) (by decide) (by decide)
  · intro value given
    obtain rfl := Option.some.inj given
    exact ⟨by decide, by decide⟩

theorem sample_legible : ∀ directive ∈ sampleDirectives, directive.Legible := by
  simp only [sampleDirectives, List.forall_mem_cons, List.not_mem_nil, false_imp_iff, implies_true, and_true]
  refine ⟨?_, ?_, ?_, ?_⟩
  all_goals
    intro value given
    first
    | cases given; done
    | obtain rfl := Option.some.inj given; exact ⟨by decide, by decide⟩

theorem sample_header_read :
    Reads wholeNumbers sampleDirectives "  refactor".toList (sampleDirectives.map Directive.entry) "refactor".toList :=
  header_round_trip wholeNumbers sample_well_formed sample_legible "  refactor".toList

/-- The blanks behind a header are not given back. -/
theorem blank_remainder_lost :
    ¬ ∀ (directives : List Directive) (remainder : List Char),
      (∀ directive ∈ directives, directive.WellFormed) →
      Reads wholeNumbers directives remainder (directives.map fun directive =>
          (directive.key, directive.value.map Written.text)) remainder := by
  intro reads
  have left := congrArg Prod.snd (reads sampleDirectives " refactor".toList sample_well_formed)
  exact absurd left (by decide)

end Sample
end TokenPak.SpendGuard.TipHeader
