import TokenPak.Vault.ChunkShaping

/-! The line caps of the chunk shapes. Behind a part that ends at the cap, the empty line that sets
it off makes one line too many, and a slice bound of minus one lets the next paragraph in but for
its last line. -/

namespace TokenPak.Vault.ChunkShaping
open Library Lines

section Counts
variable {lines first rest : List (List Char)}

theorem length_trim_ge {head last : List Char} {between after : List (List Char)}
    (begins : isBlank head = false)
    (ends : isBlank last = false) :
    between.length + 2 ≤ (trim isBlank (head :: between ++ last :: after)).length := by
  rw [trim, List.cons_append, List.dropWhile_cons_of_neg (by simp [begins]), List.reverse_cons,
    List.reverse_append, List.reverse_cons,
    List.append_assoc, List.append_assoc, List.dropWhile_append]
  split
  · rw [List.singleton_append, List.dropWhile_cons_of_neg (by simp [ends])]
    simp
  · simp only [List.length_reverse, List.length_append, List.length_cons, List.length_nil]
    omega

theorem trim_of_blank {after : List (List Char)} (blank : ∀ line ∈ after, isBlank line = true)
    (lines : List (List Char)) :
    trim isBlank (lines ++ after) = trim isBlank lines := by
  induction after using List.reverseRecOn with
  | nil => rw [List.append_nil]
  | append_singleton after line ih =>
    rw [← List.append_assoc, trim_concat (blank line (by simp)), ih fun other member =>
      blank other (List.mem_append_left _ member)]

theorem length_trim_le (lines : List (List Char)) : (trim isBlank lines).length ≤ lines.length := by
  obtain ⟨front, back, whole, _, _⟩ := exists_trim isBlank lines
  have count := congrArg List.length whole
  simp only [List.length_append] at count
  omega

theorem length_trim_empty (lines : List (List Char)) :
    (trim isBlank (lines ++ [[]])).length ≤ lines.length := by
  rw [trim_of_blank (by simp; decide)]
  exact length_trim_le lines

end Counts

section Spec
variable {F : Type} (lang : Language F) (maxLines : Nat)

/-- A line of the content, of the content without its filler, or the beginning of a line up to the
end of a sentence; blanks around it do not count. -/
def Drawn (content piece : List Char) : Prop :=
  (∃ line ∈ splitlines content, piece = strip line) ∨
    (∃ line ∈ splitlines (cleaned lang content), piece = strip line) ∨
    ∃ kept removed, kept ++ removed ∈ splitlines content ∧ kept.getLast? = some '.' ∧
      removed.head? = some ' ' ∧ piece = strip kept

/-- The lines that the cap does not count. -/
def uncounted (shape : String) (content : List Char) : Nat :=
  if shape = "code_contiguous" then (importLines lang content).length else 0

def Respects [LinearOrder F] (content : List Char) (shape : String) : Prop :=
  (splitlines (applyShape lang maxLines content shape)).length ≤ uncounted lang shape content + maxLines ∧
    ∀ line ∈ splitlines (applyShape lang maxLines content shape), isBlank line = false →
      Drawn lang content (strip line)

/-- The headings of a content with the topics behind them; the last may have none. -/
def sectionsFrom (heading : Option (List Char)) : List (List Char) → List (List Char × Option (List Char))
  | [] => heading.toList.map fun line => (line, none)
  | line :: rest =>
    match heading with
    | some held =>
        if isBlank line then sectionsFrom heading rest
          else (held, some (firstSentence line)) :: sectionsFrom none rest
    | none => if isHeading lang line then sectionsFrom (some line) rest else sectionsFrom none rest

def sections (content : List Char) : List (List Char × Option (List Char)) :=
  sectionsFrom lang none (splitlines content)

structure Fits [LinearOrder F] (content : List Char) (shape : String) : Prop where
  code : shape = "code_contiguous" → importLines lang content = [] ∨
    (splitlines (join ((codeLines lang content).take maxLines))).length < maxLines
  fact : shape = "fact_chunk" → ∀ taken next later, ranked lang content = taken ++ next :: later →
    (taken.map fun para => (splitlines para).length + 1).sum = maxLines + 1 → (splitlines next).length ≤ 1
  header : shape = "section_header" → maxLines % 3 = 1 → ∀ part,
    (sections lang content)[maxLines / 3]? = some part → part.2 = none

end Spec

section Pieces
variable {good : List Char → Prop} {lines : List (List Char)} {text : List Char}

theorem pieces_of (same : solidFrom Text.isSpace isBoundary [] text = lines.flatMap (solid Text.isSpace))
    (each : ∀ line ∈ lines, isBlank line = false → good (strip line)) :
    ∀ line ∈ splitlines text, isBlank line = false → good (strip line) := by
  intro line member some
  have full : trim Text.isSpace line ≠ [] := by simpa [isBlank] using some
  have piece : strip line ∈ (splitlines text).flatMap (solid Text.isSpace) :=
    List.mem_flatMap.mpr ⟨line, member, by rw [solid, if_neg full]; exact List.mem_singleton_self _⟩
  rw [splitlines, solidFrom_splitlines, same] at piece
  obtain ⟨source, inside, taken⟩ := List.mem_flatMap.mp piece
  unfold solid at taken
  split at taken
  · simp at taken
  next whole =>
    rw [List.mem_singleton.mp taken]
    exact each source inside (by simpa [isBlank] using whole)

theorem pieces_join (unbroken : ∀ line ∈ lines, Unbroken line)
    (each : ∀ line ∈ lines, isBlank line = false → good (strip line)) :
    ∀ line ∈ splitlines (join lines), isBlank line = false → good (strip line) :=
  pieces_of (solidFrom_join unbroken) each

theorem pieces_strip (unbroken : ∀ line ∈ lines, Unbroken line)
    (each : ∀ line ∈ lines, isBlank line = false → good (strip line)) :
    ∀ line ∈ splitlines (strip (join lines)), isBlank line = false → good (strip line) :=
  pieces_of (by rw [strip, ← solidFrom_trim, solidFrom_join unbroken]) each

end Pieces

section Plain
variable {F : Type} (lang : Language F) (maxLines : Nat) (content : List Char)

theorem drawn_line {content line : List Char} (member : line ∈ splitlines content) :
    Drawn lang content (strip line) :=
  .inl ⟨line, member, rfl⟩

theorem head_respects : (splitlines (join ((splitlines content).take maxLines))).length ≤ maxLines ∧
    ∀ line ∈ splitlines (join ((splitlines content).take maxLines)), isBlank line = false →
      Drawn lang content (strip line) := by
  have unbroken : ∀ line ∈ (splitlines content).take maxLines, Unbroken line :=
    fun line member => unbroken_splitlines content line (List.mem_of_mem_take member)
  refine ⟨?_, pieces_join unbroken fun line member _ => drawn_line lang (List.mem_of_mem_take member)⟩
  have count := length_splitlines_join unbroken
  rw [List.length_take] at count
  omega

theorem mem_decisionLines {lines : List (List Char)} {line : List Char}
    (member : line ∈ decisionLines lang lines) : line ∈ lines ∨ line = [] := by
  induction lines with
  | nil => cases member
  | cons first rest ih =>
    rw [decisionLines] at member
    split at member
    · rcases List.mem_append.mp member with section_ | later
      · rcases List.mem_cons.mp section_ with rfl | body
        · exact .inl List.mem_cons_self
        · exact .inl (List.mem_cons_of_mem _ ((List.takeWhile_sublist _).subset body))
      · rcases List.mem_cons.mp later with rfl | later
        · exact .inr rfl
        · exact (ih later).imp_left (List.mem_cons_of_mem _)
    · exact (ih member).imp_left (List.mem_cons_of_mem _)

theorem unbroken_nil : Unbroken [] := by simp [Unbroken]

theorem decision_respects : (splitlines (shapeDecisionSummary lang maxLines content)).length ≤ maxLines ∧
    ∀ line ∈ splitlines (shapeDecisionSummary lang maxLines content), isBlank line = false →
      Drawn lang content (strip line) := by
  have known : ∀ line ∈ (decisionLines lang (splitlines content)).take maxLines,
      line ∈ splitlines content ∨ line = [] :=
    fun line member => mem_decisionLines lang (List.mem_of_mem_take member)
  have unbroken : ∀ line ∈ (decisionLines lang (splitlines content)).take maxLines, Unbroken line := by
    intro line member
    rcases known line member with inside | rfl
    · exact unbroken_splitlines content line inside
    · exact unbroken_nil
  simp only [shapeDecisionSummary]
  split
  · exact head_respects lang maxLines content
  · refine ⟨?_, pieces_strip unbroken fun line member some => ?_⟩
    · have count := length_trim_le ((decisionLines lang (splitlines content)).take maxLines)
      rw [strip, length_strip_join unbroken]
      rw [List.length_take] at count
      omega
    · rcases known line member with inside | rfl
      · exact drawn_line lang inside
      · cases some

end Plain

section Code
variable {F : Type} (lang : Language F) (maxLines : Nat) (content : List Char)
variable {lines : List (List Char)} {line : List Char}

theorem mem_scanImports {imports : List (List Char)} {start i : Nat}
    (member : line ∈ (scanImports lang imports start i lines).1) :
    line ∈ imports ∨ line ∈ lines := by
  fun_induction scanImports lang imports start i lines with
  | case1 => exact .inl member
  | case2 imports start i first rest _ ih =>
    rcases ih member with before | later
    · rcases List.mem_append.mp before with before | here
      · exact .inl before
      · rw [List.mem_singleton.mp here]
        exact .inr List.mem_cons_self
    · exact .inr (List.mem_cons_of_mem _ later)
  | case3 start i first rest _ ih => exact (ih member).imp_right (List.mem_cons_of_mem _)
  | case4 imports start i first rest _ _ _ ih => exact (ih member).imp_right (List.mem_cons_of_mem _)
  | case5 => exact .inl member

theorem length_join_append {filled : List (List Char)}
    (unbroken : ∀ line ∈ lines ++ filled, Unbroken line) (full : filled ≠ []) :
    (splitlines (join (lines ++ filled))).length = lines.length + (splitlines (join filled)).length := by
  obtain ⟨front, last, rfl⟩ := List.eq_nil_or_concat' filled |>.resolve_left full
  have ends := unbroken last (by simp)
  rw [← List.append_assoc,
    splitlines_join (fun line member =>
    unbroken line (by rw [← List.append_assoc]; exact List.mem_append_left _ member)) ends,
    splitlines_join (fun line member => unbroken line (List.mem_append_right _ (List.mem_append_left _ member))) ends]
  simp only [List.length_append]
  omega

theorem join_append {filled : List (List Char)} (some : lines ≠ []) (full : filled ≠ []) :
    join (lines ++ filled) = join lines ++ '\n' :: join filled := by
  fun_induction join lines with
  | case1 => exact absurd rfl some
  | case2 line =>
    obtain ⟨first, rest, rfl⟩ := List.exists_cons_of_ne_nil full
    rfl
  | case3 line next lines ih =>
    have further := ih (by simp)
    rw [List.cons_append, List.cons_append, join, ← List.cons_append, further, List.append_assoc,
      List.cons_append]

theorem code_text (some : importLines lang content ≠ []) :
    ∃ filled, filled ≠ [] ∧ join filled = join ((codeLines lang content).take maxLines) ∧
    (∀ line ∈ filled, line ∈ (codeLines lang content).take maxLines ∨ line = []) ∧
    shapeCodeContiguous lang maxLines content = join (importLines lang content ++ [[]] ++ filled) := by
  have text : ∀ filled, filled ≠ [] → join filled = join ((codeLines lang content).take maxLines) →
      shapeCodeContiguous lang maxLines content = join (importLines lang content ++ [[]] ++ filled) := by
    intro filled full same
    have separated : join ([[]] ++ filled) = '\n' :: join filled := join_append (by simp) full
    rw [List.append_assoc, join_append some (by simp), separated, same]
    simp only [shapeCodeContiguous, if_neg some]
    rw [List.append_assoc]
    rfl
  by_cases none : (codeLines lang content).take maxLines = []
  · exact ⟨[[]], by simp, by rw [none]; rfl, by simp, text [[]] (by simp) (by rw [none]; rfl)⟩
  · exact ⟨_, none, rfl, fun _ member => .inl member, text _ none rfl⟩

theorem mem_importLines (member : line ∈ importLines lang content) : line ∈ splitlines content :=
  (mem_scanImports lang member).resolve_left (by simp)

theorem mem_codeLines (member : line ∈ (codeLines lang content).take maxLines) :
    line ∈ splitlines content :=
  List.mem_of_mem_drop (List.mem_of_mem_drop (List.mem_of_mem_take member))

theorem code_respects :
    ((splitlines (shapeCodeContiguous lang maxLines content)).length ≤
    (importLines lang content).length + maxLines ↔
      importLines lang content = [] ∨ (splitlines (join ((codeLines lang content).take maxLines))).length < maxLines) ∧
    ∀ line ∈ splitlines (shapeCodeContiguous lang maxLines content), isBlank line = false →
      Drawn lang content (strip line) := by
  have selected : ∀ line ∈ (codeLines lang content).take maxLines, Unbroken line :=
    fun line member => unbroken_splitlines content line (mem_codeLines lang maxLines content member)
  by_cases none : importLines lang content = []
  · simp only [shapeCodeContiguous, if_pos none]
    refine ⟨iff_of_true ?_ (.inl none), pieces_join selected fun line member _ =>
      drawn_line lang (mem_codeLines lang maxLines content member)⟩
    have count := length_splitlines_join selected
    rw [List.length_take] at count
    omega
  · obtain ⟨filled, full, same, members, text⟩ := code_text lang maxLines content none
    have known : ∀ line ∈ importLines lang content ++ [[]] ++ filled, line ∈ splitlines content ∨
        line = [] := by
      intro line member
      rcases List.mem_append.mp member with front | back
      · rcases List.mem_append.mp front with imported | empty
        · exact .inl (mem_importLines lang content imported)
        · exact .inr (List.mem_singleton.mp empty)
      · exact (members line back).imp_left (mem_codeLines lang maxLines content)
    have unbroken : ∀ line ∈ importLines lang content ++ [[]] ++ filled, Unbroken line := by
      intro line member
      rcases known line member with inside | rfl
      · exact unbroken_splitlines content line inside
      · exact unbroken_nil
    rw [text]
    refine ⟨?_, pieces_join unbroken fun line member some => ?_⟩
    · rw [length_join_append unbroken full, same, List.length_append, List.length_singleton]
      simp only [none, false_or]
      omega
    · rcases known line member with inside | rfl
      · exact drawn_line lang inside
      · cases some

end Code

section Facts
variable {F : Type} (lang : Language F) (maxLines : Nat) (content : List Char)
variable {para : List Char} {result : List (List Char)}

theorem pieces_paragraphsFrom {skipping : Bool} (started : skipping = true → para = [])
    (text : List Char) :
    (paragraphsFrom para skipping text).flatMap (solidFrom Text.isSpace isBoundary []) =
      solidFrom Text.isSpace isBoundary [] (para ++ text) := by
  induction text generalizing para skipping with
  | nil => rw [paragraphsFrom, List.flatMap_singleton, List.append_nil]
  | cons c rest ih =>
    rw [paragraphsFrom]
    split
    next feed =>
      subst feed
      split
      next skips =>
        rw [started skips, ih fun _ => rfl, List.nil_append, List.nil_append, solidFrom,
          if_pos isBoundary_feed]
        rfl
      · split
        · rw [List.flatMap_cons, ih fun _ => rfl, solidFrom_append isBoundary_feed, List.nil_append]
        · rw [ih (by simp), List.append_assoc, List.singleton_append]
    · rw [ih (by simp), List.append_assoc, List.singleton_append]

theorem mem_ranked [LinearOrder F] (member : para ∈ ranked lang content) :
    para ≠ [] ∧ ∃ source ∈ paragraphsFrom [] false (cleaned lang content), para = strip source := by
  obtain ⟨inside, full⟩ := List.mem_filter.mp (StableSort.sortBy_perm.mem_iff.mp member)
  obtain ⟨source, there, same⟩ := List.mem_map.mp inside
  exact ⟨by simpa using full, source, there, same.symm⟩

theorem drawn_para [LinearOrder F] (member : para ∈ ranked lang content) :
    ∀ line ∈ splitlines para, isBlank line = false → Drawn lang content (strip line) := by
  obtain ⟨_, source, inside, rfl⟩ := mem_ranked lang content member
  have pieces : ∀ piece ∈ solidFrom Text.isSpace isBoundary [] source, Drawn lang content piece := by
    intro piece there
    have whole := @pieces_paragraphsFrom [] false (by simp) (cleaned lang content)
    have found := List.mem_flatMap.mpr ⟨source, inside, there⟩
    rw [whole, List.nil_append, ← solidFrom_splitlines] at found
    obtain ⟨line, taken, solid_⟩ := List.mem_flatMap.mp found
    unfold solid at solid_
    split at solid_
    · simp at solid_
    · exact .inr (.inl ⟨line, taken, List.mem_singleton.mp solid_⟩)
  intro line there some
  have full : trim Text.isSpace line ≠ [] := by simpa [isBlank] using some
  apply pieces
  rw [solidFrom_trim, ← strip, ← solidFrom_splitlines]
  exact List.mem_flatMap.mpr ⟨line, there, by rw [solid, if_neg full]; exact List.mem_singleton_self _⟩

theorem para_starts [LinearOrder F] (member : para ∈ ranked lang content) :
    ∃ first others, splitlines para = first :: others ∧ isBlank first = false := by
  obtain ⟨full, source, _, rfl⟩ := mem_ranked lang content member
  obtain ⟨c, rest, starts⟩ := List.exists_cons_of_ne_nil full
  have solid_ : Text.isSpace c = false :=
    trim_head (show (trim Text.isSpace source).head? = some c by rw [← strip, starts]; rfl)
  have boundary : ∀ d ∈ ([] ++ strip source).head?, isBoundary d = false := by
    intro d head
    rw [List.nil_append, starts, List.head?_cons, Option.mem_some_iff] at head
    rw [← head]
    by_contra ends
    rw [isSpace_of_isBoundary c (by simpa using ends)] at solid_
    cases solid_
  obtain ⟨first, others, made, head⟩ := exists_first [] (by simpa using full) boundary
  refine ⟨first, others, made, ?_⟩
  rw [List.nil_append, starts, List.head?_cons] at head
  obtain ⟨more, rfl⟩ := List.head?_eq_some_iff.mp head
  by_contra blank
  rw [Bool.not_eq_false, isBlank_iff] at blank
  rw [blank c List.mem_cons_self] at solid_
  cases solid_

theorem mem_factLines {paras : List (List Char)} {line : List Char}
    (member : line ∈ factLines maxLines result paras) :
    line ∈ result ∨ line = [] ∨ ∃ para ∈ paras, line ∈ splitlines para := by
  induction paras generalizing result with
  | nil => exact .inl member
  | cons para paras ih =>
    simp only [factLines] at member
    split at member
    · rcases List.mem_append.mp member with before | here
      · exact .inl before
      · exact .inr (.inr ⟨para, List.mem_cons_self, List.mem_of_mem_take here⟩)
    · rcases ih member with before | empty | ⟨other, inside, there⟩
      · rcases List.mem_append.mp before with before | empty
        · exact (List.mem_append.mp before).imp_right fun here => .inr ⟨para, List.mem_cons_self, here⟩
        · exact .inr (.inl (List.mem_singleton.mp empty))
      · exact .inr (.inl empty)
      · exact .inr (.inr ⟨other, List.mem_cons_of_mem _ inside, there⟩)

/-- What the loop has gathered starts with a line that is not blank and ends with an empty line. -/
def Gathered (result : List (List Char)) :
    Prop := result = [] ∨ ∃ head front, result = head :: front ++ [[]] ∧ isBlank head = false

theorem gathered_le (gathered : Gathered result) (within : result.length ≤ maxLines + 1) :
    (trim isBlank result).length ≤ maxLines := by
  rcases gathered with rfl | ⟨head, front, rfl, _⟩
  · simp [trim]
  · have count := length_trim_empty (head :: front)
    simp only [List.length_append, List.length_singleton] at within
    omega

/-- One line too many comes of a part that ends at the cap, with an empty line behind it, and a
paragraph of several lines next. -/
theorem factLines_le_iff {paras : List (List Char)} (gathered : Gathered result)
    (within : result.length ≤ maxLines + 1)
    (start : ∀ para ∈ paras, ∃ first others, splitlines para = first :: others ∧ isBlank first = false) :
    (trim isBlank (factLines maxLines result paras)).length ≤ maxLines ↔
      ∀ taken next later, paras = taken ++ next :: later →
      result.length + (taken.map fun para => (splitlines para).length + 1).sum = maxLines + 1 →
          (splitlines next).length ≤ 1 := by
  induction paras generalizing result with
  | nil => exact iff_of_true (gathered_le maxLines gathered within) fun taken next later parts => by simp at parts
  | cons para paras ih =>
    obtain ⟨first, others, lines, some⟩ := start para List.mem_cons_self
    have count : (splitlines para).length = others.length + 1 := by rw [lines, List.length_cons]
    simp only [factLines]
    split
    next past =>
      by_cases room : result.length ≤ maxLines
      · refine iff_of_true ?_ fun taken next later parts sum => ?_
        · have bound : ¬ (maxLines : Int) - result.length < 0 := by omega
          have kept := length_trim_le (result ++ slice (splitlines para) ((maxLines : Int) - result.length))
          rw [slice, if_neg bound, List.length_append, List.length_take] at kept
          rw [slice, if_neg bound]
          omega
        · cases taken with
          | nil =>
            simp at sum
            omega
          | cons head taken =>
            cases parts
            simp only [List.map_cons, List.sum_cons] at sum
            omega
      · have full : result.length = maxLines + 1 := by omega
        have bound : (maxLines : Int) - result.length < 0 := by omega
        have cut : slice (splitlines para) ((maxLines : Int) - result.length) =
            (splitlines para).take others.length := by
          rw [slice, if_pos bound]
          congr 1
          omega
        rw [cut, lines]
        cases others with
        | nil =>
          refine iff_of_true ?_ fun taken next later parts sum => ?_
          · rw [List.length_nil, List.take_zero, List.append_nil]
            exact gathered_le maxLines gathered within
          · cases taken with
            | nil =>
              cases parts
              rw [lines]
              rfl
            | cons head taken =>
              simp only [List.map_cons, List.sum_cons] at sum
              omega
        | cons second others =>
          refine iff_of_false ?_ fun fits => ?_
          · rcases gathered with rfl | ⟨head, front, rfl, begins⟩
            · simp at full
            · have long := @length_trim_ge head first (front ++ [[]]) ((second :: others).take others.length) begins some
              rw [List.length_cons, List.take_succ_cons]
              simp only [List.length_append, List.length_cons, List.length_nil, List.append_assoc,
                List.cons_append] at long full ⊢
              omega
          · have one := fits [] para paras rfl (by simpa using full)
            rw [lines] at one
            simp at one
    next fits =>
      have gathers : Gathered (result ++ splitlines para ++ [[]]) := by
        rcases gathered with rfl | ⟨head, front, rfl, begins⟩
        · exact .inr ⟨first, others, by rw [lines]; rfl, some⟩
        · exact .inr ⟨head, front ++ [[]] ++ splitlines para, by simp, begins⟩
      have longer : (result ++ splitlines para ++ [[]]).length = result.length +
          ((splitlines para).length + 1) := by
        simp only [List.length_append, List.length_singleton]
        omega
      rw [ih gathers (by omega) fun other member => start other (List.mem_cons_of_mem _ member), longer]
      constructor
      · intro all taken next later parts sum
        cases taken with
        | nil =>
          simp at sum
          omega
        | cons head taken =>
          cases parts
          simp only [List.map_cons, List.sum_cons] at sum
          exact all taken next later rfl (by omega)
      · intro all taken next later parts sum
        exact all (para :: taken) next later (by rw [parts]; rfl) (by simp only [List.map_cons, List.sum_cons]; omega)

theorem fact_respects [LinearOrder F] :
    ((splitlines (shapeFactChunk lang maxLines content)).length ≤ maxLines ↔
      ∀ taken next later, ranked lang content = taken ++ next :: later →
        (taken.map fun para => (splitlines para).length + 1).sum = maxLines + 1 → (splitlines next).length ≤ 1) ∧
    ∀ line ∈ splitlines (shapeFactChunk lang maxLines content), isBlank line = false →
      Drawn lang content (strip line) := by
  have known : ∀ line ∈ factLines maxLines [] (ranked lang content),
      line = [] ∨ ∃ para ∈ ranked lang content, line ∈ splitlines para :=
    fun line member => (mem_factLines maxLines member).resolve_left (by simp)
  have unbroken : ∀ line ∈ factLines maxLines [] (ranked lang content), Unbroken line := by
    intro line member
    rcases known line member with rfl | ⟨para, _, inside⟩
    · exact unbroken_nil
    · exact unbroken_splitlines para line inside
  refine ⟨?_, pieces_strip unbroken fun line member some => ?_⟩
  · rw [shapeFactChunk, strip, length_strip_join unbroken,
      factLines_le_iff maxLines (.inl rfl) (Nat.zero_le _) fun para member => para_starts lang content member]
    simp
  · rcases known line member with rfl | ⟨para, there, inside⟩
    · cases some
    · exact drawn_para lang content there line inside some

end Facts

section Headers
variable {F : Type} (lang : Language F) (maxLines : Nat) (content : List Char)

theorem firstSentence_cases (line : List Char) :
    firstSentence line = line ∨ ∃ removed, firstSentence line ++ removed = line ∧
    (firstSentence line).getLast? = some '.' ∧ removed.head? = some ' ' := by
  unfold firstSentence
  split
  next i found =>
    split
    · right
      have starts := (List.find?_eq_some_iff_append.mp found).1
      obtain ⟨rest, stops⟩ := List.isPrefixOf_iff_prefix.mp starts
      have cut : line.drop i = '.' :: ' ' :: rest := stops.symm
      have parts : line.take (i + 1) = line.take i ++ ['.'] := by
        rw [List.take_add, cut]
        rfl
      have removed : line.drop (i + 1) = ' ' :: rest := by
        rw [← List.drop_drop, cut, List.drop_succ_cons, List.drop_zero]
      exact ⟨line.drop (i + 1), List.take_append_drop _ _,
        by rw [parts, List.getLast?_concat], by rw [removed]; rfl⟩
    · exact .inl rfl
  · exact .inl rfl

variable {line : List Char}

theorem isBlank_firstSentence (some : isBlank line = false) :
    isBlank (firstSentence line) = false := by
  rcases firstSentence_cases line with same | ⟨_, _, last, _⟩
  · rwa [same]
  · by_contra blank
    rw [Bool.not_eq_false, isBlank_iff] at blank
    have stop : Text.isSpace '.' = true := blank '.' (List.mem_of_getLast? last)
    revert stop
    decide

theorem isBlank_of_isHeading (heading : isHeading lang line = true) : isBlank line = false := by
  have hash : ∃ rest, line = '#' :: rest := by
    cases line with
    | nil => simp [isHeading, match?, headingRe, Regex.all, Regex.ways, exactly] at heading
    | cons c rest =>
      by_cases hash : c = '#'
      · exact ⟨rest, by rw [hash]⟩
      · simp [isHeading, match?, headingRe, Regex.all, Regex.ways, exactly, hash] at heading
  obtain ⟨rest, rfl⟩ := hash
  by_contra blank
  rw [Bool.not_eq_false, isBlank_iff] at blank
  have mark : Text.isSpace '#' = true := blank '#' List.mem_cons_self
  revert mark
  decide

/-- A heading and its topic as the result holds them. -/
def shown (part : List Char × Option (List Char)) : List (List Char) :=
  part.1 :: part.2.elim [] fun topic => [topic, []]

/-- The loop takes sections while the result is shorter than the cap. -/
theorem headerLines_eq (lines : List (List Char)) (result : List (List Char)) :
    headerLines lang maxLines result false lines =
      result ++ ((sectionsFrom lang none lines).take ((maxLines - result.length + 2) / 3)).flatMap shown ∧
    ∀ held, result.length < maxLines → headerLines lang maxLines (result ++ [held]) true lines =
      result ++ ((sectionsFrom lang (some held) lines).take ((maxLines - result.length + 2) / 3)).flatMap shown := by
  induction lines generalizing result with
  | nil =>
    refine ⟨by simp [headerLines, sectionsFrom], fun held room => ?_⟩
    obtain ⟨k, turns⟩ : ∃ k, (maxLines - result.length + 2) / 3 = k + 1 :=
      Nat.exists_eq_add_one.mpr (by omega)
    simp [headerLines, sectionsFrom, turns, shown]
  | cons line rest ih =>
    refine ⟨?_, fun held room => ?_⟩
    · simp only [headerLines, sectionsFrom, Bool.false_eq_true, if_false]
      by_cases room : result.length < maxLines
      · rw [if_pos room]
        split
        · exact (ih result).2 line room
        · exact (ih result).1
      · have none : (maxLines - result.length + 2) / 3 = 0 := by omega
        rw [if_neg room, none, List.take_zero, List.flatMap_nil, List.append_nil]
    · simp only [headerLines, sectionsFrom, if_true]
      split
      · exact (ih result).2 held room
      · have turns : (maxLines - result.length + 2) / 3 =
            (maxLines - (result ++ [held] ++ [firstSentence line, []]).length + 2) / 3 + 1 := by
          simp only [List.length_append, List.length_cons, List.length_nil]
          omega
        rw [(ih _).1, turns, List.take_succ_cons, List.flatMap_cons]
        simp [shown]

theorem topics_dropLast (heading : Option (List Char)) (lines : List (List Char)) :
    ∀ part ∈ (sectionsFrom lang heading lines).dropLast, part.2.isSome = true := by
  fun_induction sectionsFrom lang heading lines with
  | case1 heading => cases heading <;> simp
  | case2 _ _ _ _ ih => exact ih
  | case3 line rest held _ ih =>
    cases others : sectionsFrom lang none rest with
    | nil => simp
    | cons next later =>
      rw [List.dropLast_cons_of_ne_nil (by simp), ← others]
      exact List.forall_mem_cons.mpr ⟨rfl, ih⟩
  | case4 _ _ _ ih => exact ih
  | case5 _ _ _ ih => exact ih

theorem mem_sectionsFrom {heading : Option (List Char)} {lines : List (List Char)}
    {part : List Char × Option (List Char)}
    (member : part ∈ sectionsFrom lang heading lines)
    (headed : ∀ held ∈ heading, isHeading lang held = true) :
    isHeading lang part.1 = true ∧ (part.1 ∈ heading ∨ part.1 ∈ lines) ∧
      ∀ topic ∈ part.2, ∃ line ∈ lines, isBlank line = false ∧ topic = firstSentence line := by
  fun_induction sectionsFrom lang heading lines with
  | case1 heading =>
    obtain ⟨held, there, rfl⟩ := List.mem_map.mp member
    exact ⟨headed held (Option.mem_toList.mp there), .inl (Option.mem_toList.mp there),
      fun topic found => by cases found⟩
  | case2 line rest held _ ih =>
    obtain ⟨mark, place, topics⟩ := ih member headed
    exact ⟨mark, place.imp_right (List.mem_cons_of_mem _), fun topic found =>
      (topics topic found).imp fun _ => .imp_left (List.mem_cons_of_mem _)⟩
  | case3 line rest held solid ih =>
    rcases List.mem_cons.mp member with rfl | later
    · refine ⟨headed held rfl, .inl rfl, fun topic found =>
        ⟨line, List.mem_cons_self, by simpa using solid, ?_⟩⟩
      exact (Option.mem_some_iff.mp found).symm
    · obtain ⟨mark, place, topics⟩ := ih later (by simp)
      exact ⟨mark, .inr (List.mem_cons_of_mem _ (place.resolve_left (by simp))),
        fun topic found => (topics topic found).imp fun _ => .imp_left (List.mem_cons_of_mem _)⟩
  | case4 line rest mark ih =>
    obtain ⟨marks, place, topics⟩ := ih member (by simpa using mark)
    refine ⟨marks, .inr ?_, fun topic found => (topics topic found).imp fun _ =>
      .imp_left (List.mem_cons_of_mem _)⟩
    rcases place with here | later
    · rw [← Option.mem_some_iff.mp here]
      exact List.mem_cons_self
    · exact List.mem_cons_of_mem _ later
  | case5 line rest _ ih =>
    obtain ⟨marks, place, topics⟩ := ih member (by simp)
    exact ⟨marks, .inr (List.mem_cons_of_mem _ (place.resolve_left (by simp))),
      fun topic found => (topics topic found).imp fun _ => .imp_left (List.mem_cons_of_mem _)⟩

theorem mem_shown {parts : List (List Char × Option (List Char))}
    (known : ∀ part ∈ parts, part ∈ sections lang content) (member : line ∈ parts.flatMap shown) :
    line = [] ∨ line ∈ splitlines content ∨
      ∃ source ∈ splitlines content, line = firstSentence source := by
  obtain ⟨part, there, inside⟩ := List.mem_flatMap.mp member
  obtain ⟨_, place, topics⟩ := mem_sectionsFrom lang (known part there) (by simp)
  rcases List.mem_cons.mp inside with rfl | topic
  · exact .inr (.inl (place.resolve_left (by simp)))
  · cases found : part.2 with
    | none => simp [found] at topic
    | some first =>
      obtain ⟨source, taken, _, same⟩ := topics first found
      simp only [found, Option.elim_some, List.mem_cons, List.not_mem_nil, or_false] at topic
      rcases topic with rfl | rfl
      · exact .inr (.inr ⟨source, taken, same⟩)
      · exact .inl rfl

theorem length_shown {parts : List (List Char × Option (List Char))}
    (topics : ∀ part ∈ parts, part.2.isSome = true) :
    (parts.flatMap shown).length = 3 * parts.length := by
  induction parts with
  | nil => rfl
  | cons part parts ih =>
    obtain ⟨topic, found⟩ := Option.isSome_iff_exists.mp (topics part List.mem_cons_self)
    rw [List.flatMap_cons, List.length_append, ih fun other member =>
      topics other (List.mem_cons_of_mem _ member)]
    simp only [shown, found, Option.elim_some, List.length_cons, List.length_nil]
    omega

/-- The lines of some sections, the last of which has a topic: all but the last empty line. -/
theorem length_trim_shown {front : List (List Char × Option (List Char))} {heading topic : List Char}
    (topics : ∀ part ∈ front, part.2.isSome = true)
    (headed : ∀ part ∈ front, isBlank part.1 = false) (begins : isBlank heading = false)
    (some : isBlank topic = false) :
    (trim isBlank ((front ++ [(heading, Option.some topic)]).flatMap shown)).length =
      3 * front.length + 2 := by
  have count := length_shown topics
  have lines : (front ++ [(heading, Option.some topic)]).flatMap shown = front.flatMap shown ++
      [heading, topic] ++ [[]] := by
    simp [shown]
  rw [lines]
  apply le_antisymm
  · refine (length_trim_empty _).trans ?_
    rw [List.length_append, count]
    rfl
  · cases front with
    | nil => exact @length_trim_ge heading topic [] [[]] begins some
    | cons part front =>
      obtain ⟨first, found⟩ := Option.isSome_iff_exists.mp (topics part List.mem_cons_self)
      have long :=
        @length_trim_ge part.1 topic ([first, []] ++ front.flatMap shown ++ [heading]) [[]]
          (headed part List.mem_cons_self) some
      have same : (part :: front).flatMap shown ++ [heading, topic] ++ [[]] =
          part.1 :: ([first, []] ++ front.flatMap shown ++ [heading]) ++ topic :: [[]] := by
        simp [shown, found]
      rw [same]
      refine le_trans ?_ long
      simp only [List.length_append, List.length_cons, List.length_nil,
        length_shown fun other member => topics other (List.mem_cons_of_mem _ member)]
      omega

theorem header_count :
    (trim isBlank (((sections lang content).take ((maxLines + 2) / 3)).flatMap shown)).length ≤
    maxLines ↔
    (maxLines % 3 = 1 → ∀ part, (sections lang content)[maxLines / 3]? = some part → part.2 = none) := by
  have marks : ∀ part ∈ sections lang content, isBlank part.1 = false :=
    fun part member => isBlank_of_isHeading lang (mem_sectionsFrom lang member (by simp)).1
  have whole := List.take_append_drop ((maxLines + 2) / 3) (sections lang content)
  rcases List.eq_nil_or_concat' ((sections lang content).take ((maxLines + 2) / 3)) with none
    | ⟨front, last, parts⟩
  · refine iff_of_true (by rw [none]; exact Nat.zero_le _) fun rest part found => ?_
    have inside := (List.getElem?_eq_some_iff.mp found).1
    rw [List.take_eq_nil_iff] at none
    rcases none with zero | empty
    · omega
    · simp [empty] at inside
  · rw [parts] at whole
    have topics : ∀ part ∈ front, part.2.isSome = true := by
      intro part member
      apply topics_dropLast lang none (splitlines content)
      rw [← sections, ← whole, List.append_assoc, List.dropLast_append_of_ne_nil (by simp)]
      exact List.mem_append_left _ member
    have inside : ∀ part ∈ front ++ [last], part ∈ sections lang content := by
      intro part member
      rw [← whole]
      exact List.mem_append_left _ member
    have few : front.length + 1 ≤ (maxLines + 2) / 3 := by
      have size := congrArg List.length parts
      rw [List.length_take, List.length_append, List.length_singleton] at size
      omega
    have place : (sections lang content)[front.length]? = some last := by
      rw [← whole, List.append_assoc, List.getElem?_append_right le_rfl, Nat.sub_self]
      rfl
    have full : (sections lang content)[maxLines / 3]? ≠ none → maxLines % 3 = 1 →
        front.length = maxLines / 3 := by
      intro found rest
      have size := congrArg List.length parts
      rw [List.length_take, List.length_append, List.length_singleton] at size
      rw [Ne, List.getElem?_eq_none_iff] at found
      omega
    rw [parts]
    cases topic : last.2 with
    | none =>
      refine iff_of_true ?_ fun rest part found => ?_
      · have count := length_trim_le ((front ++ [last]).flatMap shown)
        rw [List.flatMap_append, List.flatMap_singleton, List.length_append, length_shown topics] at count
        simp only [shown, topic, Option.elim_none, List.length_cons, List.length_nil] at count
        rw [List.flatMap_append, List.flatMap_singleton]
        simp only [shown, topic, Option.elim_none]
        omega
      · rw [← full (by simp [found]) rest, place] at found
        cases found
        exact topic
    | some first =>
      have some : isBlank first = false := by
        obtain ⟨source, _, solid, same⟩ :=
          (mem_sectionsFrom lang (inside last (by simp)) (by simp)).2.2 first topic
        rw [same]
        exact isBlank_firstSentence solid
      have same : last = (last.1, Option.some first) := by rw [← topic]
      rw [same, length_trim_shown topics (fun part member =>
        marks part (inside part (List.mem_append_left _ member)))
        (marks last (inside last (by simp))) some]
      constructor
      · intro fits rest part found
        have filled := full (by simp [found]) rest
        omega
      · intro all
        by_contra past
        have rest : maxLines % 3 = 1 ∧ front.length = maxLines / 3 := by omega
        have none := all rest.1 last (by rw [← rest.2, place])
        rw [topic] at none
        cases none

theorem header_respects : ((splitlines (shapeSectionHeader lang maxLines content)).length ≤ maxLines ↔
      (maxLines % 3 = 1 → ∀ part, (sections lang content)[maxLines / 3]? = some part → part.2 = none)) ∧
    ∀ line ∈ splitlines (shapeSectionHeader lang maxLines content), isBlank line = false →
      Drawn lang content (strip line) := by
  have lines : headerLines lang maxLines [] false (splitlines content) =
      ((sections lang content).take ((maxLines + 2) / 3)).flatMap shown := by
    rw [(headerLines_eq lang maxLines (splitlines content) []).1]
    rfl
  have known :=
    fun line => @mem_shown F lang content line ((sections lang content).take ((maxLines + 2) / 3))
      fun part => List.mem_of_mem_take
  rw [← header_count]
  simp only [shapeSectionHeader, lines]
  split
  next none =>
    obtain ⟨count, drawn⟩ := head_respects lang maxLines content
    exact ⟨iff_of_true count (by rw [none]; exact Nat.zero_le _), drawn⟩
  · have unbroken : ∀ line ∈ ((sections lang content).take ((maxLines + 2) / 3)).flatMap shown,
        Unbroken line := by
      intro line member
      rcases known line member with rfl | inside | ⟨source, inside, rfl⟩
      · exact unbroken_nil
      · exact unbroken_splitlines content line inside
      · rcases firstSentence_cases source with same | ⟨removed, parts, _⟩
        · rw [same]
          exact unbroken_splitlines content source inside
        · intro c there
          apply unbroken_splitlines content source inside
          rw [← parts]
          exact List.mem_append_left _ there
    refine ⟨by rw [strip, length_strip_join unbroken], pieces_strip unbroken fun line member some => ?_⟩
    rcases known line member with rfl | inside | ⟨source, inside, rfl⟩
    · cases some
    · exact drawn_line lang inside
    · rcases firstSentence_cases source with same | ⟨removed, parts, last, blank⟩
      · rw [same]
        exact drawn_line lang inside
      · exact .inr (.inr ⟨firstSentence source, removed, by rwa [parts], last, blank, rfl⟩)

end Headers

section Shapes
variable {F : Type} [LinearOrder F] (lang : Language F) (maxLines : Nat)

/-- A shape respects its cap exactly when no part of it ends just at the cap with a further part behind. -/
theorem respects_iff (content : List Char) (shape : String) :
    Respects lang maxLines content shape ↔ Fits lang maxLines content shape := by
  unfold Respects uncounted
  by_cases code : shape = "code_contiguous"
  · subst code
    obtain ⟨count, drawn⟩ := code_respects lang maxLines content
    simp only [applyShape, if_true, count, and_iff_left drawn]
    exact ⟨fun fits => ⟨fun _ => fits, fun other => absurd other (by decide), fun other =>
      absurd other (by decide)⟩, fun fits => fits.code rfl⟩
  by_cases fact : shape = "fact_chunk"
  · subst fact
    obtain ⟨count, drawn⟩ := fact_respects lang maxLines content
    simp only [applyShape, if_neg code, if_true, Nat.zero_add, count, and_iff_left drawn]
    exact ⟨fun fits => ⟨fun other => absurd other code, fun _ => fits, fun other =>
      absurd other (by decide)⟩, fun fits => fits.fact rfl⟩
  by_cases header : shape = "section_header"
  · subst header
    obtain ⟨count, drawn⟩ := header_respects lang maxLines content
    have apart : ¬ "section_header" = "decision_summary" := by decide
    simp only [applyShape, if_neg code, if_neg fact, if_neg apart, if_true, Nat.zero_add, count,
      and_iff_left drawn]
    exact ⟨fun fits => ⟨fun other => absurd other code, fun other => absurd other fact, fun _ =>
      fits⟩, fun fits => fits.header rfl⟩
  refine iff_of_true ?_ ⟨fun other => absurd other code, fun other => absurd other fact,
    fun other => absurd other header⟩
  simp only [applyShape, if_neg code, if_neg fact, if_neg header, Nat.zero_add]
  split
  · exact decision_respects lang maxLines content
  · split <;> exact head_respects lang maxLines content

/-- The paragraphs are read in their order where there are no words to count. -/
def plain : Language Nat := ⟨fun c => c.isAlphanum, Char.isDigit, fun _ _ => 0⟩

/-- The registered `search` shape has two lines too many behind a paragraph of fifty. -/
theorem long_paragraph_over :
    ¬ Respects plain 50 (join (List.replicate 50 ['x']) ++ "\n\ny\nz\n".toList) "fact_chunk" := by
  intro respects
  have count : (splitlines (applyShape plain 50 (join (List.replicate 50 ['x']) ++ "\n\ny\nz\n".toList) "fact_chunk")).length = 52 := by
    decide +kernel
  have cap := respects.1
  rw [count] at cap
  exact absurd cap (by decide)

end Shapes
end TokenPak.Vault.ChunkShaping
