import TokenPak.Library.JsonText

/-! What the parser accepts: a value whose objects have one entry for each key, from a text
without control characters other than the blanks. -/

namespace TokenPak.Library.Json
variable {N : Type}

section Legal
variable {text rest used left : List Char}

def Legal (used : List Char) : Prop := ∀ c ∈ used, ' ' ≤ c ∨ isBlank c = true

def LegalUpTo (text rest : List Char) : Prop := ∃ used, text = used ++ rest ∧ Legal used

theorem LegalUpTo.refl (text : List Char) : LegalUpTo text text := ⟨[], rfl, by simp [Legal]⟩

theorem LegalUpTo.trans (first : LegalUpTo text left) (second : LegalUpTo left rest) :
    LegalUpTo text rest := by
  obtain ⟨before, rfl, legal⟩ := first
  obtain ⟨after, rfl, others⟩ := second
  refine ⟨before ++ after, (List.append_assoc ..).symm, fun c member => ?_⟩
  rcases List.mem_append.mp member with there | there
  · exact legal c there
  · exact others c there

theorem LegalUpTo.cons {c : Char} (legal : ' ' ≤ c) (others : LegalUpTo text rest) :
    LegalUpTo (c :: text) rest := by
  obtain ⟨used, rfl, tail⟩ := others
  refine ⟨c :: used, rfl, fun d member => ?_⟩
  rcases List.mem_cons.mp member with rfl | there
  · exact .inl legal
  · exact tail d there

theorem legalUpTo_append (legal : ∀ c ∈ used, ' ' ≤ c) : LegalUpTo (used ++ rest) rest :=
  ⟨used, rfl, fun c member => .inl (legal c member)⟩

theorem legalUpTo_skip (text : List Char) : LegalUpTo text (skip text) := by
  refine ⟨text.takeWhile isBlank, List.takeWhile_append_dropWhile.symm, fun c member => .inr ?_⟩
  exact List.mem_takeWhile_imp member

theorem le_of_isDigit {c : Char} (digit : isDigit c = true) : ' ' ≤ c := by
  have least : '0' ≤ c := by
    simp only [isDigit, Bool.and_eq_true, decide_eq_true_eq] at digit
    exact digit.1
  exact Char.le_trans (show ' ' ≤ '0' by decide) least

theorem legalUpTo_digits (text : List Char) : LegalUpTo text (text.dropWhile isDigit) :=
  ⟨text.takeWhile isDigit, List.takeWhile_append_dropWhile.symm,
    fun _ member => .inl (le_of_isDigit (List.mem_takeWhile_imp member))⟩

theorem legalUpTo_natural (found : scanNatural text = some (used, left)) : LegalUpTo text left := by
  unfold scanNatural at found
  split at found
  · cases found
    exact (LegalUpTo.refl _).cons (by decide)
  · split at found
    next digit =>
      cases found
      exact (legalUpTo_digits _).cons (le_of_isDigit digit)
    · cases found
  · cases found

theorem legalUpTo_integer (found : scanInteger text = some (used, left)) : LegalUpTo text left := by
  unfold scanInteger at found
  split at found
  · obtain ⟨⟨digits, behind⟩, scanned, same⟩ := Option.map_eq_some_iff.mp found
    cases same
    exact (legalUpTo_natural scanned).cons (by decide)
  · exact legalUpTo_natural found

theorem legalUpTo_fraction (text : List Char) : LegalUpTo text (scanFraction text).2 := by
  unfold scanFraction
  split
  · split
    · exact LegalUpTo.refl _
    · exact (legalUpTo_digits _).cons (by decide)
  · exact LegalUpTo.refl _

theorem legalUpTo_sign (text : List Char) : LegalUpTo text (scanSign text).2 := by
  unfold scanSign
  split
  · exact (LegalUpTo.refl _).cons (by decide)
  · exact (LegalUpTo.refl _).cons (by decide)
  · exact LegalUpTo.refl _

theorem legalUpTo_exponent (text : List Char) : LegalUpTo text (scanExponent text).2 := by
  unfold scanExponent
  split
  · exact LegalUpTo.refl _
  next c text =>
    split
    next letter =>
      have legal : ' ' ≤ c := by
        rcases letter.1 with rfl | rfl <;> decide
      exact ((legalUpTo_sign text).trans (legalUpTo_digits _)).cons legal
    · exact LegalUpTo.refl _

theorem legalUpTo_word {word : List Char} (legal : word.all (fun c => ' ' ≤ c) = true)
    (starts : word.isPrefixOf text = true) : LegalUpTo text (text.drop word.length) := by
  obtain ⟨rest, rfl⟩ := List.isPrefixOf_iff_prefix.mp starts
  rw [List.drop_left]
  apply legalUpTo_append
  intro c member
  simpa using List.all_eq_true.mp legal c member

theorem legalUpTo_number (found : scanNumber text = some (used, left)) : LegalUpTo text left := by
  unfold scanNumber at found
  split at found
  next scanned =>
    cases found
    exact ((legalUpTo_integer scanned).trans (legalUpTo_fraction _)).trans (legalUpTo_exponent _)
  · obtain ⟨word, named, same⟩ := Option.map_eq_some_iff.mp found
    obtain ⟨rfl, rfl⟩ := Prod.mk.inj same
    have legal : ∀ word ∈ numberWords, word.all (fun c => ' ' ≤ c) = true := by decide
    have starts : word.isPrefixOf text = true := by simpa using List.find?_some named
    exact legalUpTo_word (legal word (List.mem_of_find?_eq_some named)) starts

theorem le_of_hexValue {c : Char} {n : Nat} (hex : hexValue c = some n) : ' ' ≤ c := by
  unfold hexValue at hex
  split at hex
  next digit => exact Char.le_trans (show ' ' ≤ '0' by decide) digit.1
  · split at hex
    next letter => exact Char.le_trans (show ' ' ≤ 'a' by decide) letter.1
    · split at hex
      next letter => exact Char.le_trans (show ' ' ≤ 'A' by decide) letter.1
      · cases hex

theorem le_of_unescape {c : Char} {n : Nat} (short : unescape c = some n) : ' ' ≤ c := by
  unfold unescape at short
  split at short
  next slash => exact slash ▸ (by decide)
  · obtain ⟨entry, found, _⟩ := Option.map_eq_some_iff.mp short
    have same : entry.2 = c := by simpa using List.find?_some found
    have legal : ∀ entry ∈ shortEscapes, ' ' ≤ entry.2 := by decide
    exact same ▸ legal entry (List.mem_of_find?_eq_some found)

theorem legalUpTo_units {units : List Nat} (found : scanUnits text = some (units, left)) :
    LegalUpTo text left := by
  induction length : text.length using Nat.strong_induction_on generalizing text units with
  | _ n ih =>
    subst length
    rw [scanUnits.eq_def] at found
    split at found
    · cases found
    · cases found
      exact (LegalUpTo.refl _).cons (by decide)
    next a b c d rest =>
      split at found
      next va vb vc vd ha hb hc hd =>
        obtain ⟨⟨others, behind⟩, scanned, same⟩ := Option.map_eq_some_iff.mp found
        cases same
        have tail : LegalUpTo rest behind :=
          ih rest.length (by simp only [List.length_cons]; omega) scanned rfl
        have digits := ((tail.cons (le_of_hexValue hd)).cons (le_of_hexValue hc)).cons (le_of_hexValue hb)
        exact ((digits.cons (le_of_hexValue ha)).cons (by decide)).cons (by decide)
      · cases found
    next c rest _ =>
      split at found
      next unit short =>
        obtain ⟨⟨others, behind⟩, scanned, same⟩ := Option.map_eq_some_iff.mp found
        cases same
        have tail : LegalUpTo rest behind :=
          ih rest.length (by simp only [List.length_cons]; omega) scanned rfl
        exact (tail.cons (le_of_unescape short)).cons (by decide)
      · cases found
    next c rest _ _ _ =>
      split at found
      · cases found
      next plain =>
        obtain ⟨⟨others, behind⟩, scanned, same⟩ := Option.map_eq_some_iff.mp found
        cases same
        have tail : LegalUpTo rest behind := ih rest.length (by simp) scanned rfl
        exact tail.cons (Char.not_lt.mp fun control => plain (.inl control))

theorem legalUpTo_string {value : String} (found : scanString text = some (value, left)) :
    LegalUpTo text left := by
  obtain ⟨⟨units, behind⟩, scanned, joined⟩ := Option.bind_eq_some_iff.mp found
  obtain ⟨chars, _, same⟩ := Option.map_eq_some_iff.mp joined
  cases same
  exact legalUpTo_units scanned

variable [Numerals N]

theorem parseWord_sound {value : Json N} (found : parseWord text = some (value, rest)) :
    value.Proper ∧ LegalUpTo text rest := by
  unfold parseWord at found
  split at found
  next starts =>
    cases found
    exact ⟨trivial, legalUpTo_word (by decide) starts⟩
  · split at found
    next starts =>
      cases found
      exact ⟨trivial, legalUpTo_word (by decide) starts⟩
    · split at found
      next starts =>
        cases found
        exact ⟨trivial, legalUpTo_word (by decide) starts⟩
      · obtain ⟨⟨used, behind⟩, scanned, same⟩ := Option.map_eq_some_iff.mp found
        cases same
        exact ⟨trivial, legalUpTo_number scanned⟩

/-- What a number of rounds reads is proper and legal. -/
structure Sound (N : Type) [Numerals N] (rounds : Nat) : Prop where
  value : ∀ text (value : Json N) rest, parseValue rounds text = some (value, rest) → value.Proper ∧
    LegalUpTo text rest
  items : ∀ text (items : List (Json N)) rest, parseItems rounds text = some (items, rest) →
    ProperItems items ∧ LegalUpTo text rest
  entries : ∀ text (entries : List (String × Json N)) rest, parseEntries rounds text = some (entries, rest) →
    ProperEntries entries ∧ LegalUpTo text rest

theorem Sound.next {more : Nat} (sound : Sound N more) : Sound N (more + 1) where
  value text value rest found := by
    rw [parseValue.eq_def] at found
    split at found
    · cases found
    · obtain ⟨⟨string, behind⟩, scanned, same⟩ := Option.map_eq_some_iff.mp found
      cases same
      exact ⟨trivial, (legalUpTo_string scanned).cons (by decide)⟩
    next rounds text same =>
      cases same
      have before := (legalUpTo_skip text).cons (c := '[') (by decide)
      split at found
      next behind empty =>
        cases found
        rw [empty] at before
        exact ⟨trivial, before.trans ((LegalUpTo.refl _).cons (by decide))⟩
      · obtain ⟨⟨items, behind⟩, scanned, same⟩ := Option.map_eq_some_iff.mp found
        cases same
        obtain ⟨proper, legal⟩ := sound.items _ _ _ scanned
        exact ⟨proper, before.trans legal⟩
    next rounds text same =>
      cases same
      have before := (legalUpTo_skip text).cons (c := '\x7b') (by decide)
      split at found
      next behind empty =>
        cases found
        rw [empty] at before
        exact ⟨⟨List.nodup_nil, trivial⟩, before.trans ((LegalUpTo.refl _).cons (by decide))⟩
      · obtain ⟨⟨entries, behind⟩, scanned, same⟩ := Option.map_eq_some_iff.mp found
        cases same
        obtain ⟨proper, legal⟩ := sound.entries _ _ _ scanned
        refine ⟨⟨collapse_nodup entries, properEntries_iff.mpr fun entry member => ?_⟩, before.trans legal⟩
        exact properEntries_iff.mp proper entry (mem_collapse member)
    · exact parseWord_sound found
  items text items rest found := by
    rw [parseItems.eq_def] at found
    split at found
    · cases found
    next rounds text same =>
      cases same
      split at found
      · cases found
      next item behind first =>
        obtain ⟨proper, legal⟩ := sound.value _ _ _ first
        have onward := legal.trans (legalUpTo_skip behind)
        split at found
        next left comma =>
          obtain ⟨⟨others, last⟩, scanned, same⟩ := Option.map_eq_some_iff.mp found
          cases same
          obtain ⟨others, tail⟩ := sound.items _ _ _ scanned
          rw [comma] at onward
          exact ⟨⟨proper, others⟩, onward.trans (((legalUpTo_skip left).trans tail).cons (by decide))⟩
        next left closed =>
          cases found
          rw [closed] at onward
          exact ⟨⟨proper, trivial⟩, onward.trans ((LegalUpTo.refl _).cons (by decide))⟩
        · cases found
  entries text entries rest found := by
    rw [parseEntries.eq_def] at found
    split at found
    · cases found
    next rounds text same =>
      cases same
      split at found
      · cases found
      next key behind first =>
        have named := ((legalUpTo_string first).cons (c := '"') (by decide)).trans (legalUpTo_skip behind)
        split at found
        next left colon =>
          rw [colon] at named
          have before := named.trans ((legalUpTo_skip left).cons (by decide))
          split at found
          · cases found
          next value after parsed =>
            obtain ⟨proper, legal⟩ := sound.value _ _ _ parsed
            have onward := (before.trans legal).trans (legalUpTo_skip after)
            split at found
            next left comma =>
              obtain ⟨⟨others, last⟩, scanned, same⟩ := Option.map_eq_some_iff.mp found
              cases same
              obtain ⟨others, tail⟩ := sound.entries _ _ _ scanned
              rw [comma] at onward
              exact ⟨⟨proper, others⟩, onward.trans (((legalUpTo_skip left).trans tail).cons (by decide))⟩
            next left closed =>
              cases found
              rw [closed] at onward
              exact ⟨⟨proper, trivial⟩, onward.trans ((LegalUpTo.refl _).cons (by decide))⟩
            · cases found
        · cases found
    · cases found

theorem sound (rounds : Nat) : Sound N rounds := by
  induction rounds with
  | zero =>
    refine ⟨fun text value rest found => ?_, fun text items rest found => ?_,
      fun text entries rest found => ?_⟩
    · rw [parseValue] at found
      cases found
    · rw [parseItems] at found
      cases found
    · rw [parseEntries] at found
      cases found
  | succ rounds ih => exact ih.next

theorem loads_nil : (loads [] : Option (Json N)) = none := by
  simp [loads, skip, parseValue, parseWord, scanNumber, scanInteger, scanNatural, numberWords]

theorem loads_sound {value : Json N} (found : loads text = some value) : value.Proper ∧ Legal text := by
  unfold loads at found
  split at found
  next parsed behind scanned =>
    split at found
    next empty =>
      cases found
      obtain ⟨proper, legal⟩ := (sound _).value _ _ _ scanned
      have whole := ((legalUpTo_skip text).trans legal).trans (legalUpTo_skip behind)
      rw [empty] at whole
      obtain ⟨used, same, all⟩ := whole
      rw [List.append_nil] at same
      exact ⟨proper, same ▸ all⟩
    · cases found
  · cases found

end Legal

end TokenPak.Library.Json
