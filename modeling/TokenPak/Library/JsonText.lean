import Mathlib.Data.Nat.Digits.Lemmas
import TokenPak.Library.Json
import TokenPak.Library.Lookup

/-! What is printed is read back. The parts of a text are scanned one behind the other, so
each scanner is shown to stop where the printer stopped. -/

namespace TokenPak.Library

section Numbers
variable {text rest used left : List Char}

def Ends (rest : List Char) : Prop := ∀ c ∈ rest.head?, c = ',' ∨ c = ']' ∨ c = '\x7d'

theorem ends_nil : Ends [] := by simp [Ends]

theorem Ends.head {c : Char} (ends : Ends (c :: rest)) : c = ',' ∨ c = ']' ∨ c = '\x7d' := ends c rfl

def Undigit (rest : List Char) : Prop := ∀ c ∈ rest.head?, isDigit c = false

theorem Ends.undigit (ends : Ends rest) : Undigit rest := by
  intro c first
  rcases ends c first with rfl | rfl | rfl <;> decide

theorem takeWhile_undigit (undigit : Undigit rest) :
    (text ++ rest).takeWhile isDigit = text.takeWhile isDigit := by
  induction text with
  | nil =>
    cases rest with
    | nil => rfl
    | cons c rest => simp [undigit c rfl]
  | cons c text ih =>
    rw [List.cons_append, List.takeWhile_cons, List.takeWhile_cons, ih]

theorem dropWhile_undigit (undigit : Undigit rest) :
    (text ++ rest).dropWhile isDigit = text.dropWhile isDigit ++ rest := by
  induction text with
  | nil =>
    cases rest with
    | nil => rfl
    | cons c rest => simp [undigit c rfl]
  | cons c text ih =>
    rw [List.cons_append, List.dropWhile_cons, List.dropWhile_cons, ih]
    split <;> rfl

theorem scanNatural_append (undigit : Undigit rest) (found : scanNatural text = some (used, left)) :
    scanNatural (text ++ rest) = some (used, left ++ rest) := by
  unfold scanNatural at found
  split at found
  · cases found
    rfl
  next c digits unzero =>
    split at found
    next digit =>
      cases found
      rw [List.cons_append]
      unfold scanNatural
      split
      next same => exact absurd (List.cons.inj same).1 (by simpa using unzero)
      next same =>
        obtain ⟨rfl, rfl⟩ := List.cons.inj same
        rw [if_pos digit, takeWhile_undigit undigit, dropWhile_undigit undigit]
      next same => cases same
    · cases found
  · cases found

theorem scanInteger_append (undigit : Undigit rest) (found : scanInteger text = some (used, left)) :
    scanInteger (text ++ rest) = some (used, left ++ rest) := by
  unfold scanInteger at found
  split at found
  · obtain ⟨⟨digits, behind⟩, scanned, same⟩ := Option.map_eq_some_iff.mp found
    cases same
    rw [List.cons_append, scanInteger, scanNatural_append undigit scanned]
    rfl
  next unsigned =>
    cases text with
    | nil => cases found
    | cons c text =>
      have plain : c ≠ '-' := fun same => unsigned text (by rw [same])
      have scanned := scanNatural_append undigit found
      rw [List.cons_append] at scanned ⊢
      unfold scanInteger
      split
      next same => exact absurd (List.cons.inj same).1 plain
      · exact scanned

theorem scanFraction_append (ends : Ends rest) :
    scanFraction (text ++ rest) = ((scanFraction text).1, (scanFraction text).2 ++ rest) := by
  cases text with
  | nil =>
    cases rest with
    | nil => rfl
    | cons c rest => rcases ends.head with rfl | rfl | rfl <;> rfl
  | cons c text =>
    by_cases point : c = '.'
    · subst point
      simp only [List.cons_append, scanFraction, takeWhile_undigit ends.undigit,
        dropWhile_undigit ends.undigit]
      split <;> rfl
    · simp [scanFraction, point]

theorem scanSign_append (ends : Ends rest) :
    scanSign (text ++ rest) = ((scanSign text).1, (scanSign text).2 ++ rest) := by
  cases text with
  | nil =>
    cases rest with
    | nil => rfl
    | cons c rest => rcases ends.head with rfl | rfl | rfl <;> rfl
  | cons c text =>
    by_cases plus : c = '+'
    · subst plus
      rfl
    · by_cases minus : c = '-'
      · subst minus
        rfl
      · simp [scanSign, plus, minus]

theorem scanExponent_append (ends : Ends rest) :
    scanExponent (text ++ rest) = ((scanExponent text).1, (scanExponent text).2 ++ rest) := by
  cases text with
  | nil =>
    cases rest with
    | nil => rfl
    | cons c rest => rcases ends.head with rfl | rfl | rfl <;> simp [scanExponent]
  | cons c text =>
    simp only [List.cons_append, scanExponent, scanSign_append ends, takeWhile_undigit ends.undigit,
      dropWhile_undigit ends.undigit]
    split <;> rfl

theorem scanNumber_append (ends : Ends rest) (whole : scanNumber text = some (text, [])) :
    scanNumber (text ++ rest) = some (text, rest) := by
  unfold scanNumber at whole
  split at whole
  next used left scanned =>
    simp only [Option.some.injEq, Prod.mk.injEq] at whole
    simp only [scanNumber, scanInteger_append ends.undigit scanned, scanFraction_append ends,
      scanExponent_append ends, whole.1,
      whole.2, List.nil_append]
  next unscanned =>
    obtain ⟨word, found, same⟩ := Option.map_eq_some_iff.mp whole
    obtain rfl : word = text := (Prod.mk.inj same).1
    have member := List.mem_of_find?_eq_some found
    simp only [numberWords, List.mem_cons, List.not_mem_nil, or_false] at member
    rcases member with rfl | rfl | rfl <;> rfl

theorem scanNumber_head {found : List Char × List Char} (scanned : scanNumber text = some found) :
    ∃ c rest, text = c :: rest ∧ (isDigit c = true ∨ c = '-' ∨ c = 'N' ∨ c = 'I') := by
  cases text with
  | nil => simp [scanNumber, scanInteger, scanNatural, numberWords] at scanned
  | cons c text =>
    refine ⟨c, text, rfl, ?_⟩
    by_cases minus : c = '-'
    · exact .inr (.inl minus)
    by_cases digit : isDigit c = true
    · exact .inl digit
    have unscanned : scanInteger (c :: text) = none := by
      unfold scanInteger
      split
      next same => exact absurd (List.cons.inj same).1 minus
      · unfold scanNatural
        split
        next same =>
          rw [(List.cons.inj same).1] at digit
          exact absurd rfl digit
        next same =>
          obtain ⟨rfl, rfl⟩ := List.cons.inj same
          exact if_neg digit
        · rfl
    simp only [scanNumber, unscanned] at scanned
    obtain ⟨word, named, _⟩ := Option.map_eq_some_iff.mp scanned
    have starts := List.find?_some named
    have member := List.mem_of_find?_eq_some named
    simp only [numberWords, List.mem_cons, List.not_mem_nil, or_false] at member
    rcases member with rfl | rfl | rfl
    · simp [List.isPrefixOf] at starts
      exact .inr (.inr (.inl starts.1.symm))
    · simp [List.isPrefixOf] at starts
      exact .inr (.inr (.inr starts.1.symm))
    · simp [List.isPrefixOf] at starts
      exact absurd starts.1.symm minus

end Numbers

namespace Json

section Strings
variable {rest : List Char}

theorem hexValue_hexDigit {n : Nat} (small : n < 16) : hexValue (hexDigit n) = some n := by
  have all : ∀ n < 16, hexValue (hexDigit n) = some n := by decide
  exact all n small

theorem scanUnits_unitEscape {n : Nat} (small : n < 0x10000) :
    scanUnits (unitEscape n ++ rest) = (scanUnits rest).map fun found => (n :: found.1, found.2) := by
  have first : hexValue (hexDigit (n / 0x1000 % 16)) = some (n / 0x1000 % 16) := hexValue_hexDigit (by omega)
  have second : hexValue (hexDigit (n / 0x100 % 16)) = some (n / 0x100 % 16) := hexValue_hexDigit (by omega)
  have third : hexValue (hexDigit (n / 0x10 % 16)) = some (n / 0x10 % 16) := hexValue_hexDigit (by omega)
  have fourth : hexValue (hexDigit (n % 16)) = some (n % 16) := hexValue_hexDigit (by omega)
  have value : ((n / 0x1000 % 16 * 16 + n / 0x100 % 16) * 16 + n / 0x10 % 16) * 16 + n % 16 = n := by omega
  simp only [unitEscape, List.cons_append, List.nil_append, scanUnits, first, second, third, fourth, value]

def scannedUnits (ascii : Bool) (c : Char) : List Nat :=
  if (shortEscapes.find? (·.1 = c)).isNone ∧
    (c < ' ' ∨ ascii = true ∧ '~' < c) then codeUnits c.toNat else [c.toNat]

theorem codeUnits_small {n unit : Nat} (member : unit ∈ codeUnits n) : unit < 0x10000 := by
  unfold codeUnits at member
  split at member
  · rw [List.mem_singleton.mp member]
    assumption
  · simp only [List.mem_cons, List.not_mem_nil, or_false] at member
    omega

theorem scanUnits_unitEscapes {units : List Nat} (small : ∀ unit ∈ units, unit < 0x10000) :
    scanUnits (units.flatMap unitEscape ++ rest) = (scanUnits rest).map fun found =>
      (units ++ found.1, found.2) := by
  induction units with
  | nil => simp
  | cons unit units ih =>
    rw [List.flatMap_cons, List.append_assoc, scanUnits_unitEscape (small unit List.mem_cons_self),
      ih fun other member => small other (List.mem_cons_of_mem _ member), Option.map_map]
    rfl

theorem scanUnits_escape (ascii : Bool) (c : Char) :
    scanUnits (escape ascii c ++ rest) = (scanUnits rest).map fun found =>
      (scannedUnits ascii c ++ found.1, found.2) := by
  cases short : shortEscapes.find? (·.1 = c) with
  | some entry =>
    obtain ⟨raw, letter⟩ := entry
    have same : raw = c := by simpa using List.find?_some short
    have member := List.mem_of_find?_eq_some short
    subst same
    simp only [escape, scannedUnits, short, Option.isNone_some, Bool.false_eq_true, false_and, if_false]
    simp only [shortEscapes, List.mem_cons, Prod.mk.injEq, List.not_mem_nil, or_false] at member
    rcases member with ⟨rfl, rfl⟩ | ⟨rfl, rfl⟩ | ⟨rfl, rfl⟩ | ⟨rfl, rfl⟩ | ⟨rfl, rfl⟩ | ⟨rfl, rfl⟩
      | ⟨rfl, rfl⟩ <;>
      simp [scanUnits, unescape, shortEscapes]
  | none =>
    by_cases long : c < ' ' ∨ ascii = true ∧ '~' < c
    · simp only [escape, scannedUnits, short, long, Option.isNone_none, if_true, and_self]
      exact scanUnits_unitEscapes fun unit => codeUnits_small
    · have apart := List.find?_eq_none.mp short
      have quote : c ≠ '"' := fun same => apart ('"', '"') (by decide) (by simp [same])
      have slash : c ≠ '\\' := fun same => apart ('\\', '\\') (by decide) (by simp [same])
      have printable : ¬ c < ' ' := fun control => long (.inl control)
      simp only [escape, scannedUnits, short, long, if_false, and_false]
      rw [List.singleton_append, scanUnits.eq_def]
      split
      · cases ‹_ = []›
      next same => exact absurd (List.cons.inj same).1 quote
      next same => exact absurd (List.cons.inj same).1 slash
      next same => exact absurd (List.cons.inj same).1 slash
      next same =>
        obtain ⟨rfl, rfl⟩ := List.cons.inj same
        simp [printable, slash]

theorem scanUnits_escapes (ascii : Bool) (text : List Char) :
    scanUnits (text.flatMap (escape ascii) ++ '"' :: rest) =
      some (text.flatMap (scannedUnits ascii), rest) := by
  induction text with
  | nil => simp [scanUnits]
  | cons c text ih =>
    rw [List.flatMap_cons, List.append_assoc, scanUnits_escape, ih]
    rfl

theorem scalar_bounds (c : Char) : c.toNat < 0xd800 ∨ 0xdfff < c.toNat ∧ c.toNat < 0x110000 := by
  rcases c.valid with low | high
  · exact .inl low
  · exact .inr high

theorem joinUnits_scalar (c : Char) (units : List Nat) :
    joinUnits (c.toNat :: units) = (joinUnits units).map fun text => c :: text := by
  have bounds := scalar_bounds c
  have high : isHigh c.toNat = false := by
    simp only [isHigh, Bool.and_eq_false_iff, decide_eq_false_iff_not]
    omega
  have low : isLow c.toNat = false := by
    simp only [isLow, Bool.and_eq_false_iff, decide_eq_false_iff_not]
    omega
  rw [joinUnits.eq_def]
  simp only [high, low, Bool.false_eq_true, if_false, Char.ofNat_toNat]

theorem joinUnits_codeUnits (c : Char) (units : List Nat) :
    joinUnits (codeUnits c.toNat ++ units) = (joinUnits units).map fun text => c :: text := by
  unfold codeUnits
  split
  · exact joinUnits_scalar c units
  next large =>
    have bounds := scalar_bounds c
    have high : isHigh (0xd800 + (c.toNat - 0x10000) / 0x400 % 0x400) = true := by
      simp only [isHigh, Bool.and_eq_true, decide_eq_true_eq]
      omega
    have low : isLow (0xdc00 + (c.toNat - 0x10000) % 0x400) = true := by
      simp only [isLow, Bool.and_eq_true, decide_eq_true_eq]
      omega
    have value : 0x10000 + (0xd800 + (c.toNat - 0x10000) / 0x400 % 0x400 - 0xd800) * 0x400 +
        (0xdc00 + (c.toNat - 0x10000) % 0x400 - 0xdc00) = c.toNat := by omega
    rw [List.cons_append, List.singleton_append, joinUnits.eq_def]
    simp only [high, low, if_true, value, Char.ofNat_toNat]

theorem joinUnits_scanned (ascii : Bool) (text : List Char) :
    joinUnits (text.flatMap (scannedUnits ascii)) = some text := by
  induction text with
  | nil => rfl
  | cons c text ih =>
    have one : joinUnits (scannedUnits ascii c ++ text.flatMap (scannedUnits ascii)) =
        (joinUnits (text.flatMap (scannedUnits ascii))).map fun text => c :: text := by
      unfold scannedUnits
      split
      · exact joinUnits_codeUnits c _
      · exact joinUnits_scalar c _
    rw [List.flatMap_cons, one, ih]
    rfl

theorem scanString_print (ascii : Bool) (text : String) :
    scanString (text.toList.flatMap (escape ascii) ++ '"' :: rest) = some (text, rest) := by
  simp [scanString, scanUnits_escapes, joinUnits_scanned]

end Strings

section Objects
variable {Value : Type} {entries : List (String × Value)}

theorem collapse_nodup (entries : List (String × Value)) :
    ((collapse entries).map Prod.fst).Nodup :=
  Dict.unique _

theorem collapse_of_nodup (distinct : (entries.map Prod.fst).Nodup) : collapse entries = entries := by
  have grows (dict : Dict String Value) (apart : (dict.entries ++ entries).map Prod.fst |>.Nodup) :
      (entries.foldl (fun dict entry => dict.set entry.1 entry.2) dict).entries = dict.entries ++
          entries := by
    clear distinct
    induction entries generalizing dict with
    | nil => simp
    | cons entry entries ih =>
      have fresh : entry.1 ∉ dict.entries.map Prod.fst := by
        rw [List.map_append, List.map_cons] at apart
        intro taken
        exact (List.nodup_append.mp apart).2.2 _ taken _ List.mem_cons_self rfl
      have added : (dict.set entry.1 entry.2).entries = dict.entries ++ [entry] := by simp [Dict.set, fresh]
      rw [List.foldl_cons, ih _ (by simpa [added] using apart), added, List.append_assoc]
      rfl
  simpa [collapse, toDict, Dict.empty] using grows Dict.empty (by simpa [Dict.empty] using distinct)

theorem mem_foldl_set {dict : Dict String Value} {entry : String × Value}
    (member : entry ∈ (entries.foldl (fun dict entry => dict.set entry.1 entry.2) dict).entries) :
    entry ∈ dict.entries ∨ entry ∈ entries := by
  induction entries generalizing dict with
  | nil => exact .inl member
  | cons first entries ih =>
    rcases ih member with before | later
    · rcases Dict.mem_entries_set before with old | new
      · exact .inl old
      · exact .inr (new ▸ List.mem_cons_self)
    · exact .inr (List.mem_cons_of_mem _ later)

theorem mem_collapse {entry : String × Value} (member : entry ∈ collapse entries) : entry ∈ entries := by
  rcases mem_foldl_set member with before | there
  · simp [Dict.empty] at before
  · exact there

end Objects

variable {N S : Type}

/-! The objects of a value have one entry for each key. -/
mutual
def Proper : Json N S → Prop
  | .null | .bool _ | .number _ | .string _ => True
  | .array items => ProperItems items
  | .object entries => (entries.map Prod.fst).Nodup ∧ ProperEntries entries

def ProperItems : List (Json N S) → Prop
  | [] => True
  | item :: items => item.Proper ∧ ProperItems items

def ProperEntries : List (S × Json N S) → Prop
  | [] => True
  | (_, value) :: entries => value.Proper ∧ ProperEntries entries
end

theorem properItems_iff {items : List (Json N S)} : ProperItems items ↔ ∀ item ∈ items, item.Proper := by
  induction items with
  | nil => simp [ProperItems]
  | cons item items ih => simp [ProperItems, ih]

theorem properEntries_iff {entries : List (S × Json N S)} :
    ProperEntries entries ↔ ∀ entry ∈ entries, entry.2.Proper := by
  induction entries with
  | nil => simp [ProperEntries]
  | cons entry entries ih => simp [ProperEntries, ih]

section Lookup
variable {entries : List (String × Json N)} {key : String} {value : Json N}

theorem lookup_toDict (distinct : (entries.map Prod.fst).Nodup) (key : String) :
    entries.lookup key = (toDict entries).get key := by
  have same : (toDict entries).entries = entries := collapse_of_nodup distinct
  rw [Dict.get, same]
  clear same distinct
  induction entries with
  | nil => rfl
  | cons entry entries ih =>
    rw [List.lookup_cons, List.find?_cons]
    by_cases here : entry.1 = key
    · simp [here]
    · have apart : (key == entry.1) = false := by simpa using Ne.symm here
      simp only [apart, here, decide_false, ih]

theorem lookup_entries (dict : Dict String (Json N)) (key : String) :
    dict.entries.lookup key = dict.get key := by
  have same : toDict dict.entries = dict := Dict.ext_entries (collapse_of_nodup dict.unique)
  rw [lookup_toDict dict.unique, same]

theorem proper_lookup (proper : (Json.object entries).Proper)
    (found : entries.lookup key = some value) : value.Proper := by
  obtain ⟨distinct, values⟩ := proper
  have same : (toDict entries).entries = entries := collapse_of_nodup distinct
  rw [lookup_toDict distinct] at found
  exact properEntries_iff.mp values (key, value) (same ▸ Dict.mem_entries found)

end Lookup

/-! The rounds that the parser needs for a value. -/
mutual
def rounds : Json N S → Nat
  | .null | .bool _ | .number _ | .string _ => 1
  | .array items => 1 + itemRounds items
  | .object entries => 1 + entryRounds entries

def itemRounds : List (Json N S) → Nat
  | [] => 0
  | item :: items => 1 + item.rounds + itemRounds items

def entryRounds : List (S × Json N S) → Nat
  | [] => 0
  | (_, value) :: entries => 1 + value.rounds + entryRounds entries
end

section Values
variable [Numerals N] {style : Style} {rest : List Char}

theorem printNumber_head (n : N) : ∃ c text, Numerals.print n = c :: text ∧
    (isDigit c = true ∨ c = '-' ∨ c = 'N' ∨ c = 'I') :=
  scanNumber_head (Numerals.scan_print n)

theorem print_head (style : Style) (value : Json N) : ∃ c text, value.print style = c :: text ∧
    isBlank c = false ∧ c ≠ ']' ∧ c ≠ '\x7d' := by
  cases value with
  | null => exact ⟨'n', _, rfl, by decide⟩
  | bool value => cases value <;> exact ⟨_, _, rfl, by decide⟩
  | number n =>
    obtain ⟨c, text, printed, kind⟩ := printNumber_head n
    refine ⟨c, text, printed, ?_⟩
    rcases kind with digit | rfl | rfl | rfl
    · refine ⟨?_, ?_, ?_⟩
      · by_contra blank
        simp only [isBlank, Bool.not_eq_false, Bool.or_eq_true, decide_eq_true_eq] at blank
        rcases blank with ((rfl | rfl) | rfl) | rfl <;> simp [isDigit] at digit
      · rintro rfl
        simp [isDigit] at digit
      · rintro rfl
        simp [isDigit] at digit
    · decide
    · decide
    · decide
  | string value => exact ⟨'"', _, rfl, by decide⟩
  | array items =>
    cases items <;> exact ⟨'[', _, rfl, by decide⟩
  | object entries =>
    cases entries <;> exact ⟨'\x7b', _, rfl, by decide⟩

theorem skip_print (value : Json N) : skip (value.print style ++ rest) = value.print style ++ rest := by
  obtain ⟨c, text, printed, solid, _⟩ := print_head style value
  simp [printed, skip, solid]

theorem skip_solid {c : Char} (solid : isBlank c = false) (text : List Char) :
    skip (c :: text) = c :: text := by
  simp [skip, solid]

theorem skip_behind (spaced : Bool) {text : List Char} (solid : skip text = text) :
    skip ((if spaced then [' '] else []) ++ text) = text := by
  cases spaced with
  | false => exact solid
  | true =>
    change List.dropWhile isBlank (' ' :: text) = text
    rw [List.dropWhile_cons_of_pos (by decide)]
    exact solid

theorem comma_eq : style.comma = ',' :: (if style.spaced then [' '] else []) := by
  unfold Style.comma
  split <;> rfl

theorem colon_eq : style.colon = ':' :: (if style.spaced then [' '] else []) := by
  unfold Style.colon
  split <;> rfl

theorem parseWord_number (ends : Ends rest) (n : N) :
    parseWord (Numerals.print n ++ rest) = some ((.number n : Json N), rest) := by
  obtain ⟨c, text, printed, kind⟩ := printNumber_head n
  have word : c ≠ 'n' ∧ c ≠ 't' ∧ c ≠ 'f' := by
    rcases kind with digit | rfl | rfl | rfl
    · refine ⟨?_, ?_, ?_⟩ <;>
      · rintro rfl
        simp [isDigit] at digit
    · decide
    · decide
    · decide
  have scanned := scanNumber_append ends (Numerals.scan_print n)
  rw [printed] at scanned ⊢
  simp only [List.cons_append] at scanned ⊢
  simp [parseWord, List.isPrefixOf, word.1.symm, word.2.1.symm, word.2.2.symm, scanned, ← printed,
    Numerals.read_print]

theorem parseValue_number (ends : Ends rest) (n : N) (more : Nat) :
    parseValue (more + 1) (Numerals.print n ++ rest) = some ((.number n : Json N), rest) := by
  rw [← parseWord_number ends n]
  obtain ⟨c, text, printed, kind⟩ := printNumber_head n
  have value : c ≠ '"' ∧ c ≠ '[' ∧ c ≠ '\x7b' := by
    rcases kind with digit | rfl | rfl | rfl
    · refine ⟨?_, ?_, ?_⟩ <;>
      · rintro rfl
        simp [isDigit] at digit
    · decide
    · decide
    · decide
  rw [printed, List.cons_append, parseValue.eq_def]
  split
  · contradiction
  next _ same => exact absurd (List.cons.inj same).1 value.1
  next _ same => exact absurd (List.cons.inj same).1 value.2.1
  next _ same => exact absurd (List.cons.inj same).1 value.2.2
  · rfl

/-- The items of an array up to its closing bracket. -/
def printList (style : Style) : List (Json N) → List Char
  | [] => [']']
  | item :: items => item.print style ++ printItems style items

def printMembers (style : Style) : List (String × Json N) → List Char
  | [] => ['\x7d']
  | (key, value) :: entries =>
      printString style.ascii key ++ style.colon ++ value.print style ++ printEntries style entries

theorem printItems_eq (items : List (Json N)) : printItems style items =
    match items with
    | [] => [']']
    | items => style.comma ++ printList style items := by
  cases items <;> simp [printItems, printList]

theorem printEntries_eq (entries : List (String × Json N)) : printEntries style entries =
    match entries with
    | [] => ['\x7d']
    | entries => style.comma ++ printMembers style entries := by
  cases entries <;> simp [printEntries, printMembers]

theorem ends_printItems (items : List (Json N)) : Ends (printItems style items ++ rest) := by
  rw [printItems_eq]
  cases items with
  | nil => simp [Ends]
  | cons item items => simp [Ends, comma_eq]

theorem ends_printEntries (entries : List (String × Json N)) : Ends (printEntries style entries ++ rest) := by
  rw [printEntries_eq]
  cases entries with
  | nil => simp [Ends]
  | cons item items => simp [Ends, comma_eq]

structure Reads (style : Style) (N : Type) [Numerals N] (rounds : Nat) : Prop where
  value : ∀ (value : Json N) rest, value.Proper → value.rounds ≤ rounds → Ends rest →
    parseValue rounds (value.print style ++ rest) = some (value, rest)
  items : ∀ (items : List (Json N)) rest, items ≠ [] → ProperItems items → itemRounds items ≤ rounds →
    parseItems rounds (printList style items ++ rest) = some (items, rest)
  entries : ∀ (entries : List (String × Json N)) rest, entries ≠ [] → ProperEntries entries →
    entryRounds entries ≤ rounds →
    parseEntries rounds (printMembers style entries ++ rest) = some (entries, rest)

theorem parseValue_object {entries : List (String × Json N)} {more : Nat}
    (distinct : (entries.map Prod.fst).Nodup)
    (read : entries ≠ [] → parseEntries more (printMembers style entries ++ rest) = some (entries, rest)) :
    parseValue (more + 1) ((object entries).print style ++ rest) = some (object entries, rest) := by
  cases entries with
  | nil => rfl
  | cons entry entries =>
    obtain ⟨key, value⟩ := entry
    have found := read (by simp)
    have quoted : ∃ text, printMembers style ((key, value) :: entries) ++ rest = '"' :: text := by
      simp [printMembers, printString]
    obtain ⟨text, printed⟩ := quoted
    change parseValue (more + 1) ('\x7b' :: (printMembers style ((key, value) :: entries) ++ rest)) = _
    rw [printed] at found ⊢
    rw [parseValue, skip_solid (by decide)]
    split
    next same => exact absurd (List.cons.inj same).1 (by decide)
    · rw [found, Option.map_some, collapse_of_nodup distinct]

omit [Numerals N] in
theorem rounds_pos (value : Json N S) : 0 < value.rounds := by
  cases value <;> simp only [rounds] <;> omega

theorem Reads.next {more : Nat} (reads : Reads style N more) : Reads style N (more + 1) where
  value value rest proper enough ends := by
    cases value with
    | null => rfl
    | bool value => cases value <;> rfl
    | number n => exact parseValue_number ends n more
    | string text =>
      simp only [print, printString, List.cons_append, List.append_assoc, List.nil_append,
        parseValue, scanString_print,
        Option.map_some]
    | array items =>
      cases items with
      | nil => rfl
      | cons item items =>
        have bound : itemRounds (item :: items) ≤ more := by
          simp only [rounds] at enough
          omega
        have read := reads.items (item :: items) rest (by simp) proper bound
        have first : skip (printList style (item :: items) ++ rest) = printList style (item :: items) ++ rest := by
          rw [printList, List.append_assoc]
          exact skip_print item
        obtain ⟨c, text, printed, _, open_, _⟩ := print_head style item
        change parseValue (more + 1) ('[' :: (printList style (item :: items) ++ rest)) = _
        rw [parseValue, first]
        rw [printList, printed, List.cons_append, List.cons_append] at read ⊢
        split
        next same => exact absurd (List.cons.inj same).1 open_
        · rw [read]
          rfl
    | object entries =>
      apply parseValue_object proper.1
      intro some
      apply reads.entries entries rest some proper.2
      simp only [rounds] at enough
      omega
  items items rest some proper enough := by
    cases items with
    | nil => exact absurd rfl some
    | cons item items =>
      simp only [itemRounds] at enough
      have first :=
        reads.value item (printItems style items ++ rest) proper.1 (by omega)
          (ends_printItems items)
      rw [parseItems, printList, List.append_assoc, first]
      cases items with
      | nil => rfl
      | cons next items =>
        have onward := reads.items (next :: items) rest (by simp) proper.2 (by omega)
        have solid : skip (printList style (next :: items) ++ rest) =
            printList style (next :: items) ++ rest := by
          rw [printList, List.append_assoc]
          exact skip_print next
        simp only [printItems_eq (next :: items), comma_eq, List.cons_append, List.append_assoc]
        rw [skip_solid (by decide)]
        simp only [skip_behind style.spaced solid, onward, Option.map_some]
  entries entries rest some proper enough := by
    cases entries with
    | nil => exact absurd rfl some
    | cons entry entries =>
      obtain ⟨key, value⟩ := entry
      simp only [entryRounds] at enough
      have first :=
        reads.value value (printEntries style entries ++ rest) proper.1 (by omega)
          (ends_printEntries entries)
      have solid : skip (value.print style ++ (printEntries style entries ++ rest)) =
          value.print style ++ (printEntries style entries ++ rest) := skip_print value
      have behind := skip_behind style.spaced solid
      simp only [printMembers, printString, colon_eq, List.cons_append, List.append_assoc,
        List.nil_append, parseEntries,
        scanString_print]
      rw [skip_solid (by decide)]
      simp only [behind, first]
      cases entries with
      | nil => rfl
      | cons next entries =>
        have onward := reads.entries (next :: entries) rest (by simp) proper.2 (by omega)
        have solid : skip (printMembers style (next :: entries) ++ rest) =
            printMembers style (next :: entries) ++ rest := by
          simp only [printMembers, printString, List.cons_append]
          exact skip_solid (by decide) _
        simp only [printEntries_eq (next :: entries), comma_eq, List.cons_append, List.append_assoc]
        rw [skip_solid (by decide)]
        simp only [skip_behind style.spaced solid, onward, Option.map_some]

theorem reads (style : Style) (rounds : Nat) : Reads style N rounds := by
  induction rounds with
  | zero =>
    refine ⟨fun value rest _ enough => ?_, fun items rest some _ enough => ?_,
      fun entries rest some _ enough => ?_⟩
    · have least := rounds_pos value
      omega
    · cases items with
      | nil => exact absurd rfl some
      | cons item items =>
        simp only [itemRounds] at enough
        omega
    · cases entries with
      | nil => exact absurd rfl some
      | cons entry entries =>
        simp only [entryRounds] at enough
        omega
  | succ rounds ih => exact ih.next

mutual
theorem rounds_le_print : (value : Json N) → value.rounds ≤ (value.print style).length
  | .null => by simp [rounds, print]
  | .bool true => by simp [rounds, print]
  | .bool false => by simp [rounds, print]
  | .number n => by
    obtain ⟨c, text, printed, _⟩ := printNumber_head n
    simp [rounds, print, printed]
  | .string text => by simp [rounds, print, printString]
  | .array [] => by simp [rounds, itemRounds, print]
  | .array (item :: items) => by
    have first := rounds_le_print item
    have others := itemRounds_lt_print items
    simp only [rounds, itemRounds, print, List.length_cons, List.length_append]
    omega
  | .object [] => by simp [rounds, entryRounds, print]
  | .object ((key, value) :: entries) => by
    have first := rounds_le_print value
    have others := entryRounds_lt_print entries
    simp only [rounds, entryRounds, print, List.length_cons, List.length_append]
    omega

theorem itemRounds_lt_print : (items : List (Json N)) → itemRounds items < (printItems style items).length
  | [] => by simp [itemRounds, printItems]
  | item :: items => by
    have first := rounds_le_print item
    have others := itemRounds_lt_print items
    simp only [itemRounds, printItems, comma_eq, List.length_cons, List.length_append]
    omega

theorem entryRounds_lt_print :
    (entries : List (String × Json N)) → entryRounds entries < (printEntries style entries).length
  | [] => by simp [entryRounds, printEntries]
  | (key, value) :: entries => by
    have first := rounds_le_print value
    have others := entryRounds_lt_print entries
    simp only [entryRounds, printEntries, comma_eq, List.length_cons, List.length_append]
    omega
end

/-- What is printed is read back. -/
theorem loads_dumps {value : Json N} (proper : value.Proper) : loads (value.dumps style) = some value := by
  have enough : value.rounds ≤ (value.print style).length + 1 := Nat.le_succ_of_le (rounds_le_print value)
  have read := (reads style _).value value [] proper enough ends_nil
  rw [List.append_nil] at read
  have solid : skip (value.print style ++ []) = value.print style ++ [] := skip_print value
  rw [List.append_nil] at solid
  simp only [loads, dumps, solid, read]
  rfl

theorem loads_object {entries : List (String × Json N)} (proper : (object entries).Proper)
    (blank : skip rest = []) :
    loads ((object entries).dumps style ++ rest) = some (object entries) := by
  have enough : (object entries).rounds ≤ ((object entries).print style).length := rounds_le_print _
  have room : (object entries).rounds ≤ ((object entries).print style ++ rest).length + 1 := by
    rw [List.length_append]
    omega
  have read : parseValue (((object entries).print style ++ rest).length + 1)
      ((object entries).print style ++ rest) = some (object entries, rest) := by
    apply parseValue_object proper.1
    intro some
    apply (reads style _).entries entries rest some proper.2
    simp only [rounds] at room
    omega
  have solid : skip ((object entries).print style ++ rest) = (object entries).print style ++ rest :=
    skip_print _
  simp only [loads, dumps, solid, read, blank]
  rfl

end Values

section Members
variable [Numerals N]

theorem key_infix_print {style : Style} {entries : List (String × Json N)} {key : String} {value : Json N}
    (member : (key, value) ∈ entries) :
    printString style.ascii key <:+: (Json.object entries).print style := by
  have others : ∀ entries : List (String × Json N), (key, value) ∈ entries →
      printString style.ascii key <:+: printEntries style entries := by
    intro entries member
    induction entries with
    | nil => exact absurd member List.not_mem_nil
    | cons entry entries ih =>
      obtain ⟨other, held⟩ := entry
      rcases List.mem_cons.mp member with same | there
      · cases same
        simp only [printEntries, List.append_assoc]
        exact (List.prefix_append _ _).isInfix.trans (List.suffix_append _ _).isInfix
      · simp only [printEntries]
        exact (ih there).trans (List.suffix_append _ _).isInfix
  cases entries with
  | nil => exact absurd member List.not_mem_nil
  | cons entry entries =>
    obtain ⟨other, held⟩ := entry
    rw [print]
    rcases List.mem_cons.mp member with same | there
    · cases same
      simp only [List.append_assoc]
      exact (List.prefix_append _ _).isInfix.trans (List.suffix_cons _ _).isInfix
    · exact ((others entries there).trans (List.suffix_append _ _).isInfix).trans (List.suffix_cons _ _).isInfix

end Members
end Json

/-! The integers are numerals. -/
section Integers

def printNatural (n : Nat) : List Char := if n = 0 then ['0'] else (Nat.digits 10 n).reverse.map Json.hexDigit

def readNatural (text : List Char) : Nat := Nat.ofDigits 10 (text.reverse.map fun c => c.toNat - '0'.toNat)

theorem isDigit_hexDigit {n : Nat} (small : n < 10) : isDigit (Json.hexDigit n) = true := by
  have all : ∀ n < 10, isDigit (Json.hexDigit n) = true := by decide
  exact all n small

theorem toNat_hexDigit {n : Nat} (small : n < 10) : (Json.hexDigit n).toNat - '0'.toNat = n := by
  have all : ∀ n < 10, (Json.hexDigit n).toNat - '0'.toNat = n := by decide
  exact all n small

theorem readNatural_print (n : Nat) : readNatural (printNatural n) = n := by
  unfold printNatural
  split
  next zero =>
    subst zero
    decide
  · have same : (Nat.digits 10 n).map ((fun c : Char => c.toNat - '0'.toNat) ∘ Json.hexDigit) =
        Nat.digits 10 n := by
      conv_rhs => rw [← List.map_id (Nat.digits 10 n)]
      apply List.map_congr_left
      intro digit member
      exact toNat_hexDigit (Nat.digits_lt_base (by decide) member)
    rw [readNatural, ← List.map_reverse, List.reverse_reverse, List.map_map, same, Nat.ofDigits_digits]

theorem scanNatural_print (n : Nat) : scanNatural (printNatural n) = some (printNatural n, []) := by
  unfold printNatural
  split
  · rfl
  next positive =>
    have some : Nat.digits 10 n ≠ [] := Nat.digits_ne_nil_iff_ne_zero.mpr positive
    obtain ⟨last, others, split⟩ : ∃ last others, (Nat.digits 10 n).reverse = last :: others :=
      List.exists_cons_of_ne_nil (by simpa using some)
    have small : ∀ digit ∈ last :: others, digit < 10 := by
      intro digit member
      rw [← split, List.mem_reverse] at member
      exact Nat.digits_lt_base (by decide) member
    have nonzero : last ≠ 0 := by
      have leading := Nat.getLast_digit_ne_zero 10 positive
      rw [List.getLast_eq_head_reverse] at leading
      simpa [split] using leading
    have first : Json.hexDigit last ≠ '0' := by
      have all : ∀ n < 10, n ≠ 0 → Json.hexDigit n ≠ '0' := by decide
      exact all last (small last List.mem_cons_self) nonzero
    have digits : ∀ c ∈ others.map Json.hexDigit, isDigit c = true := by
      intro c member
      obtain ⟨digit, there, rfl⟩ := List.mem_map.mp member
      exact isDigit_hexDigit (small digit (List.mem_cons_of_mem _ there))
    rw [split, List.map_cons]
    unfold scanNatural
    split
    next same => exact absurd (List.cons.inj same).1 first
    next same =>
      obtain ⟨rfl, rfl⟩ := List.cons.inj same
      rw [if_pos (isDigit_hexDigit (small last List.mem_cons_self)), List.takeWhile_eq_self_iff.mpr digits,
        List.dropWhile_eq_nil_iff.mpr digits]
    next same => cases same

theorem scanInteger_natural (n : Nat) : scanInteger (printNatural n) = some (printNatural n, []) := by
  have scanned := scanNatural_print n
  unfold scanInteger
  split
  next same =>
    rw [same] at scanned
    simp [scanNatural, isDigit] at scanned
  · exact scanned

theorem scanNumber_of_integer {text : List Char} (scanned : scanInteger text = some (text, [])) :
    scanNumber text = some (text, []) := by
  simp [scanNumber, scanned, scanFraction, scanExponent]

instance : Numerals Int where
  print
    | .ofNat n => printNatural n
    | .negSucc n => '-' :: printNatural (n + 1)
  read
    | '-' :: text => - readNatural text
    | text => readNatural text
  isZero n := n = 0
  integer? n := some n
  scan_print
    | .ofNat n => scanNumber_of_integer (scanInteger_natural n)
    | .negSucc n => by
      apply scanNumber_of_integer
      rw [scanInteger, scanNatural_print]
      rfl
  read_print
    | .ofNat n => by
      have plain : ∀ text, printNatural n ≠ '-' :: text := by
        intro text same
        have scanned := scanNatural_print n
        rw [same] at scanned
        simp [scanNatural, isDigit] at scanned
      simp only [readNatural_print]
      rfl
    | .negSucc n => by
      simp only [readNatural_print]
      rfl

end Integers
end TokenPak.Library

/-! Values whose objects have one entry for each key, after edits of their entries. -/

namespace TokenPak.Library.Json
variable {N : Type} {entries : List (String × Json N)} {key : String} {value : Json N}

end TokenPak.Library.Json
