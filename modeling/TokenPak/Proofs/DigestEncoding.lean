import TokenPak.SpendGuard.UsageAnchor

/-! What the walk feeds to the hash is the encoding of the value without its cache controls and with
its keys in order. Every piece of it begins with a tag and a number that tell where it ends, so that
the encoding can be read off any text that starts with it. A printed text gives its code units
away, and these the code points, unless a high surrogate stands before a low one. -/

namespace TokenPak.SpendGuard.UsageAnchor
open Library Json StableSort

variable {N : Type}

/-! The value after every cache control at every depth is deleted. -/
mutual
def stripped : Tree N → Tree N
  | .null => .null
  | .bool value => .bool value
  | .number value => .number value
  | .string value => .string value
  | .array items => .array (strippedItems items)
  | .object entries => .object (strippedEntries entries)

def strippedItems : List (Tree N) → List (Tree N)
  | [] => []
  | item :: items => stripped item :: strippedItems items

def strippedEntries : List (Points × Tree N) → List (Points × Tree N)
  | [] => []
  | (key, value) :: entries =>
    if key = cacheControl then strippedEntries entries
      else (key, stripped value) :: strippedEntries entries
end

def canonical (value : Tree N) : Tree N := (stripped value).sortKeys

section Canonical

theorem strippedItems_eq (items : List (Tree N)) : strippedItems items = items.map stripped := by
  induction items with
  | nil => rfl
  | cons item items ih => rw [strippedItems, ih, List.map_cons]

theorem strippedEntries_eq (entries : List (Points × Tree N)) :
    strippedEntries entries = (entries.filter fun entry =>
      entry.1 ≠ cacheControl).map fun entry => (entry.1, stripped entry.2) := by
  induction entries with
  | nil => rfl
  | cons entry entries ih =>
      by_cases control : entry.1 = cacheControl <;> simp [strippedEntries, control, ih]

theorem canonical_array (items : List (Tree N)) :
    canonical (.array items) = .array (items.map canonical) := by
  simp only [canonical, stripped, sortKeys, sortItems_eq, strippedItems_eq, List.map_map]
  rfl

theorem canonical_object (entries : List (Points × Tree N)) :
    canonical (.object entries) = .object ((counted entries).map fun entry =>
      (entry.1, canonical entry.2)) := by
  simp only [canonical, stripped, sortKeys, sortValues_eq, strippedEntries_eq, List.map_map, sortBy_map]
  rfl

mutual
theorem proper_stripped : (value : Tree N) → value.Proper → (stripped value).Proper
  | .null, _ | .bool _, _ | .number _, _ | .string _, _ => trivial
  | .array items, proper => properItems_stripped items proper
  | .object entries, proper => by
    refine ⟨?_, properEntries_stripped entries proper.2⟩
    rw [strippedEntries_eq, List.map_map]
    exact (List.filter_sublist.map Prod.fst).nodup proper.1

theorem properItems_stripped : (items : List (Tree N)) → ProperItems items → ProperItems (strippedItems items)
  | [], _ => trivial
  | item :: items, proper => ⟨proper_stripped item proper.1, properItems_stripped items proper.2⟩

theorem properEntries_stripped : (entries : List (Points × Tree N)) → ProperEntries entries →
    ProperEntries (strippedEntries entries)
  | [], _ => trivial
  | (key, value) :: entries, proper => by
    rw [strippedEntries]
    split
    · exact properEntries_stripped entries proper.2
    · exact ⟨proper_stripped value proper.1, properEntries_stripped entries proper.2⟩
end

/-- No high surrogate stands directly before a low one: no two code points of the
text print as one. -/
def Separate (text : Points) : Prop :=
  text.IsChain fun first second => ¬ (isHigh first.val = true ∧ isLow second.val = true)

/-! All texts of the value are separate. -/
mutual
def Unpaired : Tree N → Prop
  | .null | .bool _ | .number _ => True
  | .string text => Separate text
  | .array items => UnpairedItems items
  | .object entries => UnpairedEntries entries

def UnpairedItems : List (Tree N) → Prop
  | [] => True
  | item :: items => Unpaired item ∧ UnpairedItems items

def UnpairedEntries : List (Points × Tree N) → Prop
  | [] => True
  | (key, value) :: entries => Separate key ∧ Unpaired value ∧ UnpairedEntries entries
end

theorem unpairedItems_iff {items : List (Tree N)} : UnpairedItems items ↔ ∀ item ∈ items, Unpaired item := by
  induction items with
  | nil => simp [UnpairedItems]
  | cons item items ih => simp [UnpairedItems, ih]

theorem unpairedEntries_iff {entries : List (Points × Tree N)} :
    UnpairedEntries entries ↔ ∀ entry ∈ entries, Separate entry.1 ∧ Unpaired entry.2 := by
  induction entries with
  | nil => simp [UnpairedEntries]
  | cons entry entries ih => simp [UnpairedEntries, ih, and_assoc]

mutual
theorem unpaired_canonical : (value : Tree N) → Unpaired value → Unpaired (canonical value)
  | .null, _ | .bool _, _ | .number _, _ => trivial
  | .string _, separate => separate
  | .array items, unpaired => by
    rw [canonical_array, Unpaired, unpairedItems_iff]
    intro item member
    obtain ⟨source, inside, rfl⟩ := List.mem_map.mp member
    exact unpairedItems_canonical items unpaired source inside
  | .object entries, unpaired => by
    rw [canonical_object, Unpaired, unpairedEntries_iff]
    intro entry member
    obtain ⟨source, inside, rfl⟩ := List.mem_map.mp member
    exact unpairedEntries_canonical entries unpaired source (List.mem_of_mem_filter (sortBy_perm.mem_iff.mp inside))

theorem unpairedItems_canonical : (items : List (Tree N)) → UnpairedItems items →
    ∀ item ∈ items, Unpaired (canonical item)
  | [], _ => by simp
  | item :: items, unpaired => by
    rw [List.forall_mem_cons]
    exact ⟨unpaired_canonical item unpaired.1, unpairedItems_canonical items unpaired.2⟩

theorem unpairedEntries_canonical : (entries : List (Points × Tree N)) → UnpairedEntries entries →
    ∀ entry ∈ entries, Separate entry.1 ∧ Unpaired (canonical entry.2)
  | [], _ => by simp
  | (key, value) :: entries, unpaired => by
    rw [List.forall_mem_cons]
    exact ⟨⟨unpaired.1, unpaired_canonical value unpaired.2.1⟩, unpairedEntries_canonical entries unpaired.2.2⟩
end

end Canonical

section Points
variable {rest : List Char} {p q : Fin 0x110000} {first second more : Points}

def units (text : Points) : List Nat := text.flatMap fun point => codeUnits point.val

theorem scannedUnits_ascii (c : Char) : scannedUnits true c = codeUnits c.toNat := by
  unfold scannedUnits
  split
  · rfl
  next plain =>
    have short : ∀ pair ∈ shortEscapes, pair.1.toNat < 0x10000 := by decide
    have small : c.toNat < 0x10000 := by
      cases found : shortEscapes.find? (·.1 = c) with
      | some pair =>
        have here := List.find?_some found
        have same : pair.1 = c := of_decide_eq_true here
        exact same ▸ short pair (List.mem_of_find?_eq_some found)
      | none =>
        have below : c ≤ '~' := by
          simp only [found, Option.isNone_none, true_and, not_or, not_lt] at plain
          exact plain.2
        have bound : c.toNat ≤ '~'.toNat := below
        exact Nat.lt_of_le_of_lt bound (by decide)
    rw [codeUnits, if_pos small]

theorem scanUnits_pointEscape : scanUnits (pointEscape p ++ rest) =
    (scanUnits rest).map fun found => (codeUnits p.val ++ found.1, found.2) := by
  unfold pointEscape
  split
  next valid =>
    have value : (Char.ofNat p.val).toNat = p.val := by rw [Char.ofNat, dif_pos valid]; rfl
    rw [scanUnits_escape, scannedUnits_ascii, value]
  next lone =>
    have small : p.val < 0x10000 := by
      have bound := p.isLt
      unfold Nat.isValidChar at lone
      omega
    rw [scanUnits_unitEscape small, codeUnits, if_pos small]
    rfl

theorem scanUnits_points (text : Points) :
    scanUnits (text.flatMap pointEscape ++ '"' :: rest) = some (units text, rest) := by
  induction text with
  | nil => simp [scanUnits, units]
  | cons point text ih =>
    rw [List.flatMap_cons, List.append_assoc, scanUnits_pointEscape, ih]
    rfl

theorem units_cons : units (p :: first) = codeUnits p.val ++ units first := List.flatMap_cons

/-- A code point of one unit and the next one are not read as one of two units. -/
theorem units_apart (small : p.val < 0x10000) (large : ¬ q.val < 0x10000) (separate : Separate (p :: first)) :
    units (p :: first) ≠ units (q :: second) := by
  intro same
  have bound := q.isLt
  rw [units_cons, units_cons, codeUnits, codeUnits, if_pos small, if_neg large, List.cons_append,
    List.nil_append, List.cons_append, List.cons_append, List.cons.injEq] at same
  obtain ⟨high, same⟩ := same
  have upper : isHigh p.val = true := by
    rw [high, isHigh, Bool.and_eq_true, decide_eq_true_eq, decide_eq_true_eq]
    omega
  cases first with
  | nil => cases same
  | cons r first =>
    have next := (List.isChain_cons_cons.mp separate).1
    rw [units_cons, codeUnits] at same
    split at same
    · obtain ⟨low, -⟩ := List.cons.inj same
      refine next ⟨upper, ?_⟩
      rw [low, isLow, Bool.and_eq_true, decide_eq_true_eq, decide_eq_true_eq]
      omega
    · obtain ⟨low, -⟩ := List.cons.inj same
      have inside := r.isLt
      omega

theorem units_inj : (first second : Points) → Separate first → Separate second →
    units first = units second → first = second
  | [], [], _, _, _ => rfl
  | [], q :: second, _, _, same => by
    rw [units_cons, codeUnits] at same
    split at same <;> cases same
  | p :: first, [], _, _, same => by
    rw [units_cons, codeUnits] at same
    split at same <;> cases same
  | p :: first, q :: second, separate, apart, same => by
    by_cases small : p.val < 0x10000
    · by_cases other : q.val < 0x10000
      · rw [units_cons, units_cons, codeUnits, codeUnits, if_pos small, if_pos other] at same
        obtain ⟨here, rest⟩ := List.cons.inj same
        rw [Fin.ext here, units_inj first second separate.tail apart.tail rest]
      · exact absurd same (units_apart small other separate)
    · by_cases other : q.val < 0x10000
      · exact absurd same.symm (units_apart other small apart)
      · rw [units_cons, units_cons, codeUnits, codeUnits, if_neg small, if_neg other] at same
        obtain ⟨high, same⟩ := List.cons.inj same
        obtain ⟨low, rest⟩ := List.cons.inj same
        have here : p.val = q.val := by
          have bound := p.isLt
          have limit := q.isLt
          omega
        rw [Fin.ext here, units_inj first second separate.tail apart.tail rest]

end Points

variable [Numerals N]

/-! The encoding of a value as it stands. -/
mutual
def encode : Tree N → List Char
  | .null => scalar (.null : Tree N)
  | .bool value => scalar (.bool value : Tree N)
  | .number value => scalar (.number value)
  | .string value => scalar (.string value : Tree N)
  | .array items => tag 'l' items.length ++ encodeItems items
  | .object entries => tag 'd' entries.length ++ encodeEntries entries

def encodeItems : List (Tree N) → List Char
  | [] => []
  | item :: items => encode item ++ encodeItems items

def encodeEntries : List (Points × Tree N) → List Char
  | [] => []
  | (key, value) :: entries => scalar (.string key : Tree N) ++ (encode value ++ encodeEntries entries)
end

section Walk

theorem encodeItems_map (change : Tree N → Tree N) (items : List (Tree N)) :
    encodeItems (items.map change) = items.flatMap fun item => encode (change item) := by
  induction items with
  | nil => rfl
  | cons item items ih => rw [List.map_cons, encodeItems, ih, List.flatMap_cons]

theorem encodeEntries_map (entries : List (Points × Tree N)) :
    encodeEntries (entries.map fun entry => (entry.1, canonical entry.2)) =
      (pushed entries).flatMap fun item => encode (canonical item) := by
  induction entries with
  | nil => rfl
  | cons entry entries ih =>
    have rest : pushed (entry :: entries) = .string entry.1 :: entry.2 :: pushed entries := rfl
    rw [List.map_cons, encodeEntries, ih, rest, List.flatMap_cons, List.flatMap_cons]
    rfl

/-- The walk encodes what lies on its stack. -/
theorem walk_eq (stack : List (Tree N)) : walk stack = stack.flatMap fun item => encode (canonical item) := by
  induction stack using walk.induct with
  | case1 => rw [walk]; rfl
  | case2 entries stack ih =>
    rw [walk, ih, List.flatMap_cons, canonical_object, encode, encodeEntries_map, List.length_map,
      List.flatMap_append, List.append_assoc]
  | case3 items stack ih =>
    rw [walk, ih, List.flatMap_cons, canonical_array, encode, encodeItems_map, List.length_map,
      List.flatMap_append, List.append_assoc]
  | case4 item stack notObject notArray ih =>
    rw [List.flatMap_cons, ← ih]
    cases item with
    | array items => exact absurd rfl (notArray items)
    | object entries => exact absurd rfl (notObject entries)
    | _ => simp only [walk]; rfl

end Walk

section Reading
variable {rest more : List Char}

theorem digits_printNatural (n : Nat) : ∀ c ∈ printNatural n, c ≠ ':' := by
  intro c member colon
  subst colon
  have digit : isDigit ':' = true := by
    unfold printNatural at member
    split at member
    · cases List.mem_singleton.mp member
    · obtain ⟨d, inside, same⟩ := List.mem_map.mp member
      rw [← same]
      exact isDigit_hexDigit (Nat.digits_lt_base (by omega) (List.mem_reverse.mp inside))
  revert digit
  decide

theorem tag_inj {x y : Char} {n m : Nat} (same : tag x n ++ rest = tag y m ++ more) :
    x = y ∧ n = m ∧ rest = more := by
  have before : ∀ n rest, (printNatural n ++ ':' :: rest).takeWhile (· ≠ ':') = printNatural n := by
    intro n rest
    rw [List.takeWhile_append_of_pos fun c member => by simpa using digits_printNatural n c member]
    simp
  simp only [tag, List.cons_append, List.append_assoc, List.nil_append, List.cons.injEq] at same
  obtain ⟨letters, same⟩ := same
  have number : printNatural n = printNatural m := by rw [← before n rest, same, before]
  have value : n = m := by rw [← readNatural_print n, number, readNatural_print]
  refine ⟨letters, value, ?_⟩
  rw [number] at same
  exact (List.cons.inj (List.append_cancel_left same)).2

def letter : Tree N → Char
  | .array _ => 'l'
  | .object _ => 'd'
  | _ => 'v'

/-- The item without texts, of which the parser reads back what is printed. -/
def plain : Tree N → Option (Json N)
  | .null => some .null
  | .bool value => some (.bool value)
  | .number value => some (.number value)
  | _ => none

theorem dumpsItem_plain {item : Tree N} {value : Json N} (same : plain item = some value) :
    loads (dumpsItem item) = some value := by
  cases item with
  | null | bool | number =>
    cases same
    exact loads_dumps trivial
  | _ => cases same

omit [Numerals N] in
theorem plain_inj {item other : Tree N} {value : Json N} (first : plain item = some value)
    (second : plain other = some value) : item = other := by
  cases item with
  | null | bool | number =>
    cases first
    cases other <;> cases second
    rfl
  | _ => cases first

theorem loads_string (text : Points) {value : Json N} (same : loads (dumpsItem (.string text : Tree N)) = some value) :
    ∃ read, value = .string read := by
  have scanned : scanString (text.flatMap pointEscape ++ ['"']) =
      (joinUnits (units text)).map fun chars => (String.ofList chars, []) := by
    rw [scanString, scanUnits_points]
    rfl
  have solid : skip (dumpsItem (.string text : Tree N)) = '"' :: (text.flatMap pointEscape ++ ['"']) := rfl
  rw [loads, solid, parseValue, scanned] at same
  cases joined : joinUnits (units text) with
  | none =>
    rw [joined] at same
    cases same
  | some chars =>
    rw [joined] at same
    exact ⟨_, (Option.some.inj same).symm⟩

omit [Numerals N] in
theorem plain_of_letter {item : Tree N} (item_scalar : letter item = 'v') :
    (∃ value, plain item = some value ∧ ∀ read, value ≠ .string read) ∨ ∃ text, item = .string text := by
  cases item with
  | null | bool | number => exact .inl ⟨_, rfl, by simp⟩
  | string text => exact .inr ⟨text, rfl⟩
  | array | object => exact absurd item_scalar (by simp [letter])

theorem dumpsItem_inj {item other : Tree N} (item_scalar : letter item = 'v') (other_scalar : letter other = 'v')
    (first : Unpaired item) (second : Unpaired other) (same : dumpsItem item = dumpsItem other) : item = other := by
  obtain ⟨value, read, bare⟩ | ⟨text, rfl⟩ := plain_of_letter item_scalar
  · have loaded := dumpsItem_plain read
    obtain ⟨another, again, -⟩ | ⟨text, rfl⟩ := plain_of_letter other_scalar
    · rw [same, dumpsItem_plain again] at loaded
      exact plain_inj read (again.trans loaded)
    · rw [same] at loaded
      obtain ⟨string, equal⟩ := loads_string text loaded
      exact absurd equal (bare string)
  · obtain ⟨another, again, bare⟩ | ⟨more, rfl⟩ := plain_of_letter other_scalar
    · have loaded := dumpsItem_plain again
      rw [← same] at loaded
      obtain ⟨string, equal⟩ := loads_string text loaded
      exact absurd equal (bare string)
    · have scanned : scanUnits (text.flatMap pointEscape ++ ['"']) = some (units text, []) := scanUnits_points text
      rw [(List.cons.inj same).2, scanUnits_points] at scanned
      rw [units_inj text more first second (Prod.mk.inj (Option.some.inj scanned)).1.symm]

theorem scalar_inj {item other : Tree N} (item_scalar : letter item = 'v') (other_scalar : letter other = 'v')
    (first : Unpaired item) (second : Unpaired other)
    (same : scalar item ++ rest = scalar other ++ more) : item = other ∧ rest = more := by
  rw [scalar, scalar, List.append_assoc, List.append_assoc] at same
  obtain ⟨-, size, texts⟩ := tag_inj same
  obtain ⟨text, rests⟩ := List.append_inj texts size
  exact ⟨dumpsItem_inj item_scalar other_scalar first second text, rests⟩

theorem encode_head (value : Tree N) (rest : List Char) :
    (encode value ++ rest).head? = some (letter value) := by
  cases value <;> rfl

mutual
/-- An encoding is read off any text that starts with it. -/
theorem encode_inj : (value : Tree N) → {other : Tree N} → {rest more : List Char} →
    Unpaired value → Unpaired other →
    encode value ++ rest = encode other ++ more → value = other ∧ rest = more
  | .null, other, rest, more, first, second, same | .bool _, other, rest, more, first, second, same
  | .number _, other, rest, more, first, second, same | .string _, other, rest, more, first, second, same => by
    have heads := encode_head other more
    rw [← same, encode_head] at heads
    cases other with
    | array items => exact absurd heads (by simp [letter])
    | object entries => exact absurd heads (by simp [letter])
    | _ => exact scalar_inj rfl rfl first second same
  | .array items, other, rest, more, first, second, same => by
    have heads := encode_head other more
    rw [← same, encode_head] at heads
    cases other with
    | array others =>
      rw [encode, encode, List.append_assoc, List.append_assoc] at same
      obtain ⟨-, size, same⟩ := tag_inj same
      obtain ⟨whole, rests⟩ := encodeItems_inj items size first second same
      exact ⟨by rw [whole], rests⟩
    | _ => exact absurd heads (by simp [letter])
  | .object entries, other, rest, more, first, second, same => by
    have heads := encode_head other more
    rw [← same, encode_head] at heads
    cases other with
    | object others =>
      rw [encode, encode, List.append_assoc, List.append_assoc] at same
      obtain ⟨-, size, same⟩ := tag_inj same
      obtain ⟨whole, rests⟩ := encodeEntries_inj entries size first second same
      exact ⟨by rw [whole], rests⟩
    | _ => exact absurd heads (by simp [letter])

theorem encodeItems_inj :
    (items : List (Tree N)) → {others : List (Tree N)} → {rest more : List Char} →
    items.length = others.length → UnpairedItems items → UnpairedItems others →
    encodeItems items ++ rest = encodeItems others ++ more → items = others ∧ rest = more
  | [], [], rest, more, _, _, _, same => ⟨rfl, same⟩
  | item :: items, other :: others, rest, more, size, first, second, same => by
    rw [encodeItems, encodeItems, List.append_assoc, List.append_assoc] at same
    obtain ⟨head, same⟩ := encode_inj item first.1 second.1 same
    obtain ⟨whole, rests⟩ := encodeItems_inj items (Nat.succ.inj size) first.2 second.2 same
    exact ⟨by rw [head, whole], rests⟩

theorem encodeEntries_inj : (entries : List (Points × Tree N)) → {others : List (Points × Tree N)} →
    {rest more : List Char} →
    entries.length = others.length → UnpairedEntries entries → UnpairedEntries others →
    encodeEntries entries ++ rest = encodeEntries others ++ more → entries = others ∧ rest = more
  | [], [], rest, more, _, _, _, same => ⟨rfl, same⟩
  | (key, value) :: entries, (name, other) :: others, rest, more, size, first, second, same => by
    simp only [encodeEntries, List.append_assoc] at same
    have own : Unpaired (.string key : Tree N) := first.1
    have foreign : Unpaired (.string name : Tree N) := second.1
    obtain ⟨keys, same⟩ := scalar_inj rfl rfl own foreign same
    obtain ⟨head, same⟩ := encode_inj value first.2.1 second.2.1 same
    obtain ⟨whole, rests⟩ := encodeEntries_inj entries (Nat.succ.inj size) first.2.2 second.2.2 same
    cases keys
    exact ⟨by rw [head, whole], rests⟩
end

end Reading

theorem walk_single (value : Tree N) : walk [value] = encode (canonical value) := by
  rw [walk_eq, List.flatMap_cons, List.flatMap_nil, List.append_nil]

/-- Without collisions of the hash, values without paired surrogates have one digest
exactly when they are alike without their cache controls. -/
theorem digest_identifies {Digest : Type} (sha256 : List Char → Digest)
    (collisionFree : Function.Injective sha256) (a b : Tree N)
    (proper : a.Proper) (first : Unpaired a) (second : Unpaired b) :
    digest sha256 a = digest sha256 b ↔ (stripped a).Alike (stripped b) := by
  rw [alike_iff _ (proper_stripped a proper)]
  rw [digest, digest, collisionFree.eq_iff, walk_single, walk_single]
  constructor
  · intro same
    exact (encode_inj (canonical a) (unpaired_canonical a first) (unpaired_canonical b second)
      (congrArg (· ++ []) same)).1
  · intro same
    exact congrArg encode same

section Sample

def plainText : Tree Int :=
  .object [(points "type", .string (points "text")), (points "text", .string (points "hi"))]

def cachedText : Tree Int :=
  .object [(cacheControl, .object [(points "type", .string (points "ephemeral"))]),
    (points "text", .string (points "hi")), (points "type", .string (points "text"))]

theorem cachedText_identified : digest id cachedText = digest id plainText := by
  have proper : cachedText.Proper := by
    refine ⟨by decide, ⟨⟨by decide, trivial, trivial⟩, trivial, trivial, trivial⟩⟩
  have first : Unpaired cachedText := by
    simp only [cachedText, Unpaired, UnpairedEntries, Separate]
    decide
  have second : Unpaired plainText := by
    simp only [plainText, Unpaired, UnpairedEntries, Separate]
    decide
  refine (digest_identifies id Function.injective_id cachedText plainText proper first second).mpr ?_
  exact (alike_iff _ (proper_stripped _ proper)).mpr (by rfl)

/-- A high surrogate before a low one, and the character that the two encode. -/
def surrogates : Tree Int := .string [point 0xd83d, point 0xde00]
def emoji : Tree Int := .string [point 0x1f600]

theorem surrogates_collide :
    ¬∀ a b : Tree Int, a.Proper → (digest id a = digest id b ↔ (stripped a).Alike (stripped b)) := by
  intro always
  have same : digest id surrogates = digest id emoji := by
    rw [digest, digest, walk_single, walk_single]
    decide +kernel
  have alike : emoji = surrogates := (always surrogates emoji trivial).mp same
  cases alike

end Sample
end TokenPak.SpendGuard.UsageAnchor
