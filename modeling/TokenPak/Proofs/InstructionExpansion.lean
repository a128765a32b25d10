import TokenPak.Compression.InstructionTable

/-! Tags are expanded to the texts they replaced. The table knows each observed text under its
hash, and the entry of each id has the text that the id was given for; entries are only added, as
long as no id given by hand is one of the counter's. A text that is left in place stays as it is
unless it looks like the tag of an entry. -/

namespace TokenPak.Compression.InstructionTable
open Library

section Messages
variable {Other : Type}

theorem mapText_mapText {f g : String → String} (part : Part Other)
    (back : ∀ text, part.text? = some text → g (f text) = text) :
    (part.mapText f).mapText g = part := by
  cases part with
  | other value => rfl
  | dict fields =>
    cases found : fields.get "text" with
    | none => simp only [Part.mapText, found]
    | some value =>
      cases value with
      | inl text =>
        have same := back text (by simp only [Part.text?, found])
        simp only [Part.mapText, found, Dict.get_set_self, Dict.set_set found, same]
        rw [Dict.set_of_get found]
      | inr value => simp only [Part.mapText, found]

/-- A change of the texts that another change undoes for each text is undone for the message. -/
theorem mapTexts_mapTexts {f g : String → String} {message : Message Other}
    (back : ∀ text ∈ texts message, g (f text) = text) : mapTexts g (mapTexts f message) = message := by
  unfold texts at back
  unfold mapTexts
  cases found : message.get "content" with
  | none => simp only [found]
  | some value =>
    simp only [found] at back ⊢
    cases value with
    | text text =>
      simp only [Dict.get_set_self, Dict.set_set found]
      rw [back text (List.mem_singleton_self text), Dict.set_of_get found]
    | parts items =>
      simp only [Dict.get_set_self, Dict.set_set found, List.map_map]
      have same : items.map (Part.mapText g ∘ Part.mapText f) = items := by
        conv_rhs => rw [← List.map_id items]
        apply List.map_congr_left
        intro part member
        apply mapText_mapText
        intro text spelled
        exact back text (List.mem_filterMap.mpr ⟨part, member, spelled⟩)
      rw [same, Dict.set_of_get found]
    | other value => simp only [found]

theorem map_mapTexts {f g : String → String} {messages : List (Message Other)}
    (back : ∀ text ∈ messages.flatMap texts, g (f text) = text) :
    (messages.map (mapTexts f)).map (mapTexts g) = messages := by
  rw [List.map_map]
  conv_rhs => rw [← List.map_id messages]
  apply List.map_congr_left
  intro message member
  apply mapTexts_mapTexts
  intro text spelled
  exact back text (List.mem_flatMap.mpr ⟨message, member, spelled⟩)

theorem mapTexts_id (message : Message Other) : mapTexts id message = message := by
  unfold mapTexts
  cases found : message.get "content" with
  | none => rfl
  | some value =>
    cases value with
    | text text => exact Dict.set_of_get found
    | parts items =>
      have same : items.map (Part.mapText id) = items := by
        conv_rhs => rw [← List.map_id items]
        apply List.map_congr_left
        intro part _
        cases part with
        | other value => rfl
        | dict fields =>
          simp only [Part.mapText, id]
          split
          next text held => rw [Dict.set_of_get held]
          next => rfl
      simp only [same]
      exact Dict.set_of_get found
    | other value => rfl

end Messages

section Ids

theorem readNatural_zero (text : List Char) : readNatural ('0' :: text) = readNatural text := by
  simp [readNatural, Nat.ofDigits_append]

theorem policyId_injective : Function.Injective policyId := by
  have back (n : Nat) : readNatural ((policyId n).toList.drop 7) = n := by
    have dropped (digits : List Char) : ("POLICY_" ++ String.ofList digits).toList.drop 7 = digits := by
      simp [String.toList_append]
    simp only [policyId, dropped]
    split
    · rw [readNatural_zero, readNatural_print]
    · exact readNatural_print n
  intro first second same
  rw [← back first, ← back second, same]

theorem tag_toList (id : String) : (tag id).toList = "[INSTRUCTION:".toList ++ (id.toList ++ [']']) := by
  simp [tag, String.toList_append]

theorem expandText_tag {entries : Dict String String} {id text : String}
    (found : entries.get id = some text) :
    expandText entries (tag id) = text := by
  have starts : "[INSTRUCTION:".toList <+: (tag id).toList := by
    rw [tag_toList]
    exact List.prefix_append _ _
  have ends : "]".toList <:+ (tag id).toList := by
    rw [tag_toList, ← List.append_assoc]
    exact List.suffix_append _ _
  have inner : String.ofList (((tag id).toList.drop 13).dropLast) = id := by
    rw [tag_toList, List.drop_left' (by rfl), List.dropLast_concat, String.ofList_toList]
  rw [expandText, if_pos ⟨starts, ends⟩, inner, found]

theorem expandText_of_not_tag {entries : Dict String String} {text : String}
    (plain : ∀ id, text = tag id → entries.get id = none) : expandText entries text = text := by
  unfold expandText
  split
  next tagged =>
    obtain ⟨⟨rest, whole⟩, ends⟩ := tagged
    have last : rest ≠ [] := by
      intro empty
      rw [empty, List.append_nil] at whole
      rw [← whole] at ends
      exact absurd ends (by decide)
    obtain ⟨inner, final, split⟩ : ∃ inner final, rest = inner ++ [final] :=
      ⟨rest.dropLast, rest.getLast last, (List.dropLast_append_getLast last).symm⟩
    have closed : final = ']' := by
      obtain ⟨front, same⟩ := ends
      rw [← whole, split, ← List.append_assoc] at same
      have tails := List.append_inj_right' same rfl
      simpa using tails.symm
    have shape : text = tag (String.ofList inner) := by
      have spelled : (String.ofList inner).toList = inner := String.toList_ofList
      apply String.toList_inj.mp
      rw [tag_toList, ← whole, split, closed, spelled]
    have name : String.ofList ((text.toList.drop 13).dropLast) = String.ofList inner := by
      rw [← whole, split, List.drop_left' (by rfl), List.dropLast_concat]
    rw [name, plain _ shape]
  next => rfl

end Ids

section Tables
variable {Hash Other : Type} [DecidableEq Hash] {sha256 : String → Hash} {manual : String → Prop}
  {table after : Table Hash}
variable {text : String}

/-- The observed texts stand under their hashes, and each id in use has an entry with its text. -/
structure Sound (sha256 : String → Hash) (manual : String → Prop) (table : Table Hash) : Prop where
  hashed : ∀ hash item, table.observed.get hash = some item → sha256 item.text = hash
  recorded : ∀ hash item id, table.observed.get hash = some item → item.named = some id →
    table.entries.get id = some item.text
  known : ∀ id text, table.entries.get id = some text → manual id ∨ ∃ n, 1 ≤ n ∧ n < table.nextId ∧
    id = policyId n
  counted : 1 ≤ table.nextId
  repeated : 2 ≤ table.minOccurrences

def seen (sha256 : String → Hash) (table : Table Hash) (text : String) : Nat :=
  match table.observed.get (sha256 text) with
  | some item => item.seenCount
  | none => 0

def Eligible (table : Table Hash) (text : String) : Prop :=
  ¬ Blank text ∧ table.minTokens ≤ estimateTokens text

theorem observeText_cases (sha256 : String → Hash) (table : Table Hash) (text : String) :
    ¬ Eligible table text ∧ observeText sha256 table text = table ∨
    Eligible table text ∧ (
      table.observed.get (sha256 text) = none ∧
        observeText sha256 table text =
          { table with observed := table.observed.set (sha256 text) ⟨text, 1, none⟩ } ∨
      (∃ item, table.observed.get (sha256 text) = some item ∧
        (item.named = none → item.seenCount + 1 < table.minOccurrences) ∧
        observeText sha256 table text =
          { table with observed := table.observed.set (sha256 text) { item with seenCount := item.seenCount + 1 } }) ∨
      ∃ item, table.observed.get (sha256 text) = some item ∧ item.named = none ∧
        observeText sha256 table text =
          { table with
            nextId := table.nextId + 1
            entries := table.entries.set (policyId table.nextId) item.text
            observed := table.observed.set (sha256 text)
              ⟨item.text, item.seenCount + 1, some (policyId table.nextId)⟩ }) := by
  unfold observeText
  by_cases blank : Blank text
  · exact .inl ⟨fun eligible => eligible.1 blank, if_pos blank⟩
  · rw [if_neg blank]
    by_cases short : estimateTokens text < table.minTokens
    · exact .inl ⟨fun eligible => absurd eligible.2 (by omega), if_pos short⟩
    · rw [if_neg short]
      refine .inr ⟨⟨blank, by omega⟩, ?_⟩
      cases found : table.observed.get (sha256 text) with
      | none => exact .inl ⟨rfl, rfl⟩
      | some item =>
        have same (count : Nat) : Item.named { item with seenCount := count } = item.named := rfl
        simp only [same]
        cases named : item.named with
        | some id => exact .inr (.inl ⟨item, rfl, by simp [named], rfl⟩)
        | none =>
          by_cases often : table.minOccurrences ≤ item.seenCount + 1
          · exact .inr (.inr ⟨item, rfl, named, by simp [often]⟩)
          · exact .inr (.inl ⟨item, rfl, fun _ => by omega, by simp [often]⟩)

/-- Entries and ids are only added. -/
structure Grows (sha256 : String → Hash) (table after : Table Hash) : Prop where
  entries : ∀ id text, table.entries.get id = some text → after.entries.get id = some text
  ids : ∀ text id, idOf sha256 table text = some id → idOf sha256 after text = some id
  tokens : after.minTokens = table.minTokens
  occurrences : after.minOccurrences = table.minOccurrences

theorem Grows.refl (table : Table Hash) : Grows sha256 table table :=
  ⟨fun _ _ => id, fun _ _ => id, rfl, rfl⟩

theorem Grows.trans {last : Table Hash} (first : Grows sha256 table after)
    (second : Grows sha256 after last) :
    Grows sha256 table last where
  entries id text found := second.entries id text (first.entries id text found)
  ids text id found := second.ids text id (first.ids text id found)
  tokens := second.tokens.trans first.tokens
  occurrences := second.occurrences.trans first.occurrences

theorem idOf_set_of_ne {other : String} {item : Item} (inj : Function.Injective sha256)
    (differs : text ≠ other)
    (same : after.observed = table.observed.set (sha256 other) item) :
    idOf sha256 after text = idOf sha256 table text := by
  rw [idOf, same, Dict.get_set_of_ne fun hashes => differs (inj hashes)]
  rfl

theorem idOf_set_self {item : Item} (same : after.observed = table.observed.set (sha256 text) item) :
    idOf sha256 after text = item.named := by
  rw [idOf, same, Dict.get_set_self]
  rfl

theorem policyId_ne_empty (n : Nat) : policyId n ≠ "" := by
  intro same
  have lists := congrArg String.toList same
  simp [policyId, String.toList_append] at lists

theorem Sound.fresh (sound : Sound sha256 manual table) (apart : ∀ n, 1 ≤ n → ¬ manual (policyId n)) :
    table.entries.get (policyId table.nextId) = none := by
  cases found : table.entries.get (policyId table.nextId) with
  | none => rfl
  | some text =>
    rcases sound.known _ text found with by_hand | ⟨n, _, before, same⟩
    · exact absurd by_hand (apart table.nextId sound.counted)
    · have equal := policyId_injective same
      omega

theorem Sound.grows (sound : Sound sha256 manual table) (inj : Function.Injective sha256)
    (apart : ∀ n, 1 ≤ n → ¬ manual (policyId n)) (text : String) :
    Grows sha256 table (observeText sha256 table text) := by
  rcases observeText_cases sha256 table text with
    ⟨-, same⟩ | ⟨-, ⟨unseen, same⟩ | ⟨item, found, -, same⟩ | ⟨item, found, unnamed, same⟩⟩
  · rw [same]
    exact Grows.refl table
  · rw [same]
    refine ⟨fun _ _ => id, fun other id given => ?_, rfl, rfl⟩
    by_cases here : other = text
    · subst here
      rw [idOf, unseen] at given
      cases given
    · rw [idOf_set_of_ne inj here rfl]
      exact given
  · rw [same]
    refine ⟨fun _ _ => id, fun other id given => ?_, rfl, rfl⟩
    by_cases here : other = text
    · subst here
      rw [idOf, found] at given
      rw [idOf_set_self rfl]
      exact given
    · rw [idOf_set_of_ne inj here rfl]
      exact given
  · rw [same]
    refine ⟨fun id entry held => ?_, fun other id given => ?_, rfl, rfl⟩
    · have differs : id ≠ policyId table.nextId := by
        intro equal
        rw [equal, sound.fresh apart] at held
        cases held
      rw [Dict.get_set_of_ne differs]
      exact held
    · by_cases here : other = text
      · subst here
        rw [idOf, found] at given
        rw [Option.bind_some, unnamed] at given
        cases given
      · rw [idOf_set_of_ne inj here rfl]
        exact given

theorem Sound.put {hash : Hash} {item : Item} (sound : Sound sha256 manual table)
    (own : sha256 item.text = hash)
    (entry : ∀ id, item.named = some id → table.entries.get id = some item.text) :
    Sound sha256 manual { table with observed := table.observed.set hash item } := by
  refine ⟨fun other held found => ?_, fun other held id found named => ?_, sound.known,
    sound.counted, sound.repeated⟩
  · by_cases here : other = hash
    · subst here
      rw [Dict.get_set_self] at found
      cases found
      exact own
    · rw [Dict.get_set_of_ne here] at found
      exact sound.hashed other held found
  · by_cases here : other = hash
    · subst here
      rw [Dict.get_set_self] at found
      cases found
      exact entry id named
    · rw [Dict.get_set_of_ne here] at found
      exact sound.recorded other held id found named

theorem Sound.addEntry {id : String} {nextId : Nat} (sound : Sound sha256 manual table)
    (fresh : table.entries.get id = none)
    (later : table.nextId ≤ nextId) (known : manual id ∨ ∃ n, 1 ≤ n ∧ n < nextId ∧ id = policyId n)
    (text : String) :
    Sound sha256 manual { table with nextId, entries := table.entries.set id text } := by
  refine ⟨sound.hashed, fun hash item other found named => ?_, fun other held found => ?_,
    Nat.le_trans sound.counted later, sound.repeated⟩
  · have entry := sound.recorded hash item other found named
    have differs : other ≠ id := by
      intro same
      rw [same, fresh] at entry
      cases entry
    rw [Dict.get_set_of_ne differs]
    exact entry
  · by_cases here : other = id
    · exact here ▸ known
    · rw [Dict.get_set_of_ne here] at found
      rcases sound.known other held found with by_hand | ⟨n, least, before, same⟩
      · exact .inl by_hand
      · exact .inr ⟨n, least, Nat.lt_of_lt_of_le before later, same⟩

theorem Sound.observe (sound : Sound sha256 manual table)
    (apart : ∀ n, 1 ≤ n → ¬ manual (policyId n)) (text : String) :
    Sound sha256 manual (observeText sha256 table text) := by
  rcases observeText_cases sha256 table text with
    ⟨-, same⟩ | ⟨-, ⟨unseen, same⟩ | ⟨item, found, -, same⟩ | ⟨item, found, unnamed, same⟩⟩
  · rw [same]
    exact sound
  · rw [same]
    exact sound.put rfl (by simp [Item.named])
  · rw [same]
    exact sound.put (sound.hashed _ item found) fun id named => sound.recorded _ item id found named
  · rw [same]
    have added := sound.addEntry (sound.fresh apart) (Nat.le_succ _)
      (.inr ⟨table.nextId, sound.counted, Nat.lt_succ_self _, rfl⟩) item.text
    have own : sha256 (Item.mk item.text (item.seenCount + 1) (some (policyId table.nextId))).text =
        sha256 text :=
      sound.hashed _ item found
    apply added.put own
    intro id named
    simp only [Item.named, policyId_ne_empty, if_false, Option.some_inj] at named
    rw [← named]
    exact Dict.get_set_self _ _ _

theorem Sound.observe_all (sound : Sound sha256 manual table) (inj : Function.Injective sha256)
    (apart : ∀ n, 1 ≤ n → ¬ manual (policyId n)) (words : List String) :
    Sound sha256 manual (words.foldl (observeText sha256) table) ∧
      Grows sha256 table (words.foldl (observeText sha256) table) := by
  induction words generalizing table with
  | nil => exact ⟨sound, Grows.refl table⟩
  | cons word words ih =>
    obtain ⟨still, grows⟩ := ih (sound.observe apart word)
    rw [List.foldl_cons]
    exact ⟨still, (sound.grows inj apart word).trans grows⟩

/-- A text that the table counts has an id as soon as it has come often enough. -/
theorem Sound.idOf_observed (sound : Sound sha256 manual table) (inj : Function.Injective sha256)
    (apart : ∀ n, 1 ≤ n → ¬ manual (policyId n)) {words : List String} (eligible : Eligible table text)
    (among : text ∈ words) (often : table.minOccurrences ≤ seen sha256 table text + words.count text) :
    (idOf sha256 (words.foldl (observeText sha256) table) text).isSome := by
  induction words generalizing table with
  | nil => cases among
  | cons word words ih =>
    have still := sound.observe apart word
    have grows := sound.grows inj apart word
    have keeps : Eligible (observeText sha256 table word) text := by
      rw [Eligible, grows.tokens]
      exact eligible
    rw [List.foldl_cons]
    by_cases here : word = text
    · subst here
      cases named : idOf sha256 (observeText sha256 table word) word with
      | some id =>
        have kept := (still.observe_all inj apart words).2.ids word id named
        simp [kept]
      | none =>
        -- It has come once more and not often enough, so it comes again.
        have again : seen sha256 (observeText sha256 table word) word = seen sha256 table word + 1 ∧
            seen sha256 table word + 1 < table.minOccurrences := by
          have two := sound.repeated
          rcases observeText_cases sha256 table word with
            ⟨not_counted, -⟩ | ⟨-, ⟨unseen, same⟩ | ⟨item, found, few, same⟩ | ⟨item, found, unnamed, same⟩⟩
          · exact absurd eligible not_counted
          · have once : seen sha256 (observeText sha256 table word) word = 1 := by
              rw [same]
              simp only [seen, Dict.get_set_self]
            have never : seen sha256 table word = 0 := by
              simp only [seen, unseen]
            omega
          · have unnamed : item.named = none := by
              rw [same, idOf_set_self rfl] at named
              exact named
            rw [same]
            simp only [seen, Dict.get_set_self, found]
            exact ⟨trivial, few unnamed⟩
          · rw [same, idOf_set_self rfl] at named
            simp [Item.named, policyId_ne_empty] at named
        rw [List.count_cons_self] at often
        apply ih still keeps
        · apply List.count_pos_iff.mp
          omega
        · rw [grows.occurrences, again.1]
          omega
    · have same : seen sha256 (observeText sha256 table word) text = seen sha256 table text := by
        have hashes : sha256 text ≠ sha256 word := fun equal => here (inj equal).symm
        rcases observeText_cases sha256 table word with
          ⟨-, same⟩ | ⟨-, ⟨-, same⟩ | ⟨item, -, -, same⟩ | ⟨item, -, -, same⟩⟩
        · rw [same]
        · rw [same, seen, Dict.get_set_of_ne hashes, seen]
        · rw [same, seen, Dict.get_set_of_ne hashes, seen]
        · rw [same, seen, Dict.get_set_of_ne hashes, seen]
      rw [List.count_cons_of_ne here] at often
      apply ih still keeps
      · exact (List.mem_cons.mp among).resolve_left (Ne.symm here)
      · rw [grows.occurrences, same]
        exact often

end Tables

section Runs
variable {Hash Other : Type} [DecidableEq Hash] {sha256 : String → Hash} {manual : String → Prop}
  {table : Table Hash}

theorem Sound.run (sound : Sound sha256 manual table) (inj : Function.Injective sha256)
    (apart : ∀ n, 1 ≤ n → ¬ manual (policyId n)) (calls : List (Call Other)) :
    Sound sha256 manual (runCalls sha256 table calls) ∧ Grows sha256 table (runCalls sha256 table calls) := by
  induction calls generalizing table with
  | nil => exact ⟨sound, Grows.refl table⟩
  | cons call calls ih =>
    have same : (compressMessages sha256 table call).2 = observeMessages sha256 table call.messages := by
      unfold compressMessages
      cases call.contextBudgetTight <;> rfl
    obtain ⟨observed, first⟩ := sound.observe_all inj apart (call.messages.flatMap texts)
    obtain ⟨still, second⟩ := ih observed
    simp only [runCalls, List.foldl_cons, same]
    exact ⟨still, first.trans second⟩

def ByHand (manualEntries : Dict String (Option String)) (id : String) : Prop :=
  ∃ text, (id, some text) ∈ manualEntries.entries ∧ ¬ Blank text

theorem applyManualEntry_blank {id text : String} (blank : Blank text) :
    applyManualEntry sha256 table (id, some text) = table := if_pos blank

theorem applyManualEntry_full {id text : String} (full : ¬ Blank text) :
    applyManualEntry sha256 table (id, some text) =
      { table with
        entries := table.entries.set id text
        observed := table.observed.set (sha256 text) ⟨text, max 2 table.minOccurrences, some id⟩ } := if_neg full

theorem Sound.manual_all {entries : List (String × Option String)} (sound : Sound sha256 manual table)
    (distinct : (entries.map Prod.fst).Nodup)
    (fresh : ∀ id ∈ entries.map Prod.fst, table.entries.get id = none)
    (ours : ∀ id text, (id, some text) ∈ entries → ¬ Blank text → manual id) :
    Sound sha256 manual (entries.foldl (applyManualEntry sha256) table) := by
  induction entries generalizing table with
  | nil => exact sound
  | cons entry entries ih =>
    obtain ⟨id, value⟩ := entry
    rw [List.map_cons, List.nodup_cons] at distinct
    have others : ∀ other text, (other, some text) ∈ entries → ¬ Blank text → manual other :=
      fun other text member => ours other text (List.mem_cons_of_mem _ member)
    have unchanged : ∀ other ∈ entries.map Prod.fst, table.entries.get other = none :=
      fun other member => fresh other (List.mem_cons_of_mem _ member)
    rw [List.foldl_cons]
    cases value with
    | none => exact ih sound distinct.2 unchanged others
    | some text =>
      by_cases blank : Blank text
      · rw [applyManualEntry_blank blank]
        exact ih sound distinct.2 unchanged others
      · rw [applyManualEntry_full blank]
        have added := sound.addEntry (fresh id List.mem_cons_self) (Nat.le_refl _)
          (.inl (ours id text List.mem_cons_self blank)) text
        have entry : ∀ other, Item.named ⟨text, max 2 table.minOccurrences, some id⟩ = some other →
            (table.entries.set id text).get other = some text := by
          intro other named
          simp only [Item.named] at named
          split at named
          · cases named
          · cases named
            exact Dict.get_set_self _ _ _
        have both := added.put rfl entry
        apply ih both distinct.2 _ others
        intro other member
        have differs : other ≠ id := fun same => distinct.1 (same ▸ member)
        exact (Dict.get_set_of_ne differs).trans (unchanged other member)

theorem init_sound (minTokens minOccurrences : Int) (manualEntries : Dict String (Option String)) :
    Sound sha256 (ByHand manualEntries) (init sha256 minTokens minOccurrences manualEntries) := by
  apply Sound.manual_all
  · refine ⟨?_, ?_, ?_, Nat.le_refl 1, ?_⟩
    · intro hash item found
      cases found
    · intro hash item id found
      cases found
    · intro id text found
      cases found
    · simp only
      omega
  · exact manualEntries.unique
  · intro id _
    rfl
  · intro id text member full
    exact ⟨text, member, full⟩

/-- The texts that a call replaces by tags: those with an id, and those that come often enough with it. -/
def Replaced (sha256 : String → Hash) (table : Table Hash) (call : Call Other) (text : String) : Prop :=
  call.contextBudgetTight = true ∧ ((idOf sha256 table text).isSome ∨
    Eligible table text ∧ table.minOccurrences ≤ seen sha256 table text + (call.messages.flatMap texts).count text)

/-- No text that a call leaves in place looks like a tag, with an id given by hand or one of the counter's. -/
def Plain (sha256 : String → Hash) (manual : String → Prop) (table : Table Hash) (call : Call Other) : Prop :=
  ∀ text ∈ call.messages.flatMap texts, ∀ id, text = tag id → (manual id ∨ ∃ n, 1 ≤ n ∧ id = policyId n) →
    Replaced sha256 table call text

theorem Sound.expand_compress (sound : Sound sha256 manual table) (inj : Function.Injective sha256)
    (apart : ∀ n, 1 ≤ n → ¬ manual (policyId n)) {call : Call Other} (plain : Plain sha256 manual table call)
    {after : Table Hash} (whole : Sound sha256 manual after)
    (grows : Grows sha256 (observeMessages sha256 table call.messages) after) :
    expandMessages after (compressMessages sha256 table call).1.1 = call.messages := by
  obtain ⟨observed, first⟩ := sound.observe_all inj apart (call.messages.flatMap texts)
  -- A text without an id is left in place, and then it is no tag of an entry.
  have left {text : String} (among : text ∈ call.messages.flatMap texts)
    (unreplaced : ¬ Replaced sha256 table call text) :
      expandText after.entries text = text := by
    apply expandText_of_not_tag
    intro id same
    cases found : after.entries.get id with
    | none => rfl
    | some entry =>
      have reserved : manual id ∨ ∃ n, 1 ≤ n ∧ id = policyId n := by
        rcases whole.known id entry found with by_hand | ⟨n, least, _, equal⟩
        · exact .inl by_hand
        · exact .inr ⟨n, least, equal⟩
      exact absurd (plain text among id same reserved) unreplaced
  unfold compressMessages expandMessages
  cases tight : call.contextBudgetTight with
  | false =>
    have same : call.messages.map (mapTexts id) = call.messages := by
      conv_rhs => rw [← List.map_id call.messages]
      exact List.map_congr_left fun message _ => mapTexts_id message
    have back : (call.messages.map (mapTexts id)).map (mapTexts (expandText after.entries)) =
        call.messages := by
      apply map_mapTexts
      intro text among
      apply left among
      intro replaced
      rw [replaced.1] at tight
      cases tight
    rw [same] at back
    exact back
  | true =>
    apply map_mapTexts
    intro text among
    unfold compressText
    split
    next unnamed =>
      apply left among
      intro replaced
      rcases replaced.2 with named | ⟨eligible, often⟩
      · obtain ⟨id, given⟩ := Option.isSome_iff_exists.mp named
        have kept : idOf sha256 (observeMessages sha256 table call.messages) text = some id :=
          first.ids text id given
        rw [kept] at unnamed
        cases unnamed
      · have given : (idOf sha256 (observeMessages sha256 table call.messages) text).isSome :=
          sound.idOf_observed inj apart eligible among often
        rw [unnamed] at given
        cases given
    next id named =>
      obtain ⟨item, found, given⟩ := Option.bind_eq_some_iff.mp named
      have own : item.text = text := inj (observed.hashed _ item found)
      have entry := observed.recorded _ item id found given
      rw [own] at entry
      exact expandText_tag (grows.entries id text entry)

def saying (text : String) : Message Unit := ⟨[("content", .text text)], by simp⟩

def asked (words : List String) : Call Unit := ⟨words.map saying, true⟩

def policyByHand : Dict String (Option String) := ⟨[("POLICY_01", some "be brief")], by simp⟩

theorem Sound.entry {id text : String} (sound : Sound sha256 manual table) (inj : Function.Injective sha256)
    (given : idOf sha256 table text = some id) : table.entries.get id = some text := by
  obtain ⟨item, found, named⟩ := Option.bind_eq_some_iff.mp given
  rw [← inj (sound.hashed _ item found)]
  exact sound.recorded _ item id found named

/-- Once a text has an id, every later call gives it that id and no other text has it. -/
theorem ids_stay_apart (inj : Function.Injective sha256) (minTokens minOccurrences : Int)
    (manualEntries : Dict String (Option String))
    (apart : ∀ n, 1 ≤ n → ¬ ByHand manualEntries (policyId n)) (before later : List (Call Other))
    (text other id : String)
    (given : idOf sha256 (runCalls sha256 (init sha256 minTokens minOccurrences manualEntries) before) text = some id) :
    idOf sha256 (runCalls sha256 (init sha256 minTokens minOccurrences manualEntries) (before ++
      later)) other = some id ↔
      other = text := by
  obtain ⟨started, _⟩ := (init_sound minTokens minOccurrences manualEntries).run inj apart before
  obtain ⟨whole, grows⟩ := started.run inj apart later
  rw [runCalls, List.foldl_append]
  constructor
  · intro again
    exact Option.some.inj ((whole.entry inj again).symm.trans (grows.entries id text (started.entry inj given)))
  · rintro rfl
    exact grows.ids other id given

theorem ids_stay_apart_twice :
    idOf id (runCalls id (init id 1 2 Dict.empty) ([asked ["cite", "cite"]] ++
    [asked ["yes", "yes"]])) "yes" ≠
    some "POLICY_01" := by
  apply mt (ids_stay_apart Function.injective_id 1 2 Dict.empty _ _ _ "cite" _ _ (by decide +kernel)).mp (by decide)
  rintro n _ ⟨text, member, _⟩
  cases member

end Runs
end TokenPak.Compression.InstructionTable
