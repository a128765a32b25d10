import TokenPak.Library.JsonSound
import TokenPak.Proofs.TipGrammar

/-! What stripping leaves of a body. The text that may begin with a header is the first one of the
latest message of the user; one header is taken off it and everything else stays. A second header
right behind the first one reaches the provider. -/

namespace TokenPak.SpendGuard.TipHeader
open Library

section Surface
variable {N : Type}

def textField (entries : List (String × Json N)) : Option String :=
  match entries.lookup "text" with
  | some (.string text) => some text
  | _ => none

def isText (kinds : List String) : Json N → Bool
  | .object entries => hasText entries "type" kinds
  | _ => false

/-- The first block of text, what it says, and the blocks with another text in its place. -/
inductive FirstText (kinds : List String) : List (Json N) → Option String → (String → List (Json N)) → Prop
  | block (before : List (Json N)) {after : List (Json N)} {entries : List (String × Json N)} (others : ∀ block ∈ before, isText kinds block = false)
      (typed : hasText entries "type" kinds = true) :
      FirstText kinds (before ++ .object entries :: after) (textField entries)
        fun rest => before ++ .object (setField entries "text" (.string rest)) :: after

inductive Segment (kinds : List String) : Json N → Option String → (String → Json N) → Prop
  | string (text : String) : Segment kinds (.string text) (some text) .string
  | blocks {blocks : List (Json N)} {text : Option String} {build : String → List (Json N)} (first : FirstText kinds blocks text build) :
      Segment kinds (.array blocks) text fun rest => .array (build rest)

inductive LatestUser (kinds : List String) : List (Json N) → Option String → (String → List (Json N)) → Prop
  | message (before : List (Json N)) {after : List (Json N)} {entries : List (String × Json N)} {content : Json N} {text : Option String}
      {build : String → Json N} (later : ∀ message ∈ after, isUser message = false)
        (user : isUser (.object entries) = true)
      (given : entries.lookup "content" = some content) (segment : Segment kinds content text build) :
      LatestUser kinds (before ++ .object entries :: after) text
        fun rest => before ++ .object (setField entries "content" (build rest)) :: after

inductive InMessages (entries : List (String × Json N)) :
    Option String → (String → List (String × Json N)) → Prop
  | latest {messages : List (Json N)} {text : Option String} {build : String → List (Json N)}
      (given : entries.lookup "messages" = some (.array messages))
        (latest : LatestUser ["text"] messages text build) :
      InMessages entries text fun rest => setField entries "messages" (.array (build rest))

inductive InInput (entries : List (String × Json N)) :
    Option String → (String → List (String × Json N)) → Prop
  | text {text : String} (given : entries.lookup "input" = some (.string text)) :
      InInput entries (some text) fun rest => setField entries "input" (.string rest)
  | latest {items : List (Json N)} {text : Option String} {build : String → List (Json N)}
      (given : entries.lookup "input" = some (.array items))
        (latest : LatestUser ["input_text", "text"] items text build) :
      InInput entries text fun rest => setField entries "input" (.array (build rest))

/-- The first text segment of the latest message of the user, and the body with another text in its
place. The input counts where the messages have none. -/
inductive Surface (entries : List (String × Json N)) :
    Option String → (String → List (String × Json N)) → Prop
  | messages {text : Option String} {build : String → List (String × Json N)} (held : InMessages entries text build) :
      Surface entries text build
  | input {text : Option String} {build : String → List (String × Json N)} (without : ∀ text build, ¬ InMessages entries text build)
      (held : InInput entries text build) : Surface entries text build

end Surface

section Inspection
variable {F N : Type} (builtins : Builtins F) {kinds : List String}

def inspectSegment : Option String → Inspected F String
  | some text => inspectText builtins text
  | none => .plain

theorem inspectSegment_map_ne_absent {Whole : Type} (text : Option String) (build : String → Whole) :
    (inspectSegment builtins text).map build ≠ .absent := by
  cases text with
  | none => simp [inspectSegment, Inspected.map]
  | some text =>
    simp only [inspectSegment, inspectText]
    split <;> simp [Inspected.map]

theorem map_map {First Second Third : Type} (inspected : Inspected F First) (first : First → Second)
    (second : Second → Third) :
    (inspected.map first).map second = inspected.map fun part => second (first part) := by
  cases inspected <;> rfl

theorem inspectBlock_eq (entries : List (String × Json N)) :
    inspectBlock builtins entries = (inspectSegment builtins (textField entries)).map fun rest =>
      setField entries "text" (.string rest) := by
  unfold inspectBlock textField
  split <;> simp_all [inspectSegment, Inspected.map]

theorem inspectBlocks_cons_other {block : Json N} (other : isText kinds block = false)
    (blocks : List (Json N)) :
    inspectBlocks builtins kinds (block :: blocks) =
      (inspectBlocks builtins kinds blocks).map fun blocks => block :: blocks := by
  cases block with
  | object entries =>
    have untyped : hasText entries "type" kinds = false := other
    simp [inspectBlocks, untyped]
  | null => rfl
  | bool b => rfl
  | number n => rfl
  | string text => rfl
  | array items => rfl

variable {text : Option String} {build : String → List (Json N)}

theorem inspectBlocks_first {blocks : List (Json N)} (first : FirstText kinds blocks text build) :
    inspectBlocks builtins kinds blocks = (inspectSegment builtins text).map build := by
  cases first with
  | @block before after entries others typed =>
    induction before with
    | nil =>
      simp only [List.nil_append, inspectBlocks, typed, if_true, inspectBlock_eq]
      rw [map_map]
    | cons block before ih =>
      have rest := ih fun other member => others other (List.mem_cons_of_mem _ member)
      rw [List.cons_append, inspectBlocks_cons_other builtins (others block List.mem_cons_self),
        rest, map_map]
      rfl

theorem FirstText.cons {block : Json N} (other : isText kinds block = false)
    {blocks : List (Json N)} (first : FirstText kinds blocks text build) :
    FirstText kinds (block :: blocks) text fun rest => block :: build rest := by
  cases first with
  | @block before after entries others typed =>
    exact .block (block :: before) (List.forall_mem_cons.mpr ⟨other, others⟩) typed

theorem inspectBlocks_absent (kinds : List String) (blocks : List (Json N)) :
    inspectBlocks builtins kinds blocks = .absent ∨ ∃ text build, FirstText kinds blocks text build := by
  induction blocks with
  | nil => exact .inl rfl
  | cons block blocks ih =>
    by_cases typed : isText kinds block = true
    · cases block with
      | object entries => exact .inr ⟨_, _, .block [] (by simp) typed⟩
      | _ => cases typed
    · have other : isText kinds block = false := by simpa using typed
      rcases ih with absent | ⟨text, build, first⟩
      · left
        rw [inspectBlocks_cons_other builtins other, absent]
        rfl
      · exact .inr ⟨_, _, first.cons other⟩

theorem inspectContent_segment {content : Json N} {build : String → Json N}
    (segment : Segment kinds content text build) :
    inspectContent builtins kinds content = (inspectSegment builtins text).map build := by
  cases segment with
  | string text => rfl
  | blocks first => rw [inspectContent, inspectBlocks_first builtins first, map_map]

theorem inspectContent_absent (kinds : List String) (content : Json N) :
    inspectContent builtins kinds content = .absent ∨ ∃ text build, Segment kinds content text build := by
  cases content with
  | string text => exact .inr ⟨_, _, .string text⟩
  | array blocks =>
    rcases inspectBlocks_absent builtins kinds blocks with absent | ⟨text, build, first⟩
    · left
      rw [inspectContent, absent]
      rfl
    · exact .inr ⟨_, _, .blocks first⟩
  | null => exact .inl rfl
  | bool b => exact .inl rfl
  | number n => exact .inl rfl
  | object entries => exact .inl rfl

theorem inspectMessages_latest {messages : List (Json N)}
    (latest : LatestUser kinds messages text build) :
    inspectMessages builtins kinds messages = (inspectSegment builtins text).map build := by
  cases latest with
  | @message before after entries content text build later user given segment =>
    induction before with
    | nil =>
      have none_later : after.any isUser = false :=
        List.any_eq_false.mpr fun message member => by simp [later message member]
      simp only [List.nil_append, inspectMessages, none_later, Bool.false_eq_true, if_false, user,
        if_true, inspectMessage, given]
      rw [inspectContent_segment builtins segment, map_map, map_map]
    | cons message before ih =>
      have some_later : (before ++ .object entries :: after).any isUser = true :=
        List.any_eq_true.mpr ⟨_, by simp, user⟩
      rw [List.cons_append, inspectMessages, if_pos some_later, ih, map_map]
      rfl

theorem LatestUser.cons {messages : List (Json N)} (latest : LatestUser kinds messages text build)
    (message : Json N) :
    LatestUser kinds (message :: messages) text fun rest => message :: build rest := by
  cases latest with
  | @message before after entries content text build later user given segment =>
    exact .message (message :: before) later user given segment

theorem inspectMessages_absent (kinds : List String) (messages : List (Json N)) :
    inspectMessages builtins kinds messages = .absent ∨ ∃ text build,
      LatestUser kinds messages text build := by
  induction messages with
  | nil => exact .inl rfl
  | cons message messages ih =>
    by_cases later : messages.any isUser = true
    · rcases ih with absent | ⟨text, build, latest⟩
      · left
        rw [inspectMessages, if_pos later, absent]
        rfl
      · exact .inr ⟨_, _, latest.cons message⟩
    · rw [inspectMessages, if_neg later]
      by_cases user : isUser message = true
      · rw [if_pos user]
        cases message with
        | object entries =>
          have none_later : ∀ message ∈ messages, isUser message = false := by
            intro other member
            by_contra also
            exact later (List.any_eq_true.mpr ⟨other, member, by simpa using also⟩)
          cases given : entries.lookup "content" with
          | none => exact .inl (by simp [inspectMessage, given, Inspected.map])
          | some content =>
            rcases inspectContent_absent builtins kinds content with absent | ⟨text, build, segment⟩
            · exact .inl (by simp [inspectMessage, given, absent, Inspected.map])
            · exact .inr ⟨_, _, .message [] none_later user given segment⟩
        | _ => cases user
      · rw [if_neg user]
        exact .inl rfl

variable {entries : List (String × Json N)} {text : Option String} {build : String → List (String × Json N)}

theorem inspectInput_in (held : InInput entries text build) :
    inspectInput builtins entries = (inspectSegment builtins text).map build := by
  cases held with
  | text given =>
    unfold inspectInput
    rw [given]
    rfl
  | latest given latest =>
    unfold inspectInput
    rw [given]
    simp only [inspectMessages_latest builtins latest, map_map]

theorem inspectInput_absent (entries : List (String × Json N)) :
    inspectInput builtins entries = .absent ∨ ∃ text build, InInput entries text build := by
  unfold inspectInput
  split
  next text given => exact .inr ⟨_, _, .text given⟩
  next items given =>
    rcases inspectMessages_absent builtins ["input_text", "text"] items with absent | ⟨text, build, latest⟩
    · left
      rw [absent]
      rfl
    · exact .inr ⟨_, _, .latest given latest⟩
  next => exact .inl rfl

theorem inspectObject_messages (held : InMessages entries text build) :
    inspectObject builtins entries = (inspectSegment builtins text).map build := by
  cases held with
  | latest given latest =>
    unfold inspectObject
    rw [given]
    simp only [inspectMessages_latest builtins latest]
    have present := inspectSegment_map_ne_absent builtins text (fun part : String => part)
    cases seen : inspectSegment builtins text with
    | absent => simp [seen, Inspected.map] at present
    | plain => rfl
    | found directive part => rfl

theorem inspectObject_without (without : ∀ text build, ¬ InMessages entries text build) :
    inspectObject builtins entries = inspectInput builtins entries := by
  unfold inspectObject
  split
  next messages given =>
    rcases inspectMessages_absent builtins ["text"] messages with absent | ⟨text, build, latest⟩
    · rw [absent]
    · exact absurd (.latest given latest) (without _ _)
  next => rfl

theorem inspectObject_surface (surface : Surface entries text build) :
    inspectObject builtins entries = (inspectSegment builtins text).map build := by
  cases surface with
  | messages held => exact inspectObject_messages builtins held
  | input without held => rw [inspectObject_without builtins without, inspectInput_in builtins held]

theorem inspectObject_absent (entries : List (String × Json N)) :
    inspectObject builtins entries = .absent ∨ ∃ text build, Surface entries text build := by
  by_cases held : ∃ text build, InMessages entries text build
  · obtain ⟨text, build, held⟩ := held
    exact .inr ⟨text, build, .messages held⟩
  · have without : ∀ text build, ¬ InMessages entries text build :=
      fun text build inside => held ⟨text, build, inside⟩
    rw [inspectObject_without builtins without]
    rcases inspectInput_absent builtins entries with absent | ⟨text, build, inside⟩
    · exact .inl absent
    · exact .inr ⟨text, build, .input without inside⟩

end Inspection

section Replacement
variable {N : Type} {kinds : List String} {entries : List (String × Json N)}

theorem lookup_setField_self (entries : List (String × Json N)) (key : String) (value : Json N) :
    (setField entries key value).lookup key = some value := by
  rw [setField, Json.lookup_entries, Dict.get_set_self]

theorem lookup_setField_of_ne (distinct : (entries.map Prod.fst).Nodup) {key other : String}
    (differs : other ≠ key) (value : Json N) :
    (setField entries key value).lookup other = entries.lookup other := by
  rw [setField, Json.lookup_entries, Dict.get_set_of_ne differs, Json.lookup_toDict distinct]

theorem proper_setField {value : Json N} (proper : (Json.object entries).Proper)
    (own : value.Proper) (key : String) :
    (Json.object (setField entries key value)).Proper := by
  obtain ⟨distinct, values⟩ := proper
  refine ⟨Dict.unique _, Json.properEntries_iff.mpr ?_⟩
  intro entry member
  have same : (Json.toDict entries).entries = entries := Json.collapse_of_nodup distinct
  rcases Dict.mem_entries_set member with before | rfl
  · exact Json.properEntries_iff.mp values entry (same ▸ before)
  · exact own

theorem hasText_setField (distinct : (entries.map Prod.fst).Nodup) {key other : String}
    (differs : other ≠ key) (value : Json N)
    (texts : List String) :
    hasText (setField entries key value) other texts = hasText entries other texts := by
  simp only [hasText, lookup_setField_of_ne distinct differs]

theorem properItems_replace {before after : List (Json N)} {old new : Json N}
    (proper : Json.ProperItems (before ++ old :: after))
    (own : new.Proper) : Json.ProperItems (before ++ new :: after) := by
  rw [Json.properItems_iff] at proper ⊢
  simp only [List.mem_append, List.mem_cons] at proper ⊢
  rintro item (front | rfl | behind)
  · exact proper item (.inl front)
  · exact own
  · exact proper item (.inr (.inr behind))

theorem proper_inside {before after : List (Json N)} {item : Json N}
    (proper : Json.ProperItems (before ++ item :: after)) : item.Proper :=
  Json.properItems_iff.mp proper item (by simp)

theorem proper_string (text : String) : (Json.string text : Json N).Proper := trivial

theorem proper_array {items : List (Json N)} (proper : Json.ProperItems items) :
    (Json.array items).Proper :=
  proper

/-! A new text in the place of the first one is the first one of the result, which has again one
entry for each key. -/

variable {text : Option String}

theorem FirstText.again {blocks : List (Json N)} {build : String → List (Json N)}
    (first : FirstText kinds blocks text build) (proper : Json.ProperItems blocks) (rest : String) :
    Json.ProperItems (build rest) ∧ ∃ again, FirstText kinds (build rest) (some rest) again := by
  cases first with
  | @block before after entries others typed =>
    have own := proper_inside proper
    refine ⟨properItems_replace proper (proper_setField own (proper_string rest) _), ?_⟩
    have same : textField (setField entries "text" (.string rest)) = some rest := by
      rw [textField, lookup_setField_self]
    have still : hasText (setField entries "text" (.string rest)) "type" kinds = true := by
      rw [hasText_setField own.1 (by decide), typed]
    exact same ▸ ⟨_, .block before others still⟩

theorem Segment.again {content : Json N} {build : String → Json N}
    (segment : Segment kinds content text build) (proper : content.Proper) (rest : String) :
    (build rest).Proper ∧ ∃ again, Segment kinds (build rest) (some rest) again := by
  cases segment with
  | string text => exact ⟨trivial, _, .string rest⟩
  | blocks first =>
    obtain ⟨own, again, replaced⟩ := first.again proper rest
    exact ⟨own, _, .blocks replaced⟩

theorem LatestUser.again {messages : List (Json N)} {build : String → List (Json N)}
    (latest : LatestUser kinds messages text build) (proper : Json.ProperItems messages)
    (rest : String) :
    Json.ProperItems (build rest) ∧ ∃ again, LatestUser kinds (build rest) (some rest) again := by
  cases latest with
  | @message before after entries content text build later user given segment =>
    have own := proper_inside proper
    obtain ⟨part, again, replaced⟩ := segment.again (Json.proper_lookup own given) rest
    refine ⟨properItems_replace proper (proper_setField own part _), ?_⟩
    have still : isUser (.object (setField entries "content" (build rest))) = true := by
      simp only [isUser, hasText_setField own.1 (show "role" ≠ "content" by decide)]
      exact user
    exact ⟨_, .message before later still (lookup_setField_self _ _ _) replaced⟩

theorem Surface.again {build : String → List (String × Json N)}
    (surface : Surface entries text build) (proper : (Json.object entries).Proper) (rest : String) :
    (Json.object (build rest)).Proper ∧ ∃ again, Surface (build rest) (some rest) again := by
  cases surface with
  | messages held =>
    cases held with
    | latest given latest =>
      obtain ⟨part, again, replaced⟩ := latest.again (Json.proper_lookup proper given) rest
      exact ⟨proper_setField proper (proper_array part) _, _,
        .messages (.latest (lookup_setField_self _ _ _) replaced)⟩
  | input without held =>
    have still (value : Json N) : ∀ text build, ¬ InMessages (setField entries "input" value) text build := by
      intro text build inside
      cases inside with
      | latest given latest =>
        rw [lookup_setField_of_ne proper.1 (by decide)] at given
        exact without _ _ (.latest given latest)
    cases held with
    | text given =>
        exact ⟨proper_setField proper (proper_string rest) _, _,
          .input (still _) (.text (lookup_setField_self _ _ _))⟩
    | latest given latest =>
      obtain ⟨part, again, replaced⟩ := latest.again (Json.proper_lookup proper given) rest
      exact ⟨proper_setField proper (proper_array part) _, _,
        .input (still _) (.latest (lookup_setField_self _ _ _) replaced)⟩

end Replacement

section Stripping
variable {F N : Type} [Numerals N] (builtins : Builtins F) {body : List Char}
  {entries : List (String × Json N)}

/-- One header after the other is taken off the beginning of a text. -/
inductive Loses : List Char → List Char → Prop
  | refl (text : List Char) : Loses text text
  | header {text rest : List Char} {found : TipMatch} (matched : matchTip text = some found) (others : Loses found.remainder rest) :
      Loses text rest

variable (N) in
/-- Without a directive the body is kept. With one, the segment loses its headers and nothing else
changes; the result gives no directive. -/
structure StripsClean (body : List Char) : Prop where
  kept : (parseAndStripTipHeader builtins N body).1 = none → (parseAndStripTipHeader builtins N body).2 = body
  stripped : (parseAndStripTipHeader builtins N body).1 ≠ none →
    ∃ (entries : List (String × Json N)) (text : String) (build : String → List (String × Json N))
      (rest : List Char),
      Json.loads body = some (.object entries) ∧ Surface entries (some text) build ∧ Loses text.toList rest ∧
        Json.loads (parseAndStripTipHeader builtins N body).2 = some (.object (build (String.ofList rest)))
  settled : (parseAndStripTipHeader builtins N (parseAndStripTipHeader builtins N body).2).1 = none

theorem inspectText_plain {text : String} (plain : matchTip text.toList = none) :
    inspectText builtins text = .plain := by
  simp [inspectText, parseTipHeader, plain]

theorem inspectText_found {text : String} {found : TipMatch} (matched : matchTip text.toList = some found) :
    ∃ directive, inspectText builtins text = .found directive (String.ofList found.remainder) := by
  simp [inspectText, parseTipHeader, matched]

theorem strip_other {value : Json N} (read : Json.loads body = some value)
    (other : ∀ entries, value ≠ .object entries) :
    parseAndStripTipHeader builtins N body = (none, body) := by
  cases value with
  | object entries => exact absurd rfl (other entries)
  | _ => simp only [parseAndStripTipHeader, read]

theorem strip_unfound (read : Json.loads body = some (.object entries))
    (unfound : inspectObject builtins entries = .absent ∨ inspectObject builtins entries = .plain) :
    parseAndStripTipHeader builtins N body = (none, body) := by
  rcases unfound with seen | seen <;> simp only [parseAndStripTipHeader, read, seen]

theorem strip_found {directive : TIPDirective F} {rest : List (String × Json N)}
    (read : Json.loads body = some (.object entries))
    (seen : inspectObject builtins entries = .found directive rest) :
    parseAndStripTipHeader builtins N body = (some directive, Json.dumps ⟨true, true⟩ (.object rest)) := by
  simp only [parseAndStripTipHeader, read, seen]

variable {text : Option String} {build : String → List (String × Json N)}

theorem strip_plain (read : Json.loads body = some (.object entries)) (surface : Surface entries text build)
    (plain : ∀ line ∈ text, matchTip line.toList = none) :
    parseAndStripTipHeader builtins N body = (none, body) := by
  apply strip_unfound builtins read
  right
  rw [inspectObject_surface builtins surface]
  cases text with
  | none => rfl
  | some line => rw [inspectSegment, inspectText_plain builtins (plain line rfl)]; rfl

theorem strip_header {line : String} {found : TipMatch} (read : Json.loads body = some (.object entries))
    (surface : Surface entries (some line) build) (matched : matchTip line.toList = some found) :
    (∃ directive, (parseAndStripTipHeader builtins N body).1 = some directive) ∧
      Json.loads (parseAndStripTipHeader builtins N body).2 =
          some (.object (build (String.ofList found.remainder))) := by
  have proper := (Json.loads_sound read).1
  obtain ⟨whole, _⟩ := surface.again proper (String.ofList found.remainder)
  obtain ⟨directive, seen⟩ := inspectText_found builtins matched
  have inspected : inspectObject builtins entries =
      .found directive (build (String.ofList found.remainder)) := by
    rw [inspectObject_surface builtins surface, inspectSegment, seen]
    rfl
  rw [strip_found builtins read inspected]
  exact ⟨⟨directive, rfl⟩, Json.loads_dumps whole⟩

/-- The result gives no directive when the text has no second header behind the first one. -/
theorem settled_iff {line : String} {found : TipMatch} (read : Json.loads body = some (.object entries))
    (surface : Surface entries (some line) build) (matched : matchTip line.toList = some found) :
    (parseAndStripTipHeader builtins N (parseAndStripTipHeader builtins N body).2).1 = none ↔
      matchTip found.remainder = none := by
  have proper := (Json.loads_sound read).1
  obtain ⟨_, again, replaced⟩ := surface.again proper (String.ofList found.remainder)
  obtain ⟨_, result⟩ := strip_header builtins read surface matched
  cases second : matchTip found.remainder with
  | none =>
    have plain : ∀ line ∈ some (String.ofList found.remainder), matchTip line.toList = none := by
      rintro line ⟨⟩
      rw [String.toList_ofList, second]
    rw [strip_plain builtins result replaced plain]
    simp
  | some more =>
    have also : matchTip (String.ofList found.remainder).toList = some more := by
      rw [String.toList_ofList, second]
    obtain ⟨⟨directive, given⟩, _⟩ := strip_header builtins result replaced also
    simp [given]

/-- Stripping keeps its promise on a body unless its text begins with two headers in a row. -/
theorem strips_clean_iff {value : Json N} (read : Json.loads body = some value) :
    StripsClean N builtins body ↔
      ∀ (entries : List (String × Json N)) (text : String) (build : String → List (String × Json N))
        (found : TipMatch),
        value = .object entries → Surface entries (some text) build → matchTip text.toList = some found →
          matchTip found.remainder = none := by
  constructor
  · rintro clean entries text build found rfl surface matched
    exact (settled_iff builtins read surface matched).mp clean.settled
  · intro single
    have unchanged (same : parseAndStripTipHeader builtins N body =
        (none, body)) : StripsClean N builtins body := by
      refine ⟨?_, ?_, ?_⟩
      · intro _
        rw [same]
      · intro given
        exact absurd (by rw [same]) given
      · rw [same, same]
    by_cases object : ∃ entries, value = .object entries
    · obtain ⟨entries, rfl⟩ := object
      rcases inspectObject_absent builtins entries with absent | ⟨text, build, surface⟩
      · exact unchanged (strip_unfound builtins read (.inl absent))
      · by_cases plain : ∀ line ∈ text, matchTip line.toList = none
        · exact unchanged (strip_plain builtins read surface plain)
        · obtain ⟨line, rfl, given⟩ : ∃ line, text = some line ∧ matchTip line.toList ≠ none := by
            simpa using plain
          obtain ⟨found, matched⟩ := Option.ne_none_iff_exists'.mp given
          have last := single entries line build found rfl surface matched
          obtain ⟨⟨directive, directed⟩, result⟩ := strip_header builtins read surface matched
          refine ⟨?_, ?_, (settled_iff builtins read surface matched).mpr last⟩
          · intro silent
            rw [directed] at silent
            cases silent
          · intro _
            exact ⟨entries, line, build, found.remainder, read, surface, .header matched (.refl _), result⟩
    · exact unchanged (strip_other builtins read fun entries same => object ⟨entries, same⟩)

end Stripping

section Prompts

def prompted (prompt : String) : List (String × Json Int) :=
  [("model", .string "claude"),
    ("messages", .array [.object [("role", .string "user"), ("content", .string prompt)]])]

def promptBody (prompt : String) : List Char := Json.dumps ⟨true, true⟩ (.object (prompted prompt))

theorem promptBody_read (prompt : String) :
    Json.loads (promptBody prompt) = some (.object (prompted prompt)) :=
  Json.loads_dumps (by simp [prompted, Json.Proper, Json.ProperEntries, Json.ProperItems])

theorem prompt_surface (prompt : String) : ∃ build, Surface (prompted prompt) (some prompt) build :=
  ⟨_, .messages (.latest rfl (.message [] (by simp) rfl rfl (.string prompt)))⟩

def singleHeader : String := "[TIP: allow=once] refactor"

theorem single_header_stripped : StripsClean Int wholeNumbers (promptBody singleHeader) := by
  apply (strips_clean_iff wholeNumbers (promptBody_read singleHeader)).mpr
  intro entries text build found same surface matched
  cases same
  obtain ⟨own, first⟩ := prompt_surface singleHeader
  have header : matchTip singleHeader.toList =
      some ⟨"[TIP: allow=once] ".toList, "allow=once".toList, "refactor".toList⟩ := by decide
  have settled := (settled_iff wholeNumbers (promptBody_read singleHeader) first header).mpr (by decide)
  exact (settled_iff wholeNumbers (promptBody_read singleHeader) surface matched).mp settled

def doubleHeader : String := "[TIP: allow=once][TIP: bypass] refactor"

/-- The second header is sent to the provider. -/
theorem second_header_left : ¬ StripsClean Int wholeNumbers (promptBody doubleHeader) := by
  intro clean
  obtain ⟨build, surface⟩ := prompt_surface doubleHeader
  have header : matchTip doubleHeader.toList =
      some ⟨"[TIP: allow=once]".toList, "allow=once".toList, "[TIP: bypass] refactor".toList⟩ := by decide
  have last := (settled_iff wholeNumbers (promptBody_read doubleHeader) surface header).mp clean.settled
  exact absurd last (by decide)

end Prompts
end TokenPak.SpendGuard.TipHeader
