import TokenPak.Library.JsonText
import TokenPak.Companion.Transcript

/-! What transcript parsing keeps of a file. The loop goes through the pieces between the boundaries
of `splitlines`, which are the lines of the file only where no line holds another boundary. -/

namespace TokenPak.Companion.Transcript
open Library

section Regular
variable {N Key : Type} [Numerals N] (builtins : Builtins N Key)

def Joins (value : Json N) : Prop := value.truthy = true → (asText value).isSome = true

structure BlockRegular (block : Object N) : Prop where
  text : equals (get block "type" (.string "")) "text" = true → Joins (get block "text" (.string ""))
  thinking : equals (get block "type" (.string "")) "thinking" = true →
    Joins (get block "thinking" (.string ""))
  result : equals (get block "type" (.string "")) "tool_result" = true → ∀ results,
    get block "content" (.string "") = .array results →
    ∀ result, .object result ∈ results → (asText (get result "text" (.string ""))).isSome = true

/-- A dictionary that the parser takes: the type can be a key, the blocks of a message hold texts
where texts are joined, a loop can go through what an attachment added, and the tokens of the
content can be counted. -/
structure Regular (obj : Object N) : Prop where
  hashable : isHashable (get obj "type" (.string "unknown")) = true
  blocks : (equals (get obj "type" (.string "")) "user" ||
    equals (get obj "type" (.string "")) "assistant") = true →
    ∀ msg, get obj "message" (.object []) = .object msg → ∀ items,
      get msg "content" (.string "") = .array items →
    ∀ block, .object block ∈ items → BlockRegular block
  attachment : equals (get obj "type" (.string "")) "attachment" = true → ∀ att,
    get obj "attachment" (.object []) = .object att →
    firstText att ["content", "text"] = none → (added att).truthy = true → (iterate (added att)).isSome = true
  counted : ∀ content, extractContent builtins obj = some content → content ≠ "" →
    (builtins.countTokens content).isSome = true

omit [Numerals N] in
theorem equals_unique {value : Json N} {text other : String} (first : equals value text = true)
    (second : equals value other = true) :
    text = other := by
  cases value with
  | string held =>
    simp only [equals, decide_eq_true_eq] at first second
    rw [← first, second]
  | _ => cases first

theorem mapM_isSome_iff {Item Value : Type} {f : Item → Option Value} {items : List Item} :
    (items.mapM f).isSome = true ↔ ∀ item ∈ items, (f item).isSome = true := by
  induction items with
  | nil => simp
  | cons item items ih =>
    rw [List.forall_mem_cons, ← ih, List.mapM_cons]
    cases f item <;> cases items.mapM f <;> simp

theorem forall_mapM_iff {Item Value : Type} {f : Item → Option Value} {good : Value → Prop}
    {items : List Item} {values : List Value}
    (made : items.mapM f = some values) : (∀ value ∈ values, good value) ↔ ∀ item ∈ items, ∃ value,
      f item = some value ∧ good value := by
  induction items generalizing values with
  | nil =>
    cases made
    simp
  | cons item items ih =>
    rw [List.mapM_cons] at made
    cases first : f item with
    | none => simp [first] at made
    | some value =>
      cases others : items.mapM f with
      | none => simp [first, others] at made
      | some rest =>
        simp only [first, others, Option.bind_eq_bind, Option.bind_some, Option.pure_def, Option.some.injEq] at made
        rw [← made, List.forall_mem_cons, List.forall_mem_cons, ih others]
        simp [first]

omit [Numerals N] in
theorem joinLines_isSome_iff {parts : List (Json N)} :
    (joinLines parts).isSome = true ↔ ∀ part ∈ parts, (asText part).isSome = true := by
  rw [joinLines, Option.isSome_map, mapM_isSome_iff]

theorem joins_text (text : String) : Joins (.string text : Json N) := fun _ => rfl

theorem kept_joins {value : Json N} : (∀ part ∈ kept value, Joins part) ↔ Joins value := by
  unfold kept
  split
  · simp
  next dropped =>
    simp only [List.not_mem_nil, false_implies, implies_true, true_iff]
    exact fun truthy => absurd truthy dropped

def BlockJoins (item : Json N) :
    Prop := ∃ parts, blockParts builtins item = some parts ∧ ∀ part ∈ parts, Joins part

omit [Numerals N] in
theorem results_isSome_iff {results : List (Json N)} :
    (joinLines (results.filterMap resultText)).isSome = true ↔
    ∀ result, .object result ∈ results → (asText (get result "text" (.string ""))).isSome = true := by
  rw [joinLines_isSome_iff]
  constructor
  · intro all result member
    exact all _ (List.mem_filterMap.mpr ⟨_, member, rfl⟩)
  · intro all part member
    obtain ⟨item, inside, taken⟩ := List.mem_filterMap.mp member
    cases item with
    | object result =>
      cases taken
      exact all result inside
    | _ => cases taken

theorem joins_object_iff (block : Object N) : BlockJoins builtins (.object block) ↔ BlockRegular block := by
  have other : ∀ {first second : String},
    equals (get block "type" (.string "")) first = true → first ≠ second →
      ¬ equals (get block "type" (.string "")) second = true :=
        fun first apart second => apart (equals_unique first second)
  simp only [BlockJoins, blockParts]
  split
  next text =>
    simp only [Option.some.injEq, exists_eq_left', kept_joins]
    exact ⟨fun joins => ⟨fun _ => joins, fun again => absurd again (other text (by decide)),
      fun again => absurd again (other text (by decide))⟩,
      fun regular => regular.text text⟩
  next plain =>
  split
  next thinking =>
    simp only [Option.some.injEq, exists_eq_left', kept_joins]
    exact ⟨fun joins => ⟨fun again => absurd again plain, fun _ => joins, fun again =>
      absurd again (other thinking (by decide))⟩,
      fun regular => regular.thinking thinking⟩
  next silent =>
  split
  next use =>
    refine iff_of_true ⟨_, rfl, by simp [joins_text]⟩ ⟨fun again => absurd again plain, fun again =>
      absurd again silent, fun again => ?_⟩
    exact absurd again (other use (by decide))
  next idle =>
  split
  next result =>
    split
    next results content =>
      constructor
      · rintro ⟨parts, made, -⟩
        refine ⟨fun again => absurd again plain, fun again => absurd again silent, fun _ found same => ?_⟩
        rw [content] at same
        cases same
        exact results_isSome_iff.mp (by rw [← Option.isSome_map, made]; rfl)
      · intro regular
        obtain ⟨text, joined⟩ := Option.isSome_iff_exists.mp (results_isSome_iff.mpr (regular.result result results content))
        exact ⟨kept (.string text), by rw [joined]; rfl, kept_joins.mpr (joins_text text)⟩
    next lone =>
      refine iff_of_true ⟨_, rfl, ?_⟩ ⟨fun again => absurd again plain, fun again =>
        absurd again silent, fun _ results content => ?_⟩
      · split <;> simp [joins_text]
      · exact absurd content (lone results)
  next unanswered =>
    refine iff_of_true ?_ ⟨fun again => absurd again plain, fun again => absurd again silent,
      fun again => absurd again unanswered⟩
    split
    · exact ⟨_, rfl, by simp [joins_text]⟩
    · refine ⟨_, rfl, fun part member => ?_⟩
      obtain ⟨text, _, rfl⟩ := List.mem_map.mp member
      exact joins_text text

theorem blockJoins_iff (item : Json N) : BlockJoins builtins item ↔ ∀ block, item = .object block →
    BlockRegular block := by
  cases item with
  | object block =>
    rw [joins_object_iff]
    exact ⟨fun regular _ same => by cases same; exact regular, fun regular => regular block rfl⟩
  | string text => exact iff_of_true ⟨_, rfl, by simp [joins_text]⟩ fun _ same => by cases same
  | _ => exact iff_of_true ⟨[], rfl, by simp⟩ fun _ same => by cases same

theorem flattenContentBlocks_isSome_iff (items : List (Json N)) :
    (flattenContentBlocks builtins items).isSome = true ↔
    ∀ block, .object block ∈ items → BlockRegular block := by
  trans ∀ item ∈ items, BlockJoins builtins item
  · unfold flattenContentBlocks
    split
    next parts made =>
      unfold BlockJoins
      rw [joinLines_isSome_iff, ← forall_mapM_iff made]
      simp only [List.mem_filter, List.mem_flatten, Joins]
      exact ⟨fun all group member part inside truthy => all part ⟨⟨group, member, inside⟩, truthy⟩,
        fun all part found => all _ found.1.choose_spec.1 part found.1.choose_spec.2 found.2⟩
    next failed =>
      simp only [Option.isSome_none, Bool.false_eq_true, false_iff]
      intro all
      have made : (items.mapM (blockParts builtins)).isSome = true :=
        mapM_isSome_iff.mpr fun item member => by
        obtain ⟨parts, found, _⟩ := all item member
        rw [found]
        rfl
      rw [failed] at made
      cases made
  · simp only [blockJoins_iff]
    exact ⟨fun all block member => all _ member block rfl, fun all item member block same =>
      all block (same ▸ member)⟩

theorem attachmentText_isSome_iff (att : Object N) : (attachmentText builtins att).isSome = true ↔
    (firstText att ["content", "text"] = none → (added att).truthy = true →
      (iterate (added att)).isSome = true) := by
  unfold attachmentText
  split
  next text found => simp [found]
  next missing =>
    simp only [missing, true_implies]
    split
    next truthy => simp [truthy]
    next empty => simp [empty]

theorem extractContent_isSome_iff (obj : Object N) : (extractContent builtins obj).isSome = true ↔
    ((equals (get obj "type" (.string "")) "user" ||
      equals (get obj "type" (.string "")) "assistant") = true →
      ∀ msg, get obj "message" (.object []) = .object msg → ∀ items,
        get msg "content" (.string "") = .array items →
      ∀ block, .object block ∈ items → BlockRegular block) ∧
    (equals (get obj "type" (.string "")) "attachment" = true →
      ∀ att, get obj "attachment" (.object []) = .object att →
      firstText att ["content", "text"] = none → (added att).truthy = true → (iterate (added att)).isSome = true) := by
  have other : ∀ {first second : String}, equals (get obj "type" (.string "")) first = true → first ≠ second →
      ¬ equals (get obj "type" (.string "")) second = true :=
        fun first apart second => apart (equals_unique first second)
  simp only [extractContent]
  split
  next queued =>
    have quiet : ¬ (equals (get obj "type" (.string "")) "user" ||
        equals (get obj "type" (.string "")) "assistant") = true := by
      simp [other queued (by decide : "queue-operation" ≠ "user"),
        other queued (by decide : "queue-operation" ≠ "assistant")]
    exact iff_of_true rfl ⟨fun again => absurd again quiet, fun again =>
      absurd again (other queued (by decide))⟩
  next free =>
  split
  next spoken =>
    have silent : ¬ equals (get obj "type" (.string "")) "attachment" = true := by
      rcases Bool.or_eq_true_iff.mp spoken with user | assistant
      · exact other user (by decide)
      · exact other assistant (by decide)
    split
    next msg nested =>
      split
      next content plain =>
        refine iff_of_true rfl ⟨fun _ found same items list => ?_, fun again => absurd again silent⟩
        rw [nested] at same
        cases same
        rw [plain] at list
        cases list
      next items list =>
        rw [flattenContentBlocks_isSome_iff]
        refine ⟨fun all => ⟨fun _ found same others again => ?_, fun again => absurd again silent⟩,
          fun all => all.1 spoken msg nested items list⟩
        rw [nested] at same
        cases same
        rw [list] at again
        cases again
        exact all
      next text list =>
        refine iff_of_true rfl ⟨fun _ found same items again => ?_, fun again => absurd again silent⟩
        rw [nested] at same
        cases same
        exact absurd again (list items)
    next flat =>
      exact iff_of_true rfl ⟨fun _ msg nested => absurd nested (flat msg), fun again =>
        absurd again silent⟩
  next quiet =>
  split
  next attached =>
    split
    next att held =>
      rw [attachmentText_isSome_iff]
      refine ⟨fun all => ⟨fun again => absurd again quiet, fun _ found same => ?_⟩, fun all =>
        all.2 attached att held⟩
      rw [held] at same
      cases same
      exact all
    next flat =>
      exact iff_of_true rfl ⟨fun again => absurd again quiet, fun _ att held =>
        absurd held (flat att)⟩
  next loose =>
    refine iff_of_true ?_ ⟨fun again => absurd again quiet, fun again => absurd again loose⟩
    split
    · rfl
    · split <;> rfl

theorem message_isSome_iff (obj : Object N) :
    (message builtins obj).isSome = true ↔ Regular builtins obj := by
  simp only [message]
  split
  next hashable =>
    split
    next content extracted =>
      obtain ⟨blocks, attachment⟩ := (extractContent_isSome_iff builtins obj).mp (by rw [extracted]; rfl)
      split
      next tokens counted =>
        refine iff_of_true rfl ⟨hashable, blocks, attachment, fun found same some => ?_⟩
        rw [extracted] at same
        cases same
        rw [if_neg some] at counted
        rw [counted]
        rfl
      next failed =>
        refine iff_of_false (by simp) fun regular => ?_
        split at failed
        · cases failed
        next some =>
          have counted := regular.counted content extracted some
          rw [failed] at counted
          cases counted
    next failed =>
      refine iff_of_false (by simp) fun regular => ?_
      have extracted := (extractContent_isSome_iff builtins obj).mpr ⟨regular.blocks, regular.attachment⟩
      rw [failed] at extracted
      cases extracted
  next unhashable => exact iff_of_false (by simp) fun regular => unhashable regular.hashable

end Regular

section Runs
variable {N Key : Type} [Numerals N] [DecidableEq Key] (builtins : Builtins N Key)

/-- The lines of a file that are not blank, without the blanks around them. -/
def fileLines (text : List Char) : List (List Char) :=
  (Lines.linesFrom (· = '\n') [] text).flatMap (Lines.solid Text.isSpace)

def jsonObject (line : List Char) : Option (Object N) :=
  match builtins.loads line with
  | .value (.object obj) => some obj
  | _ => none

/-- How many messages have a type that is a certain key. -/
def typed (key : Key) (messages : List (TranscriptMessage N)) : Nat :=
  messages.countP fun msg => builtins.key msg.type = key

structure Totals (summary : TranscriptSummary N Key) : Prop where
  chars : summary.totalChars = (summary.messages.map fun msg => msg.content.length).sum
  tokens : summary.tokensEst = (summary.messages.map fun msg => msg.tokensEst).sum
  roles : ∀ key, summary.roleCounts.get key =
    if typed builtins key summary.messages = 0 then none else some (typed builtins key summary.messages)

/-- A file was parsed line by line: a message for each dictionary, an error for each other line. -/
def LineExact (text : List Char) : Prop :=
  ∃ summary, parseTranscript builtins (some text) = some summary ∧
    summary.messages.map (fun msg => msg.raw) = (fileLines text).filterMap (jsonObject builtins) ∧
    summary.parseErrors = (fileLines text).countP (fun line => (jsonObject builtins line).isNone) ∧
    summary.messageCount = summary.messages.length ∧ Totals builtins summary

def Readable (line : List Char) : Prop :=
  builtins.loads line = .decodeError ∨ ∃ obj, builtins.loads line = .value (.object obj) ∧
    Regular builtins obj

variable {builtins} {summary final : TranscriptSummary N Key}

omit [Numerals N] in
theorem record_totals (totals : Totals builtins summary) (msg : TranscriptMessage N) :
    Totals builtins (record builtins summary msg) := by
  refine ⟨?_, ?_, fun key => ?_⟩
  · simp [record, totals.chars]
  · simp [record, totals.tokens]
  · have counted : typed builtins key (summary.messages ++ [msg]) = typed builtins key summary.messages +
        if builtins.key msg.type = key then 1 else 0 := by
      simp [typed, List.countP_append, List.countP_cons]
    by_cases same : builtins.key msg.type = key
    · subst same
      simp only [record, counted, Dict.get_set_self, totals.roles]
      by_cases fresh : typed builtins (builtins.key msg.type) summary.messages = 0
      · simp [fresh]
      · simp [fresh]
    · simp only [record, counted, Dict.get_set_of_ne (Ne.symm same), totals.roles, if_neg same, Nat.add_zero]

theorem foldlM_readLine (lines : List (List Char)) (summary : TranscriptSummary N Key) :
    lines.foldlM (readLine builtins) summary =
      (lines.flatMap (Lines.solid Text.isSpace)).foldlM (parseLine builtins) summary := by
  induction lines generalizing summary with
  | nil => rfl
  | cons line lines ih =>
    rw [List.foldlM_cons, List.flatMap_cons, List.foldlM_append]
    simp only [readLine, Lines.solid, ih]
    by_cases blank : Lines.trim Text.isSpace line = []
    · simp [blank]
    · simp only [if_neg blank, List.foldlM_cons, List.foldlM_nil]
      simp

omit [DecidableEq Key] in
theorem raw_message {obj : Object N} {msg : TranscriptMessage N}
    (made : message builtins obj = some msg) : msg.raw = obj := by
  simp only [message] at made
  split at made
  · split at made
    · split at made
      · cases made
        rfl
      · cases made
    · cases made
  · cases made

theorem parseLine_cases {line : List Char} {after : TranscriptSummary N Key}
    (read : parseLine builtins summary line = some after) :
    Readable builtins line ∧
      ((∃ obj msg, jsonObject builtins line = some obj ∧ msg.raw = obj ∧
      after = record builtins summary msg) ∨
      (jsonObject builtins line = none ∧ after = { summary with parseErrors := summary.parseErrors + 1 })) := by
  unfold parseLine at read
  split at read
  next obj held =>
    obtain ⟨msg, made, same⟩ := Option.map_eq_some_iff.mp read
    have regular := (message_isSome_iff builtins obj).mp (by rw [made]; rfl)
    exact ⟨.inr ⟨obj, held, regular⟩,
      .inl ⟨obj, msg, by simp [jsonObject, held], raw_message made, same.symm⟩⟩
  · cases read
  next failed => exact ⟨.inl failed, .inr ⟨by simp [jsonObject, failed], (Option.some.inj read).symm⟩⟩
  · cases read

theorem parseLine_isSome {line : List Char} (readable : Readable builtins line)
    (summary : TranscriptSummary N Key) :
    ∃ after, parseLine builtins summary line = some after := by
  rcases readable with failed | ⟨obj, held, regular⟩
  · exact ⟨_, by simp [parseLine, failed]; rfl⟩
  · obtain ⟨msg, made⟩ := Option.isSome_iff_exists.mp ((message_isSome_iff builtins obj).mpr regular)
    exact ⟨_, by simp [parseLine, held, made]; rfl⟩

theorem run_pieces {pieces : List (List Char)} (run : pieces.foldlM (parseLine builtins) summary = some final)
    (totals : Totals builtins summary) :
    (∀ line ∈ pieces, Readable builtins line) ∧
    final.messages.map (fun msg => msg.raw) = summary.messages.map (fun msg => msg.raw) ++
      pieces.filterMap (jsonObject builtins) ∧
    final.parseErrors = summary.parseErrors + pieces.countP (fun line =>
      (jsonObject builtins line).isNone) ∧ Totals builtins final := by
  induction pieces generalizing summary with
  | nil =>
    cases run
    simpa using totals
  | cons line pieces ih =>
    rw [List.foldlM_cons] at run
    obtain ⟨after, read, rest⟩ := Option.bind_eq_some_iff.mp run
    obtain ⟨readable, ⟨obj, msg, held, raw, rfl⟩ | ⟨held, rfl⟩⟩ := parseLine_cases read
    · obtain ⟨all, objects, errors, final⟩ := ih rest (record_totals totals msg)
      refine ⟨List.forall_mem_cons.mpr ⟨readable, all⟩, ?_, ?_, final⟩
      · rw [objects, List.filterMap_cons_some held, ← raw]
        simp [record]
      · rw [errors, List.countP_cons, held]
        rfl
    · obtain ⟨all, objects, errors, final⟩ := ih rest ⟨totals.chars, totals.tokens, totals.roles⟩
      refine ⟨List.forall_mem_cons.mpr ⟨readable, all⟩, ?_, ?_, final⟩
      · rw [objects, List.filterMap_cons_none held]
      · rw [errors, List.countP_cons, held]
        simp only [Option.isNone_none, if_true]
        omega

theorem run_of_readable {pieces : List (List Char)}
    (readable : ∀ line ∈ pieces, Readable builtins line) (summary : TranscriptSummary N Key) :
    ∃ final, pieces.foldlM (parseLine builtins) summary = some final := by
  induction pieces generalizing summary with
  | nil => exact ⟨summary, rfl⟩
  | cons line pieces ih =>
    obtain ⟨after, read⟩ := parseLine_isSome (readable line List.mem_cons_self) summary
    obtain ⟨final, rest⟩ := ih (fun other member => readable other (List.mem_cons_of_mem _ member)) after
    exact ⟨final, by rw [List.foldlM_cons, read]; exact rest⟩

/-- The loop runs through the pieces between all boundaries of the text. -/
theorem parseTranscript_eq (builtins : Builtins N Key) (text : List Char) :
    parseTranscript builtins (some text) =
    ((Lines.solidFrom Text.isSpace Lines.isBoundary [] text).foldlM (parseLine builtins) emptySummary).map
      fun summary => { summary with messageCount := summary.messages.length } := by
  rw [parseTranscript, foldlM_readLine, Lines.splitlines, Lines.solidFrom_splitlines,
    Lines.solidFrom_translate]
  cases (Lines.solidFrom Text.isSpace Lines.isBoundary [] text).foldlM (parseLine builtins) emptySummary <;> rfl

theorem pieces_eq (text : List Char) : Lines.solidFrom Text.isSpace Lines.isBoundary [] text =
    (Lines.linesFrom (· = '\n') [] text).flatMap (Lines.solidFrom Text.isSpace Lines.isBoundary []) := by
  have coarser : ∀ c : Char, decide (c = '\n') = true → Lines.isBoundary c = true := by
    intro c feed
    rw [of_decide_eq_true feed]
    decide
  exact Lines.solidFrom_lines coarser [] text

/-- A file is parsed line by line exactly when no line holds a further boundary and each is no JSON
or a dictionary that can be taken. -/
theorem line_exact_iff (builtins : Builtins N Key) (text : List Char) : LineExact builtins text ↔
    ∀ line ∈ fileLines text, (∀ c ∈ line, Lines.isBoundary c = false) ∧ Readable builtins line := by
  have empty : Totals builtins (emptySummary : TranscriptSummary N Key) := ⟨rfl, rfl, fun _ => rfl⟩
  have whole : (∀ line ∈ fileLines text, ∀ c ∈ line, Lines.isBoundary c = false) →
      Lines.solidFrom Text.isSpace Lines.isBoundary [] text = fileLines text := by
    intro whole
    rw [pieces_eq, fileLines]
    apply List.flatMap_congr
    intro line member
    exact Lines.solidFrom_of_solid Lines.isSpace_of_isBoundary line fun piece inside =>
      whole piece (List.mem_flatMap.mpr ⟨line, member, inside⟩)
  constructor
  · rintro ⟨summary, parsed, objects, errors, _, _⟩
    rw [parseTranscript_eq] at parsed
    obtain ⟨final, run, rfl⟩ := Option.map_eq_some_iff.mp parsed
    obtain ⟨readable, messages, failures, _⟩ := run_pieces run empty
    -- messages and errors are as many as the pieces, and as the lines
    have count : ∀ lines : List (List Char),
        (lines.filterMap (jsonObject builtins)).length + lines.countP (fun line =>
            (jsonObject builtins line).isNone) = lines.length := by
      intro lines
      induction lines with
      | nil => rfl
      | cons line lines ih =>
        cases held : jsonObject builtins line with
        | none => simp [held]; omega
        | some obj => simp [held]; omega
    have few : (Lines.solidFrom Text.isSpace Lines.isBoundary [] text).length = (fileLines text).length := by
      rw [← count, ← count (fileLines text), ← objects, ← errors, messages, failures]
      simp [emptySummary]
    have unbroken : ∀ line ∈ fileLines text, ∀ c ∈ line, Lines.isBoundary c = false := by
      rw [pieces_eq] at few
      exact Lines.whole_of_length Lines.isSpace_of_isBoundary few.le
    rw [whole unbroken] at readable
    exact fun line member => ⟨unbroken line member, readable line member⟩
  · intro all
    have same := whole fun line member => (all line member).1
    obtain ⟨final, run⟩ := run_of_readable (fun line member => (all line member).2) emptySummary
    obtain ⟨_, objects, errors, totals⟩ := run_pieces run empty
    refine ⟨{ final with messageCount := final.messages.length }, ?_, ?_, ?_, rfl, totals.chars,
      totals.tokens, totals.roles⟩
    · rw [parseTranscript_eq, same, run]
      rfl
    · simpa [emptySummary] using objects
    · simpa [emptySummary] using errors

end Runs

section Separator

def wholeNumbers : Builtins Int String where
  loads text := ((Json.loads text).map Loaded.value).getD .decodeError
  repr _ := ""
  countTokens text := some (text.length / 4)
  key value := (asText value).getD ""

def separated : List Char := "\x7b\"text\":\"a\u2028b\"\x7d".toList

/-- A dictionary whose text holds a line separator gives no message but two errors; a list ends the
parsing. -/
theorem separator_breaks : ¬ LineExact wholeNumbers separated ∧ ¬ LineExact wholeNumbers "[1]".toList := by
  have separated : (parseTranscript wholeNumbers (some separated)).map (·.parseErrors) =
      some 2 := by
    decide +kernel
  have listed : (parseTranscript wholeNumbers (some "[1]".toList)).isNone = true := by decide +kernel
  constructor
  · rintro ⟨summary, parsed, _, errors, _⟩
    rw [parsed] at separated
    have none : (fileLines Transcript.separated).countP (fun line =>
        (jsonObject wholeNumbers line).isNone) = 0 := by
      decide +kernel
    rw [Option.map_some, errors, none] at separated
    cases separated
  · rintro ⟨summary, parsed, _⟩
    rw [parsed] at listed
    cases listed

end Separator
end TokenPak.Companion.Transcript
