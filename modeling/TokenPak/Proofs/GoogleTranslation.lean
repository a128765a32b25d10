import TokenPak.Proofs.ContentTranslation
import TokenPak.Proofs.ToolLinks

/-! The third format links results to calls by the names of functions. What a conversation of the
first format becomes in it, and what comes back: the same events, with the names in the places of
the ids of the calls. -/

namespace TokenPak.Proxy.Translator
open Library

section Reading
variable {N : Type}

/-- A call is read under the name of its function, which a result has to carry. The texts of results
do not matter for the links. -/
def readGooglePart : Json N → Option (List (Item N))
  | .object entries =>
    if (entries.lookup "text").isSome then do return [.text (← textOfField entries "text")]
    else if (entries.lookup "functionCall").isSome then do
      let call ← (entries.lookup "functionCall").bind asObject
      let name ← textOfField call "name"
      return [.call name name (some ((call.lookup "args").getD (.object [])))]
    else if (entries.lookup "functionResponse").isSome then do
      let answer ← (entries.lookup "functionResponse").bind asObject
      let _ ← asObject ((answer.lookup "response").getD (.object []))
      return [.result (← textOfField answer "name") []]
    else some []
  | _ => none

def readGoogle : Json N → Option (Turn N)
  | .object entries => do
    let role ← textOfField entries "role"
    let parts ← (entries.lookup "parts").bind asArray
    let items ← (parts.mapM readGooglePart).map List.flatten
    if role = "model" then return ⟨.assistant, items⟩
    else if role = "user" && !items.any Item.isCall then return ⟨.user, items⟩
    else none
  | _ => none

def googleConversation (data : Object N) : Option (Conversation N) := do
  return ⟨[], ← (← (data.lookup "contents").bind asArray).mapM readGoogle⟩

def Item.linked : Item N → Item N
  | .call _ name arguments => .call name name arguments
  | .result id _ => .result id []
  | .text line => .text line

theorem event_linked (item : Item N) : item.linked.event = item.event.map Event.named := by
  cases item <;> rfl

theorem isCall_linked (item : Item N) : item.linked.isCall = item.isCall := by
  cases item <;> rfl

end Reading

section Conversions
variable {N : Type}

/-- A value becomes messages that are read as turns with these events: one turn, or none when there
are no events. -/
def Converts (convert : Json N → Option (List (Json N))) (read : Json N → Option (Turn N))
    (value : Json N) (events : List Event) : Prop :=
  ∃ (messages : List (Json N)) (turns : List (Turn N)), convert value = some messages ∧
    messages.mapM read = some turns ∧
    Json.ProperItems messages ∧ turns.flatMap Turn.events = events ∧ ∀ turn ∈ turns, turn.events = events

theorem converts_all {convert : Json N → Option (List (Json N))} {read : Json N → Option (Turn N)}
    {values : List (Json N)}
    {events : List (List Event)} (each : List.Forall₂ (Converts convert read) values events) :
    ∃ (lists : List (List (Json N))) (turns : List (Turn N)), values.mapM convert = some lists ∧
      lists.flatten.mapM read = some turns ∧
      Json.ProperItems lists.flatten ∧ turns.flatMap Turn.events = events.flatten ∧ ∀ turn ∈ turns,
          turn.events ∈ events := by
  induction each with
  | nil => exact ⟨[], [], rfl, rfl, trivial, rfl, by simp⟩
  | cons here _ ih =>
    obtain ⟨messages, first, converted, read, proper, same, own⟩ := here
    obtain ⟨lists, rest, others, reads, all, events, owns⟩ := ih
    refine ⟨messages :: lists, first ++ rest, ?_, ?_, ?_, ?_, ?_⟩
    · rw [List.mapM_cons, converted, others]
      rfl
    · rw [List.flatten_cons, List.mapM_append, read, reads]
      rfl
    · rw [Json.properItems_iff] at proper all ⊢
      intro item member
      rw [List.flatten_cons, List.mem_append] at member
      exact member.elim (proper item) (all item)
    · rw [List.flatMap_append, List.flatten_cons, same, events]
    · intro turn member
      rcases List.mem_append.mp member with inside | behind
      · exact List.mem_cons.mpr (.inl (own turn inside))
      · exact List.mem_cons_of_mem _ (owns turn behind)

theorem proper_getD {entries : Object N} (proper : (Json.object entries).Proper) (key : String)
    {default : Json N} (base : default.Proper) :
    ((entries.lookup key).getD default).Proper := by
  cases held : entries.lookup key with
  | none => exact base
  | some value => exact Json.proper_lookup proper held

end Conversions

section Parts
variable {N : Type}

theorem part_read {entries : Object N} {items : List (Item N)} (shape : BlockShape entries items) :
    readGooglePart (part entries) = some (items.map Item.linked) := by
  cases shape with
  | text kind given => simp [part, kind, given, readGooglePart, textOfField, asString, Item.linked]
  | toolUse kind named function given =>
    simp [part, kind, function, given, readGooglePart, List.lookup_cons, textOfField, asString,
      asObject, Item.linked]
  | toolResult kind named given =>
    simp [part, kind, named, readGooglePart, List.lookup_cons, textOfField, asString, asObject, Item.linked]
  | other given no_text no_use no_result silent no_call no_answer =>
    have same : part entries = .object entries := by
      unfold part
      split
      next kind => exact absurd (Json.string.inj (Option.some.inj (given.symm.trans kind))) no_text
      next kind => exact absurd (Json.string.inj (Option.some.inj (given.symm.trans kind))) no_use
      next kind => exact absurd (Json.string.inj (Option.some.inj (given.symm.trans kind))) no_result
      next => rfl
    rw [same]
    simp [readGooglePart, silent, no_call, no_answer]

theorem contentBlocks_shape {content : Json N} {items : List (Item N)}
    (read : readContent content = some items) :
    ∃ lists, List.Forall₂ BlockShape (asContentBlocks content) lists ∧ items = lists.flatten := by
  cases content with
  | string text =>
    cases read
    exact ⟨[[.text text]], .cons (.text rfl rfl) .nil, rfl⟩
  | array blocks =>
    simp only [readContent, Option.map_eq_some_iff] at read
    obtain ⟨lists, each, rfl⟩ := read
    refine ⟨lists, ?_, rfl⟩
    rw [mapM_eq_some] at each
    induction each with
    | nil => exact .nil
    | cons here _ ih =>
      obtain ⟨entries, rfl, shape⟩ := readBlock_shape here
      exact .cons shape ih
  | _ => cases read

theorem parts_read {blocks : List (Object N)} {lists : List (List (Item N))}
    (shapes : List.Forall₂ BlockShape blocks lists) :
    (blocks.map part).mapM readGooglePart = some (lists.map (List.map Item.linked)) := by
  apply mapM_eq_some.mpr
  rw [List.forall₂_map_left_iff, List.forall₂_map_right_iff]
  exact shapes.imp fun block items shape => part_read shape

theorem part_proper {block : Object N} (proper : (Json.object block).Proper) : (part block).Proper := by
  have text (key : String) : ((block.lookup key).getD (.string "")).Proper := proper_getD proper key trivial
  have object (key : String) : ((block.lookup key).getD (.object [])).Proper :=
    proper_getD proper key ⟨List.nodup_nil, trivial⟩
  unfold part
  split
  · simp [Json.Proper, Json.ProperEntries, text]
  · simp [Json.Proper, Json.ProperEntries, text, object]
  · simp [Json.Proper, Json.ProperEntries, text]
  · exact proper

theorem contentBlocks_proper {content : Json N} (proper : content.Proper) :
    ∀ block ∈ asContentBlocks content, (Json.object block).Proper := by
  intro block member
  cases content with
  | string text =>
    rw [List.mem_singleton.mp member]
    simp [Json.Proper, Json.ProperEntries]
  | array items =>
    obtain ⟨item, inside, same⟩ := List.mem_filterMap.mp member
    cases item with
    | string text =>
      cases same
      simp [Json.Proper, Json.ProperEntries]
    | object entries =>
      cases same
      exact Json.properItems_iff.mp proper _ inside
    | _ => cases same
  | _ => cases member

theorem events_linked (items : List (Item N)) :
    (items.map Item.linked).filterMap Item.event = (items.filterMap Item.event).map Event.named := by
  rw [List.filterMap_map, List.map_filterMap]
  exact List.filterMap_congr fun item _ => event_linked item

theorem any_linked (items : List (Item N)) :
    (items.map Item.linked).any Item.isCall = items.any Item.isCall := by
  rw [List.any_map]
  congr 1
  exact funext isCall_linked

def Side.googleRole : Side → String
  | .user => "user"
  | .assistant => "model"

theorem readGoogle_content (side : Side) {parts : List (Json N)} {items : List (Item N)}
    (read : (parts.mapM readGooglePart).map List.flatten = some items)
    (uncalled : side = .user → items.any Item.isCall = false) :
    readGoogle (.object [("role", .string side.googleRole), ("parts", .array parts)]) = some ⟨side,
      items⟩ := by
  have role : textOfField [("role", (.string side.googleRole : Json N)),
      ("parts", .array parts)] "role" = some side.googleRole :=
    rfl
  have held : (List.lookup "parts" [("role", (.string side.googleRole : Json N)),
      ("parts", .array parts)]).bind asArray = some parts :=
    rfl
  simp only [readGoogle, Option.bind_eq_bind]
  rw [role, Option.bind_some, held, Option.bind_some, read, Option.bind_some]
  cases side with
  | user =>
    rw [if_neg (by decide), if_pos (by simp [Side.googleRole, uncalled rfl])]
    rfl
  | assistant => rfl

theorem googleContent_read {message : Json N} {turn : Turn N}
    (read : readAnthropic message = some turn) (proper : message.Proper) :
    Converts googleContent readGoogle message (turn.events.map Event.named) := by
  obtain ⟨entries, rfl, shape⟩ := readAnthropic_message read
  obtain ⟨side, items⟩ := turn
  obtain ⟨content, held, inside⟩ := shape.content
  obtain ⟨lists, shapes, rfl⟩ := contentBlocks_shape inside
  have parts := parts_read shapes
  have role := shape.role
  have uncalled : side = .user → (lists.flatten.map Item.linked).any Item.isCall = false := by
    intro user
    have none_there := shape.calls user
    rw [any_linked]
    simpa [Turn.calls] using none_there
  have items : (((asContentBlocks content).map part).mapM readGooglePart).map List.flatten =
      some (lists.flatten.map Item.linked) := by
    rw [parts, Option.map_some, List.map_flatten]
  have none_there (empty : (asContentBlocks content).map part = []) : lists = [] := by
    rw [List.map_eq_nil_iff.mp empty] at shapes
    cases shapes
    rfl
  have all : Json.ProperItems ((asContentBlocks content).map part) := by
    rw [Json.properItems_iff]
    intro result member
    obtain ⟨block, inside, rfl⟩ := List.mem_map.mp member
    exact part_proper (contentBlocks_proper (Json.proper_lookup proper held) block inside)
  have translated : googleContent (.object entries) =
    some (if ((asContentBlocks content).map part).isEmpty then []
      else [.object [("role", .string side.googleRole), ("parts", .array ((asContentBlocks content).map part))]]) := by
    cases side <;>
      simp only [googleContent, get, held, role, Option.bind_eq_bind, Option.bind_some,
        Option.getD_some, Option.pure_def, Side.role,
        Side.googleRole, isWord] <;> rfl
  cases written : (asContentBlocks content).map part with
  | nil =>
    rw [none_there written]
    exact ⟨[], [], by rw [translated, written]; rfl, rfl, trivial, rfl, by simp⟩
  | cons first others =>
    rw [written] at translated items all
    have content := readGoogle_content side items uncalled
    have events : (Turn.mk side (lists.flatten.map Item.linked)).events =
        (lists.flatten.filterMap Item.event).map Event.named :=
      events_linked _
    refine ⟨_, [⟨side, lists.flatten.map Item.linked⟩], translated, ?_, ?_, ?_, ?_⟩
    · rw [List.isEmpty_cons, if_neg Bool.false_ne_true, List.mapM_cons, content]
      rfl
    · simpa [Json.ProperItems, Json.Proper, Json.ProperEntries] using all
    · rw [List.flatMap_singleton]
      exact events
    · intro turn member
      rw [List.mem_singleton.mp member]
      exact events

end Parts

section Shapes
variable {N : Type}

inductive PartShape (entries : Object N) : List (Item N) → Prop
  | text {line : String} (given : entries.lookup "text" = some (.string line)) : PartShape entries [.text line]
  | call {body : Object N} {name : String} (silent : entries.lookup "text" = none)
      (given : entries.lookup "functionCall" = some (.object body))
        (named : body.lookup "name" = some (.string name)) :
      PartShape entries [.call name name (some ((body.lookup "args").getD (.object [])))]
  | answer {body response : Object N} {name : String} (silent : entries.lookup "text" = none)
      (uncalled : entries.lookup "functionCall" = none)
        (given : entries.lookup "functionResponse" = some (.object body))
      (held : (body.lookup "response").getD (.object []) = .object response)
        (named : body.lookup "name" = some (.string name)) :
      PartShape entries [.result name []]
  | other (silent : entries.lookup "text" = none) (uncalled : entries.lookup "functionCall" = none)
      (unanswered : entries.lookup "functionResponse" = none) : PartShape entries []

theorem asObject_eq_some (value : Option (Json N)) {body : Object N} :
    value.bind asObject = some body ↔ value = some (.object body) := by
  cases value with
  | none => simp
  | some value => cases value <;> simp [asObject]

theorem readGooglePart_shape {part : Json N} {items : List (Item N)}
    (read : readGooglePart part = some items) :
    ∃ entries, part = .object entries ∧ PartShape entries items := by
  cases part with
  | object entries =>
    refine ⟨entries, rfl, ?_⟩
    simp only [readGooglePart, Option.bind_eq_bind, Option.pure_def] at read
    by_cases text : (entries.lookup "text").isSome = true
    · rw [if_pos text] at read
      simp only [Option.bind_eq_some_iff, textOfField_eq_some, Option.some.injEq] at read
      obtain ⟨line, given, rfl⟩ := read
      exact .text given
    have silent : entries.lookup "text" = none := Option.not_isSome_iff_eq_none.mp text
    rw [if_neg text] at read
    by_cases call : (entries.lookup "functionCall").isSome = true
    · rw [if_pos call] at read
      obtain ⟨body, given, read⟩ := Option.bind_eq_some_iff.mp read
      obtain ⟨name, named, read⟩ := Option.bind_eq_some_iff.mp read
      rw [asObject_eq_some] at given
      rw [textOfField_eq_some] at named
      cases read
      exact .call silent given named
    have uncalled : entries.lookup "functionCall" = none := Option.not_isSome_iff_eq_none.mp call
    rw [if_neg call] at read
    by_cases answer : (entries.lookup "functionResponse").isSome = true
    · rw [if_pos answer] at read
      obtain ⟨body, given, read⟩ := Option.bind_eq_some_iff.mp read
      obtain ⟨response, held, read⟩ := Option.bind_eq_some_iff.mp read
      obtain ⟨name, named, read⟩ := Option.bind_eq_some_iff.mp read
      rw [asObject_eq_some] at given
      rw [textOfField_eq_some] at named
      cases read
      have whole := (asObject_eq_some (some _)).mp held
      exact .answer silent uncalled given (Option.some.inj whole) named
    · rw [if_neg answer] at read
      cases read
      exact .other silent uncalled (Option.not_isSome_iff_eq_none.mp answer)
  | _ => cases read

end Shapes

section Returns
variable {N : Type} (other : Json N → String)

theorem anthropicBlock_read {part : Json N} {items : List (Item N)}
    (read : readGooglePart part = some items) :
    ∃ (block : Json N) (after : List (Item N)), anthropicBlock other part = some block ∧
      readBlock block = some after ∧
      after.filterMap Item.event = items.filterMap Item.event ∧
          after.any Item.isCall = items.any Item.isCall ∧ (part.Proper → block.Proper) := by
  obtain ⟨entries, rfl, shape⟩ := readGooglePart_shape read
  cases shape with
  | @text line given =>
    refine ⟨.object [("type", .string "text"), ("text", .string line)], [.text line], ?_, rfl, rfl, rfl, ?_⟩
    · simp [anthropicBlock, contains, index, given]
    · simp [Json.Proper, Json.ProperEntries]
  | @call body name silent given named =>
    refine ⟨.object [("type", .string "tool_use"), ("id", .string name), ("name", .string name),
      ("input", (body.lookup "args").getD (.object []))], [.call name name (some ((body.lookup "args").getD (.object [])))], ?_, rfl, rfl, rfl, ?_⟩
    · simp [anthropicBlock, contains, index, get, silent, given, named]
    · intro proper
      have empty : (Json.object ([] : Object N)).Proper := ⟨List.nodup_nil, trivial⟩
      have args := proper_getD (Json.proper_lookup proper given) "args" empty
      simp [Json.Proper, Json.ProperEntries, args]
  | @answer body response name silent uncalled given held named =>
    refine ⟨.object [("type", .string "tool_result"), ("tool_use_id", .string name),
      ("content", .string (str other ((response.lookup "content").getD (.string ""))))],
      [.result name [str other ((response.lookup "content").getD (.string ""))]], ?_, rfl, rfl, rfl, ?_⟩
    · simp [anthropicBlock, contains, index, get, silent, uncalled, given, held, named]
    · simp [Json.Proper, Json.ProperEntries]
  | other silent uncalled unanswered =>
    refine ⟨.object [("type", .string "text"), ("text", .string (str other (.object entries)))],
      [.text (str other (.object entries))],
      ?_, rfl, rfl, rfl, ?_⟩
    · simp [anthropicBlock, contains, silent, uncalled, unanswered]
    · simp [Json.Proper, Json.ProperEntries]

theorem simplified_read {blocks : List (Json N)} {lists : List (List (Item N))}
    (read : BlocksRead blocks lists) :
    readContent (simplified blocks) = some lists.flatten := by
  have whole : readContent (.array blocks) = some lists.flatten := by
    rw [readContent, mapM_eq_some.mpr read]
    rfl
  unfold simplified
  split
  next block =>
    split
    next kind =>
      cases read with
      | cons here rest =>
        cases rest
        obtain ⟨entries, same, shape⟩ := readBlock_shape here
        cases same
        cases shape with
        | text _ given => rw [given]; rfl
        | toolUse given => simp [isKind, given, isWord] at kind
        | toolResult given => simp [isKind, given, isWord] at kind
        | other given no_text => simp [isKind, given, isWord, no_text] at kind
    next => exact whole
  next => exact whole

theorem blocks_converted {parts : List (Json N)} {lists : List (List (Item N))}
    (each : List.Forall₂ (fun part items => readGooglePart part = some items) parts lists)
    (all : ∀ part ∈ parts, part.Proper) :
    ∃ blocks after, parts.mapM (anthropicBlock other) = some blocks ∧ BlocksRead blocks after ∧
      Json.ProperItems blocks ∧
      after.flatten.filterMap Item.event = lists.flatten.filterMap Item.event ∧
      after.flatten.any Item.isCall = lists.flatten.any Item.isCall := by
  induction each with
  | nil => exact ⟨[], [], rfl, .nil, trivial, rfl, rfl⟩
  | cons here _ ih =>
    obtain ⟨block, items, converted, read, events, calls, proper⟩ := anthropicBlock_read other here
    obtain ⟨blocks, after, others, reads, alls, same, called⟩ :=
      ih fun part member => all part (List.mem_cons_of_mem _ member)
    refine ⟨block :: blocks, items :: after, ?_, .cons read reads,
      ⟨proper (all _ List.mem_cons_self), alls⟩, ?_, ?_⟩
    · rw [List.mapM_cons, converted, others]
      rfl
    · simp only [List.flatten_cons, List.filterMap_append, events, same]
    · simp only [List.flatten_cons, List.any_append, calls, called]

theorem simplified_proper {blocks : List (Json N)} (proper : Json.ProperItems blocks) :
    (simplified blocks).Proper := by
  unfold simplified
  split
  next block =>
    split
    · exact proper_getD proper.1 "text" trivial
    · exact proper
  · exact proper

theorem readGoogle_eq_some {content : Json N} {turn : Turn N} (read : readGoogle content = some turn) :
    ∃ entries parts lists, content = .object entries ∧
      entries.lookup "role" = some (.string turn.side.googleRole) ∧
      entries.lookup "parts" = some (.array parts) ∧ turn.items = lists.flatten ∧
      List.Forall₂ (fun part items => readGooglePart part = some items) parts lists ∧
      (turn.side = .user → turn.items.any Item.isCall = false) := by
  cases content with
  | object entries =>
    simp only [readGoogle, Option.bind_eq_bind, Option.bind_eq_some_iff, textOfField_eq_some,
      Option.map_eq_some_iff] at read
    obtain ⟨role, given, parts, ⟨value, held, listed⟩, items, ⟨lists, each, rfl⟩, read⟩ := read
    cases value with
    | array list =>
      cases listed
      rw [mapM_eq_some] at each
      split at read
      next model =>
        cases read
        subst model
        exact ⟨entries, parts, lists, rfl, given, held, rfl, each, by simp⟩
      next =>
        split at read
        next user =>
          cases read
          simp only [Bool.and_eq_true, decide_eq_true_eq, Bool.not_eq_true'] at user
          obtain ⟨rfl, uncalled⟩ := user
          exact ⟨entries, parts, lists, rfl, given, held, rfl, each, fun _ => uncalled⟩
        next => cases read
    | _ => cases listed
  | _ => cases read

theorem readAnthropic_content (side : Side) {content : Json N} {items : List (Item N)}
    (read : readContent content = some items)
    (uncalled : side = .user → items.any Item.isCall = false) :
    readAnthropic (.object [("role", .string side.role), ("content", content)]) = some ⟨side, items⟩ := by
  cases side with
  | user =>
    have alone := uncalled rfl
    simp only [List.any_eq_false] at alone
    simpa [readAnthropic, textOfField, List.lookup_cons, asString, read, Side.role] using alone
  | assistant => simp [readAnthropic, textOfField, List.lookup_cons, asString, read, Side.role]

theorem messageOfContent_read {content : Json N} {turn : Turn N}
    (read : readGoogle content = some turn) (proper : content.Proper) :
    Converts (messageOfContent other) readAnthropic content turn.events := by
  obtain ⟨entries, parts, lists, rfl, role, held, items, each, uncalled⟩ := readGoogle_eq_some read
  obtain ⟨side, _⟩ := turn
  cases items
  have all : Json.ProperItems parts := Json.proper_lookup proper held
  obtain ⟨blocks, after, converted, reads, alls, events, called⟩ :=
    blocks_converted other each (Json.properItems_iff.mp all)
  have translated : messageOfContent other (.object entries) = some (if blocks.isEmpty then []
      else [.object [("role", .string side.role), ("content", simplified blocks)]]) := by
    cases side <;>
      simp only [messageOfContent, get, role, held, Option.bind_eq_bind, Option.bind_some,
        Option.getD_some, Option.pure_def, iterate,
        converted, Side.role, Side.googleRole, isWord] <;> rfl
  have own : (Turn.mk side after.flatten).events = (Turn.mk side lists.flatten).events := events
  have message := readAnthropic_content side (simplified_read reads) fun user => called.trans (uncalled user)
  cases blocks with
  | nil =>
    cases reads
    exact ⟨[], [], translated, rfl, trivial, own, by simp⟩
  | cons first others =>
    have written := simplified_proper alls
    refine ⟨_, [⟨side, after.flatten⟩], translated, ?_, ?_, ?_, ?_⟩
    · rw [List.isEmpty_cons, if_neg Bool.false_ne_true, List.mapM_cons, message]
      rfl
    · simpa [Json.ProperItems, Json.Proper, Json.ProperEntries] using written
    · rw [List.flatMap_singleton]
      exact own
    · intro turn member
      rw [List.mem_singleton.mp member]
      exact own

end Returns
end TokenPak.Proxy.Translator
