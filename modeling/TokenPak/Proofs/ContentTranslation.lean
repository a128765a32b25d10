import TokenPak.Library.JsonSound
import TokenPak.Library.Traversal
import TokenPak.Proofs.Conversations

/-! The conversation that a body holds in the format of either provider, and what the translation of
the body makes of it. -/

namespace TokenPak.Proxy.Translator
open Library

section Reading
variable {N : Type}

def textOfField (entries : Object N) (key : String) : Option String := (entries.lookup key).bind asString

def asObject : Json N → Option (Object N)
  | .object entries => some entries
  | _ => none

def asArray : Json N → Option (List (Json N))
  | .array items => some items
  | _ => none

def readPart : Json N → Option (List String)
  | .object entries => do
    let kind ← textOfField entries "type"
    if kind = "text" then return [← textOfField entries "text"]
    else if (entries.lookup "text").isNone then return []
    else none
  | _ => none

def readTexts : Json N → Option (List String)
  | .null => some []
  | .string text => some [text]
  | .array parts => (parts.mapM readPart).map List.flatten
  | _ => none

/-- The content of a block of the first format. Other kinds of blocks have no field of that name,
and none that is the content of a part of the third format. -/
def readBlock : Json N → Option (List (Item N))
  | .object entries => do
    let kind ← textOfField entries "type"
    if kind = "text" then return [.text (← textOfField entries "text")]
    else if kind = "tool_use" then
      return [.call (← textOfField entries "id") (← textOfField entries "name") (some (← entries.lookup "input"))]
    else if kind = "tool_result" then
      return [.result (← textOfField entries "tool_use_id") (← readTexts ((entries.lookup "content").getD .null))]
    else if ["text", "functionCall", "functionResponse"].all fun key =>
      (entries.lookup key).isNone then return []
    else none
  | _ => none

def readContent : Json N → Option (List (Item N))
  | .string text => some [.text text]
  | .array blocks => (blocks.mapM readBlock).map List.flatten
  | _ => none

/-- A message of the first format. Only the assistant calls tools. -/
def readAnthropic : Json N → Option (Turn N)
  | .object entries => do
    let role ← textOfField entries "role"
    let items ← readContent (← entries.lookup "content")
    if role = "assistant" then return ⟨.assistant, items⟩
    else if role = "user" && !items.any Item.isCall then return ⟨.user, items⟩
    else none
  | _ => none

def readPrompt (data : Object N) : Option (List (List String)) :=
  match data.lookup "system" with
  | some system => (readTexts system).map ([·])
  | none => some []

def readMessages (data : Object N) : Option (List (Json N)) := (data.lookup "messages").bind asArray

def anthropicConversation (data : Object N) : Option (Conversation N) := do
  return ⟨← readPrompt data, ← (← readMessages data).mapM readAnthropic⟩

variable [Decoder N]

def readCall : Json N → Option (Item N)
  | .object entries => do
    let function ← (entries.lookup "function").bind asObject
    return .call (← textOfField entries "id") (← textOfField function "name")
      (decode (← textOfField function "arguments").toList)
  | _ => none

def readCalls : Json N → Option (List (Item N))
  | .null => some []
  | .array calls => calls.mapM readCall
  | _ => none

/-- A message of the second format: a part of the system prompt, or a turn. -/
def readOpenai : Json N → Option (List String ⊕ Turn N)
  | .object entries => do
    let role ← textOfField entries "role"
    let texts ← readTexts ((entries.lookup "content").getD .null)
    let calls ← readCalls ((entries.lookup "tool_calls").getD .null)
    if role = "assistant" then return .inr ⟨.assistant, texts.map Item.text ++ calls⟩
    else if calls.isEmpty then
      if role = "system" then return .inl texts
      else if role = "user" then return .inr ⟨.user, texts.map Item.text⟩
      else if role = "tool" then return .inr ⟨.user, [.result (← textOfField entries "tool_call_id") texts]⟩
      else none
    else none
  | _ => none

def openaiConversation (data : Object N) : Option (Conversation N) := do
  let read ← (← readMessages data).mapM readOpenai
  return ⟨read.filterMap Sum.getLeft?, read.filterMap Sum.getRight?⟩

end Reading

section Shapes
variable {N : Type}

theorem textOfField_eq_some {entries : Object N} {key text : String} :
    textOfField entries key = some text ↔ entries.lookup key = some (.string text) := by
  unfold textOfField
  cases entries.lookup key with
  | none => simp
  | some value => cases value <;> simp [asString]

inductive BlockShape (entries : Object N) : List (Item N) → Prop
  | text {line : String} (kind : entries.lookup "type" = some (.string "text")) (given : entries.lookup "text" = some (.string line)) :
      BlockShape entries [.text line]
  | toolUse {id name : String} {input : Json N} (kind : entries.lookup "type" = some (.string "tool_use"))
      (named : entries.lookup "id" = some (.string id))
        (function : entries.lookup "name" = some (.string name))
      (given : entries.lookup "input" = some input) : BlockShape entries [.call id name (some input)]
  | toolResult {id : String} {texts : List String} (kind : entries.lookup "type" = some (.string "tool_result"))
      (named : entries.lookup "tool_use_id" = some (.string id))
      (given : readTexts ((entries.lookup "content").getD .null) =
        some texts) : BlockShape entries [.result id texts]
  | other {kind : String} (given : entries.lookup "type" = some (.string kind)) (no_text : kind ≠ "text") (no_use : kind ≠ "tool_use")
      (no_result : kind ≠ "tool_result") (silent : entries.lookup "text" = none)
        (no_call : entries.lookup "functionCall" = none)
      (no_answer : entries.lookup "functionResponse" = none) : BlockShape entries []

theorem readBlock_shape {block : Json N} {items : List (Item N)} (read : readBlock block = some items) :
    ∃ entries, block = .object entries ∧ BlockShape entries items := by
  cases block with
  | object entries =>
    refine ⟨entries, rfl, ?_⟩
    simp only [readBlock, Option.bind_eq_bind, Option.bind_eq_some_iff] at read
    obtain ⟨kind, given, read⟩ := read
    rw [textOfField_eq_some] at given
    by_cases text : kind = "text"
    · subst text
      simp only [if_true, Option.bind_eq_some_iff, textOfField_eq_some, Option.pure_def,
        Option.some.injEq] at read
      obtain ⟨line, written, rfl⟩ := read
      exact .text given written
    · by_cases use : kind = "tool_use"
      · subst use
        simp only [text, if_true, if_false, Option.bind_eq_some_iff, textOfField_eq_some,
          Option.pure_def, Option.some.injEq] at read
        obtain ⟨id, named, name, function, input, written, rfl⟩ := read
        exact .toolUse given named function written
      · by_cases result : kind = "tool_result"
        · subst result
          simp only [text, use, if_true, if_false, Option.bind_eq_some_iff, textOfField_eq_some,
            Option.pure_def, Option.some.injEq] at read
          obtain ⟨id, named, texts, written, rfl⟩ := read
          exact .toolResult given named written
        · simp only [text, use, result, if_false] at read
          split at read
          next silent =>
            cases read
            simp only [List.all_cons, List.all_nil, Bool.and_true, Bool.and_eq_true,
              Option.isNone_iff_eq_none] at silent
            exact .other given text use result silent.1 silent.2.1 silent.2.2
          next => cases read
  | _ => cases read

theorem readPart_lines (other : Json N → String) {part : Json N} {texts : List String}
    (read : readPart part = some texts) :
    (partText other part).toList = texts := by
  cases part with
  | object entries =>
    simp only [readPart, Option.bind_eq_bind, Option.bind_eq_some_iff, textOfField_eq_some] at read
    obtain ⟨kind, given, read⟩ := read
    by_cases text : kind = "text"
    · simp only [text, if_true, Option.bind_eq_some_iff, textOfField_eq_some, Option.pure_def,
        Option.some.injEq] at read
      obtain ⟨line, written, rfl⟩ := read
      simp [partText, written, str]
    · rw [if_neg text] at read
      split at read
      next silent =>
        cases read
        simp [partText, Option.isNone_iff_eq_none.mp silent, isKind, given, isWord, text]
      next => cases read
  | _ => cases read

theorem filterMap_flatten {Value Result : Type} {f : Value → Option Result} {values : List Value}
    {results : List (List Result)}
    (each : List.Forall₂ (fun value result => (f value).toList = result) values results) :
    values.filterMap f = results.flatten := by
  induction each with
  | nil => rfl
  | @cons value result values results here _ ih =>
    rw [List.flatten_cons, ← here, ← ih]
    cases seen : f value <;> simp [seen]

theorem textOf_read (other : Json N → String) {content : Json N} {texts : List String}
    (read : readTexts content = some texts) :
    textOf other content = lines texts := by
  cases content with
  | null =>
    cases read
    rfl
  | string text =>
    cases read
    rfl
  | array parts =>
    simp only [readTexts, Option.map_eq_some_iff] at read
    obtain ⟨parts_texts, each, rfl⟩ := read
    have pieces :=
      filterMap_flatten ((mapM_eq_some.mp each).imp fun part texts here =>
        readPart_lines other here)
    rw [textOf, pieces]
  | _ => cases read

end Shapes

section Blocks
variable {N : Type}

abbrev BlocksRead (blocks : List (Json N)) (items : List (List (Item N))) : Prop :=
  List.Forall₂ (fun block items => readBlock block = some items) blocks items

variable {blocks : List (Json N)} {items : List (List (Item N))}

theorem any_flatten {p : Json N → Bool} {q : Item N → Bool}
    (each : ∀ block items, readBlock block = some items → p block = items.any q)
    (read : BlocksRead blocks items) : blocks.any p = items.flatten.any q := by
  induction read with
  | nil => rfl
  | cons here _ ih => rw [List.any_cons, List.flatten_cons, List.any_append, ih, each _ _ here]

theorem kind_toolUse {block : Json N} {items : List (Item N)} (read : readBlock block = some items) :
    isKind "tool_use" block = items.any Item.isCall := by
  obtain ⟨entries, rfl, shape⟩ := readBlock_shape read
  cases shape with
  | text kind => simp [isKind, kind, isWord, Item.isCall]
  | toolUse kind => simp [isKind, kind, isWord, Item.isCall]
  | toolResult kind => simp [isKind, kind, isWord, Item.isCall]
  | other kind _ no_use => simp [isKind, kind, isWord, no_use]

theorem kind_toolResult {block : Json N} {items : List (Item N)} (read : readBlock block = some items) :
    isKind "tool_result" block = items.any Item.isResult := by
  obtain ⟨entries, rfl, shape⟩ := readBlock_shape read
  cases shape with
  | text kind => simp [isKind, kind, isWord, Item.isResult]
  | toolUse kind => simp [isKind, kind, isWord, Item.isResult]
  | toolResult kind => simp [isKind, kind, isWord, Item.isResult]
  | other kind _ _ no_result => simp [isKind, kind, isWord, no_result]

theorem blockText_read {block : Json N} {items : List (Item N)} (read : readBlock block = some items) :
    (blockText block).toList = (items.filterMap Item.text?).map Json.string := by
  obtain ⟨entries, rfl, shape⟩ := readBlock_shape read
  cases shape with
  | text kind given => simp [blockText, isKind, kind, isWord, given, Item.text?]
  | toolUse kind => simp [blockText, isKind, kind, isWord, Item.text?]
  | toolResult kind => simp [blockText, isKind, kind, isWord, Item.text?]
  | other kind no_text => simp [blockText, isKind, kind, isWord, no_text]

theorem partText_read (other : Json N → String) {block : Json N} {items : List (Item N)}
    (read : readBlock block = some items)
    (no_calls : items.any Item.isCall = false) (no_results : items.any Item.isResult = false) :
    (partText other block).toList = items.filterMap Item.text? := by
  obtain ⟨entries, rfl, shape⟩ := readBlock_shape read
  cases shape with
  | text kind given => simp [partText, given, str, Item.text?]
  | toolUse => simp [Item.isCall] at no_calls
  | toolResult => simp [Item.isResult] at no_results
  | other kind no_text _ _ silent => simp [partText, silent, isKind, kind, isWord, no_text]

theorem texts_of_blocks (read : BlocksRead blocks items) :
    blocks.filterMap blockText = (items.flatten.filterMap Item.text?).map Json.string := by
  have pieces : blocks.filterMap blockText = (items.map fun items =>
      (items.filterMap Item.text?).map Json.string).flatten := by
    apply filterMap_flatten
    rw [List.forall₂_map_right_iff]
    exact read.imp fun block items here => blockText_read here
  rw [pieces, List.filterMap_flatten, List.map_flatten, List.map_map]
  rfl

theorem plain_texts (other : Json N → String) (read : BlocksRead blocks items)
    (no_calls : items.flatten.any Item.isCall = false)
    (no_results : items.flatten.any Item.isResult = false) :
    textOf other (.array blocks) = lines (items.flatten.filterMap Item.text?) := by
  suffices pieces : blocks.filterMap (partText other) =
    items.flatten.filterMap Item.text? by rw [textOf, pieces]
  induction read with
  | nil => rfl
  | @cons block head blocks items here rest ih =>
    rw [List.flatten_cons, List.any_append, Bool.or_eq_false_iff] at no_calls no_results
    have first := partText_read other here no_calls.1 no_results.1
    rw [List.flatten_cons, List.filterMap_append, ← first, ← ih no_calls.2 no_results.2]
    cases seen : partText other block <;> simp [seen]

variable [Decoder N]

theorem readCall_toolCall {entries : Object N} {id name : String} {input : Json N} (idx : Nat)
    (named : entries.lookup "id" = some (.string id)) (function : entries.lookup "name" = some (.string name))
    (given : entries.lookup "input" = some input) (proper : input.Proper) :
    readCall (toolCall idx entries) = some (.call id name (some input)) := by
  have read : decode (Json.dumps ⟨true, true⟩ input) = some input := by
    rw [decode, Json.loads_dumps proper]
  simp [readCall, toolCall, textOfField, asObject, List.lookup_cons, asString, named, function, given, read]

theorem calls_of_blocks (read : BlocksRead blocks items) (proper : Json.ProperItems blocks) (idx : Nat) :
    (toolCallsFrom idx blocks).mapM readCall = some (items.flatten.filter Item.isCall) := by
  induction read generalizing idx with
  | nil => rfl
  | @cons block head blocks items here rest ih =>
    obtain ⟨entries, rfl, shape⟩ := readBlock_shape here
    have others := ih proper.2 (idx + 1)
    rw [List.flatten_cons, List.filter_append]
    cases shape with
    | text kind => simpa [toolCallsFrom, isKind, kind, isWord, Item.isCall] using others
    | toolUse kind named function given =>
      have call := readCall_toolCall idx named function given (Json.proper_lookup proper.1 given)
      rw [List.filter_cons_of_pos rfl, List.filter_nil]
      simp [toolCallsFrom, isKind, kind, isWord, call, others]
    | toolResult kind => simpa [toolCallsFrom, isKind, kind, isWord, Item.isCall] using others
    | other kind _ no_use => simpa [toolCallsFrom, isKind, kind, isWord, no_use] using others

theorem results_of_blocks (other : Json N → String) (read : BlocksRead blocks items) :
    ((blocks.filter (isKind "tool_result")).flatMap (toolMessage other)).mapM readOpenai =
      some ((items.flatten.filter Item.isResult).map fun item => .inr ⟨.user, [item.settled]⟩) := by
  induction read with
  | nil => rfl
  | @cons block head blocks items here rest ih =>
    have kind := kind_toolResult here
    obtain ⟨entries, rfl, shape⟩ := readBlock_shape here
    rw [List.filter_cons, kind, List.flatten_cons, List.filter_append]
    cases shape with
    | text => simpa [Item.isResult] using ih
    | toolUse => simpa [Item.isResult] using ih
    | @toolResult id texts kind named given =>
      have content : textOf other ((entries.lookup "content").getD (.string "")) = lines texts := by
        cases written : entries.lookup "content" with
        | none =>
          rw [written] at given
          cases given
          rfl
        | some content =>
          rw [written] at given
          exact textOf_read other given
      have message : (toolMessage other (.object entries)).mapM readOpenai =
          some [.inr ⟨.user, [.result id [lines texts]]⟩] := by
        simp [toolMessage, readOpenai, textOfField, List.lookup_cons, asString, named, content,
          readTexts, readCalls]
      rw [List.filter_cons_of_pos rfl, List.filter_nil]
      simp only [Item.isResult, List.any_cons, List.any_nil, Bool.or_false, if_true,
        List.flatMap_cons, List.mapM_append, message, ih]
      rfl
    | other => simpa using ih

end Blocks

section Messages
variable {N : Type}

def Side.role : Side → String
  | .user => "user"
  | .assistant => "assistant"

/-- What is known about a message of the first format. -/
structure AnthropicMessage (entries : Object N) (turn : Turn N) : Prop where
  role : entries.lookup "role" = some (.string turn.side.role)
  calls : turn.side = .user → turn.calls = []
  content : ∃ content, entries.lookup "content" = some content ∧ readContent content = some turn.items

theorem readAnthropic_message {message : Json N} {turn : Turn N} (read : readAnthropic message = some turn) :
    ∃ entries, message = .object entries ∧ AnthropicMessage entries turn := by
  cases message with
  | object entries =>
    refine ⟨entries, rfl, ?_⟩
    simp only [readAnthropic, Option.bind_eq_bind, Option.bind_eq_some_iff, textOfField_eq_some] at read
    obtain ⟨role, given, content, held, items, inside, read⟩ := read
    split at read
    next assistant =>
      cases read
      subst assistant
      exact ⟨given, by simp, content, held, inside⟩
    next =>
      split at read
      next user =>
        cases read
        simp only [Bool.and_eq_true, decide_eq_true_eq, Bool.not_eq_true'] at user
        have no_calls : (Turn.mk Side.user items).calls = [] := by
          simpa [Turn.calls, List.any_eq_false] using user.2
        obtain ⟨rfl, _⟩ := user
        exact ⟨given, fun _ => no_calls, content, held, inside⟩
      next => cases read
  | _ => cases read

theorem settled_of_blocks [Decoder N] {blocks : List (Json N)} {items : List (List (Item N))}
    (read : BlocksRead blocks items) {item : Item N}
    (member : item ∈ items.flatten) (call : item.isCall = true) : item.settled = item := by
  induction read with
  | nil => cases member
  | @cons block head blocks items here rest ih =>
    rw [List.flatten_cons, List.mem_append] at member
    rcases member with inside | behind
    · obtain ⟨entries, rfl, shape⟩ := readBlock_shape here
      cases shape with
      | text => rw [List.mem_singleton.mp inside]; rfl
      | toolUse => rw [List.mem_singleton.mp inside]; rfl
      | toolResult => rw [List.mem_singleton.mp inside] at call; cases call
      | other => cases inside
    · exact ih behind

theorem mapM_asString (texts : List String) :
    (texts.map Json.string : List (Json N)).mapM asString = some texts := by
  induction texts with
  | nil => rfl
  | cons text texts ih => simp [asString, ih]

theorem flat_singles (items : List (Item N)) (side : Side) :
    (items.map fun item => Turn.mk side [item]).flatMap Turn.flat = (Turn.mk side items).flat := by
  rw [List.flatMap_map]
  exact List.flatMap_congr fun item _ => by simp [Turn.flat]

variable [Decoder N] (other : Json N → String)

theorem readOpenai_plain (side : Side) (text : String) :
    readOpenai (.object [("role", .string side.role), ("content", .string text)] : Json N) =
      some (.inr ⟨side, [.text text]⟩) := by
  cases side <;> simp [readOpenai, textOfField, List.lookup_cons, asString, readTexts, readCalls, Side.role]

/-- These messages are read as turns with the content of the given one. -/
def HoldTurn (messages : List (Json N)) (turn : Turn N) : Prop :=
  ∃ turns : List (Turn N), messages.mapM readOpenai = some (turns.map Sum.inr) ∧
    turns.flatMap Turn.flat = turn.flat

theorem holdTurn_plain (side : Side) (text : String) :
    HoldTurn [(.object [("role", .string side.role), ("content", .string text)] : Json N)]
    ⟨side, [.text text]⟩ :=
  ⟨[⟨side, [.text text]⟩], by simp [readOpenai_plain], by simp⟩

variable {side : Side} {entries : Object N} {blocks : List (Json N)} {items : List (List (Item N))}

theorem openaiMessages_plain {content : Json N} {text : String}
    (role : entries.lookup "role" = some (.string side.role))
    (held : entries.lookup "content" = some content) (written : textOf other content = text)
    (no_use : ∀ blocks, content = .array blocks → blocks.any (isKind "tool_use") = false)
    (no_result : ∀ blocks, content = .array blocks → blocks.any (isKind "tool_result") = false) :
    openaiMessages other (.object entries) =
      some [.object [("role", .string side.role), ("content", .string text)]] := by
  subst written
  cases content with
  | array blocks =>
    simp only [openaiMessages, get, role, held, Option.bind_eq_bind, Option.bind_some,
      Option.getD_some, no_use blocks rfl,
      no_result blocks rfl, Bool.false_eq_true, if_false]
  | _ => simp [openaiMessages, get, role, held]

theorem openaiMessages_results (role : entries.lookup "role" = some (.string side.role))
    (held : entries.lookup "content" = some (.array blocks)) (no_use : blocks.any (isKind "tool_use") = false)
    (answered : blocks.any (isKind "tool_result") = true) :
    openaiMessages other (.object entries) =
      some ((blocks.filter (isKind "tool_result")).flatMap (toolMessage other)) := by
  simp only [openaiMessages, get, role, held, Option.bind_eq_bind, Option.bind_some,
    Option.getD_some, no_use, answered,
    Bool.false_eq_true, if_false, if_true]

/-- The texts of blocks with calls are one text, or none. -/
theorem openaiMessages_calls (role : entries.lookup "role" = some (.string "assistant"))
    (held : entries.lookup "content" = some (.array blocks)) (used : blocks.any (isKind "tool_use") = true)
    (read : BlocksRead blocks items) (proper : Json.ProperItems blocks) :
    ∃ messages, openaiMessages other (.object entries) = some messages ∧
      HoldTurn messages ⟨.assistant, .text (lines (items.flatten.filterMap Item.text?)) ::
          items.flatten.filter Item.isCall⟩ := by
  have texts := texts_of_blocks read
  have calls := calls_of_blocks read proper 0
  have some_calls : (toolCallsFrom 0 blocks).isEmpty = false := by
    have called := any_flatten (fun block items => kind_toolUse) read
    rw [used] at called
    obtain ⟨item, inside, call⟩ := List.any_eq_true.mp called.symm
    cases listed : toolCallsFrom 0 blocks with
    | nil =>
      rw [listed] at calls
      have member := List.mem_filter.mpr ⟨inside, call⟩
      rw [← Option.some.inj calls] at member
      cases member
    | cons => rfl
  have message (text : Json N) (translated : toolUseAnthropicToOpenai other (.array blocks) =
    some (text, toolCallsFrom 0 blocks)) :
      openaiMessages other (.object entries) =
        some [.object [("role", .string "assistant"), ("content", text),
            ("tool_calls", .array (toolCallsFrom 0 blocks))]] := by
    simp only [openaiMessages, get, role, held, Option.bind_eq_bind, Option.bind_some,
      Option.getD_some, used, translated, some_calls,
      if_true, Bool.false_eq_true, if_false]
    rfl
  have holds (text : Json N) (lines : List String) (given : readTexts text = some lines) :
      [(.object [("role", .string "assistant"), ("content", text), ("tool_calls", .array (toolCallsFrom 0 blocks))] : Json N)].mapM readOpenai =
        some [.inr ⟨.assistant, lines.map Item.text ++ items.flatten.filter Item.isCall⟩] := by
    simp [readOpenai, textOfField, List.lookup_cons, asString, given, readCalls, calls]
  cases written : items.flatten.filterMap Item.text? with
  | nil =>
    refine ⟨_, message .null (by simp [toolUseAnthropicToOpenai, texts, written]), ?_⟩
    exact ⟨[⟨.assistant, items.flatten.filter Item.isCall⟩], holds .null [] rfl,
      by simp [Turn.flat, Item.solid]⟩
  | cons line rest =>
    refine ⟨_, message (.string (lines (line :: rest))) ?_, ?_⟩
    · rw [toolUseAnthropicToOpenai, texts, written, mapM_asString]
      rfl
    · exact ⟨[⟨.assistant, .text (lines (line :: rest)) :: items.flatten.filter Item.isCall⟩],
        holds (.string _) [_] rfl, by simp⟩

theorem openaiMessages_read {message : Json N} {turn : Turn N}
    (read : readAnthropic message = some turn) (proper : message.Proper) :
    ∃ messages, openaiMessages other message = some messages ∧ HoldTurn messages turn.carried := by
  obtain ⟨entries, rfl, shape⟩ := readAnthropic_message read
  obtain ⟨side, turn_items⟩ := turn
  obtain ⟨content, held, inside⟩ := shape.content
  have role := shape.role
  cases content with
  | string text =>
    cases inside
    refine ⟨_, openaiMessages_plain other role held rfl (by simp) (by simp), ?_⟩
    exact holdTurn_plain side text
  | array blocks =>
    simp only [readContent, Option.map_eq_some_iff] at inside
    obtain ⟨items, each, rfl⟩ := inside
    have each := mapM_eq_some.mp each
    have proper_blocks : Json.ProperItems blocks := Json.proper_lookup proper held
    have uses := any_flatten (fun block items => kind_toolUse) each
    have answers := any_flatten (fun block items => kind_toolResult) each
    by_cases used : items.flatten.any Item.isCall = true
    · have called : (Turn.mk side items.flatten).calls ≠ [] := by
        obtain ⟨item, member, call⟩ := List.any_eq_true.mp used
        exact List.ne_nil_of_mem (List.mem_filter.mpr ⟨member, call⟩)
      have assistant : side = .assistant := by
        cases side with
        | user => exact absurd (shape.calls rfl) called
        | assistant => rfl
      subst assistant
      obtain ⟨messages, same, turns, read, flat⟩ :=
        openaiMessages_calls other role held (uses.trans used) each proper_blocks
      refine ⟨messages, same, turns, read, flat.trans ?_⟩
      have settled : (items.flatten.filter Item.isCall).map Item.settled =
          items.flatten.filter Item.isCall := by
        rw [List.map_congr_left fun item member =>
          settled_of_blocks each (List.mem_of_mem_filter member) (List.of_mem_filter member)]
        exact List.map_id _
      have carried : (Turn.mk Side.assistant items.flatten).carried =
          ⟨.assistant, .text (lines (items.flatten.filterMap Item.text?)) ::
              items.flatten.filter Item.isCall⟩ := by
        rw [Turn.carried, if_neg (by simp [called])]
        rw [Turn.calls, settled]
        rfl
      rw [carried]
    · by_cases answered : items.flatten.any Item.isResult = true
      · refine ⟨_, openaiMessages_results other role held (by simpa [uses] using used) (answers.trans answered), ?_⟩
        refine ⟨((items.flatten.filter Item.isResult).map Item.settled).map fun item =>
          ⟨.user, [item]⟩, ?_, ?_⟩
        · rw [results_of_blocks other each, List.map_map, List.map_map]
          rfl
        · have no_calls : (Turn.mk side items.flatten).calls = [] := by simpa [Turn.calls] using used
          have results : (Turn.mk side items.flatten).results ≠ [] := by
            obtain ⟨item, member, result⟩ := List.any_eq_true.mp answered
            exact List.ne_nil_of_mem (List.mem_filter.mpr ⟨member, result⟩)
          rw [flat_singles, Turn.carried, if_pos (by simp [no_calls, results])]
          rfl
      · have no_calls : items.flatten.any Item.isCall = false := by simpa using used
        have no_results : items.flatten.any Item.isResult = false := by simpa using answered
        have written := plain_texts other each no_calls no_results
        refine ⟨_, openaiMessages_plain other role held written ?_ ?_, ?_⟩
        · rintro _ ⟨⟩
          exact uses.trans no_calls
        · rintro _ ⟨⟩
          exact answers.trans no_results
        · have calls : (Turn.mk side items.flatten).calls = [] := by simpa [Turn.calls] using no_calls
          have results : (Turn.mk side items.flatten).results = [] := by simpa [Turn.results] using no_results
          have carried : (Turn.mk side items.flatten).carried = ⟨side,
              [.text (lines (items.flatten.filterMap Item.text?))]⟩ := by
            rw [Turn.carried, if_neg (by simp [results]), calls]
            rfl
          rw [carried]
          exact holdTurn_plain side _
  | _ => cases inside

end Messages

section Returns
variable {N : Type} [Decoder N] (other : Json N → String)

theorem lines_of_untruthy {content : Json N} {texts : List String} (read : readTexts content = some texts)
    (untruthy : content.truthy = false) : lines texts = "" := by
  cases content with
  | null =>
    cases read
    rfl
  | string text =>
    cases read
    simpa [Json.truthy] using untruthy
  | array parts =>
    have none_there : parts = [] := by simpa [Json.truthy] using untruthy
    subst none_there
    cases read
    rfl
  | _ => cases read

structure CallShape (entries function : Object N) (id name text : String) : Prop where
  owned : entries.lookup "function" = some (.object function)
  identified : entries.lookup "id" = some (.string id)
  named : function.lookup "name" = some (.string name)
  written : function.lookup "arguments" = some (.string text)

theorem readCall_shape {call : Json N} {item : Item N} (read : readCall call = some item) :
    ∃ entries function id name text, call = .object entries ∧ CallShape entries function id name text ∧
      item = .call id name (decode text.toList) := by
  cases call with
  | object entries =>
    simp only [readCall, Option.bind_eq_bind, Option.bind_eq_some_iff, textOfField_eq_some,
      Option.pure_def, Option.some.injEq] at read
    obtain ⟨function, ⟨value, given, owned⟩, id, identified, name, named, text, written, rfl⟩ := read
    cases value with
    | object body =>
      cases owned
      exact ⟨entries, function, id, name, text, rfl, ⟨given, identified, named, written⟩, rfl⟩
    | _ => cases owned
  | _ => cases read

theorem calls_of_read {calls : List (Json N)} {items : List (Item N)}
    (read : List.Forall₂ (fun call item => readCall call = some item) calls items) :
    ∀ item ∈ items, item.isCall = true := by
  induction read with
  | nil => simp
  | cons here _ ih =>
    obtain ⟨_, _, _, _, _, rfl, _, rfl⟩ := readCall_shape here
    intro item member
    rcases List.mem_cons.mp member with rfl | behind
    · rfl
    · exact ih item behind

theorem decode_proper {text : List Char} {value : Json N} (read : decode text = some value) : value.Proper := by
  unfold decode at read
  split at read
  next found =>
    cases read
    exact (Json.loads_sound found).1
  next =>
    split at read
    · cases read
    · exact Decoder.proper text value read

theorem toolUse_shape {entries function : Object N} {id name text : String}
    (shape : CallShape entries function id name text) :
    ∃ block, toolUse (.object entries) = some block ∧
      readBlock block = some [(Item.call id name (decode text.toList)).settled] ∧
      block.Proper := by
  refine ⟨.object [("type", .string "tool_use"), ("id", .string id), ("name", .string name),
    ("input", readArguments (.string text))],
    ?_, ?_, ?_⟩
  · simp [toolUse, get, shape.owned, shape.identified, shape.named, shape.written]
  · simp [readBlock, textOfField, List.lookup_cons, asString, readArguments, Item.settled]
  · have input : (readArguments (.string text) : Json N).Proper := by
      change ((decode text.toList).getD (.object []) : Json N).Proper
      cases read : (decode text.toList : Option (Json N)) with
      | none => exact ⟨List.nodup_nil, trivial⟩
      | some value => exact decode_proper read
    simp [Json.Proper, Json.ProperEntries, input]

theorem blocks_of_calls {calls : List (Json N)} {items : List (Item N)}
    (read : List.Forall₂ (fun call item => readCall call = some item) calls items) :
    ∃ blocks, calls.mapM toolUse = some blocks ∧ blocks.mapM readBlock = some (items.map fun item =>
      [item.settled]) ∧
      Json.ProperItems blocks := by
  induction read with
  | nil => exact ⟨[], rfl, rfl, trivial⟩
  | cons here _ ih =>
    obtain ⟨entries, function, id, name, text, rfl, shape, rfl⟩ := readCall_shape here
    obtain ⟨blocks, translated, held, all⟩ := ih
    obtain ⟨block, first, read, proper⟩ := toolUse_shape shape
    refine ⟨block :: blocks, ?_, ?_, proper, all⟩
    · rw [List.mapM_cons, first, translated]
      rfl
    · rw [List.mapM_cons, read, held]
      rfl

/-- What a message of the second format becomes. -/
inductive Returned : List String ⊕ Turn N → String ⊕ Json N → Prop
  | system (texts : List String) : Returned (.inl texts) (.inl (lines texts))
  | turn {turn after : Turn N} {message : Json N} (read : readAnthropic message = some after) (flat : after.flat = turn.carried.flat)
      (proper : message.Proper) :
      Returned (.inr turn) (.inr message)

omit [Decoder N] in
theorem readAnthropic_plain (side : Side) (text : String) :
    readAnthropic (.object [("role", .string side.role), ("content", .string text)] : Json N) =
      some ⟨side, [.text text]⟩ := by
  cases side <;> simp [readAnthropic, textOfField, List.lookup_cons, asString, readContent,
    Side.role, Item.isCall]

theorem carried_texts (side : Side) (texts : List String) :
    (Turn.mk side (texts.map Item.text) : Turn N).carried = ⟨side, [.text (lines texts)]⟩ := by
  have calls : (texts.map Item.text : List (Item N)).filter Item.isCall = [] := by
    simp [List.filter_eq_nil_iff, Item.isCall]
  have results : (texts.map Item.text : List (Item N)).filter Item.isResult = [] := by
    simp [List.filter_eq_nil_iff, Item.isResult]
  have named : (texts.map Item.text : List (Item N)).filterMap Item.text? = texts := by
    simp [List.filterMap_map, Function.comp_def, Item.text?]
  simp [Turn.carried, Turn.calls, Turn.results, Turn.texts, calls, results, named]

theorem carried_calls {calls : List (Item N)} (all : ∀ item ∈ calls, item.isCall = true)
    (texts : List String) :
    (Turn.mk .assistant (texts.map Item.text ++ calls)).carried = ⟨.assistant,
      .text (lines texts) :: calls.map Item.settled⟩ := by
  have no_calls : (texts.map Item.text : List (Item N)).filter Item.isCall = [] := by
    simp [List.filter_eq_nil_iff, Item.isCall]
  have results : (texts.map Item.text ++ calls).filter Item.isResult = [] := by
    rw [List.filter_eq_nil_iff]
    intro item member
    rcases List.mem_append.mp member with text | call
    · obtain ⟨text, _, rfl⟩ := List.mem_map.mp text
      simp [Item.isResult]
    · have called := all item call
      cases item with
      | text line => cases called
      | call => simp [Item.isResult]
      | result => cases called
  have named : (texts.map Item.text ++ calls).filterMap Item.text? = texts := by
    have silent : calls.filterMap Item.text? = [] := by
      rw [List.filterMap_eq_nil_iff]
      intro item member
      have called := all item member
      cases item with
      | text line => cases called
      | call => rfl
      | result => cases called
    simp [List.filterMap_append, List.filterMap_map, Function.comp_def, Item.text?, silent]
  have called : (texts.map Item.text ++ calls).filter Item.isCall = calls := by
    rw [List.filter_append, no_calls, List.nil_append, List.filter_eq_self.mpr all]
  simp [Turn.carried, Turn.calls, Turn.results, Turn.texts, called, results, named]

theorem readCalls_cases {calls : Json N} {items : List (Item N)} (read : readCalls calls = some items) :
    (items = [] ∧ calls.truthy = false) ∨
      ∃ list, calls = .array list ∧ calls.truthy = true ∧
          List.Forall₂ (fun call item => readCall call = some item) list items := by
  cases calls with
  | null =>
    cases read
    exact .inl ⟨rfl, rfl⟩
  | array list =>
    have each := mapM_eq_some.mp read
    cases list with
    | nil =>
      cases each
      exact .inl ⟨rfl, rfl⟩
    | cons => exact .inr ⟨_, rfl, rfl, each⟩
  | _ => cases read

theorem readContent_calls {content : Json N} {texts : List String} {blocks : List (Json N)}
    {items : List (Item N)}
    (written : readTexts content = some texts)
    (held : blocks.mapM readBlock = some (items.map fun item => [item.settled])) :
    ∃ after, readContent (.array ((if content.truthy then
        [Json.object [("type", .string "text"), ("text", .string (textOf other content))]] else []) ++ blocks)) = some after ∧
      (Turn.mk Side.assistant after).flat =
          (Turn.mk Side.assistant (.text (lines texts) :: items.map Item.settled)).flat := by
  have singles : (items.map fun item => [item.settled]).flatten = items.map Item.settled := by
    rw [← List.flatMap_def, List.map_eq_flatMap]
  by_cases truthy : content.truthy = true
  · have first : readBlock (.object [("type", .string "text"), ("text", .string (textOf other content))] : Json N) =
        some [.text (lines texts)] := by
      simp [readBlock, textOfField, List.lookup_cons, asString, textOf_read other written]
    refine ⟨.text (lines texts) :: items.map Item.settled, ?_, rfl⟩
    rw [if_pos truthy, readContent, List.singleton_append, List.mapM_cons, first, held]
    simp [singles]
  · have empty := lines_of_untruthy written (by simpa using truthy)
    refine ⟨items.map Item.settled, ?_, by simp [Turn.flat, Item.solid, empty]⟩
    rw [if_neg truthy, readContent, List.nil_append, held]
    simp [singles]

omit [Decoder N] in
theorem proper_plain (role text : String) :
    (.object [("role", .string role), ("content", .string text)] : Json N).Proper := by
  simp [Json.Proper, Json.ProperEntries]

omit [Decoder N] in
theorem proper_calls (text : String) {blocks : List (Json N)} (all : Json.ProperItems blocks) (shown : Bool) :
    Json.ProperItems ((if shown then [Json.object [("type", .string "text"), ("text", .string text)]]
      else []) ++ blocks) := by
  cases shown with
  | true => exact ⟨by simp [Json.Proper, Json.ProperEntries], all⟩
  | false => exact all

theorem anthropicMessage_read {message : Json N} {read : List String ⊕ Turn N}
    (held : readOpenai message = some read) :
    ∃ result, anthropicMessage other message = some result ∧ Returned read result := by
  cases message with
  | object entries =>
    simp only [readOpenai, Option.bind_eq_bind, Option.bind_eq_some_iff, textOfField_eq_some] at held
    obtain ⟨role, given, texts, written, items, called, held⟩ := held
    have content := textOf_read other written
    by_cases assistant : role = "assistant"
    · subst assistant
      cases held
      rcases readCalls_cases called with ⟨rfl, untruthy⟩ | ⟨list, tool_calls, truthy, each⟩
      · refine ⟨.inr (.object [("role", .string "assistant"), ("content", .string (lines texts))]), ?_,
          .turn (readAnthropic_plain .assistant (lines texts)) ?_ (proper_plain "assistant" (lines texts))⟩
        · simp [anthropicMessage, get, given, content, isWord, untruthy]
        · rw [List.append_nil, carried_texts]
      · obtain ⟨blocks, translated, held, all⟩ := blocks_of_calls each
        obtain ⟨after, inside, flat⟩ := readContent_calls other written held
        have read (content : Json N) (same : readContent content = some after) :
            readAnthropic (.object [("role", .string "assistant"), ("content", content)]) =
                some ⟨.assistant, after⟩ := by
          simp [readAnthropic, textOfField, List.lookup_cons, asString, same]
        rw [tool_calls] at truthy
        refine ⟨.inr _, ?_, .turn (read _ inside) ?_ ?_⟩
        · simp [anthropicMessage, get, given, isWord, tool_calls, truthy,
            toolCallsOpenaiToAnthropic, iterate, translated]
        · rw [carried_calls (calls_of_read each), flat]
        · have whole := proper_calls (textOf other ((entries.lookup "content").getD .null)) all
            ((entries.lookup "content").getD .null).truthy
          simp [Json.Proper, Json.ProperEntries, whole]
    · rw [if_neg assistant] at held
      split at held
      next uncalled =>
        by_cases system : role = "system"
        · subst system
          cases held
          refine ⟨.inl (lines texts), ?_, .system texts⟩
          simp [anthropicMessage, get, given, content]
        · rw [if_neg system] at held
          by_cases user : role = "user"
          · subst user
            cases held
            refine ⟨.inr (.object [("role", .string "user"), ("content", .string (lines texts))]), ?_,
              .turn (readAnthropic_plain .user (lines texts)) ?_ (proper_plain "user" (lines texts))⟩
            · simp [anthropicMessage, get, given, content, isWord]
            · rw [carried_texts]
          · rw [if_neg user] at held
            split at held
            next tool =>
              subst tool
              simp only [Option.bind_eq_some_iff, textOfField_eq_some, Option.pure_def,
                Option.some.injEq] at held
              obtain ⟨id, named, rfl⟩ := held
              have read : readAnthropic (.object [("role", .string "user"),
                ("content", .array [.object [("type", .string "tool_result"),
                  ("tool_use_id", .string id), ("content", .string (lines texts))]])] : Json N) =
                  some ⟨.user, [.result id [lines texts]]⟩ := by
                simp [readAnthropic, textOfField, List.lookup_cons, asString, readContent,
                  readBlock, readTexts, Item.isCall]
              refine ⟨.inr _, ?_, .turn read rfl ?_⟩
              · simp [anthropicMessage, get, given, content, named]
              · simp [Json.Proper, Json.ProperItems, Json.ProperEntries]
            next => cases held
      next => cases held
  | _ => cases held

end Returns

section Requests
variable {N : Type} [Decoder N] (other : Json N → String) {data : Object N} {conversation : Conversation N}

/-- A tool is an object, and so is its function. -/
def ToolShape (tool : Json N) : Prop :=
  ∃ entries, tool = .object entries ∧ ∀ function, entries.lookup "function" = some function →
    ∃ body, function = .object body

def ToolList (tools : Json N) : Prop := ∃ list, tools = .array list ∧ ∀ tool ∈ list, ToolShape tool

def ListsTools (data : Object N) :
    Prop := ∀ tools, data.lookup "tools" = some tools → tools.truthy = true → ToolList tools

theorem translatedTools_each (translate each : Json N → Option (Json N))
    (wrap : List (Json N) → Json N) {P : Json N → Prop}
    (same : ∀ list, translate (.array list) = (list.mapM each).map wrap) (listed : ListsTools data)
    (tool : ∀ value, ToolShape value → ∃ result, each value = some result ∧ P result) :
    ∃ tools, translatedTools data translate = some tools ∧
      (tools = [] ∨ ∃ results, tools = [("tools", wrap results)] ∧ ∀ result ∈ results, P result) := by
  unfold translatedTools
  cases held : data.lookup "tools" with
  | none => exact ⟨[], rfl, .inl rfl⟩
  | some tools =>
    by_cases truthy : tools.truthy = true
    · obtain ⟨list, rfl, shapes⟩ := listed tools held truthy
      obtain ⟨results, translated, all⟩ := mapM_each fun value member => tool value (shapes value member)
      exact ⟨[("tools", wrap results)], by simp [truthy, same, translated], .inr ⟨results, rfl, all⟩⟩
    · exact ⟨[], by simp [truthy], .inl rfl⟩

structure ToolsField (tools : Object N) : Prop where
  alone : ∀ key, key ≠ "tools" → tools.lookup key = none
  list : ∀ value, tools.lookup "tools" = some value → ToolList value

omit [Decoder N] in
theorem toolsField_of_each {tools : Object N}
    (each : tools = [] ∨ ∃ results, tools = [("tools", .array results)] ∧ ∀ result ∈ results,
      ToolShape result) : ToolsField tools := by
  rcases each with rfl | ⟨results, rfl, all⟩
  · exact ⟨by simp, by simp⟩
  · refine ⟨?_, ?_⟩
    · intro key differs
      have apart : (key == "tools") = false := by simpa using differs
      simp [List.lookup_cons, apart]
    · rintro value ⟨⟩
      exact ⟨results, rfl, all⟩

theorem openaiTools (listed : ListsTools data) :
    ∃ tools, translatedTools data toolsAnthropicToOpenai = some tools ∧ ToolsField tools := by
  have translated :=
    translatedTools_each toolsAnthropicToOpenai openaiTool Json.array (P := ToolShape) ?_ listed ?_
  · obtain ⟨tools, same, each⟩ := translated
    exact ⟨tools, same, toolsField_of_each each⟩
  · intro list
    simp only [toolsAnthropicToOpenai, iterate, Option.bind_eq_bind, Option.bind_some]
    cases list.mapM openaiTool <;> rfl
  · rintro value ⟨entries, rfl, _⟩
    refine ⟨_, rfl, _, rfl, ?_⟩
    rintro function ⟨⟩
    exact ⟨_, rfl⟩

theorem anthropicTools (listed : ListsTools data) :
    ∃ tools, translatedTools data toolsOpenaiToAnthropic = some tools ∧ ToolsField tools := by
  have translated := translatedTools_each toolsOpenaiToAnthropic anthropicTool Json.array (P := ToolShape) ?_ listed ?_
  · obtain ⟨tools, same, each⟩ := translated
    exact ⟨tools, same, toolsField_of_each each⟩
  · intro list
    simp only [toolsOpenaiToAnthropic, iterate, Option.bind_eq_bind, Option.bind_some]
    cases list.mapM anthropicTool <;> rfl
  · rintro value ⟨entries, rfl, functions⟩
    have built (function : Object N) (chosen : (if isWord "function" ((entries.lookup "type").getD .null) then
        some ((entries.lookup "function").getD (.object [])) else some (.object entries)) = some (.object function)) :
        ∃ result, anthropicTool (.object entries) = some result ∧ ToolShape result := by
      refine ⟨.object [("name", (function.lookup "name").getD (.string "")),
        ("description", (function.lookup "description").getD (.string "")),
        ("input_schema", (function.lookup "parameters").getD (.object [("type", .string "object"), ("properties", .object [])]))],
        ?_, _, rfl, by simp [List.lookup_cons]⟩
      by_cases kind : isWord "function" ((entries.lookup "type").getD .null) = true
      · rw [if_pos kind, Option.some.injEq] at chosen
        simp [anthropicTool, get, kind, chosen]
      · rw [if_neg kind, Option.some.injEq, Json.object.injEq] at chosen
        subst chosen
        simp [anthropicTool, get, kind]
    by_cases kind : isWord "function" ((entries.lookup "type").getD .null) = true
    · cases given : entries.lookup "function" with
      | none => exact built [] (by rw [if_pos kind, given]; rfl)
      | some function =>
        obtain ⟨body, rfl⟩ := functions function given
        exact built body (by rw [if_pos kind, given]; rfl)
    · exact built entries (if_neg kind)

/-- A body in the format of the first provider, and its conversation. -/
structure AnthropicRequest (data : Object N) (conversation : Conversation N) : Prop where
  proper : ∀ messages, data.lookup "messages" = some (.array messages) → Json.ProperItems messages
  tools : ListsTools data
  read : anthropicConversation data = some conversation

structure OpenaiRequest (data : Object N) (conversation : Conversation N) : Prop where
  tools : ListsTools data
  read : openaiConversation data = some conversation

theorem holdTurns {lists : List (List (Json N))} {turns : List (Turn N)}
    (each : List.Forall₂ (fun messages turn => HoldTurn messages turn) lists turns) :
    ∃ after : List (Turn N), lists.flatten.mapM readOpenai = some (after.map Sum.inr) ∧
      after.flatMap Turn.flat = turns.flatMap Turn.flat := by
  induction each with
  | nil => exact ⟨[], rfl, rfl⟩
  | cons here _ ih =>
    obtain ⟨first, read, flat⟩ := here
    obtain ⟨rest, others, flats⟩ := ih
    refine ⟨first ++ rest, ?_, ?_⟩
    · rw [List.flatten_cons, List.mapM_append, read, others, List.map_append]
      rfl
    · rw [List.flatMap_append, List.flatMap_cons, flat, flats]

theorem openaiMessages_all {messages : List (Json N)} {turns : List (Turn N)}
    (proper : Json.ProperItems messages)
    (each : List.Forall₂ (fun message turn => readAnthropic message = some turn) messages turns) :
    ∃ lists, messages.mapM (openaiMessages other) = some lists ∧
      List.Forall₂ (fun messages turn => HoldTurn messages turn) lists (turns.map Turn.carried) := by
  induction each with
  | nil => exact ⟨[], rfl, .nil⟩
  | cons here _ ih =>
    obtain ⟨first, translated, holds⟩ := openaiMessages_read other here proper.1
    obtain ⟨rest, others, hold⟩ := ih proper.2
    exact ⟨first :: rest, by rw [List.mapM_cons, translated, others]; rfl, .cons holds hold⟩

theorem systemMessage_read {system : List (List String)} (read : readPrompt data = some system) :
    ∃ prompts : List (List String), (systemMessage other data).mapM readOpenai = some (prompts.map Sum.inl) ∧
      prompts.flatMap filled = filled ["\n\n".intercalate (system.map lines)] := by
  unfold systemMessage
  unfold readPrompt at read
  cases held : data.lookup "system" with
  | none =>
    rw [held] at read
    cases read
    exact ⟨[], rfl, rfl⟩
  | some value =>
    rw [held] at read
    obtain ⟨texts, written, rfl⟩ := Option.map_eq_some_iff.mp read
    have content := textOf_read other written
    have whole : "\n\n".intercalate ([texts].map lines) = lines texts := rfl
    rw [whole]
    by_cases shown : value.truthy = true ∧ lines texts ≠ ""
    · refine ⟨[[lines texts]], ?_, by simp⟩
      simp [content, shown, readOpenai, textOfField, List.lookup_cons, asString, readTexts, readCalls]
    · have empty : lines texts = "" := by
        by_cases truthy : value.truthy = true
        · by_contra full
          exact shown ⟨truthy, full⟩
        · exact lines_of_untruthy written (by simpa using truthy)
      refine ⟨[], by simp [content, empty], by simp [empty, filled]⟩

omit [Decoder N] in
theorem getLeft?_sums (prompts : List (List String)) (turns : List (Turn N)) :
    (prompts.map Sum.inl ++ turns.map Sum.inr).filterMap Sum.getLeft? = prompts := by
  simp [List.filterMap_append, List.filterMap_map, Function.comp_def]

omit [Decoder N] in
theorem getRight?_sums (prompts : List (List String)) (turns : List (Turn N)) :
    (prompts.map Sum.inl ++ turns.map Sum.inr).filterMap Sum.getRight? = turns := by
  simp [List.filterMap_append, List.filterMap_map, Function.comp_def]

omit [Decoder N] in
theorem readMessages_eq_some {messages : List (Json N)} :
    readMessages data = some messages ↔ data.lookup "messages" = some (.array messages) := by
  unfold readMessages
  cases data.lookup "messages" with
  | none => simp
  | some value => cases value <;> simp [asArray]

omit [Decoder N] in
theorem carried_silent {key other target : String} (differs : other ≠ target) :
    (carried data key target).lookup other = none := by
  have apart : (other == target) = false := by simpa using differs
  unfold carried
  cases data.lookup key <;> simp [List.lookup_cons, apart]

omit [Decoder N] in
theorem stopSequences_silent {key : String} (differs : key ≠ "stop_sequences") :
    (stopSequences data).lookup key = none := by
  have apart : (key == "stop_sequences") = false := by simpa using differs
  unfold stopSequences
  split <;> simp [List.lookup_cons, apart]

/-- The translation holds what is carried over of the conversation. -/
theorem anthropic_to_openai (request : AnthropicRequest data conversation) :
    ∃ out after, anthropicToOpenaiRequest other data = some out ∧ OpenaiRequest out after ∧
      after.flat = conversation.carried.flat := by
  have read := request.read
  simp only [anthropicConversation, Option.bind_eq_bind, Option.bind_eq_some_iff, Option.pure_def,
    Option.some.injEq] at read
  obtain ⟨system, prompt, messages, held, turns, each, rfl⟩ := read
  rw [readMessages_eq_some] at held
  have each := mapM_eq_some.mp each
  have proper := request.proper messages held
  obtain ⟨lists, translated, hold⟩ := openaiMessages_all other proper each
  obtain ⟨after, read, flat⟩ := holdTurns hold
  obtain ⟨prompts, written, kept⟩ := systemMessage_read other prompt
  obtain ⟨tools, listed, field⟩ := openaiTools request.tools
  have out : ∃ rest, anthropicToOpenaiRequest other data =
      some (("model", (data.lookup "model").getD (.string "gpt-4o")) ::
        ("messages", .array (systemMessage other data ++ lists.flatten)) :: rest) ∧ rest.lookup "tools" = tools.lookup "tools" := by
    simp only [anthropicToOpenaiRequest, held, Option.getD_some, iterate, Option.bind_eq_bind,
      Option.bind_some, translated, listed,
      Option.pure_def, List.cons_append, List.nil_append]
    exact ⟨_, rfl, by simp [List.lookup_cons, List.lookup_append, carried_silent]⟩
  obtain ⟨rest, same, last⟩ := out
  refine ⟨_, ⟨prompts, after⟩, same, ⟨?_, ?_⟩, ?_⟩
  · intro value given _
    exact field.list value (by simpa [List.lookup_cons, last] using given)
  · have all : (systemMessage other data ++ lists.flatten).mapM readOpenai =
        some (prompts.map Sum.inl ++ after.map Sum.inr) := by
      rw [List.mapM_append, written, read]
      rfl
    have listing : readMessages (("model", (data.lookup "model").getD (.string "gpt-4o")) ::
        ("messages", .array (systemMessage other data ++ lists.flatten)) :: rest) = some (systemMessage other data ++ lists.flatten) :=
      readMessages_eq_some.mpr rfl
    rw [openaiConversation, listing]
    simp only [Option.bind_eq_bind, Option.bind_some, all, getLeft?_sums, getRight?_sums, Option.pure_def]
  · rw [Conversation.flat, Conversation.flat, kept, flat]
    simp [Conversation.carried]

theorem anthropicMessages_all {messages : List (Json N)} {reads : List (List String ⊕ Turn N)}
    (each : List.Forall₂ (fun message read => readOpenai message = some read) messages reads) :
    ∃ results, messages.mapM (anthropicMessage other) = some results ∧
      List.Forall₂ Returned reads results := by
  induction each with
  | nil => exact ⟨[], rfl, .nil⟩
  | cons here _ ih =>
    obtain ⟨first, translated, returned⟩ := anthropicMessage_read other here
    obtain ⟨rest, others, all⟩ := ih
    exact ⟨first :: rest, by rw [List.mapM_cons, translated, others]; rfl, .cons returned all⟩

theorem returned_parts {reads : List (List String ⊕ Turn N)} {results : List (String ⊕ Json N)}
    (all : List.Forall₂ Returned reads results) :
    results.filterMap Sum.getLeft? = (reads.filterMap Sum.getLeft?).map lines ∧
      Json.ProperItems (results.filterMap Sum.getRight?) ∧
      ∃ after : List (Turn N), (results.filterMap Sum.getRight?).mapM readAnthropic = some after ∧
        List.Forall₂ (fun turn after => after.flat = turn.carried.flat)
            (reads.filterMap Sum.getRight?) after := by
  induction all with
  | nil => exact ⟨rfl, trivial, [], rfl, .nil⟩
  | @cons _ _ reads results here _ ih =>
    obtain ⟨parts, proper, after, read, flat⟩ := ih
    cases here with
    | system texts => exact ⟨congrArg (List.cons (lines texts)) parts, proper, after, read, flat⟩
    | @turn turn first message held same own =>
      refine ⟨parts, ⟨own, proper⟩, first :: after, ?_, .cons same flat⟩
      change (message :: results.filterMap Sum.getRight?).mapM readAnthropic = some (first :: after)
      rw [List.mapM_cons, held, read]
      rfl

omit [Decoder N] in
theorem flatMap_flat {turns after : List (Turn N)} {f : Turn N → Turn N}
    (each : List.Forall₂ (fun turn after => after.flat = (f turn).flat) turns after) :
    after.flatMap Turn.flat = (turns.map f).flatMap Turn.flat := by
  induction each with
  | nil => rfl
  | cons here _ ih => rw [List.map_cons, List.flatMap_cons, List.flatMap_cons, here, ih]

theorem openai_to_anthropic (request : OpenaiRequest data conversation) :
    ∃ out after, openaiToAnthropicRequest other data = some out ∧ AnthropicRequest out after ∧
      after.flat = conversation.carried.flat ∧
      List.Forall₂ (fun turn after => after.flat = turn.carried.flat) conversation.turns after.turns := by
  have read := request.read
  simp only [openaiConversation, Option.bind_eq_bind, Option.bind_eq_some_iff, Option.pure_def,
    Option.some.injEq] at read
  obtain ⟨messages, held, reads, each, rfl⟩ := read
  rw [readMessages_eq_some] at held
  obtain ⟨results, translated, all⟩ := anthropicMessages_all other (mapM_eq_some.mp each)
  obtain ⟨parts, proper, after, read, each⟩ := returned_parts all
  obtain ⟨tools, listed, field⟩ := anthropicTools request.tools
  have silent := field.alone "system" (by decide)
  have out : ∃ rest, openaiToAnthropicRequest other data = some (
      ("model", (data.lookup "model").getD (.string "claude-sonnet-4-5")) ::
      ("messages", .array (results.filterMap Sum.getRight?)) :: rest) ∧
      (rest.lookup "system" = if (results.filterMap Sum.getLeft?).isEmpty then none
        else some (.string ("\n\n".intercalate (results.filterMap Sum.getLeft?)))) ∧ rest.lookup "tools" = tools.lookup "tools" := by
    simp only [openaiToAnthropicRequest, held, Option.getD_some, iterate, Option.bind_eq_bind,
      Option.bind_some, translated, listed,
      Option.pure_def, List.cons_append, List.nil_append]
    refine ⟨_, rfl, ?_, ?_⟩
    rotate_left
    · cases results.filterMap Sum.getLeft? <;>
        simp [List.lookup_cons, List.lookup_append, carried_silent, stopSequences_silent]
    have behind : (carried data "temperature" "temperature" ++ carried data "top_p" "top_p" ++
      stopSequences data ++ tools).lookup "system" =
        none := by
      simp [List.lookup_append, carried_silent, stopSequences_silent, silent]
    cases results.filterMap Sum.getLeft? with
    | nil => simpa [List.lookup_cons] using behind
    | cons => simp [List.lookup_cons]
  obtain ⟨rest, same, prompt, last⟩ := out
  have system : ∃ system, readPrompt (("model", (data.lookup "model").getD (.string "claude-sonnet-4-5")) ::
      ("messages", .array (results.filterMap Sum.getRight?)) :: rest) = some system ∧
      system.flatMap filled = filled ["\n\n".intercalate ((reads.filterMap Sum.getLeft?).map lines)] := by
    unfold readPrompt
    rw [← parts]
    cases held : results.filterMap Sum.getLeft? with
    | nil =>
      rw [held] at prompt
      exact ⟨[], by simpa [List.lookup_cons] using by rw [prompt]; rfl, rfl⟩
    | cons first others =>
      rw [held] at prompt
      refine ⟨[["\n\n".intercalate (first :: others)]], ?_, by simp⟩
      simp [List.lookup_cons, prompt, readTexts]
  obtain ⟨system, written, kept⟩ := system
  refine ⟨_, ⟨system, after⟩, same, ⟨?_, ?_, ?_⟩, ?_, each⟩
  · rintro messages ⟨⟩
    exact proper
  · intro value given _
    exact field.list value (by simpa [List.lookup_cons, last] using given)
  · have listing : readMessages (("model", (data.lookup "model").getD (.string "claude-sonnet-4-5")) ::
        ("messages", .array (results.filterMap Sum.getRight?)) :: rest) = some (results.filterMap Sum.getRight?) :=
      readMessages_eq_some.mpr rfl
    rw [anthropicConversation, written, listing]
    simp only [Option.bind_eq_bind, Option.bind_some, read, Option.pure_def]
  · rw [Conversation.flat, Conversation.flat, kept, flatMap_flat each]
    simp [Conversation.carried]

end Requests

section Directions
variable {N : Type} [Decoder N]

inductive Direction where
  | toOpenai | toAnthropic

def Direction.source : Direction → String
  | .toOpenai => "anthropic"
  | .toAnthropic => "openai"

def Direction.target : Direction → String
  | .toOpenai => "openai"
  | .toAnthropic => "anthropic"

/-- The body has the format of the source and holds the conversation. -/
def Direction.Request : Direction → Object N → Conversation N → Prop
  | .toOpenai => AnthropicRequest
  | .toAnthropic => OpenaiRequest

def Direction.read : Direction → Object N → Option (Conversation N)
  | .toOpenai => openaiConversation
  | .toAnthropic => anthropicConversation

/-- The translated body has the format of the target, and its conversation the same content. -/
def KeepsContent (other : Json N → String) (interpreter : Interpreter N) (direction : Direction)
    (data : Object N) (conversation : Conversation N) : Prop :=
  ∃ out after, translateWithin other interpreter data direction.source direction.target = some out ∧
    direction.read out = some after ∧ after.flat = conversation.flat

variable (other : Json N → String) (interpreter : Interpreter N) (direction : Direction)
variable {data : Object N} {conversation : Conversation N}

theorem translate_read (request : direction.Request data conversation) :
    ∃ out after, translateRequest other data direction.source direction.target = some out ∧
      direction.read out = some after ∧
      after.flat = conversation.carried.flat := by
  cases direction with
  | toOpenai =>
    have same : translateRequest other data "anthropic" "openai" = anthropicToOpenaiRequest other data := rfl
    obtain ⟨out, after, translated, read, flat⟩ := anthropic_to_openai other request
    exact ⟨out, after, same.trans translated, read.read, flat⟩
  | toAnthropic =>
    have same : translateRequest other data "openai" "anthropic" = openaiToAnthropicRequest other data := rfl
    obtain ⟨out, after, translated, read, flat, _⟩ := openai_to_anthropic other request
    exact ⟨out, after, same.trans translated, read.read, flat⟩

theorem translateWithin_eq_some {out : Object N} {source target : String} :
    translateWithin other interpreter data source target = some out ↔
      interpreter.manages other data source target = true ∧
        translateRequest other data source target = some out := by
  simp [translateWithin]

/-- The content of a tidy conversation is kept by an interpreter that manages its calls; that of
another one is not, unless a text is empty. -/
theorem keeps_content_iff (request : direction.Request data conversation) :
    (conversation.Tidy ∧ interpreter.manages other data direction.source direction.target = true →
        KeepsContent other interpreter direction data conversation) ∧
      (conversation.Solid → KeepsContent other interpreter direction data conversation →
        conversation.Tidy ∧ interpreter.manages other data direction.source direction.target = true) := by
  obtain ⟨out, after, translated, read, flat⟩ := translate_read other direction request
  constructor
  · rintro ⟨tidy, manages⟩
    have within := (translateWithin_eq_some other interpreter).mpr ⟨manages, translated⟩
    exact ⟨out, after, within, read, flat.trans tidy.flat_carried⟩
  · rintro solid ⟨again, seen, same, reread, kept⟩
    obtain ⟨manages, same⟩ := (translateWithin_eq_some other interpreter).mp same
    obtain rfl := Option.some.inj (translated.symm.trans same)
    obtain rfl := Option.some.inj (read.symm.trans reread)
    exact ⟨Conversation.tidy_of_flat solid (flat.symm.trans kept), manages⟩

end Directions

section Weather

instance : Decoder Int where
  unpaired _ := none
  proper := by simp

/-- Values up to a depth that the samples keep. -/
def shallow : Interpreter Int := ⟨fun text => text.length < 1000, fun value => value.rounds < 1000⟩

def textBlock (text : String) : Json Int := .object [("type", .string "text"), ("text", .string text)]

def resultBlock (id content : String) : Json Int :=
  .object [("type", .string "tool_result"), ("tool_use_id", .string id), ("content", .string content)]

/-- The assistant calls a tool behind a text; the last turn holds the blocks. -/
def weather (blocks : List (Json Int)) : Object Int :=
  [("model", .string "claude"), ("messages", .array [
    .object [("role", .string "user"), ("content", .string "How warm is it?")],
    .object [("role", .string "assistant"),
      ("content", .array [textBlock "I look it up.", .object [("type", .string "tool_use"),
      ("id", .string "toolu_1"), ("name", .string "weather"), ("input", .object [("city", .string "Oslo")])]])],
    .object [("role", .string "user"), ("content", .array blocks)]])]

def weatherTurns (items : List (Item Int)) : Conversation Int where
  system := []
  turns := [⟨.user, [.text "How warm is it?"]⟩,
    ⟨.assistant, [.text "I look it up.", .call "toolu_1" "weather" (some (.object [("city", .string "Oslo")]))]⟩, ⟨.user, items⟩]

theorem weather_answered : AnthropicRequest (weather [resultBlock "toolu_1" "18 degrees"])
    (weatherTurns [.result "toolu_1" ["18 degrees"]]) where
  proper := by
    rintro messages ⟨⟩
    simp [textBlock, resultBlock, Json.Proper, Json.ProperItems, Json.ProperEntries]
  tools := by simp [ListsTools, weather, List.lookup_cons]
  read := rfl

theorem weather_tidy : (weatherTurns [.result "toolu_1" ["18 degrees"]]).Tidy := by
  refine ⟨by simp [weatherTurns], by simp [weatherTurns], ?_⟩
  simp only [weatherTurns, List.forall_mem_cons, List.not_mem_nil, false_imp_iff, implies_true, and_true]
  refine ⟨.inl ⟨?_, rfl, ?_⟩, .inl ⟨?_, rfl, ?_⟩, .inr ⟨rfl, ?_⟩⟩
  · simp [Turn.texts, Item.text?]
  · simp [Turn.calls, Item.isCall]
  · simp [Turn.texts, Item.text?]
  · simp [Turn.calls, Item.isCall, Item.settled]
  · simp

theorem weather_kept :
    KeepsContent (fun _ => "") shallow .toOpenai (weather [resultBlock "toolu_1" "18 degrees"])
      (weatherTurns [.result "toolu_1" ["18 degrees"]]) :=
  (keeps_content_iff (fun _ => "") shallow .toOpenai weather_answered).1 ⟨weather_tidy, by decide +kernel⟩

theorem weather_followed :
    AnthropicRequest (weather [resultBlock "toolu_1" "18 degrees", textBlock "And tomorrow?"])
    (weatherTurns [.result "toolu_1" ["18 degrees"], .text "And tomorrow?"]) where
  proper := by
    rintro messages ⟨⟩
    simp [textBlock, resultBlock, Json.Proper, Json.ProperItems, Json.ProperEntries]
  tools := by simp [ListsTools, weather, List.lookup_cons]
  read := rfl

/-- A text behind a result is dropped, also by an interpreter that meets no limit. -/
theorem followup_dropped :
    AnthropicRequest (weather [resultBlock "toolu_1" "18 degrees", textBlock "And tomorrow?"])
      (weatherTurns [.result "toolu_1" ["18 degrees"], .text "And tomorrow?"]) ∧
    shallow.manages (fun _ => "") (weather [resultBlock "toolu_1" "18 degrees", textBlock "And tomorrow?"])
      "anthropic" "openai" = true ∧
    ¬ KeepsContent (fun _ => "") shallow .toOpenai
      (weather [resultBlock "toolu_1" "18 degrees", textBlock "And tomorrow?"])
      (weatherTurns [.result "toolu_1" ["18 degrees"], .text "And tomorrow?"]) := by
  refine ⟨weather_followed, by decide +kernel, ?_⟩
  rintro ⟨out, after, translated, read, kept⟩
  obtain ⟨_, translated⟩ := (translateWithin_eq_some _ shallow).mp translated
  obtain ⟨again, seen, same, reread, flat⟩ := translate_read (fun _ => "") .toOpenai weather_followed
  obtain rfl := Option.some.inj (translated.symm.trans same)
  obtain rfl := Option.some.inj (read.symm.trans reread)
  have lengths := congrArg (fun content => content.2.length) (flat.symm.trans kept)
  exact absurd lengths (by decide)

end Weather
end TokenPak.Proxy.Translator
