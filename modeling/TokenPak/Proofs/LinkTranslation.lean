import TokenPak.Proofs.GoogleTranslation

/-! The links of a conversation in another format, and after the way back. -/

namespace TokenPak.Proxy.Translator
open Library

section Google
variable {N : Type} [Decoder N] (other : Json N → String) {data : Object N} {conversation : Conversation N}

/-- Fields under one key, with values of one shape. -/
def Keyed (key : String) (shape : Json N → Prop) (fields : Object N) : Prop :=
  ∀ name value, fields.lookup name = some value → name = key ∧ shape value

omit [Decoder N] in
theorem keyed_nil (key : String) (shape : Json N → Prop) : Keyed key shape [] := by
  simp [Keyed]

omit [Decoder N] in
theorem keyed_single {key : String} {shape : Json N → Prop} {value : Json N}
    (shaped : shape value) : Keyed key shape [(key, value)] := by
  intro name held found
  rw [List.lookup_cons] at found
  split at found
  next same =>
    cases found
    exact ⟨by simpa using same, shaped⟩
  next => cases found

omit [Decoder N] in
theorem Keyed.silent {key : String} {shape : Json N → Prop} {fields : Object N}
    (keyed : Keyed key shape fields) {name : String}
    (differs : name ≠ key) : fields.lookup name = none := by
  cases found : fields.lookup name with
  | none => rfl
  | some value => exact absurd (keyed name value found).1 differs

omit [Decoder N] in
theorem messages_converted {convert : Json N → Option (List (Json N))}
    {first second : Json N → Option (Turn N)} {messages : List (Json N)}
    {turns : List (Turn N)} (name : Event → Event) (proper : Json.ProperItems messages)
    (each : List.Forall₂ (fun message turn => first message = some turn) messages turns)
    (convertible : ∀ message turn, first message = some turn → message.Proper → Converts convert second message (turn.events.map name)) :
    List.Forall₂ (Converts convert second) messages (turns.map fun turn => turn.events.map name) := by
  induction each with
  | nil => exact .nil
  | cons here _ ih => exact .cons (convertible _ _ here proper.1) (ih proper.2)

omit [Decoder N] in
theorem flatten_named (turns : List (Turn N)) (name : Event → Event) :
    (turns.map fun turn => turn.events.map name).flatten = (turns.flatMap Turn.events).map name := by
  rw [List.map_flatMap, List.flatMap_def]

def InstructionShape (instruction : Json N) : Prop :=
  ∃ text, instruction = .object [("parts", .array [.object [("text", .string text)]])]

def ObjectShape (value : Json N) : Prop := ∃ entries, value = .object entries

def DeclarationShape (tools : Json N) : Prop :=
  ∃ declared, tools = .array [.object [("functionDeclarations", .array declared)]] ∧
    ∀ tool ∈ declared, ObjectShape tool

theorem declarationTools (listed : ListsTools data) :
    ∃ tools, translatedTools data functionDeclarations = some tools ∧
      Keyed "tools" DeclarationShape tools := by
  have translated := translatedTools_each functionDeclarations functionDeclaration
    (fun declared => .array [.object [("functionDeclarations", .array declared)]])
      (P := ObjectShape) ?_ listed ?_
  · obtain ⟨tools, same, rfl | ⟨declared, rfl, all⟩⟩ := translated
    · exact ⟨[], same, keyed_nil _ _⟩
    · exact ⟨_, same, keyed_single ⟨declared, rfl, all⟩⟩
  · intro list
    simp only [functionDeclarations, iterate, Option.bind_eq_bind, Option.bind_some]
    cases list.mapM functionDeclaration <;> rfl
  · rintro value ⟨entries, rfl, _⟩
    exact ⟨_, rfl, _, rfl⟩

/-- A body in the third format as a translation writes it, and its conversation. -/
structure GoogleRequest (data : Object N) (conversation : Conversation N) : Prop where
  proper : ∀ contents, data.lookup "contents" = some (.array contents) → Json.ProperItems contents
  instructed : ∀ instruction, data.lookup "systemInstruction" = some instruction →
    InstructionShape instruction
  configured : ∀ config, data.lookup "generationConfig" = some config → ObjectShape config
  tools : ∀ tools, data.lookup "tools" = some tools → DeclarationShape tools
  read : googleConversation data = some conversation

/-- The translation has the events of the conversation, under the names of the functions. -/
theorem anthropic_to_google (request : AnthropicRequest data conversation) :
    ∃ out after, anthropicToGoogleRequest other data = some out ∧ GoogleRequest out after ∧
      after.events = conversation.events.map Event.named ∧
      ∀ turn ∈ after.turns, ∃ source ∈ conversation.turns, turn.events = source.events.map Event.named := by
  have read := request.read
  simp only [anthropicConversation, Option.bind_eq_bind, Option.bind_eq_some_iff, Option.pure_def,
    Option.some.injEq] at read
  obtain ⟨system, prompt, messages, held, turns, each, rfl⟩ := read
  rw [readMessages_eq_some] at held
  have proper := request.proper messages held
  have converts :=
    messages_converted Event.named proper (mapM_eq_some.mp each) fun message turn =>
      googleContent_read
  obtain ⟨lists, after, converted, read, all, events, owns⟩ := converts_all converts
  obtain ⟨tools, listed, declared⟩ := declarationTools request.tools
  obtain ⟨instruction, config, out, instructed, configured⟩ : ∃ instruction config : Object N,
      anthropicToGoogleRequest other data =
        some (("contents", .array lists.flatten) :: (instruction ++ (config ++ tools))) ∧
        Keyed "systemInstruction" InstructionShape instruction ∧
            Keyed "generationConfig" ObjectShape config := by
    simp only [anthropicToGoogleRequest, held, Option.getD_some, iterate, Option.bind_eq_bind,
      Option.bind_some, converted, listed,
      Option.pure_def, List.cons_append, List.nil_append, List.append_assoc]
    refine ⟨_, _, rfl, ?_, ?_⟩
    · cases data.lookup "system" with
      | none => exact keyed_nil _ _
      | some system =>
        dsimp only
        split
        · exact keyed_single ⟨_, rfl⟩
        · exact keyed_nil _ _
    · split
      · exact keyed_nil _ _
      · exact keyed_single ⟨_, rfl⟩
  refine ⟨_, ⟨[], after⟩, out, ⟨?_, ?_, ?_, ?_, ?_⟩, ?_, ?_⟩
  · rintro contents ⟨⟩
    exact all
  · intro value found
    simp only [List.lookup_cons, List.lookup_append,
      configured.silent (by decide : "systemInstruction" ≠ "generationConfig"),
      declared.silent (by decide : "systemInstruction" ≠ "tools"), Option.or_none] at found
    exact (instructed _ value found).2
  · intro value found
    simp only [List.lookup_cons, List.lookup_append,
      instructed.silent (by decide : "generationConfig" ≠ "systemInstruction"),
      declared.silent (by decide : "generationConfig" ≠ "tools"), Option.or_none, Option.none_or] at found
    exact (configured _ value found).2
  · intro value found
    simp only [List.lookup_cons, List.lookup_append,
      instructed.silent (by decide : "tools" ≠ "systemInstruction"),
      configured.silent (by decide : "tools" ≠ "generationConfig"), Option.none_or] at found
    exact (declared _ value found).2
  · simp only [googleConversation, List.lookup_cons, beq_self_eq_true, Option.bind_eq_bind,
      Option.bind_some, asArray, read, Option.pure_def]
  · rw [Conversation.events, events, flatten_named]
    rfl
  · intro turn member
    obtain ⟨source, inside, same⟩ := List.mem_map.mp (owns turn member)
    exact ⟨source, inside, same.symm⟩

def TextShape (value : Json N) : Prop := ∃ text, value = .string text

omit [Decoder N] in
theorem systemText_keyed (instructed : ∀ instruction,
    data.lookup "systemInstruction" = some instruction → InstructionShape instruction) :
    ∃ system, systemText data = some system ∧ Keyed "system" TextShape system := by
  unfold systemText
  cases held : data.lookup "systemInstruction" with
  | none => exact ⟨[], rfl, keyed_nil _ _⟩
  | some instruction =>
    obtain ⟨text, rfl⟩ := instructed instruction held
    by_cases empty : text = ""
    · exact ⟨[], by simp [iterate, asString, empty], keyed_nil _ _⟩
    · exact ⟨[("system", .string text)], by simp [iterate, asString, empty], keyed_single ⟨text, rfl⟩⟩

omit [Decoder N] in
theorem configured_keyed {config : Json N} (object : ObjectShape config) (key target : String) :
    ∃ fields, configured config key target = some fields ∧ Keyed target (fun _ => True) fields := by
  obtain ⟨entries, rfl⟩ := object
  cases held : entries.lookup key with
  | none => exact ⟨[], by simp [configured, contains, held], keyed_nil _ _⟩
  | some value => exact ⟨[(target, value)], by simp [configured, contains, index, held], keyed_single trivial⟩

theorem declaredTools_keyed (declared : ∀ tools, data.lookup "tools" = some tools → DeclarationShape tools) :
    ∃ tools, declaredTools data = some tools ∧ Keyed "tools" ToolList tools := by
  unfold declaredTools
  cases held : data.lookup "tools" with
  | none => exact ⟨[], rfl, keyed_nil _ _⟩
  | some groups =>
    obtain ⟨list, rfl, all⟩ := declared groups held
    have tool : ∀ declaration ∈ list, ∃ result, declaredTool declaration = some result ∧
        ToolShape result := by
      intro declaration member
      obtain ⟨entries, rfl⟩ := all declaration member
      refine ⟨_, rfl, _, rfl, ?_⟩
      simp [List.lookup_cons]
    obtain ⟨results, translated, shapes⟩ := mapM_each tool
    cases results with
    | nil => exact ⟨[], by simp [Json.truthy, iterate, groupTools, get, translated], keyed_nil _ _⟩
    | cons first others =>
      exact ⟨[("tools", .array (first :: others))],
        by simp [Json.truthy, iterate, groupTools, get, translated],
        keyed_single ⟨_, rfl, shapes⟩⟩

theorem google_to_anthropic (request : GoogleRequest data conversation) :
    ∃ out after, googleToAnthropicRequest other data = some out ∧ AnthropicRequest out after ∧
      after.events = conversation.events ∧
      ∀ turn ∈ after.turns, ∃ source ∈ conversation.turns, turn.events = source.events := by
  have read := request.read
  simp only [googleConversation, Option.bind_eq_bind, Option.bind_eq_some_iff, Option.pure_def,
    Option.some.injEq] at read
  obtain ⟨contents, ⟨value, held, listed⟩, turns, each, rfl⟩ := read
  cases value with
  | array list =>
    cases listed
    have proper := request.proper contents held
    have converts := messages_converted id proper (mapM_eq_some.mp each) fun content turn read own =>
      (List.map_id turn.events).symm ▸ messageOfContent_read other read own
    obtain ⟨lists, after, converted, read, all, events, owns⟩ := converts_all converts
    obtain ⟨tools, declared, shaped⟩ := declaredTools_keyed request.tools
    obtain ⟨system, instructed, text⟩ := systemText_keyed request.instructed
    have object : ObjectShape ((data.lookup "generationConfig").getD (.object [])) := by
      cases config : data.lookup "generationConfig" with
      | none => exact ⟨[], rfl⟩
      | some config' => exact request.configured config' config
    obtain ⟨limit, limited, _⟩ := configured_keyed object "maxOutputTokens" "max_tokens"
    obtain ⟨temperature, heated, temperatures⟩ := configured_keyed object "temperature" "temperature"
    obtain ⟨topP, topped, tops⟩ := configured_keyed object "topP" "top_p"
    obtain ⟨stops, stopped, sequences⟩ := configured_keyed object "stopSequences" "stop_sequences"
    obtain ⟨out, translated, messages, prompts, last⟩ : ∃ out,
      googleToAnthropicRequest other data = some out ∧
        out.lookup "messages" = some (.array lists.flatten) ∧ out.lookup "system" = system.lookup "system" ∧
        out.lookup "tools" = tools.lookup "tools" := by
      simp only [googleToAnthropicRequest, held, Option.getD_some, iterate, Option.bind_eq_bind,
        Option.bind_some, converted, declared,
        instructed, limited, heated, topped, stopped, Option.pure_def, List.cons_append, List.nil_append, List.append_assoc]
      refine ⟨_, rfl, rfl, ?_, ?_⟩
      · simp [List.lookup_cons, List.lookup_append,
          temperatures.silent (by decide : "system" ≠ "temperature"),
          tops.silent (by decide : "system" ≠ "top_p"),
            sequences.silent (by decide : "system" ≠ "stop_sequences"),
          shaped.silent (by decide : "system" ≠ "tools")]
      · simp [List.lookup_cons, List.lookup_append, text.silent (by decide : "tools" ≠ "system"),
          temperatures.silent (by decide : "tools" ≠ "temperature"),
            tops.silent (by decide : "tools" ≠ "top_p"),
          sequences.silent (by decide : "tools" ≠ "stop_sequences")]
    obtain ⟨prompt, readable⟩ : ∃ prompt, readPrompt out = some prompt := by
      unfold readPrompt
      rw [prompts]
      cases seen : system.lookup "system" with
      | none => exact ⟨[], rfl⟩
      | some value =>
        obtain ⟨line, rfl⟩ := (text _ value seen).2
        exact ⟨[[line]], rfl⟩
    refine ⟨out, ⟨prompt, after⟩, translated, ⟨?_, ?_, ?_⟩, ?_, ?_⟩
    · intro values found
      rw [messages] at found
      cases found
      exact all
    · intro value found _
      exact (shaped _ value (last.symm.trans found)).2
    · simp only [anthropicConversation, readable, readMessages_eq_some.mpr messages,
        Option.bind_eq_bind, Option.bind_some, read,
        Option.pure_def]
    · rw [Conversation.events, events, flatten_named]
      simp [Conversation.events]
    · intro turn member
      obtain ⟨source, inside, same⟩ := List.mem_map.mp (owns turn member)
      exact ⟨source, inside, by simpa using same.symm⟩
  | _ => cases listed

end Google

section Turns
variable {N : Type}

theorem exists_related {Value Result : Type} {related : Value → Result → Prop} {values : List Value}
    {results : List Result}
    (each : List.Forall₂ related values results) {result : Result} (member : result ∈ results) :
    ∃ value, related value result := by
  induction each with
  | nil => cases member
  | cons here _ ih =>
    rcases List.mem_cons.mp member with rfl | behind
    · exact ⟨_, here⟩
    · exact ih behind

/-- All events are calls, or all are results. -/
def OneKind (events : List Event) :
    Prop := (∀ event ∈ events, event.isCall = false) ∨ ∀ event ∈ events, event.isCall = true

theorem unmixed_iff {turn : Turn N} : turn.Unmixed ↔ OneKind turn.events := by
  have called (kind : Bool) : (∀ event ∈ turn.events, event.isCall = kind) ↔
      ∀ item ∈ turn.items, (if kind then item.isResult else item.isCall) = false := by
    simp only [Turn.events, List.mem_filterMap, forall_exists_index, and_imp]
    constructor
    · intro all item member
      cases item with
      | text line => cases kind <;> rfl
      | call id name arguments =>
        have own := all _ _ member rfl
        cases own
        rfl
      | result id texts =>
        have own := all _ _ member rfl
        cases own
        rfl
    · intro all event item member tells
      have own := all item member
      cases item with
      | text line => cases tells
      | call id name arguments =>
        cases tells
        cases kind with
        | false => cases own
        | true => rfl
      | result id texts =>
        cases tells
        cases kind with
        | false => rfl
        | true => cases own
  rw [OneKind, called false, called true, Turn.Unmixed, Turn.calls, Turn.results,
    List.filter_eq_nil_iff, List.filter_eq_nil_iff]
  simp

theorem oneKind_named {events : List Event} : OneKind (events.map Event.named) ↔ OneKind events := by
  simp [OneKind, named_isCall]

theorem oneKind_of_all {items : List (Item N)}
    (kind : (∀ item ∈ items, item.isCall = false) ∨ ∀ item ∈ items, item.isResult = false)
    (side : Side) : (Turn.mk side items).Unmixed := by
  simpa [Turn.Unmixed, Turn.calls, Turn.results, List.filter_eq_nil_iff] using kind

variable [Decoder N]

theorem unmixed_carried (turn : Turn N) : OneKind turn.carried.events := by
  rcases events_carried_cases turn with ⟨_, same⟩ | ⟨_, same⟩
  · left
    intro event member
    rw [same] at member
    obtain ⟨item, inside, tells⟩ := List.mem_filterMap.mp member
    have result := List.of_mem_filter inside
    cases item with
    | text line => cases tells
    | call => cases result
    | result => cases tells; rfl
  · right
    intro event member
    rw [same] at member
    obtain ⟨item, inside, tells⟩ := List.mem_filterMap.mp member
    have call := List.of_mem_filter inside
    cases item with
    | text line => cases tells
    | call => cases tells; rfl
    | result => cases call

theorem readOpenai_unmixed {message : Json N} {turn : Turn N}
    (read : readOpenai message = some (.inr turn)) : turn.Unmixed := by
  cases message with
  | object entries =>
    simp only [readOpenai, Option.bind_eq_bind, Option.bind_eq_some_iff, textOfField_eq_some] at read
    obtain ⟨role, given, texts, written, items, called, read⟩ := read
    split at read
    · cases read
      apply oneKind_of_all
      right
      intro item member
      rcases List.mem_append.mp member with text | call
      · obtain ⟨line, _, rfl⟩ := List.mem_map.mp text
        rfl
      · rcases readCalls_cases called with ⟨rfl, _⟩ | ⟨list, _, _, each⟩
        · cases call
        · have own := calls_of_read each item call
          cases item with
          | text line => rfl
          | call => rfl
          | result => cases own
    · split at read
      · split at read
        · cases read
        · split at read
          · cases read
            apply oneKind_of_all
            right
            intro item member
            obtain ⟨line, _, rfl⟩ := List.mem_map.mp member
            rfl
          · split at read
            · simp only [Option.bind_eq_some_iff, Option.pure_def, Option.some.injEq, Sum.inr.injEq] at read
              obtain ⟨id, _, rfl⟩ := read
              apply oneKind_of_all
              left
              intro item member
              rw [List.mem_singleton.mp member]
              rfl
            · cases read
      · cases read
  | _ => cases read

theorem OpenaiRequest.unmixed {data : Object N} {conversation : Conversation N}
    (request : OpenaiRequest data conversation) :
    ∀ turn ∈ conversation.turns, turn.Unmixed := by
  have read := request.read
  simp only [openaiConversation, Option.bind_eq_bind, Option.bind_eq_some_iff, Option.pure_def,
    Option.some.injEq] at read
  obtain ⟨messages, _, reads, each, rfl⟩ := read
  intro turn member
  obtain ⟨entry, inside, chosen⟩ := List.mem_filterMap.mp member
  cases entry with
  | inl texts => cases chosen
  | inr held =>
    cases chosen
    obtain ⟨message, own⟩ := exists_related (mapM_eq_some.mp each) inside
    exact readOpenai_unmixed own

end Turns

section Formats
variable {N : Type} [Decoder N]

inductive Format where
  | anthropic | openai | google
  deriving DecidableEq

def Format.name : Format → String
  | .anthropic => "anthropic"
  | .openai => "openai"
  | .google => "google"

/-- The body has the format and holds the conversation. -/
def Format.Request : Format → Object N → Conversation N → Prop
  | .anthropic => AnthropicRequest
  | .openai => OpenaiRequest
  | .google => GoogleRequest

/-- The conversation of a body, with its links as the format has them. -/
def Format.read : Format → Object N → Option (Conversation N)
  | .anthropic => anthropicConversation
  | .openai => openaiConversation
  | .google => googleConversation

theorem Format.Request.read {format : Format} {data : Object N} {conversation : Conversation N}
    (request : format.Request data conversation) :
    format.read data = some conversation := by
  cases format with
  | anthropic => exact AnthropicRequest.read request
  | openai => exact OpenaiRequest.read request
  | google => exact GoogleRequest.read request

variable (other : Json N → String)

/-- The translated body has the links of the conversation, and so has the body that is translated back. -/
def KeepsLinks (source target : Format) (data : Object N) (conversation : Conversation N) : Prop :=
  ∃ out after, translateRequest other data source.name target.name = some out ∧ target.read out = some after ∧
    SameLinks conversation.events after.events ∧
    ∃ back again, translateRequest other out target.name source.name = some back ∧
      source.read back = some again ∧
      SameLinks conversation.events again.events

/-- For the second format no turn has calls beside results; for the third one calls are named by
their functions. -/
def Format.Links (target : Format) (conversation : Conversation N) : Prop :=
  match target with
  | .anthropic => True
  | .openai => ∀ turn ∈ conversation.turns, turn.Unmixed
  | .google => SelfNamed conversation.events

variable {other} {source target : Format} {data out back : Object N}
  {conversation after again : Conversation N}

variable (source target) in
theorem keepsLinks_of (there : translateRequest other data source.name target.name = some out)
    (request : target.Request out after)
    (returns : translateRequest other out target.name source.name = some back)
    (returned : source.Request back again) :
    KeepsLinks other source target data conversation ↔
      SameLinks conversation.events after.events ∧ SameLinks conversation.events again.events := by
  constructor
  · rintro ⟨out', after', there', read, links, back', again', returns', reread, relinks⟩
    obtain rfl := Option.some.inj (there.symm.trans there')
    obtain rfl := Option.some.inj (returns.symm.trans returns')
    obtain rfl := Option.some.inj (request.read.symm.trans read)
    obtain rfl := Option.some.inj (returned.read.symm.trans reread)
    exact ⟨links, relinks⟩
  · rintro ⟨links, relinks⟩
    exact ⟨out, after, there, request.read, links, back, again, returns, returned.read, relinks⟩

theorem openai_links_iff (request : AnthropicRequest data conversation) :
    KeepsLinks other .anthropic .openai data conversation ↔ ∀ turn ∈ conversation.turns, turn.Unmixed := by
  obtain ⟨out, after, there, held, flat⟩ := anthropic_to_openai other request
  obtain ⟨back, again, returns, returned, flat_again, _⟩ := openai_to_anthropic other held
  have events : after.events = conversation.carried.events := events_of_flat flat
  have events_again : again.events = after.events :=
    (events_of_flat flat_again).trans (carried_events held.unmixed)
  rw [keepsLinks_of .anthropic .openai there held returns returned, events_again, events, and_self]
  constructor
  · intro same
    exact (carried_events_iff conversation).mpr same.length_eq
  · intro unmixed
    rw [carried_events unmixed]
    exact SameLinks.refl _

theorem google_links_iff (request : AnthropicRequest data conversation)
    (linked : Linked conversation.events) :
    KeepsLinks other .anthropic .google data conversation ↔ SelfNamed conversation.events := by
  obtain ⟨out, after, there, held, events, _⟩ := anthropic_to_google other request
  obtain ⟨back, again, returns, returned, events_again, _⟩ := google_to_anthropic other held
  rw [keepsLinks_of .anthropic .google there held returns returned, events_again, events, and_self]
  exact named_links_iff linked

theorem openai_links (request : OpenaiRequest data conversation) :
    KeepsLinks other .openai .openai data conversation :=
  ⟨data, conversation, rfl, request.read, SameLinks.refl _, data, conversation, rfl, request.read,
    SameLinks.refl _⟩

/-- Both ways lead through the first format. -/
theorem openai_google_links_iff (request : OpenaiRequest data conversation)
    (linked : Linked conversation.events) :
    KeepsLinks other .openai .google data conversation ↔ SelfNamed conversation.events := by
  obtain ⟨first, between, first_there, held, flat, each⟩ := openai_to_anthropic other request
  obtain ⟨out, after, there, out_held, events, owns⟩ := anthropic_to_google other held
  obtain ⟨second, beyond, first_back, back_held, events_back, owns_back⟩ := google_to_anthropic other out_held
  obtain ⟨back, again, returns, returned, flat_again⟩ := anthropic_to_openai other back_held
  have translated : translateRequest other data "openai" "google" = some out := by
    change (openaiToAnthropicRequest other data).bind (anthropicToGoogleRequest other) = some out
    rw [first_there, Option.bind_some, there]
  have translated_back : translateRequest other out "google" "openai" = some back := by
    change (googleToAnthropicRequest other out).bind (anthropicToOpenaiRequest other) = some back
    rw [first_back, Option.bind_some, returns]
  have events_between : between.events = conversation.events :=
    (events_of_flat flat).trans (carried_events request.unmixed)
  have unmixed : ∀ turn ∈ beyond.turns, turn.Unmixed := by
    intro turn member
    obtain ⟨google, inside, same⟩ := owns_back turn member
    obtain ⟨anthropic, within, named⟩ := owns google inside
    obtain ⟨openai, carried⟩ := exists_related each within
    have kind : OneKind anthropic.events := by
      rw [← events_flat anthropic, carried, events_flat]
      exact unmixed_carried openai
    rw [unmixed_iff, same, named]
    exact oneKind_named.mpr kind
  have events_again : again.events = conversation.events.map Event.named := by
    rw [events_of_flat flat_again, carried_events unmixed, events_back, events, events_between]
  rw [keepsLinks_of .openai .google translated out_held translated_back returned, events_again, events,
    events_between, and_self]
  exact named_links_iff linked

/-- The links of a linked conversation are kept exactly under the condition of the target format. -/
theorem keeps_links_iff (other : Json N → String) (source target : Format)
    (known : source ≠ .google) (foreign : target ≠ .anthropic)
    {data : Object N} {conversation : Conversation N} (request : source.Request data conversation)
    (linked : Linked conversation.events) :
    KeepsLinks other source target data conversation ↔ target.Links conversation := by
  cases target with
  | anthropic => exact absurd rfl foreign
  | openai =>
    cases source with
    | anthropic => exact openai_links_iff request
    | openai =>
      have held : OpenaiRequest data conversation := request
      exact ⟨fun _ => held.unmixed, fun _ => openai_links held⟩
    | google => exact absurd rfl known
  | google =>
    cases source with
    | anthropic => exact google_links_iff request linked
    | openai => exact openai_google_links_iff request linked
    | google => exact absurd rfl known

end Formats

section Weather

/-- One call of the function for the weather, and its result. -/
def lookedUp (id : String) : Object Int :=
  [("model", .string "claude"), ("messages", .array [
    .object [("role", .string "assistant"),
      ("content", .array [.object [("type", .string "tool_use"), ("id", .string id),
      ("name", .string "weather"), ("input", .object [("city", .string "Oslo")])]])],
    .object [("role", .string "user"), ("content", .array [resultBlock id "18 degrees"])]])]

def lookedUpTurns (id : String) : Conversation Int where
  system := []
  turns :=
    [⟨.assistant, [.call id "weather" (some (.object [("city", .string "Oslo")]))]⟩,
      ⟨.user, [.result id ["18 degrees"]]⟩]

theorem lookedUp_request (id : String) : AnthropicRequest (lookedUp id) (lookedUpTurns id) where
  proper := by
    rintro messages ⟨⟩
    simp [resultBlock, Json.Proper, Json.ProperItems, Json.ProperEntries]
  tools := by simp [ListsTools, lookedUp, List.lookup_cons]
  read := rfl

theorem lookedUp_events (id : String) : (lookedUpTurns id).events = [.call id "weather", .result id] := rfl

theorem lookedUp_refers {id : String} {i j : Nat} :
    Refers [.call id "weather", .result id] i j ↔ i = 0 ∧ j = 1 := by
  constructor
  · rintro ⟨before, key, name, called, answered⟩
    have last : j < 2 := (List.getElem?_eq_some_iff.mp answered).1
    omega
  · rintro ⟨rfl, rfl⟩
    exact ⟨by decide, id, "weather", rfl, rfl⟩

theorem lookedUp_linked (id : String) : Linked (lookedUpTurns id).events := by
  rw [lookedUp_events]
  intro j key answered
  have last : j < 2 := (List.getElem?_eq_some_iff.mp answered).1
  have second : j = 1 := by
    rcases (by omega : j = 0 ∨ j = 1) with rfl | second
    · simp at answered
    · exact second
  exact ⟨0, lookedUp_refers.mpr ⟨rfl, second⟩, fun i refers => (lookedUp_refers.mp refers).1⟩

theorem lookedUp_selfNamed {id : String} : SelfNamed (lookedUpTurns id).events ↔ id = "weather" := by
  rw [lookedUp_events]
  constructor
  · intro named
    exact (named.referred 0 1 id "weather" (lookedUp_refers.mpr ⟨rfl, rfl⟩) rfl).symm
  · rintro rfl
    refine ⟨?_, ?_⟩
    · intro i j key name refers called
      obtain ⟨rfl, _⟩ := lookedUp_refers.mp refers
      cases called
      rfl
    · intro key name key' name' first second differ
      simp only [List.mem_cons, Event.call.injEq, List.not_mem_nil, or_false, reduceCtorEq] at first second
      exact absurd (first.1.trans second.1.symm) differ

theorem weather_links_kept : KeepsLinks (fun _ => "") .anthropic .google (lookedUp "weather")
    (lookedUpTurns "weather") :=
  (keeps_links_iff (fun _ => "") .anthropic .google (by decide) (by decide) (lookedUp_request "weather") (lookedUp_linked "weather")).mpr
    (lookedUp_selfNamed.mpr rfl)

/-- The result is sent under the id of the call, where the name of the function belongs. -/
theorem toolu_link_lost : AnthropicRequest (lookedUp "toolu_1")
    (lookedUpTurns "toolu_1") ∧ Linked (lookedUpTurns "toolu_1").events ∧
    ¬ KeepsLinks (fun _ => "") .anthropic .google (lookedUp "toolu_1") (lookedUpTurns "toolu_1") := by
  refine ⟨lookedUp_request "toolu_1", lookedUp_linked "toolu_1", ?_⟩
  rw [google_links_iff (lookedUp_request "toolu_1") (lookedUp_linked "toolu_1"), lookedUp_selfNamed]
  decide

end Weather
end TokenPak.Proxy.Translator
