import TokenPak.Proxy.StreamTranslator

/-! The events of a message: its start, its blocks one after the other, its end. A translated stream
has such events when it has no tool calls, and only then; its texts and arguments are those of the
chunks in any case. -/

namespace TokenPak.Proxy.StreamTranslator

def ContentBlock.Takes : ContentBlock → BlockDelta → Prop
  | .text, .inputJson _ => False
  | .text, _ => True
  | .thinking, .other _ => True
  | .thinking, _ => False
  | .toolUse .., .inputJson _ => True
  | .toolUse .., _ => False
  | .other _, .text _ => False
  | .other _, _ => True

structure BlockRun where
  block : ContentBlock
  deltas : List BlockDelta
  deriving DecidableEq

def BlockRun.Matching (run : BlockRun) : Prop := ∀ delta ∈ run.deltas, run.block.Takes delta

def BlockRun.events (run : BlockRun) (index : Nat) : List Event :=
  Event.contentBlockStart index run.block :: run.deltas.map (.contentBlockDelta index) ++ [Event.contentBlockStop index]

def blockEvents (index : Nat) : List BlockRun → List Event
  | [] => []
  | run :: runs => run.events index ++ blockEvents (index + 1) runs

def messageEvents (id model : String) (runs : List BlockRun) (reasons : List (Option String)) : List Event :=
  .messageStart id model :: blockEvents 0 runs ++ reasons.map .messageDelta ++ [Event.messageStop]

def Lifecycle (events : List Event) : Prop :=
  ∃ id model runs reason, (∀ run ∈ runs, run.Matching) ∧ events = messageEvents id model runs [reason]

section Contents
variable {Element : Type} {f : Element → String} {elements : List Element}

/-- The texts of all elements, one behind the other. -/
def joined (f : Element → String) : List Element → String
  | [] => ""
  | element :: elements => f element ++ joined f elements

@[simp] theorem joined_nil : joined f [] = "" := rfl

@[simp] theorem joined_cons (element : Element) :
    joined f (element :: elements) = f element ++ joined f elements :=
  rfl

@[simp] theorem joined_append (first second : List Element) :
    joined f (first ++ second) = joined f first ++ joined f second := by
  induction first with
  | nil => simp
  | cons element first ih => simp [ih, String.append_assoc]

theorem joined_silent (silent : ∀ element ∈ elements, f element = "") : joined f elements = "" := by
  induction elements with
  | nil => rfl
  | cons element elements ih =>
    rw [joined_cons, silent element List.mem_cons_self, ih fun other member =>
      silent other (List.mem_cons_of_mem _ member)]
    rfl

def Event.text : Event → String
  | .contentBlockDelta _ (.text text) => text
  | _ => ""

/-- The part of the arguments that an event adds to the block with the index. -/
def Event.argumentsAt (block : Nat) : Event → String
  | .contentBlockDelta index (.inputJson fragment) => if index = block then fragment else ""
  | _ => ""

def Chunk.delta {Index : Type} (chunk : Chunk Index) : ChoiceDelta Index :=
  match chunk.choices with
  | [] => ⟨none, none, []⟩
  | choice :: _ => choice.delta

def Chunk.text {Index : Type} (chunk : Chunk Index) : String := chunk.delta.content.getD ""

def ToolCallDelta.argumentsOf (idx : Nat) (call : ToolCallDelta Nat) : String :=
  if call.index.getD 0 = idx then call.arguments.getD "" else ""

def Chunk.argumentsOf (idx : Nat) (chunk : Chunk Nat) : String :=
  joined (ToolCallDelta.argumentsOf idx) chunk.delta.toolCalls

def Chunk.finishReason {Index : Type} (chunk : Chunk Index) : String :=
  match chunk.choices with
  | [] => ""
  | choice :: _ => choice.finishReason.getD ""

end Contents

section Opening
variable (freshId : Nat → String)

/-- What a chunk adds before the end of the message. -/
def OpenaiToAnthropic.opened (stream : OpenaiToAnthropic) (chunk : Chunk Nat) :
    OpenaiToAnthropic × List Event :=
  match chunk.choices with
  | [] => (stream, [])
  | choice :: _ =>
    let (stream, started) := stream.start chunk.model
    let (stream, texts) := stream.text choice.delta.content
    let (stream, calls) := stream.toolCalls freshId choice.delta.toolCalls
    (stream, started ++ texts ++ calls)

def OpenaiToAnthropic.openedAll (stream : OpenaiToAnthropic) :
    List (Chunk Nat) → OpenaiToAnthropic × List Event
  | [] => (stream, [])
  | chunk :: chunks =>
    let (next, events) := stream.opened freshId chunk
    let (last, rest) := next.openedAll chunks
    (last, events ++ rest)

variable {freshId} {stream : OpenaiToAnthropic} {chunk : Chunk Nat} {chunks : List (Chunk Nat)}

theorem translate_eq : stream.translate freshId chunk = ((stream.opened freshId chunk).1,
    (stream.opened freshId chunk).2 ++ (stream.opened freshId chunk).1.finish (some chunk.finishReason)) := by
  unfold OpenaiToAnthropic.translate OpenaiToAnthropic.opened Chunk.finishReason
  cases chunk.choices with
  | nil => simp [OpenaiToAnthropic.finish]
  | cons choice others => rfl

theorem run_opened (plain : ∀ chunk ∈ chunks, chunk.finishReason = "") (last : Chunk Nat) :
    stream.run freshId (chunks ++ [last]) = (stream.openedAll freshId (chunks ++ [last])).2 ++
      (stream.openedAll freshId (chunks ++ [last])).1.finish (some last.finishReason) := by
  induction chunks generalizing stream with
  | nil =>
    simp only [List.nil_append, OpenaiToAnthropic.run, OpenaiToAnthropic.openedAll, translate_eq,
      List.append_nil]
  | cons chunk chunks ih =>
    have quiet : (stream.opened freshId chunk).1.finish (some chunk.finishReason) = [] := by
      rw [plain chunk List.mem_cons_self]
      rfl
    simp only [List.cons_append, OpenaiToAnthropic.run, OpenaiToAnthropic.openedAll, translate_eq,
      quiet, List.append_nil]
    rw [ih fun other member => plain other (List.mem_cons_of_mem _ member), List.append_assoc]

variable (freshId) in
theorem openedAll_keeps (keeps : OpenaiToAnthropic → List Event → Prop)
    (step : ∀ stream events chunk, chunk ∈ chunks → keeps stream events →
      keeps (stream.opened freshId chunk).1 (events ++ (stream.opened freshId chunk).2))
    {events : List Event} (holds : keeps stream events) :
    keeps (stream.openedAll freshId chunks).1 (events ++ (stream.openedAll freshId chunks).2) := by
  induction chunks generalizing stream events with
  | nil => simpa [OpenaiToAnthropic.openedAll] using holds
  | cons chunk chunks ih =>
    have first := step stream events chunk List.mem_cons_self holds
    have rest :=
      ih (fun stream events other member =>
        step stream events other (List.mem_cons_of_mem _ member)) first
    simpa only [OpenaiToAnthropic.openedAll, List.append_assoc] using rest

end Opening

section Kept
variable {freshId : Nat → String} {stream : OpenaiToAnthropic}

theorem start_text (model : String) : joined Event.text (stream.start model).2 = "" := by
  unfold OpenaiToAnthropic.start
  split <;> rfl

theorem start_arguments (block : Nat) (model : String) : joined (Event.argumentsAt block)
    (stream.start model).2 = "" := by
  unfold OpenaiToAnthropic.start
  split <;> rfl

theorem text_text (content : Option String) :
    joined Event.text (stream.text content).2 = content.getD "" := by
  by_cases empty : content.getD "" = ""
  · simp [OpenaiToAnthropic.text, empty]
  · cases shown : stream.textBlockOpen <;> simp [OpenaiToAnthropic.text, empty, shown, Event.text]

theorem text_arguments (block : Nat) (content : Option String) : joined (Event.argumentsAt block)
    (stream.text content).2 = "" := by
  by_cases empty : content.getD "" = ""
  · simp [OpenaiToAnthropic.text, empty]
  · cases shown : stream.textBlockOpen <;> simp [OpenaiToAnthropic.text, empty, shown, Event.argumentsAt]

theorem toolCall_text (call : ToolCallDelta Nat) :
    joined Event.text (stream.toolCall freshId call).2 = "" := by
  by_cases known : stream.toolCallBlocks.any (·.idx = call.index.getD 0) <;>
    by_cases empty : call.arguments.getD "" = "" <;>
    simp [OpenaiToAnthropic.toolCall, known, empty, Event.text]

theorem toolCall_arguments (idx : Nat) (call : ToolCallDelta Nat) :
    joined (Event.argumentsAt (idx + 1)) (stream.toolCall freshId call).2 = call.argumentsOf idx := by
  by_cases known : stream.toolCallBlocks.any (·.idx = call.index.getD 0) <;>
    by_cases empty : call.arguments.getD "" = "" <;>
    simp [OpenaiToAnthropic.toolCall, known, empty, ToolCallDelta.argumentsOf, Event.argumentsAt]

theorem toolCalls_text (calls : List (ToolCallDelta Nat)) :
    joined Event.text (stream.toolCalls freshId calls).2 = "" := by
  induction calls generalizing stream with
  | nil => rfl
  | cons call calls ih => simp [OpenaiToAnthropic.toolCalls, toolCall_text, ih]

theorem toolCalls_arguments (idx : Nat) (calls : List (ToolCallDelta Nat)) :
    joined (Event.argumentsAt (idx + 1))
    (stream.toolCalls freshId calls).2 = joined (ToolCallDelta.argumentsOf idx) calls := by
  induction calls generalizing stream with
  | nil => rfl
  | cons call calls ih => simp [OpenaiToAnthropic.toolCalls, toolCall_arguments, ih]

theorem opened_text (chunk : Chunk Nat) : joined Event.text (stream.opened freshId chunk).2 = chunk.text := by
  unfold OpenaiToAnthropic.opened Chunk.text Chunk.delta
  cases chunk.choices with
  | nil => rfl
  | cons choice others => simp [start_text, text_text, toolCalls_text]

theorem opened_arguments (idx : Nat) (chunk : Chunk Nat) :
    joined (Event.argumentsAt (idx + 1)) (stream.opened freshId chunk).2 = chunk.argumentsOf idx := by
  unfold OpenaiToAnthropic.opened Chunk.argumentsOf Chunk.delta
  cases chunk.choices with
  | nil => rfl
  | cons choice others => simp [start_arguments, text_arguments, toolCalls_arguments]

theorem finish_silent {f : Event → String} (stop : ∀ index, f (.contentBlockStop index) = "")
    (ending : ∀ reason, f (.messageDelta reason) = "") (last : f .messageStop = "") (reason : Option String) :
    joined f (stream.finish reason) = "" := by
  apply joined_silent
  intro event member
  unfold OpenaiToAnthropic.finish at member
  simp only at member
  split at member
  next => cases member
  next =>
    simp only [List.mem_append, List.mem_cons, List.mem_map, List.not_mem_nil, or_false] at member
    rcases member with (text | ⟨block, _, rfl⟩) | rfl | rfl
    · split at text
      · rw [List.mem_singleton.mp text, stop]
      · cases text
    · exact stop _
    · exact ending _
    · exact last

/-- The texts and the arguments of a stream are those of its chunks. -/
theorem run_contents {chunks : List (Chunk Nat)} (plain : ∀ chunk ∈ chunks, chunk.finishReason = "")
    (last : Chunk Nat) :
    joined Event.text (stream.run freshId (chunks ++ [last])) = joined Chunk.text (chunks ++ [last]) ∧
      ∀ idx, joined (Event.argumentsAt (idx + 1)) (stream.run freshId (chunks ++ [last])) =
        joined (Chunk.argumentsOf idx) (chunks ++ [last]) := by
  have opened {f : Event → String} {g : Chunk Nat → String} (same : ∀ stream chunk,
      joined f (OpenaiToAnthropic.opened freshId stream chunk).2 = g chunk) (chunks : List (Chunk Nat)) :
      joined f (stream.openedAll freshId chunks).2 = joined g chunks := by
    induction chunks generalizing stream with
    | nil => rfl
    | cons chunk chunks ih => simp [OpenaiToAnthropic.openedAll, same, ih]
  rw [run_opened plain]
  constructor
  · rw [joined_append, opened fun stream chunk => opened_text chunk]
    rw [finish_silent (fun _ => rfl) (fun _ => rfl) rfl, String.append_empty]
  · intro idx
    rw [joined_append, opened fun stream chunk => opened_arguments idx chunk]
    rw [finish_silent (fun _ => rfl) (fun _ => rfl) rfl, String.append_empty]

end Kept

section Orders
variable {freshId : Nat → String} {stream : OpenaiToAnthropic} {chunk : Chunk Nat} {events : List Event}

def Event.Inner : Event → Prop
  | .contentBlockStart .. => True
  | .contentBlockDelta .. => True
  | _ => False

/-- Behind the start of the message there are starts and deltas alone, a start for each tool call. -/
structure Opening (stream : OpenaiToAnthropic) (events : List Event) : Prop where
  shape : stream.started = false ∧ events = [] ∨
    stream.started = true ∧ ∃ id model body, events = .messageStart id model :: body ∧
      ∀ event ∈ body, event.Inner
  starts : ∀ block ∈ stream.toolCallBlocks, ∃ content, .contentBlockStart (block.idx + 1) content ∈ events

theorem Opening.inner {next : OpenaiToAnthropic} {more : List Event}
    (opening : Opening stream events) (started : stream.started = true)
    (still : next.started = true) (inner : ∀ event ∈ more, event.Inner)
    (starts : ∀ block ∈ next.toolCallBlocks, block ∈ stream.toolCallBlocks ∨
      ∃ content, .contentBlockStart (block.idx + 1) content ∈ more) :
    Opening next (events ++ more) := by
  rcases opening.shape with ⟨not_started, _⟩ | ⟨_, id, model, body, same, all⟩
  · simp [started] at not_started
  refine ⟨.inr ⟨still, id, model, body ++ more, by rw [same, List.cons_append], ?_⟩, ?_⟩
  · intro event member
    rcases List.mem_append.mp member with old | new
    · exact all event old
    · exact inner event new
  · intro block member
    rcases starts block member with old | ⟨content, new⟩
    · obtain ⟨content, there⟩ := opening.starts block old
      exact ⟨content, List.mem_append_left _ there⟩
    · exact ⟨content, List.mem_append_right _ new⟩

theorem start_started (model : String) : (stream.start model).1.started = true := by
  unfold OpenaiToAnthropic.start
  split
  next started => exact started
  next => rfl

theorem Opening.start (opening : Opening stream events) (model : String) :
    Opening (stream.start model).1 (events ++ (stream.start model).2) := by
  by_cases started : stream.started = true
  · simpa [OpenaiToAnthropic.start, started] using opening
  · rcases opening.shape with ⟨_, none_there⟩ | ⟨already, _⟩
    · simp only [OpenaiToAnthropic.start, if_neg started, none_there, List.nil_append]
      refine ⟨.inr ⟨rfl, _, _, [], rfl, by simp⟩, ?_⟩
      intro block member
      obtain ⟨content, there⟩ := opening.starts block member
      rw [none_there] at there
      cases there
    · exact absurd already started

theorem Opening.text (opening : Opening stream events) (started : stream.started = true)
    (content : Option String) :
    Opening (stream.text content).1 (events ++ (stream.text content).2) ∧
      (stream.text content).1.started = true := by
  unfold OpenaiToAnthropic.text
  dsimp only
  split
  · exact ⟨by simpa using opening, started⟩
  · split
    · exact ⟨opening.inner started started (by simp [Event.Inner]) fun block member => .inl member, started⟩
    · exact ⟨opening.inner started started (by simp [Event.Inner]) fun block member => .inl member, started⟩

variable (freshId) in
theorem Opening.toolCall (opening : Opening stream events) (started : stream.started = true)
    (call : ToolCallDelta Nat) :
    Opening (stream.toolCall freshId call).1 (events ++ (stream.toolCall freshId call).2) ∧
      (stream.toolCall freshId call).1.started = true ∧
      ∃ content, .contentBlockStart (call.index.getD 0 + 1) content ∈ events ++
          (stream.toolCall freshId call).2 := by
  have inner : ∀ event ∈ (if call.arguments.getD "" = "" then [] else
      [Event.contentBlockDelta (call.index.getD 0 + 1) (.inputJson (call.arguments.getD ""))]), event.Inner := by
    split <;> simp [Event.Inner]
  by_cases known : stream.toolCallBlocks.any (·.idx = call.index.getD 0) = true
  · simp only [OpenaiToAnthropic.toolCall, if_pos known]
    refine ⟨opening.inner started started inner fun block member => .inl member, started, ?_⟩
    obtain ⟨block, member, same⟩ := List.any_eq_true.mp known
    obtain ⟨content, there⟩ := opening.starts block member
    rw [of_decide_eq_true same] at there
    exact ⟨content, List.mem_append_left _ there⟩
  · simp only [OpenaiToAnthropic.toolCall, if_neg known]
    refine ⟨opening.inner started started ?_ ?_, started, _, List.mem_append_right _ List.mem_cons_self⟩
    · intro event member
      rcases List.mem_cons.mp member with rfl | delta
      · trivial
      · exact inner event delta
    · intro block member
      rcases List.mem_append.mp member with old | new
      · exact .inl old
      · rw [List.mem_singleton.mp new]
        exact .inr ⟨_, List.mem_cons_self⟩

variable (freshId) in
theorem Opening.toolCalls (opening : Opening stream events) (started : stream.started = true)
    (calls : List (ToolCallDelta Nat)) :
    Opening (stream.toolCalls freshId calls).1 (events ++ (stream.toolCalls freshId calls).2) ∧
      ∀ call ∈ calls, ∃ content, .contentBlockStart (call.index.getD 0 + 1) content ∈ events ++
          (stream.toolCalls freshId calls).2 := by
  induction calls generalizing stream events with
  | nil => exact ⟨by simpa [OpenaiToAnthropic.toolCalls] using opening, by simp⟩
  | cons call calls ih =>
    obtain ⟨next, still, content, there⟩ := opening.toolCall freshId started call
    obtain ⟨last, others⟩ := ih next still
    simp only [OpenaiToAnthropic.toolCalls]
    rw [← List.append_assoc]
    refine ⟨last, ?_⟩
    intro other member
    rcases List.mem_cons.mp member with rfl | behind
    · exact ⟨content, List.mem_append_left _ there⟩
    · exact others other behind

variable (freshId) in
theorem Opening.opened (opening : Opening stream events) (chunk : Chunk Nat) :
    Opening (stream.opened freshId chunk).1 (events ++ (stream.opened freshId chunk).2) ∧
      ∀ call ∈ chunk.delta.toolCalls, ∃ content, .contentBlockStart (call.index.getD 0 + 1) content ∈
        events ++ (stream.opened freshId chunk).2 := by
  unfold OpenaiToAnthropic.opened Chunk.delta
  cases chunk.choices with
  | nil => exact ⟨by simpa using opening, by simp⟩
  | cons choice others =>
    have first := opening.start chunk.model
    obtain ⟨second, started⟩ := first.text (start_started chunk.model) choice.delta.content
    have third := second.toolCalls freshId started choice.delta.toolCalls
    simpa only [List.append_assoc] using third

variable (freshId) in
theorem Opening.openedAll (opening : Opening stream events) (chunks : List (Chunk Nat)) :
    Opening (stream.openedAll freshId chunks).1 (events ++ (stream.openedAll freshId chunks).2) ∧
      ∀ chunk ∈ chunks, ∀ call ∈ chunk.delta.toolCalls, ∃ content,
        .contentBlockStart (call.index.getD 0 + 1) content ∈
        events ++ (stream.openedAll freshId chunks).2 := by
  induction chunks generalizing stream events with
  | nil => exact ⟨by simpa [OpenaiToAnthropic.openedAll] using opening, by simp⟩
  | cons chunk chunks ih =>
    obtain ⟨next, starts⟩ := opening.opened freshId chunk
    obtain ⟨last, others⟩ := ih next
    simp only [OpenaiToAnthropic.openedAll]
    rw [← List.append_assoc]
    refine ⟨last, ?_⟩
    intro other member call asked
    rcases List.mem_cons.mp member with rfl | behind
    · obtain ⟨content, there⟩ := starts call asked
      exact ⟨content, List.mem_append_left _ there⟩
    · exact others other behind call asked

theorem starts_first {body stops : List Event} {runs : List BlockRun} (inner : ∀ event ∈ body, event.Inner)
    (same : body ++ stops = blockEvents 0 runs) {index : Nat} {content : ContentBlock}
    (member : .contentBlockStart index content ∈ body) :
    index = 0 := by
  cases runs with
  | nil =>
    rw [(List.append_eq_nil_iff.mp same).1] at member
    cases member
  | cons run runs =>
    have first : ∀ event ∈ body, event ∈ Event.contentBlockStart 0 run.block :: run.deltas.map (.contentBlockDelta 0) := by
      rw [blockEvents, BlockRun.events, List.append_assoc] at same
      rcases List.append_eq_append_iff.mp same with ⟨more, whole, _⟩ | ⟨more, whole, rest⟩
      · intro event there
        rw [whole]
        exact List.mem_append_left _ there
      · cases more with
        | nil =>
          intro event there
          rwa [whole, List.append_nil] at there
        | cons event more =>
          have stop : event = .contentBlockStop 0 := (List.cons.inj rest).1.symm
          have impossible := inner event (by rw [whole]; exact List.mem_append_right _ List.mem_cons_self)
          rw [stop] at impossible
          exact impossible.elim
    have there := first _ member
    simp only [List.mem_cons, Event.contentBlockStart.injEq, List.mem_map, reduceCtorEq, and_false,
      exists_false, or_false] at there
    exact there.1

structure TextOnly (stream : OpenaiToAnthropic) (events : List Event) : Prop where
  blocks : stream.toolCallBlocks = []
  shape : stream.started = false ∧ stream.textBlockOpen = false ∧ events = [] ∨
    stream.started = true ∧ (∃ id model, stream.textBlockOpen = false ∧ events = [.messageStart id model]) ∨
    stream.started = true ∧ ∃ id model, ∃ texts : List String, stream.textBlockOpen = true ∧
      events = .messageStart id model :: .contentBlockStart 0 .text :: texts.map fun text =>
        .contentBlockDelta 0 (.text text)

theorem TextOnly.start (only : TextOnly stream events) (model : String) :
    TextOnly (stream.start model).1 (events ++ (stream.start model).2) := by
  by_cases started : stream.started = true
  · simpa [OpenaiToAnthropic.start, started] using only
  · rcases only.shape with ⟨_, closed, none_there⟩ | ⟨already, _⟩ | ⟨already, _⟩
    · simp only [OpenaiToAnthropic.start, if_neg started, none_there, List.nil_append]
      exact ⟨only.blocks, .inr (.inl ⟨rfl, _, _, closed, rfl⟩)⟩
    · exact absurd already started
    · exact absurd already started

theorem TextOnly.text (only : TextOnly stream events) (started : stream.started = true)
    (content : Option String) :
    TextOnly (stream.text content).1 (events ++ (stream.text content).2) := by
  unfold OpenaiToAnthropic.text
  dsimp only
  rcases only.shape with ⟨not_started, _⟩ | ⟨_, id, model, closed, same⟩ | ⟨_, id, model, texts, shown, same⟩
  · simp [started] at not_started
  · split
    · simpa using only
    · rw [if_neg (by simp [closed])]
      exact ⟨only.blocks, .inr (.inr ⟨started, id, model, [content.getD ""], rfl, by rw [same]; rfl⟩)⟩
  · split
    · simpa using only
    · exact ⟨only.blocks,
        .inr (.inr ⟨started, id, model, texts ++ [content.getD ""], shown, by rw [same]; simp⟩)⟩

theorem TextOnly.opened (only : TextOnly stream events) (silent : chunk.delta.toolCalls = []) :
    TextOnly (stream.opened freshId chunk).1 (events ++ (stream.opened freshId chunk).2) := by
  unfold Chunk.delta at silent
  unfold OpenaiToAnthropic.opened
  cases held : chunk.choices with
  | nil => simpa using only
  | cons choice others =>
    rw [held] at silent
    have calls : choice.delta.toolCalls = [] := silent
    have next := (only.start chunk.model).text (start_started chunk.model) choice.delta.content
    simpa only [calls, OpenaiToAnthropic.toolCalls, List.append_nil, List.append_assoc] using next

/-- The texts of one block, and the end of the message. -/
theorem TextOnly.lifecycle (only : TextOnly stream events) (started : stream.started = true)
    {reason : String} (given : reason ≠ "") :
    Lifecycle (events ++ stream.finish (some reason)) := by
  unfold OpenaiToAnthropic.finish
  rw [if_neg (by simpa using given), only.blocks]
  rcases only.shape with ⟨not_started, _⟩ | ⟨_, id, model, closed, same⟩ | ⟨_, id, model, texts, shown, same⟩
  · simp [started] at not_started
  · refine ⟨id, model, [], some (stopReasonOf reason), by simp, ?_⟩
    rw [same, closed]
    rfl
  · refine ⟨id, model, [⟨.text, texts.map .text⟩], some (stopReasonOf reason), ?_, ?_⟩
    · intro run member delta inside
      rw [List.mem_singleton.mp member] at inside ⊢
      obtain ⟨text, _, rfl⟩ := List.mem_map.mp inside
      trivial
    · rw [same, shown]
      simp [messageEvents, blockEvents, BlockRun.events]

end Orders

section Streams
variable (freshId : Nat → String) (id : String) (chunks : List (Chunk Nat)) (last : Chunk Nat)

variable {freshId chunks last}

theorem text_started (stream : OpenaiToAnthropic) (content : Option String) :
    (stream.text content).1.started = stream.started := by
  unfold OpenaiToAnthropic.text
  dsimp only
  split
  · rfl
  · split <;> rfl

theorem toolCalls_started (stream : OpenaiToAnthropic) (calls : List (ToolCallDelta Nat)) :
    (stream.toolCalls freshId calls).1.started = stream.started := by
  induction calls generalizing stream with
  | nil => rfl
  | cons call calls ih =>
    have here : (stream.toolCall freshId call).1.started = stream.started := by
      unfold OpenaiToAnthropic.toolCall
      dsimp only
      split <;> rfl
    exact (ih _).trans here

theorem opened_started {stream : OpenaiToAnthropic} (given : last.finishReason ≠ "") :
    (stream.opened freshId last).1.started = true := by
  unfold Chunk.finishReason at given
  unfold OpenaiToAnthropic.opened
  cases held : last.choices with
  | nil => simp [held] at given
  | cons choice others =>
    exact (toolCalls_started _ _).trans ((text_started _ _).trans (start_started last.model))

theorem openedAll_started (stream : OpenaiToAnthropic) (chunks : List (Chunk Nat))
    (given : last.finishReason ≠ "") :
    (stream.openedAll freshId (chunks ++ [last])).1.started = true := by
  induction chunks generalizing stream with
  | nil => exact opened_started given
  | cons chunk chunks ih => exact ih _

theorem opening_new : Opening (OpenaiToAnthropic.new id) [] :=
  ⟨.inl ⟨rfl, rfl⟩, by simp [OpenaiToAnthropic.new]⟩

theorem silent_of_lifecycle {events : List Event} {stream : OpenaiToAnthropic}
    (opening : Opening stream events) {reason : String}
    (given : reason ≠ "") (whole : Lifecycle (events ++ stream.finish (some reason))) {index : Nat}
    {content : ContentBlock}
    (member : .contentBlockStart index content ∈ events) : index = 0 := by
  obtain ⟨id, model, runs, last, _, same⟩ := whole
  rcases opening.shape with ⟨_, none_there⟩ | ⟨_, first, kind, body, shape, inner⟩
  · rw [none_there] at member
    cases member
  · rw [shape] at same member
    let stops := (if stream.textBlockOpen then [Event.contentBlockStop 0] else []) ++
      stream.toolCallBlocks.map fun block => Event.contentBlockStop block.blockIndex
    have ending : stream.finish (some reason) = stops ++
        [Event.messageDelta (some (stopReasonOf reason)), .messageStop] :=
      if_neg (by simpa using given)
    rcases List.mem_cons.mp member with impossible | member
    · cases impossible
    · have inside : (body ++ stops) ++ [Event.messageDelta (some (stopReasonOf reason)), .messageStop] =
          blockEvents 0 runs ++ [Event.messageDelta last, .messageStop] := by
        rw [ending] at same
        simpa [messageEvents] using (List.cons.inj same).2
      exact starts_first inner (List.append_inj' inside rfl).1 member

theorem not_lifecycle_of_call (plain : ∀ chunk ∈ chunks, chunk.finishReason = "")
    (finished : last.finishReason ≠ "") {chunk : Chunk Nat}
    (member : chunk ∈ chunks ++ [last]) {call : ToolCallDelta Nat} (asked : call ∈ chunk.delta.toolCalls) :
    ¬ Lifecycle ((OpenaiToAnthropic.new id).run freshId (chunks ++ [last])) := by
  intro whole
  obtain ⟨opening, starts⟩ := (opening_new id).openedAll freshId (chunks ++ [last])
  obtain ⟨content, there⟩ := starts chunk member call asked
  rw [run_opened plain] at whole
  exact absurd (silent_of_lifecycle opening finished whole there) (Nat.succ_ne_zero _)

/-- The events of a stream are those of one message, with its texts and arguments, exactly when no
chunk has a tool call. -/
theorem lifecycle_iff (freshId : Nat → String) (id : String) (chunks : List (Chunk Nat)) (last : Chunk Nat)
    (plain : ∀ chunk ∈ chunks, chunk.finishReason = "") (finished : last.finishReason ≠ "") :
    (Lifecycle ((OpenaiToAnthropic.new id).run freshId (chunks ++ [last])) ∧
      joined Event.text ((OpenaiToAnthropic.new id).run freshId (chunks ++ [last])) =
        joined Chunk.text (chunks ++ [last]) ∧
      ∀ idx, joined (Event.argumentsAt (idx + 1))
        ((OpenaiToAnthropic.new id).run freshId (chunks ++ [last])) =
        joined (Chunk.argumentsOf idx) (chunks ++ [last])) ↔
    ∀ chunk ∈ chunks ++ [last], chunk.delta.toolCalls = [] := by
  constructor
  · rintro ⟨whole, _⟩ chunk member
    cases calls : chunk.delta.toolCalls with
    | nil => rfl
    | cons call others =>
      exact absurd whole (not_lifecycle_of_call id plain finished member (by rw [calls]; exact List.mem_cons_self))
  · intro silent
    refine ⟨?_, run_contents plain last⟩
    have fresh : TextOnly (OpenaiToAnthropic.new id) [] := ⟨rfl, .inl ⟨rfl, rfl, rfl⟩⟩
    have only := openedAll_keeps freshId TextOnly
      (fun stream events chunk member only => only.opened (silent chunk member)) fresh
    rw [run_opened plain]
    exact only.lifecycle (openedAll_started _ chunks finished) finished

end Streams

section Weather

def weatherChunk (content : Option String) (calls : List (ToolCallDelta Nat))
    (finishReason : Option String) : Chunk Nat :=
  ⟨"chatcmpl-1", "gpt-4o", [⟨⟨none, content, calls⟩, finishReason⟩]⟩

def greeting : List (Chunk Nat) := [weatherChunk (some "It is ") [] none, weatherChunk (some "warm.") [] none]

theorem greeting_lifecycle :
    Lifecycle ((OpenaiToAnthropic.new "msg_1").run (fun _ => "toolu_1") (greeting ++
      [weatherChunk none [] (some "stop")])) :=
  ((lifecycle_iff (fun _ => "toolu_1") "msg_1" greeting (weatherChunk none [] (some "stop")) (by simp [greeting, weatherChunk,
    Chunk.finishReason]) (by simp [weatherChunk, Chunk.finishReason])).mpr
    (by simp [greeting, weatherChunk, Chunk.delta])).1

/-- The first block of a lone tool call has the index one. -/
theorem lone_call_misnumbered :
    ¬ Lifecycle ((OpenaiToAnthropic.new "msg_1").run (fun _ => "toolu_1")
      ([weatherChunk none [⟨some 0, some "call_1", some "weather", some "\x7b\x7d"⟩] none] ++ [weatherChunk none [] (some "tool_calls")])) := by
  apply not_lifecycle_of_call
  · simp [weatherChunk, Chunk.finishReason]
  · simp [weatherChunk, Chunk.finishReason]
  · exact List.mem_cons_self
  · exact List.mem_cons_self

end Weather
end TokenPak.Proxy.StreamTranslator
