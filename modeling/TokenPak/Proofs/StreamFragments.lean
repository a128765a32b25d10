import TokenPak.Proofs.StreamLifecycle

/-! Which tool call the argument fragments of a stream end up under. The translation knows the
latest tool call alone, so that fragments of other blocks behind it are added to its arguments. -/

namespace TokenPak.Proxy.StreamTranslator

section Blocks

def BlockDelta.fragment : BlockDelta → String
  | .inputJson fragment => fragment
  | _ => ""

def BlockRun.isToolUse (run : BlockRun) : Bool :=
  match run.block with
  | .toolUse .. => true
  | _ => false

def BlockRun.fragments (run : BlockRun) : String := joined BlockDelta.fragment run.deltas

def Chunk.argumentsUnder (index : Int) (chunk : Chunk Int) : String :=
  joined (fun call => if call.index = some index then call.arguments.getD "" else "") chunk.delta.toolCalls

/-- The events are those of a message with these blocks, with pings anywhere. -/
def StreamOf (runs : List BlockRun) (events : List Event) : Prop :=
  ∃ id model reasons, reasons ≠ [] ∧ events.filter (· ≠ .ping) = messageEvents id model runs reasons

end Blocks

section Runs
variable {stream : AnthropicToOpenai} {events : List Event} {f : Chunk Int → String}

def AnthropicToOpenai.after (stream : AnthropicToOpenai) (events : List Event) : AnthropicToOpenai :=
  events.foldl (fun stream event => (stream.translate event).1) stream

theorem run_append (first second : List Event) :
    stream.run (first ++ second) = stream.run first ++ (stream.after first).run second := by
  induction first generalizing stream with
  | nil => rfl
  | cons event first ih => simp [AnthropicToOpenai.run, AnthropicToOpenai.after, ih]

theorem run_pings : stream.run (events.filter (· ≠ .ping)) = stream.run events := by
  induction events generalizing stream with
  | nil => rfl
  | cons event events ih =>
    by_cases ping : event = .ping
    · subst ping
      rw [List.filter_cons_of_neg (by simp), ih]
      rfl
    · rw [List.filter_cons_of_pos (by simpa using ping)]
      simp only [AnthropicToOpenai.run, ih]

theorem translate_text (event : Event) :
    joined Chunk.text (stream.translate event).2.toList = event.text := by
  cases event with
  | contentBlockStart index block => cases block <;> rfl
  | contentBlockDelta index delta =>
    cases delta with
    | text text => exact String.append_empty
    | inputJson fragment => rfl
    | other type => rfl
  | messageStart => rfl
  | contentBlockStop => rfl
  | messageDelta => rfl
  | messageStop => rfl
  | ping => rfl

theorem run_text : joined Chunk.text (stream.run events) = joined Event.text events := by
  induction events generalizing stream with
  | nil => rfl
  | cons event events ih => simp [AnthropicToOpenai.run, translate_text, ih]

end Runs

section Fragments
variable {stream : AnthropicToOpenai} {index : Int}

/-- The index of the tool call that is the latest one in a block. -/
def BlockRun.current (run : BlockRun) (index : Int) : Int := if run.isToolUse then index + 1 else index

theorem start_current (run : BlockRun) (at_index : Nat) :
    (stream.translate (.contentBlockStart at_index run.block)).1.toolCallIndex =
      run.current stream.toolCallIndex := by
  cases block : run.block <;> simp [AnthropicToOpenai.translate, BlockRun.current, BlockRun.isToolUse, block]

theorem start_arguments_under (run : BlockRun) (at_index : Nat) :
    joined (Chunk.argumentsUnder index)
    (stream.translate (.contentBlockStart at_index run.block)).2.toList = "" := by
  cases run.block <;> simp [AnthropicToOpenai.translate, AnthropicToOpenai.chunk,
    Chunk.argumentsUnder, Chunk.delta]

variable (stream index) in
theorem deltas_translated (deltas : List BlockDelta) (at_index : Nat) :
    (stream.after (deltas.map (.contentBlockDelta at_index))).toolCallIndex = stream.toolCallIndex ∧
      joined (Chunk.argumentsUnder index) (stream.run (deltas.map (.contentBlockDelta at_index))) =
        if stream.toolCallIndex = index then joined BlockDelta.fragment deltas else "" := by
  induction deltas with
  | nil => simp [AnthropicToOpenai.after, AnthropicToOpenai.run]
  | cons delta deltas ih =>
    obtain ⟨same, arguments⟩ := ih
    have stays : (stream.translate (.contentBlockDelta at_index delta)).1 = stream := by cases delta <;> rfl
    have own : joined (Chunk.argumentsUnder index)
      (stream.translate (.contentBlockDelta at_index delta)).2.toList =
        if stream.toolCallIndex = index then delta.fragment else "" := by
      cases delta <;> simp [AnthropicToOpenai.translate, AnthropicToOpenai.chunk,
        Chunk.argumentsUnder, Chunk.delta, BlockDelta.fragment]
    refine ⟨?_, ?_⟩
    · simpa only [AnthropicToOpenai.after, List.map_cons, List.foldl_cons, stays] using same
    · rw [List.map_cons, AnthropicToOpenai.run, joined_append, own]
      simp only [stays, arguments, joined_cons]
      split <;> simp

variable (stream index) in
theorem block_translated (run : BlockRun) (at_index : Nat) :
    (stream.after (run.events at_index)).toolCallIndex = run.current stream.toolCallIndex ∧
      joined (Chunk.argumentsUnder index) (stream.run (run.events at_index)) =
        if run.current stream.toolCallIndex = index then run.fragments else "" := by
  obtain ⟨same, arguments⟩ :=
    deltas_translated (stream.translate (.contentBlockStart at_index run.block)).1 index
    run.deltas at_index
  rw [start_current] at same arguments
  rw [BlockRun.events]
  constructor
  · simpa [AnthropicToOpenai.after, AnthropicToOpenai.translate] using same
  · rw [List.cons_append, AnthropicToOpenai.run]
    simp only [run_append, joined_append, start_arguments_under, arguments]
    simp [AnthropicToOpenai.run, AnthropicToOpenai.translate, BlockRun.fragments]

def emittedUnder (index : Int) : Int → List BlockRun → String
  | _, [] => ""
  | latest, run :: runs =>
    (if run.current latest = index then run.fragments else "") ++ emittedUnder index (run.current latest) runs

theorem blocks_translated (runs : List BlockRun) (at_index : Nat) :
    joined (Chunk.argumentsUnder index)
    (stream.run (blockEvents at_index runs)) = emittedUnder index stream.toolCallIndex runs := by
  induction runs generalizing stream at_index with
  | nil => rfl
  | cons run runs ih =>
    obtain ⟨same, arguments⟩ := block_translated stream index run at_index
    rw [blockEvents, run_append, joined_append, arguments, ih, same, emittedUnder]

theorem emittedUnder_of_lt {latest : Int} (behind : index < latest) (runs : List BlockRun) :
    emittedUnder index latest runs = "" := by
  induction runs generalizing latest with
  | nil => rfl
  | cons run runs ih =>
    have still : index < run.current latest := by
      unfold BlockRun.current
      split <;> omega
    rw [emittedUnder, if_neg (by omega), ih still]
    rfl

/-- Under the latest tool call the blocks up to the next one are emitted. -/
theorem emittedUnder_latest (runs : List BlockRun) :
    emittedUnder index index runs = joined BlockRun.fragments (runs.takeWhile fun run => !run.isToolUse) := by
  induction runs with
  | nil => rfl
  | cons run runs ih =>
    cases tool : run.isToolUse with
    | true =>
      rw [List.takeWhile_cons_of_neg (by simp [tool]), emittedUnder]
      simp only [BlockRun.current, tool, if_true]
      rw [if_neg (by omega), emittedUnder_of_lt (by omega)]
      rfl
    | false =>
      rw [List.takeWhile_cons_of_pos (by simp [tool]), emittedUnder]
      simp [BlockRun.current, tool, ih]

/-- Under the index of a tool call its own fragments are emitted, and those of the blocks up to the
next one. -/
theorem emittedUnder_split (before after : List BlockRun) {run : BlockRun}
    (tool : run.isToolUse = true) (latest : Int) :
    emittedUnder (latest + 1 + (before.filter BlockRun.isToolUse).length) latest (before ++ run :: after) =
      run.fragments ++ joined BlockRun.fragments (after.takeWhile fun run => !run.isToolUse) := by
  induction before generalizing latest with
  | nil =>
    simp only [List.nil_append, List.filter_nil, List.length_nil, emittedUnder, BlockRun.current,
      tool, if_true]
    rw [if_pos (by omega)]
    have same : latest + 1 + ((0 : Nat) : Int) = latest + 1 := by omega
    rw [same, emittedUnder_latest]
  | cons first before ih =>
    cases kind : first.isToolUse with
    | true =>
      rw [List.filter_cons_of_pos kind, List.length_cons, List.cons_append, emittedUnder]
      simp only [BlockRun.current, kind, if_true]
      rw [if_neg (by omega)]
      have same : latest + 1 + (((before.filter BlockRun.isToolUse).length + 1 : Nat) : Int) =
          latest + 1 + 1 + (before.filter BlockRun.isToolUse).length := by omega
      rw [same, ih (latest + 1)]
      exact String.empty_append
    | false =>
      rw [List.filter_cons_of_neg (by simp [kind]), List.cons_append, emittedUnder]
      simp only [BlockRun.current, kind, Bool.false_eq_true, if_false]
      rw [if_neg (by omega), ih latest]
      exact String.empty_append

end Fragments

section Messages
variable {runs : List BlockRun} {events : List Event}

theorem joined_eq_empty {Element : Type} {f : Element → String} {elements : List Element} :
    joined f elements = "" ↔ ∀ element ∈ elements, f element = "" := by
  induction elements with
  | nil => simp
  | cons element elements ih => simp [String.append_eq_empty_iff, ih]

theorem reasons_silent {stream : AnthropicToOpenai} {index : Int} (reasons : List (Option String)) :
    joined (Chunk.argumentsUnder index) (stream.run (reasons.map .messageDelta ++ [Event.messageStop])) = "" := by
  induction reasons generalizing stream with
  | nil => rfl
  | cons reason reasons ih =>
    rw [List.map_cons, List.cons_append, AnthropicToOpenai.run, joined_append, ih]
    rfl

theorem message_arguments (id : String) (stream : StreamOf runs events) (index : Int) :
    joined (Chunk.argumentsUnder index)
    ((AnthropicToOpenai.new id).run events) = emittedUnder index (-1) runs := by
  obtain ⟨message, model, reasons, _, same⟩ := stream
  rw [← run_pings, same, messageEvents, List.cons_append, List.cons_append, List.append_assoc,
    AnthropicToOpenai.run, joined_append,
    run_append, joined_append, blocks_translated, reasons_silent, String.append_empty]
  exact String.empty_append

theorem filter_split {p : BlockRun → Bool} {k : Nat} {run : BlockRun}
    (found : (runs.filter p)[k]? = some run) :
    ∃ before after, runs = before ++ run :: after ∧ (before.filter p).length = k ∧ p run = true := by
  induction runs generalizing k with
  | nil => simp at found
  | cons first runs ih =>
    cases kept : p first with
    | true =>
      rw [List.filter_cons_of_pos kept] at found
      cases k with
      | zero =>
        cases found
        exact ⟨[], runs, rfl, rfl, kept⟩
      | succ k =>
        obtain ⟨before, after, rfl, count, tool⟩ := ih found
        exact ⟨first :: before, after, rfl, by rw [List.filter_cons_of_pos kept, List.length_cons, count], tool⟩
    | false =>
      rw [List.filter_cons_of_neg (by simp [kept])] at found
      obtain ⟨before, after, rfl, count, tool⟩ := ih found
      exact ⟨first :: before, after, rfl, by rw [List.filter_cons_of_neg (by simp [kept]), count], tool⟩

/-- Texts are kept, and each tool call has its own fragments exactly when no block between it and
the next one has any. -/
theorem fragments_iff (id : String) (runs : List BlockRun) (events : List Event)
    (stream : StreamOf runs events) :
    (joined Chunk.text ((AnthropicToOpenai.new id).run events) = joined Event.text events ∧
      ∀ (k : Nat) run, (runs.filter BlockRun.isToolUse)[k]? = some run →
        joined (Chunk.argumentsUnder k) ((AnthropicToOpenai.new id).run events) = run.fragments) ↔
    ∀ before run after, runs = before ++ run :: after → run.isToolUse = true →
      ∀ stray ∈ after.takeWhile (fun run => !run.isToolUse), stray.fragments = "" := by
  have emitted (before : List BlockRun) (run : BlockRun) (after : List BlockRun)
    (whole : runs = before ++ run :: after)
      (tool : run.isToolUse = true) :
      joined (Chunk.argumentsUnder (before.filter BlockRun.isToolUse).length)
        ((AnthropicToOpenai.new id).run events) =
        run.fragments ++ joined BlockRun.fragments (after.takeWhile fun run => !run.isToolUse) := by
    have split := emittedUnder_split before after tool (-1)
    have same : (-1 : Int) + 1 + (before.filter BlockRun.isToolUse).length =
        (before.filter BlockRun.isToolUse).length := by
      omega
    rw [same] at split
    rw [message_arguments id stream, whole, split]
  constructor
  · rintro ⟨_, own⟩ before run after whole tool
    have found : (runs.filter BlockRun.isToolUse)[(before.filter BlockRun.isToolUse).length]? = some run := by
      rw [whole, List.filter_append, List.filter_cons_of_pos tool]
      simp
    have kept := own _ run found
    rw [emitted before run after whole tool] at kept
    exact joined_eq_empty.mp (String.append_eq_left_iff.mp kept)
  · intro clean
    refine ⟨run_text, ?_⟩
    intro k run found
    obtain ⟨before, after, whole, count, tool⟩ := filter_split found
    have strays := joined_eq_empty.mpr (clean before run after whole tool)
    rw [← count, emitted before run after whole tool, strays, String.append_empty]

end Messages

section Searches

def weatherCall : BlockRun := ⟨.toolUse (some "toolu_1") (some "weather"), [.inputJson "\x7b\x7d"]⟩

def serverSearch : BlockRun := ⟨.other "server_tool_use", [.inputJson "\x7b\x7d"]⟩

def searched (runs : List BlockRun) : List Event := messageEvents "msg_1" "claude" runs [some "tool_use"]

theorem searched_stream : StreamOf [serverSearch, weatherCall] (searched [serverSearch, weatherCall]) :=
  ⟨"msg_1", "claude", [some "tool_use"], by simp, by decide⟩

theorem early_search_kept :
    joined (Chunk.argumentsUnder (0 : Nat))
    ((AnthropicToOpenai.new "chatcmpl-1").run (searched [serverSearch, weatherCall])) =
      weatherCall.fragments := by
  have clean : ∀ before run after, [serverSearch, weatherCall] = before ++ run :: after →
    run.isToolUse = true →
      ∀ stray ∈ after.takeWhile (fun run => !run.isToolUse), stray.fragments = "" := by
    intro before run after whole tool
    rcases before with _ | ⟨first, _ | ⟨second, before⟩⟩
    · cases whole
      cases tool
    · cases whole
      simp
    · have lengths := congrArg List.length whole
      simp at lengths
  exact ((fragments_iff "chatcmpl-1" [serverSearch, weatherCall] _ searched_stream).mpr clean).2 0 weatherCall rfl

/-- The arguments of a search behind a call are added to those of the call. -/
theorem late_search_merged : StreamOf [weatherCall, serverSearch] (searched [weatherCall, serverSearch]) ∧
    joined (Chunk.argumentsUnder (0 : Nat))
    ((AnthropicToOpenai.new "chatcmpl-1").run (searched [weatherCall, serverSearch])) ≠
      weatherCall.fragments :=
  ⟨⟨"msg_1", "claude", [some "tool_use"], by simp, by decide⟩, by decide⟩

end Searches
end TokenPak.Proxy.StreamTranslator
