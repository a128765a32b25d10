import Mathlib.Data.List.Basic

/-! The translation of streams between the formats of two providers, event by event. Of events and
chunks only the fields stay that are read or written; a field may be missing where a default stands
for it. -/

namespace TokenPak.Proxy.StreamTranslator

inductive ContentBlock where
  | text
  | thinking
  | toolUse (id name : Option String)
  | other (type : String)
  deriving DecidableEq

inductive BlockDelta where
  | text (text : String)
  | inputJson (partialJson : String)
  | other (type : String)
  deriving DecidableEq

inductive Event where
  | messageStart (id model : String)
  | contentBlockStart (index : Nat) (contentBlock : ContentBlock)
  | contentBlockDelta (index : Nat) (delta : BlockDelta)
  | contentBlockStop (index : Nat)
  | messageDelta (stopReason : Option String)
  | messageStop
  | ping
  deriving DecidableEq

structure ToolCallDelta (Index : Type) where
  index : Option Index
  id : Option String
  name : Option String
  arguments : Option String
  deriving DecidableEq

structure ChoiceDelta (Index : Type) where
  role : Option String
  content : Option String
  toolCalls : List (ToolCallDelta Index)
  deriving DecidableEq

structure Choice (Index : Type) where
  delta : ChoiceDelta Index
  finishReason : Option String
  deriving DecidableEq

structure Chunk (Index : Type) where
  id : String
  model : String
  choices : List (Choice Index)
  deriving DecidableEq

section AnthropicToOpenai

/-- `_AnthropicToOpenAIStream`; the index of the latest tool call is negative before the first one. -/
structure AnthropicToOpenai where
  id : String
  model : String
  toolCallIndex : Int
  deriving DecidableEq

def AnthropicToOpenai.new (id : String) : AnthropicToOpenai := ⟨id, "", -1⟩

def AnthropicToOpenai.chunk (stream : AnthropicToOpenai) (delta : ChoiceDelta Int)
    (finishReason : Option String) : Chunk Int :=
  ⟨stream.id, stream.model, [⟨delta, finishReason⟩]⟩

def finishReasonOf : Option String → String
  | some "end_turn" => "stop"
  | some "tool_use" => "tool_calls"
  | some "max_tokens" => "length"
  | some "stop_sequence" => "stop"
  | _ => "stop"

/-- `translate` of one event: a chunk or nothing. -/
def AnthropicToOpenai.translate (stream : AnthropicToOpenai) : Event → AnthropicToOpenai × Option (Chunk Int)
  | .messageStart _ model =>
    let stream := { stream with model := model }
    (stream, some (stream.chunk ⟨some "assistant", some "", []⟩ none))
  | .contentBlockStart _ (.toolUse id name) =>
    let stream := { stream with toolCallIndex := stream.toolCallIndex + 1 }
    let call : ToolCallDelta Int :=
      ⟨some stream.toolCallIndex, some (id.getD ("call_" ++ toString stream.toolCallIndex)),
        some (name.getD ""), some ""⟩
    (stream, some (stream.chunk ⟨none, none, [call]⟩ none))
  | .contentBlockStart _ _ => (stream, none)
  | .contentBlockDelta _ (.text text) => (stream, some (stream.chunk ⟨none, some text, []⟩ none))
  | .contentBlockDelta _ (.inputJson partialJson) =>
    (stream, some (stream.chunk ⟨none, none, [⟨some stream.toolCallIndex, none, none, some partialJson⟩]⟩ none))
  | .contentBlockDelta _ (.other _) => (stream, none)
  | .contentBlockStop _ => (stream, none)
  | .messageDelta stopReason =>
      (stream, some (stream.chunk ⟨none, none, []⟩ (some (finishReasonOf stopReason))))
  | .messageStop => (stream, none)
  | .ping => (stream, none)

def AnthropicToOpenai.run (stream : AnthropicToOpenai) : List Event → List (Chunk Int)
  | [] => []
  | event :: events =>
    let (next, chunk) := stream.translate event
    chunk.toList ++ next.run events

end AnthropicToOpenai

section OpenaiToAnthropic

structure ToolCallBlock where
  idx : Nat
  id : String
  name : String
  blockIndex : Nat
  deriving DecidableEq

/-- `_OpenAIToAnthropicStream`, with the ids that it draws for calls without one. -/
structure OpenaiToAnthropic where
  id : String
  model : String
  started : Bool
  textBlockOpen : Bool
  toolCallBlocks : List ToolCallBlock
  deriving DecidableEq

def OpenaiToAnthropic.new (id : String) : OpenaiToAnthropic := ⟨id, "", false, false, []⟩

def stopReasonOf : String → String
  | "stop" => "end_turn"
  | "tool_calls" => "tool_use"
  | "length" => "max_tokens"
  | _ => "end_turn"

def OpenaiToAnthropic.start (stream : OpenaiToAnthropic) (model : String) : OpenaiToAnthropic × List Event :=
  if stream.started then (stream, [])
  else ({ stream with model := model, started := true }, [.messageStart stream.id model])

def OpenaiToAnthropic.text (stream : OpenaiToAnthropic) (content : Option String) :
    OpenaiToAnthropic × List Event :=
  let text := content.getD ""
  if text = "" then (stream, [])
  else if stream.textBlockOpen then (stream, [.contentBlockDelta 0 (.text text)])
  else ({ stream with textBlockOpen := true },
    [.contentBlockStart 0 .text, .contentBlockDelta 0 (.text text)])

variable (freshId : Nat → String)

def OpenaiToAnthropic.toolCall (stream : OpenaiToAnthropic) (call : ToolCallDelta Nat) :
    OpenaiToAnthropic × List Event :=
  let idx := call.index.getD 0
  let fragment := call.arguments.getD ""
  let deltas := if fragment = "" then [] else [Event.contentBlockDelta (idx + 1) (.inputJson fragment)]
  if stream.toolCallBlocks.any (·.idx = idx) then (stream, deltas)
  else
    let id := call.id.getD (freshId idx)
    let name := call.name.getD ""
    ({ stream with toolCallBlocks := stream.toolCallBlocks ++ [⟨idx, id, name, idx + 1⟩] },
      .contentBlockStart (idx + 1) (.toolUse (some id) (some name)) :: deltas)

def OpenaiToAnthropic.toolCalls (stream : OpenaiToAnthropic) :
    List (ToolCallDelta Nat) → OpenaiToAnthropic × List Event
  | [] => (stream, [])
  | call :: calls =>
    let (next, events) := stream.toolCall freshId call
    let (last, rest) := next.toolCalls calls
    (last, events ++ rest)

/-- The stops of the blocks, the text block first, and the end of the message. -/
def OpenaiToAnthropic.finish (stream : OpenaiToAnthropic) (finishReason : Option String) : List Event :=
  let reason := finishReason.getD ""
  if reason = "" then []
  else (if stream.textBlockOpen then [Event.contentBlockStop 0] else [])
    ++ stream.toolCallBlocks.map (fun block => Event.contentBlockStop block.blockIndex)
    ++ [Event.messageDelta (some (stopReasonOf reason)), .messageStop]

/-- `translate` of one chunk; only its first choice counts. -/
def OpenaiToAnthropic.translate (stream : OpenaiToAnthropic) (chunk : Chunk Nat) :
    OpenaiToAnthropic × List Event :=
  match chunk.choices with
  | [] => (stream, [])
  | choice :: _ =>
    let (stream, started) := stream.start chunk.model
    let (stream, texts) := stream.text choice.delta.content
    let (stream, calls) := stream.toolCalls freshId choice.delta.toolCalls
    (stream, started ++ texts ++ calls ++ stream.finish choice.finishReason)

def OpenaiToAnthropic.run (stream : OpenaiToAnthropic) : List (Chunk Nat) → List Event
  | [] => []
  | chunk :: chunks =>
    let (next, events) := stream.translate freshId chunk
    events ++ next.run chunks

end OpenaiToAnthropic
end TokenPak.Proxy.StreamTranslator
