import TokenPak.Library.JsonText

/-! The translation of request bodies between the formats of the providers. A result of none is a
raised exception. The interpreter limits the digits of integers and the nesting of values: beyond
its limits, reading the arguments of a call or printing them raises. -/

namespace TokenPak.Proxy.Translator
open Library

/-- Numbers, and what `json.loads` makes of a text with a lone surrogate escape: a value that keeps
the surrogate in some way, or none for a `JSONDecodeError`. -/
class Decoder (N : Type) extends Numerals N where
  unpaired : List Char → Option (Json N)
  proper : ∀ text, ∀ value ∈ unpaired text, value.Proper

section Values
variable {N : Type}

abbrev Object (N : Type) := List (String × Json N)

def isWord (word : String) : Json N → Bool
  | .string text => text = word
  | _ => false

def isKind (kind : String) : Json N → Bool
  | .object entries => (entries.lookup "type").any (isWord kind)
  | _ => false

/-- `value.get(key, default)` -/
def get (value : Json N) (key : String) (default : Json N) : Option (Json N) :=
  match value with
  | .object entries => some ((entries.lookup key).getD default)
  | _ => none

/-- `key in value` -/
def contains (value : Json N) (key : String) : Option Bool :=
  match value with
  | .object entries => some (entries.lookup key).isSome
  | .array items => some (items.any (isWord key))
  | .string text => some (key.toList <:+: text.toList)
  | _ => none

/-- `value[key]` -/
def index (value : Json N) (key : String) : Option (Json N) :=
  match value with
  | .object entries => entries.lookup key
  | _ => none

def iterate : Json N → Option (List (Json N))
  | .array items => some items
  | .object entries => some (entries.map fun entry => .string entry.1)
  | .string text => some (text.toList.map fun c => .string (String.ofList [c]))
  | _ => none

def asString : Json N → Option String
  | .string text => some text
  | _ => none

/-- A field of the body under its other name, when it is there. -/
def carried (data : Object N) (key target : String) : Object N :=
  match data.lookup key with
  | some value => [(target, value)]
  | none => []

def lines (texts : List String) : String := "\n".intercalate texts

end Values

section Contents
variable {N : Type} [Decoder N]

/-- `str` of a value; `other` gives the text of one that is no string. -/
def str (other : Json N → String) : Json N → String
  | .string text => text
  | value => other value

variable (other : Json N → String)

def partText : Json N → Option String
  | .object entries =>
    match entries.lookup "text" with
    | some text => some (str other text)
    | none => if isKind "text" (.object entries) then some "" else none
  | _ => none

/-- `_text_of` -/
def textOf : Json N → String
  | .null => ""
  | .string text => text
  | .array items => lines (items.filterMap (partText other))
  | value => str other value

/-- `_as_content_blocks` -/
def asContentBlocks : Json N → List (Object N)
  | .array items => items.filterMap fun item =>
    match item with
    | .string text => some [("type", .string "text"), ("text", .string text)]
    | .object entries => some entries
    | _ => none
  | .string text => [[("type", .string "text"), ("text", .string text)]]
  | _ => []

def openaiTool (tool : Json N) : Option (Json N) := do
  return .object [("type", .string "function"), ("function", .object [
    ("name", ← get tool "name" (.string "")),
    ("description", ← get tool "description" (.string "")),
    ("parameters", ← get tool "input_schema" (.object []))])]

/-- `_tools_anthropic_to_openai` -/
def toolsAnthropicToOpenai (tools : Json N) :
    Option (Json N) := do return .array (← (← iterate tools).mapM openaiTool)

def anthropicTool (tool : Json N) : Option (Json N) := do
  let function ← if isWord "function" (← get tool "type" .null) then get tool "function" (.object []) else some tool
  return .object [
    ("name", ← get function "name" (.string "")),
    ("description", ← get function "description" (.string "")),
    ("input_schema", ← get function "parameters" (.object [("type", .string "object"), ("properties", .object [])]))]

/-- `_tools_openai_to_anthropic` -/
def toolsOpenaiToAnthropic (tools : Json N) :
    Option (Json N) := do return .array (← (← iterate tools).mapM anthropicTool)

def toolCall (idx : Nat) (block : Object N) : Json N :=
  .object [
    ("id", (block.lookup "id").getD (.string ("call_" ++ toString idx))),
    ("type", .string "function"),
    ("function", .object [
      ("name", (block.lookup "name").getD (.string "")),
      ("arguments", .string (String.ofList (Json.dumps ⟨true, true⟩ ((block.lookup "input").getD (.object [])))))])]

/-- The tool calls of the blocks that are numbered from `idx`. -/
def toolCallsFrom (idx : Nat) : List (Json N) → List (Json N)
  | [] => []
  | .object block :: blocks =>
    if isKind "tool_use" (.object block) then toolCall idx block :: toolCallsFrom (idx + 1) blocks
      else toolCallsFrom (idx + 1) blocks
  | _ :: blocks => toolCallsFrom (idx + 1) blocks

def blockText : Json N → Option (Json N)
  | .object block =>
      if isKind "text" (.object block) then some ((block.lookup "text").getD (.string "")) else none
  | _ => none

/-- `_tool_use_anthropic_to_openai` -/
def toolUseAnthropicToOpenai : Json N → Option (Json N × List (Json N))
  | .array blocks => do
    let parts := blocks.filterMap blockText
    let text ← if parts.isEmpty then some Json.null else (parts.mapM asString).map fun texts => Json.string (lines texts)
    return (text, toolCallsFrom 0 blocks)
  | content => some (Json.string (textOf other content), [])

/-- `json.loads`, within the limits of the interpreter -/
def decode (text : List Char) : Option (Json N) :=
  match Json.loads text with
  | some value => some value
  | none => if Json.paired text then none else Decoder.unpaired text

/-- The arguments of a call; those that are no JSON text give an empty object. -/
def readArguments : Json N → Json N
  | .string text => (decode text.toList).getD (.object [])
  | _ => .object []

def toolUse (call : Json N) : Option (Json N) := do
  let function ← get call "function" (.object [])
  let input := readArguments (← get function "arguments" (.string "\x7b\x7d"))
  return .object [("type", .string "tool_use"), ("id", ← get call "id" (.string "")),
    ("name", ← get function "name" (.string "")), ("input", input)]

/-- `_tool_calls_openai_to_anthropic` -/
def toolCallsOpenaiToAnthropic (calls : Json N) : Option (List (Json N)) := do (← iterate calls).mapM toolUse

end Contents

section Requests
variable {N : Type} [Decoder N] (other : Json N → String)

def systemMessage (data : Object N) : List (Json N) :=
  match data.lookup "system" with
  | some system =>
    if system.truthy && textOf other system ≠ "" then
      [.object [("role", .string "system"), ("content", .string (textOf other system))]]
    else []
  | none => []

def toolMessage : Json N → List (Json N)
  | .object block =>
    [.object [("role", .string "tool"), ("tool_call_id", (block.lookup "tool_use_id").getD (.string "")),
      ("content", .string (textOf other ((block.lookup "content").getD (.string ""))))]]
  | _ => []

def openaiMessages (message : Json N) : Option (List (Json N)) := do
  let role ← get message "role" (.string "user")
  let content ← get message "content" .null
  let plain := [.object [("role", role), ("content", .string (textOf other content))]]
  match content with
  | .array blocks =>
    if blocks.any (isKind "tool_use") then do
      let (text, calls) ← toolUseAnthropicToOpenai other content
      return [.object ([("role", role), ("content", text)] ++ if calls.isEmpty then []
        else [("tool_calls", .array calls)])]
    else if blocks.any (isKind "tool_result") then
      some ((blocks.filter (isKind "tool_result")).flatMap (toolMessage other))
    else some plain
  | _ => some plain

def translatedTools (data : Object N) (translate : Json N → Option (Json N)) : Option (Object N) :=
  match data.lookup "tools" with
  | some tools => if tools.truthy then (translate tools).map fun tools => [("tools", tools)] else some []
  | none => some []

/-- `_anthropic_to_openai_request` -/
def anthropicToOpenaiRequest (data : Object N) : Option (Object N) := do
  let messages ← (← iterate ((data.lookup "messages").getD (.array []))).mapM (openaiMessages other)
  let tools ← translatedTools data toolsAnthropicToOpenai
  return [
    ("model", (data.lookup "model").getD (.string "gpt-4o")),
    ("messages", .array (systemMessage other data ++ messages.flatten)),
    ("stream", (data.lookup "stream").getD (.bool false))]
    ++ carried data "max_tokens" "max_tokens" ++ carried data "temperature" "temperature" ++
      carried data "top_p" "top_p"
    ++ carried data "stop_sequences" "stop" ++ tools

/-- A part of the system prompt, or a message. -/
def anthropicMessage (message : Json N) : Option (String ⊕ Json N) := do
  let role ← get message "role" (.string "user")
  let content ← get message "content" .null
  let calls ← get message "tool_calls" .null
  match role with
  | .string "system" => return .inl (textOf other content)
  | .string "tool" =>
    return .inr (.object [("role", .string "user"), ("content", .array [.object [
      ("type", .string "tool_result"),
      ("tool_use_id", ← get message "tool_call_id" (.string "")),
      ("content", .string (textOf other content))]])])
  | _ =>
    if isWord "assistant" role && calls.truthy then do
      let texts :=
        if content.truthy then [Json.object [("type", .string "text"),
          ("text", .string (textOf other content))]] else []
      let blocks ← toolCallsOpenaiToAnthropic calls
      return .inr (.object [("role", .string "assistant"), ("content", .array (texts ++ blocks))])
    else return .inr (.object [("role", role), ("content", .string (textOf other content))])

def stopSequences (data : Object N) : Object N :=
  match data.lookup "stop" with
  | some (.array stops) => [("stop_sequences", .array stops)]
  | some stop => [("stop_sequences", .array [stop])]
  | none => []

/-- `_openai_to_anthropic_request` -/
def openaiToAnthropicRequest (data : Object N) : Option (Object N) := do
  let messages ← (← iterate ((data.lookup "messages").getD (.array []))).mapM (anthropicMessage other)
  let tools ← translatedTools data toolsOpenaiToAnthropic
  let parts := messages.filterMap Sum.getLeft?
  return [
    ("model", (data.lookup "model").getD (.string "claude-sonnet-4-5")),
    ("messages", .array (messages.filterMap Sum.getRight?)),
    ("max_tokens", (data.lookup "max_tokens").getD (.number (Numerals.read "4096".toList))),
    ("stream", (data.lookup "stream").getD (.bool false))]
    ++ (if parts.isEmpty then [] else [("system", Json.string ("\n\n".intercalate parts))])
    ++ carried data "temperature" "temperature" ++ carried data "top_p" "top_p" ++ stopSequences data ++ tools

def part (block : Object N) : Json N :=
  match block.lookup "type" with
  | some (.string "text") => .object [("text", (block.lookup "text").getD (.string ""))]
  | some (.string "tool_use") =>
    .object [("functionCall", .object [("name", (block.lookup "name").getD (.string "")),
      ("args", (block.lookup "input").getD (.object []))])]
  | some (.string "tool_result") =>
    .object [("functionResponse", .object [("name", (block.lookup "tool_use_id").getD (.string "")),
      ("response", .object [("content", (block.lookup "content").getD (.string ""))])])]
  | _ => .object block

def googleContent (message : Json N) : Option (List (Json N)) := do
  let role ← get message "role" (.string "user")
  let content ← get message "content" .null
  let parts := (asContentBlocks content).map part
  return if parts.isEmpty then []
    else [.object [("role", .string (if isWord "assistant" role then "model" else "user")),
      ("parts", .array parts)]]

def functionDeclaration (tool : Json N) : Option (Json N) := do
  return .object [
    ("name", ← get tool "name" (.string "")),
    ("description", ← get tool "description" (.string "")),
    ("parameters", ← get tool "input_schema" (.object []))]

def functionDeclarations (tools : Json N) : Option (Json N) := do
  return .array [.object [("functionDeclarations", .array (← (← iterate tools).mapM functionDeclaration))]]

/-- `_anthropic_to_google_request` -/
def anthropicToGoogleRequest (data : Object N) : Option (Object N) := do
  let contents ← (← iterate ((data.lookup "messages").getD (.array []))).mapM googleContent
  let tools ← translatedTools data functionDeclarations
  let system := match data.lookup "system" with
    | some system =>
      if system.truthy && textOf other system ≠ "" then
        [("systemInstruction",
          Json.object [("parts", .array [.object [("text", .string (textOf other system))]])])]
      else []
    | none => []
  let config := carried data "max_tokens" "maxOutputTokens" ++ carried data "temperature" "temperature"
    ++ carried data "top_p" "topP" ++ carried data "stop_sequences" "stopSequences"
  return [("contents", Json.array contents.flatten)] ++ system
    ++ (if config.isEmpty then [] else [("generationConfig", Json.object config)]) ++ tools

def anthropicBlock (part : Json N) : Option (Json N) := do
  if ← contains part "text" then
    return .object [("type", .string "text"), ("text", ← index part "text")]
  else if ← contains part "functionCall" then do
    let call ← index part "functionCall"
    return .object [("type", .string "tool_use"), ("id", ← get call "name" (.string "")),
      ("name", ← get call "name" (.string "")),
      ("input", ← get call "args" (.object []))]
  else if ← contains part "functionResponse" then do
    let answer ← index part "functionResponse"
    let response ← get answer "response" (.object [])
    return .object [("type", .string "tool_result"), ("tool_use_id", ← get answer "name" (.string "")),
      ("content", .string (str other (← get response "content" (.string ""))))]
  else return .object [("type", .string "text"), ("text", .string (str other part))]

/-- A message of one text has it as its content. -/
def simplified (blocks : List (Json N)) : Json N :=
  match blocks with
  | [.object block] =>
      if isKind "text" (.object block) then (block.lookup "text").getD .null else .array blocks
  | _ => .array blocks

def messageOfContent (content : Json N) : Option (List (Json N)) := do
  let role ← get content "role" (.string "user")
  let parts ← get content "parts" (.array [])
  let blocks ← (← iterate parts).mapM (anthropicBlock other)
  return if blocks.isEmpty then []
    else [.object [("role", .string (if isWord "model" role then "assistant" else "user")),
      ("content", simplified blocks)]]

def systemText (data : Object N) : Option (Object N) :=
  match (data.lookup "systemInstruction").getD (.object []) with
  | .object instruction => do
    let texts ← (← iterate ((instruction.lookup "parts").getD (.array []))).mapM fun part =>
      match part with
      | .object part => some [(part.lookup "text").getD (.string "")]
      | _ => some []
    let text := lines (← texts.flatten.mapM asString)
    return if text = "" then [] else [("system", .string text)]
  | _ => some []

def configured (config : Json N) (key target : String) : Option (Object N) := do
  if ← contains config key then return [(target, ← index config key)] else return []

def declaredTool (declaration : Json N) : Option (Json N) := do
  return .object [
    ("name", ← get declaration "name" (.string "")),
    ("description", ← get declaration "description" (.string "")),
    ("input_schema", ← get declaration "parameters" (.object []))]

def groupTools (group : Json N) : Option (List (Json N)) := do
  (← iterate (← get group "functionDeclarations" (.array []))).mapM declaredTool

def declaredTools (data : Object N) : Option (Object N) :=
  match data.lookup "tools" with
  | some groups =>
    if groups.truthy then do
      let tools := (← (← iterate groups).mapM groupTools).flatten
      return if tools.isEmpty then [] else [("tools", .array tools)]
    else some []
  | none => some []

/-- `_google_to_anthropic_request` -/
def googleToAnthropicRequest (data : Object N) : Option (Object N) := do
  let messages ← (← iterate ((data.lookup "contents").getD (.array []))).mapM (messageOfContent other)
  let system ← systemText data
  let config := (data.lookup "generationConfig").getD (.object [])
  let limit ← configured config "maxOutputTokens" "max_tokens"
  let temperature ← configured config "temperature" "temperature"
  let topP ← configured config "topP" "top_p"
  let stops ← configured config "stopSequences" "stop_sequences"
  let tools ← declaredTools data
  return [
    ("model", (data.lookup "model").getD (.string "claude-sonnet-4-5")),
    ("messages", .array messages.flatten),
    ("max_tokens", ((limit.lookup "max_tokens").getD (.number (Numerals.read "4096".toList)))),
    ("stream", .bool false)]
    ++ system ++ temperature ++ topP ++ stops ++ tools

/-- `translate_request` -/
def translateRequest (data : Object N) (sourceProvider targetProvider : String) : Option (Object N) :=
  if sourceProvider = targetProvider then some data
  else
    match sourceProvider, targetProvider with
    | "anthropic", "openai" => anthropicToOpenaiRequest other data
    | "openai", "anthropic" => openaiToAnthropicRequest other data
    | "anthropic", "google" => anthropicToGoogleRequest other data
    | "google", "anthropic" => googleToAnthropicRequest other data
    | "openai", "google" => do anthropicToGoogleRequest other (← openaiToAnthropicRequest other data)
    | "google", "openai" => do anthropicToOpenaiRequest other (← googleToAnthropicRequest other data)
    | _, _ => none

/-- The texts that the interpreter reads and the values that it prints within its limits. -/
structure Interpreter (N : Type) where
  reads : List Char → Bool
  prints : Json N → Bool

def argumentText (call : Json N) : Option (List Char) := do
  let function ← get call "function" (.object [])
  return (← asString (← get function "arguments" (.string "\x7b\x7d"))).toList

/-- The argument texts of a message of the second format. -/
def argumentTexts (message : Json N) : List (List Char) :=
  match get message "role" (.string "user"), get message "tool_calls" .null with
  | some role, some calls =>
    if isWord "assistant" role && calls.truthy then ((iterate calls).getD []).filterMap argumentText else []
  | _, _ => []

def blockInput : Json N → Option (Json N)
  | .object block =>
      if isKind "tool_use" (.object block) then some ((block.lookup "input").getD (.object [])) else none
  | _ => none

/-- The inputs of the calls of a message of the first format. -/
def inputs (message : Json N) : List (Json N) :=
  match get message "content" .null with
  | some (.array blocks) => blocks.filterMap blockInput
  | _ => []

def messagesOf (data : Object N) : List (Json N) :=
  (iterate ((data.lookup "messages").getD (.array []))).getD []

def Interpreter.readsCalls (interpreter : Interpreter N) (data : Object N) : Bool :=
  (messagesOf data).all fun message => (argumentTexts message).all interpreter.reads

def Interpreter.printsCalls (interpreter : Interpreter N) (data : Object N) : Bool :=
  (messagesOf data).all fun message => (inputs message).all interpreter.prints

/-- No limit is met on the way from one format to another. -/
def Interpreter.manages (interpreter : Interpreter N) (data : Object N) (sourceProvider targetProvider : String) : Bool :=
  match sourceProvider, targetProvider with
  | "anthropic", "openai" => interpreter.printsCalls data
  | "openai", "anthropic" | "openai", "google" => interpreter.readsCalls data
  | "google", "openai" => (googleToAnthropicRequest other data).all interpreter.printsCalls
  | _, _ => true

/-- `translate_request` of an interpreter with limits -/
def translateWithin (interpreter : Interpreter N) (data : Object N) (sourceProvider targetProvider : String) :
    Option (Object N) :=
  if interpreter.manages other data sourceProvider targetProvider then
    translateRequest other data sourceProvider targetProvider
  else none

end Requests
end TokenPak.Proxy.Translator
