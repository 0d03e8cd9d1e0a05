import Vancine.Lib.Json
import Vancine.Lib.Text

/-!
# Responses requests as chat messages

The input of a Responses request is a text or an array of items. The items are read one by one into a list of chat
messages: calls join the assistant message they follow, and whatever has no type of its own is a message.
-/

namespace Vancine.ResponsesRequests

open Lib

/-- How `json.Marshal` and `strconv` write values. -/
structure Writing where
  marshal : Json → String
  formatFloatPlain : ℚ → String
  formatFloat : ℚ → String

/-- The tool calls of a message are written into it and read back from there each time. -/
structure ToolCall where
  id : String
  type : String
  name : String
  arguments : String
  /-- A custom call is kept as it came. -/
  custom : Option Json := none

/-- `Content` is `nil` or a value. -/
structure Message where
  role : String
  content : Option Json := none
  toolCallId : String := ""
  toolCalls : List ToolCall := []

inductive InputError
  | functionCallMissingName
  | invalidInputArray
  | unsupportedInputType

section Conversion

variable (w : Writing)

/-- `kitutil.Interface2String`. -/
def interface2String : Option Json → String
  | some (.string s) => s
  | some (.number n) => w.formatFloatPlain n
  | some (.bool b) => Json.boolText b
  | some .null | none => ""
  | some value => value.printed w.formatFloat

/-! ## Content -/

/-- The keys of these that a part has. -/
def pick (part : Json.Fields) (keys : List String) : Json.Fields :=
  keys.filterMap fun key => (part.lookup key).map fun value => (key, value)

def responsesImagePartToChatImageURL (part : Json.Fields) : Json :=
  match part.lookup "image_url" with
  | some imageURL => imageURL
  | none =>
    let imageURL := pick part ["url", "file_id", "detail"]
    if imageURL = [] then .object part else .object imageURL

def responsesFilePartToChatFile (part : Json.Fields) : Json :=
  match part.lookup "file" with
  | some file => file
  | none =>
    let file := pick part ["file_id", "file_data", "filename", "file_url"]
    if file = [] then .object part else .object file

def responsesPartPayload (part : Json.Fields) (key : String) : Json :=
  match part.lookup key with
  | some value => value
  | none => .object (part.filter fun field => field.1 ≠ "type")

def responsesVideoPartToChatVideoURL (part : Json.Fields) : Json :=
  match part.lookup "video_url" with
  | some videoURL =>
    match videoURL with
    | .object fields =>
      let url := interface2String w (fields.lookup "url")
      if url ≠ "" then .string url else videoURL
    | _ => videoURL
  | none =>
    let url := interface2String w (part.lookup "url")
    if url ≠ "" then .string url else responsesPartPayload part "video_url"

def partType (part : Json.Fields) : String := trimSpace (interface2String w (part.lookup "type"))

def textPartTypes : List String := ["input_text", "output_text", "text"]

/-- A part of the content, with its text if it is one. -/
def chatPart : Json → Json × Option String
  | .object part =>
    let type := partType w part
    if type ∈ textPartTypes then
      let text := interface2String w (part.lookup "text")
      (.object [("type", .string "text"), ("text", .string text)], some text)
    else if type = "input_image" then
      (.object [("type", .string "image_url"), ("image_url", responsesImagePartToChatImageURL part)], none)
    else if type = "input_file" then
      (.object [("type", .string "file"), ("file", responsesFilePartToChatFile part)], none)
    else if type = "input_audio" then
      (.object [("type", .string "input_audio"), ("input_audio", responsesPartPayload part "input_audio")], none)
    else if type = "input_video" then
      (.object [("type", .string "video_url"), ("video_url", responsesVideoPartToChatVideoURL w part)], none)
    else (.object part, none)
  | rawPart => (rawPart, none)

/-- Parts that are all text are joined. -/
def responsesContentPartsToChatContent (parts : List Json) : Json :=
  let chatParts := parts.map (chatPart w)
  if chatParts.all fun p => p.2.isSome then .string (String.join (chatParts.filterMap Prod.snd))
  else .array (chatParts.map Prod.fst)

def responsesInputContentToChatContent : Option Json → Json
  | none | some .null => .string ""
  | some (.array parts) => responsesContentPartsToChatContent w parts
  | some content => content

/-! ## Items -/

def responsesCallID (item : Json.Fields) : String :=
  let callID := trimSpace (interface2String w (item.lookup "call_id"))
  if callID ≠ "" then callID else trimSpace (interface2String w (item.lookup "id"))

/-- Also `responseToolOutputToChatContent`. -/
def responsesArgumentsString : Option Json → String
  | none | some .null => ""
  | some (.string s) => s
  | some value => w.marshal value

def responsesFunctionCallItemToChatToolCall (item : Json.Fields) : Except InputError ToolCall :=
  let name := trimSpace (interface2String w (item.lookup "name"))
  if name = "" then .error .functionCallMissingName
  else
    .ok
      { id := responsesCallID w item
        type := "function"
        name
        arguments := responsesArgumentsString w (item.lookup "arguments") }

def responsesCustomToolCallItemToChatToolCall (item : Json.Fields) : ToolCall where
  id := responsesCallID w item
  type := "custom"
  name := trimSpace (interface2String w (item.lookup "name"))
  arguments := responsesArgumentsString w (item.lookup "input")
  custom := some (.object item)

def appendToolCallToLastAssistant (messages : List Message) (toolCall : ToolCall) : List Message :=
  match messages.getLast? with
  | some last =>
    if last.role = "assistant" then
      messages.dropLast ++ [{ last with toolCalls := last.toolCalls ++ [toolCall] }]
    else messages ++ [{ role := "assistant", toolCalls := [toolCall] }]
  | none => [{ role := "assistant", toolCalls := [toolCall] }]

def itemType (item : Json.Fields) : String := trimSpace (interface2String w (item.lookup "type"))

def itemRole (item : Json.Fields) : String := trimSpace (interface2String w (item.lookup "role"))

def responsesInputItemToChatMessages (item : Json.Fields) (messages : List Message) :
    Except InputError (List Message) :=
  let type := itemType w item
  if type = "function_call" then do
    let toolCall ← responsesFunctionCallItemToChatToolCall w item
    .ok (appendToolCallToLastAssistant messages toolCall)
  else if type = "custom_tool_call" then
    .ok (appendToolCallToLastAssistant messages (responsesCustomToolCallItemToChatToolCall w item))
  else if type = "function_call_output" then
    .ok (messages ++
      [{ role := "tool"
         toolCallId := trimSpace (interface2String w (item.lookup "call_id"))
         content := some (.string (responsesArgumentsString w (item.lookup "output"))) }])
  else
    let role := if itemRole w item = "" then "user" else itemRole w item
    .ok (messages ++ [{ role, content := some (responsesInputContentToChatContent w (item.lookup "content")) }])

/-! ## Requests -/

/-- `null` is read as an object without fields. -/
def fieldsOf : Json → Except InputError Json.Fields
  | .object fields => .ok fields
  | .null => .ok []
  | _ => .error .invalidInputArray

/-- `instructions` and `input` of a request. -/
structure Request where
  instructions : Option Json := none
  input : Option Json := none

def instructionMessages (instructions : Option Json) : List Message :=
  match instructions with
  | none | some .null => []
  | some value =>
    let text := match value with
      | .string s => s
      | other => w.marshal other
    if trimSpace text ≠ "" then [{ role := "system", content := some (.string text) }] else []

def itemMessages (items : List Json.Fields) (messages : List Message) : Except InputError (List Message) :=
  items.foldlM (fun messages item => responsesInputItemToChatMessages w item messages) messages

def responsesRequestMessagesToChat (req : Request) : Except InputError (List Message) :=
  let messages := instructionMessages w req.instructions
  match req.input with
  | none | some .null => .ok messages
  | some (.string input) => .ok (messages ++ [{ role := "user", content := some (.string input) }])
  | some (.array rawItems) => do
    let items ← rawItems.mapM fieldsOf
    itemMessages w items messages
  | some _ => .error .unsupportedInputType

end Conversion

end Vancine.ResponsesRequests
