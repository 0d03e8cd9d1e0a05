import Mathlib.Data.List.AList
import Vancine.Lib.Text
import Vancine.Streams.Responses

/-!
# From a chat stream to a Responses stream

The converter keeps one message, one reasoning item, the function calls by their chat index and the hosted calls by
their id. All of them take their output index from one counter. What is open is closed at a finish reason, at the
end and at a failure.

Usage is passed on and not looked at: its type and its conversion are parameters.
-/

namespace Vancine.Streams.ChatToResponses

open Lib Vancine.Streams.Responses

variable {U : Type}

structure StreamTool where
  chatIndex : ℤ
  outputIndex : ℕ
  itemID : String
  callID : String
  name : String
  arguments : String
  done : Bool

inductive OutputRef
  | message | reasoning
  | tool (index : ℤ)
  | hosted (id : String)
  deriving DecidableEq

structure HostedTool where
  outputIndex : ℕ
  output : Output
  done : Bool

/-- The indices of the message and of the reasoning item are read once these have started. -/
structure State (U : Type) where
  id : String
  model : String
  created : ℤ
  usage : Option U
  emitSequenceNumber : Bool
  status : Status := .completed
  incompleteDetails : Option String := none
  sentCreated : Bool := false
  textOutputIndex : ℕ := 0
  textStarted : Bool := false
  textDone : Bool := false
  reasoningIndex : ℕ := 0
  reasoningStarted : Bool := false
  reasoningDone : Bool := false
  finalized : Bool := false
  nextSequenceNumber : ℕ := 0
  nextOutputIndex : ℕ := 0
  toolsByIndex : AList fun _ : ℤ => StreamTool := ∅
  hostedByID : AList fun _ : String => HostedTool := ∅
  outputOrder : List OutputRef := []
  text : String := ""
  annotations : List Json := []
  reasoning : String := ""

/-- `NewChatToResponsesStreamState` at the time `now`. -/
def newState (id model : String) (now : ℤ) (usage : U) (emitSequenceNumber : Bool) : State U where
  id := id
  model := model
  created := now
  usage := some usage
  emitSequenceNumber := emitSequenceNumber

/-! ## Events -/

/-- What a step sends. -/
abbrev Emits (U : Type) := Sender (State U) (Event U)

def event (type : EventType) (payload : Payload U) (s : State U) : State U × Event U :=
  if s.emitSequenceNumber then
    ({ s with nextSequenceNumber := s.nextSequenceNumber + 1 }, ⟨type, some s.nextSequenceNumber, payload⟩)
  else (s, ⟨type, .none, payload⟩)

/-- Events one after the other. -/
def emit : List (EventType × Payload U) → Emits U
  | [] => .none
  | (type, payload) :: rest => fun s =>
    let (s, e) := event type payload s
    let (s, es) := emit rest s
    (s, e :: es)

def nextIndex (ref : OutputRef) (s : State U) : ℕ × State U :=
  (s.nextOutputIndex,
    { s with nextOutputIndex := s.nextOutputIndex + 1, outputOrder := s.outputOrder ++ [ref] })

/-! ## Items -/

def messageID (s : State U) : String := s.id ++ "_msg_0"

def reasoningID (s : State U) : String := s.id ++ "_reasoning_0"

def outputStatus (s : State U) : Status :=
  if s.status = .incomplete ∨ s.status = .failed then .incomplete else .completed

def messageOutput (status : Status) (s : State U) : Output where
  type := .message
  id := messageID s
  status := status
  role := "assistant"
  content := [⟨s.text, s.annotations⟩]

def reasoningOutput (status : Status) (s : State U) : Output where
  type := .reasoning
  id := reasoningID s
  status := status
  summary := [s.reasoning]

def StreamTool.getCallID (tool : StreamTool) : String := if tool.callID = "" then tool.itemID else tool.callID

def toolOutput (tool : StreamTool) (status : Status) : Output where
  type := .functionCall
  id := tool.itemID
  status := status
  callId := tool.getCallID
  name := tool.name
  arguments := some tool.arguments

def finalOutput (s : State U) (ref : OutputRef) : Option Output :=
  match ref with
  | .message => some (messageOutput (outputStatus s) s)
  | .reasoning => some (reasoningOutput (outputStatus s) s)
  | .tool index => (s.toolsByIndex.lookup index).map fun tool => toolOutput tool (outputStatus s)
  | .hosted id => (s.hostedByID.lookup id).map HostedTool.output

def finalResponse (s : State U) : Response U where
  id := s.id
  createdAt := s.created
  status := s.status
  incompleteDetails := s.incompleteDetails
  model := s.model
  output := s.outputOrder.filterMap (finalOutput s)
  usage := s.usage

def createdResponse (s : State U) : Response U where
  id := s.id
  createdAt := s.created
  status := .inProgress
  model := s.model
  output := []

def ensureCreated : Emits U := fun s =>
  if s.sentCreated then (s, [])
  else emit [(.created, { response := some (createdResponse s) })] { s with sentCreated := true }

/-! ## Text and reasoning -/

def startText : Emits U := fun s =>
  if s.textStarted then (s, [])
  else
    let (index, s) := nextIndex .message { s with textStarted := true }
    emit [(.outputItemAdded, {
      outputIndex := some index
      item := some { type := .message, id := messageID s, status := .inProgress, role := "assistant" } })]
      { s with textOutputIndex := index }

def appendTextDelta (delta : String) : Emits U :=
  startText.andThen fun s =>
    emit [(.outputTextDelta, {
      outputIndex := some s.textOutputIndex, contentIndex := some 0, delta, itemID := messageID s })]
      { s with text := s.text ++ delta }

/-- `kitutil.Interface2String` of what the type of an annotation may be. -/
def typeText (fields : Json.Fields) : String := (Json.stringField fields "type").getD ""

/-- One annotation; citations are flattened. -/
def annotationToResponses (item : Json.Fields) : Json :=
  if trimSpace (typeText item) ≠ "url_citation" then .object item
  else
    match item.lookup "url_citation" with
    | some (.object citation) =>
      .object (citation.foldl (fun fields f => Json.setField f.1 f.2 fields) [("type", .string "url_citation")])
    | _ => .object item

def chatAnnotationsToResponses (raw : Raw) : Except String (List Json) :=
  if raw.text = "" then .ok []
  else
    match raw.decoded with
    | some .null => .ok []
    | some (.array items) => items.mapM fun
      | .object item => .ok (annotationToResponses item)
      | .null => .ok (.object [])
      | _ => .error "invalid Chat annotations"
    | _ => .error "invalid Chat annotations"

def annotationAdded (item : Json) : Emits U := fun s =>
  emit [(.outputTextAnnotationAdded, {
    outputIndex := some s.textOutputIndex
    contentIndex := some 0
    annotationIndex := some s.annotations.length
    annotation := some item
    itemID := messageID s })]
    { s with annotations := s.annotations ++ [item] }

def appendAnnotationDelta (raw : Raw) (s : State U) : Except String (State U × List (Event U)) := do
  let annotations ← chatAnnotationsToResponses raw
  pure ((startText.andThen (.each annotationAdded annotations)) s)

def startReasoning : Emits U := fun s =>
  if s.reasoningStarted then (s, [])
  else
    let (index, s) := nextIndex .reasoning { s with reasoningStarted := true }
    emit [(.outputItemAdded, {
      outputIndex := some index
      item := some { type := .reasoning, id := reasoningID s, status := .inProgress } })]
      { s with reasoningIndex := index }

def appendReasoningDelta (delta : String) : Emits U :=
  startReasoning.andThen fun s =>
    emit [(.reasoningSummaryDelta, {
      outputIndex := some s.reasoningIndex, summaryIndex := some 0, delta, itemID := reasoningID s })]
      { s with reasoning := s.reasoning ++ delta }

/-! ## Function calls -/

def toolIndex (toolCall : ToolCallResponse) : ℤ := toolCall.index.getD 0

/-- A call of which the first fragment is there. -/
def newTool (toolCall : ToolCallResponse) (index : ℕ) (s : State U) : StreamTool :=
  let incomingID := trimSpace toolCall.id
  { chatIndex := toolIndex toolCall
    outputIndex := index
    itemID := if incomingID = "" then s.id ++ "_call_" ++ toString (toolIndex toolCall) else incomingID
    callID := incomingID
    name := trimSpace toolCall.function.name
    arguments := ""
    done := false }

def startTool (toolCall : ToolCallResponse) : Emits U := fun s =>
  match s.toolsByIndex.lookup (toolIndex toolCall) with
  | some _ => (s, [])
  | .none =>
    let tool := newTool toolCall s.nextOutputIndex s
    let (index, s) := nextIndex (.tool (toolIndex toolCall)) s
    emit [(.outputItemAdded, {
      outputIndex := some index
      itemID := tool.itemID
      item := some {
        type := .functionCall, id := tool.itemID, status := .inProgress, callId := tool.getCallID
        name := tool.name, arguments := some "" } })]
      { s with toolsByIndex := s.toolsByIndex.insert (toolIndex toolCall) tool }

/-- A fragment may repeat the id and the name of its call but not change them. -/
def checkTool (toolCall : ToolCallResponse) (tool : StreamTool) : Except String StreamTool :=
  let incomingID := trimSpace toolCall.id
  let incomingName := trimSpace toolCall.function.name
  let index := toString tool.chatIndex
  if tool.done then .error ("tool-call stream index " ++ index ++ " received data after completion")
  else if incomingID ≠ "" ∧ tool.callID ≠ "" ∧ tool.callID ≠ incomingID then
    .error ("tool-call stream index " ++ index ++ " changed id from " ++ tool.callID ++ " to " ++ incomingID)
  else if incomingName ≠ "" ∧ tool.name ≠ "" ∧ tool.name ≠ incomingName then
    .error ("tool-call stream index " ++ index ++ " changed name from " ++ tool.name ++ " to " ++ incomingName)
  else .ok { tool with
    callID := if incomingID = "" then tool.callID else incomingID
    name := if incomingName = "" then tool.name else incomingName }

def appendToolCallDelta (toolCall : ToolCallResponse) (s : State U) : Except String (State U × List (Event U)) := do
  let (s, started) := startTool toolCall s
  match s.toolsByIndex.lookup (toolIndex toolCall) with
  | .none => pure (s, started)
  | some tool =>
    let tool ← checkTool toolCall tool
    let arguments := toolCall.function.arguments
    let tool := { tool with arguments := tool.arguments ++ arguments }
    let (s, events) := emit
      (if arguments = "" then []
        else [(.functionArgsDelta, { outputIndex := some tool.outputIndex, itemID := tool.itemID, delta := arguments })])
      { s with toolsByIndex := s.toolsByIndex.insert (toolIndex toolCall) tool }
    pure (s, started ++ events)

/-! ## Hosted calls -/

structure HostedToolStreamStart where
  type : String
  id : String
  name : String
  action : Raw
  caller : Raw
  serverLabel : String

structure HostedToolStreamResult where
  type : String
  id : String
  result : Raw
  errorCode : String
  isError : Bool

/-- The types with an event prefix. -/
def hostedType? : String → Option HostedType
  | "web_search_call" => some .webSearchCall
  | "mcp_call" => some .mcpCall
  | _ => none

def hostedTypeName : HostedType → String
  | .webSearchCall => "web_search_call"
  | .mcpCall => "mcp_call"

def hostedTerminalEvent (type : HostedType) (failed : Bool) : Option EventType :=
  if !failed then some (.hosted type .completed)
  else
    match type with
    | .mcpCall => some (.hosted .mcpCall .failed)
    | .webSearchCall => none

/-- The JSON string of a payload. -/
def hostedJSONString (value : Raw) : Except String String :=
  if value.text = "" then .ok ""
  else if value.decoded.isNone then .error "invalid JSON payload"
  else .ok value.text

/-- A payload that is a string stays as it is. -/
def hostedResultString (value : Raw) : Except String String :=
  match value.decoded with
  | some (.string s) => .ok s
  | _ => hostedJSONString value

/-- `encoding/json` into the fields of an action. -/
abbrev DecodeAction := Raw → Option WebSearchAction

def normalizeResponsesWebSearchAction (decode : DecodeAction) (raw : Raw) : Except String WebSearchAction :=
  match decode raw with
  | none => .error "decode Responses web-search action"
  | some action =>
    let query := trimSpace action.query
    let queries := action.queries.map trimSpace
    let url := trimSpace action.url
    let pattern := trimSpace action.pattern
    let type := trimSpace action.type
    if "" ∈ queries then .error "Responses web-search action queries must not be empty"
    else
      match if type = "" ∧ (query ≠ "" ∨ queries ≠ []) then "search" else type with
      | "search" =>
        if query = "" ∧ queries = [] then .error "Responses web-search action requires query or queries"
        else
          match action.sources with
          | none | some (.array _) | some .null => .ok ⟨"search", query, queries, action.sources, "", ""⟩
          | _ => .error "Responses web-search action sources must be an array"
      | "open_page" =>
        if url = "" then .error "Responses web-search action requires url"
        else .ok ⟨"open_page", "", [], none, url, ""⟩
      | "find" | "find_in_page" =>
        if url = "" ∨ pattern = "" then .error "Responses web-search action requires url and pattern"
        else .ok ⟨"find_in_page", "", [], none, url, pattern⟩
      | _ => .error "unsupported Responses web-search action type"

/-- The output item of a hosted call that starts. -/
def hostedOutput (decode : DecodeAction) (type : HostedType) (id : String) (start : HostedToolStreamStart) :
    Except String Output :=
  match type with
  | .webSearchCall => do
    let action ← normalizeResponsesWebSearchAction decode start.action
    pure { type := .hosted .webSearchCall, id, status := .inProgress, action := some action }
  | .mcpCall =>
    if trimSpace start.name = "" ∨ trimSpace start.serverLabel = "" then
      .error "Responses MCP call requires name and server_label"
    else do
      let arguments ← hostedJSONString start.action
      pure {
        type := .hosted .mcpCall, id, status := .inProgress, name := start.name
        serverLabel := start.serverLabel, arguments := some arguments }

/-- The events of a hosted call that starts; MCP arguments follow its item. -/
def hostedStartEvents (type : HostedType) (index : ℕ) (id : String) (output : Output) :
    List (EventType × Payload U) :=
  let added := match type with
    | .mcpCall => { output with arguments := some "" }
    | .webSearchCall => output
  (.outputItemAdded, { outputIndex := some index, itemID := id, item := some added }) ::
    (.hosted type .inProgress, { outputIndex := some index, itemID := id }) ::
      match type with
      | .webSearchCall => [(.hosted type .searching, { outputIndex := some index, itemID := id })]
      | .mcpCall =>
        let arguments := output.arguments.getD ""
        [(.mcpCallArgumentsDelta, { outputIndex := some index, itemID := id, delta := arguments }),
          (.mcpCallArgumentsDone, { outputIndex := some index, itemID := id, arguments := some arguments })]

/-- The state with a hosted call in place, before anything is sent of it. -/
def placeHosted (id : String) (output : Output) (s : State U) : State U :=
  let (index, s) := nextIndex (.hosted id) s
  { s with hostedByID := s.hostedByID.insert id ⟨index, output, false⟩ }

def startHostedTool (decode : DecodeAction) (start : HostedToolStreamStart) (s : State U) :
    Except String (State U × List (Event U)) :=
  let id := trimSpace start.id
  if id = "" then .error "hosted-tool stream call is missing an id"
  else if (s.hostedByID.lookup id).isSome then .error ("duplicate hosted-tool stream call id " ++ id)
  else
    match hostedType? start.type with
    | .none => .error ("unsupported Responses hosted-tool output type " ++ start.type)
    | some type =>
      let caller := trimSpace start.caller.text
      if caller ≠ "" ∧ caller ≠ "null" then
        .error ("Responses " ++ start.type ++ " cannot preserve Claude hosted-tool caller provenance")
      else do
        let output ← hostedOutput decode type id start
        pure ((ensureCreated.andThen (emit (hostedStartEvents type s.nextOutputIndex id output)))
          (placeHosted id output s))

def isHostedMcp (output : Output) : Bool := output.type = .hosted .mcpCall

/-- The result in the output item; of a web search the item has only the action and the status. -/
def hostedResultOutput (result : HostedToolStreamResult) (output : Output) : Except String Output :=
  if isHostedMcp output then do
    let text ← hostedResultString result.result
    pure { output with status := .completed, output := some text }
  else pure { output with status := .completed }

def failHostedOutput (errorValue : String) (output : Output) : Output :=
  if isHostedMcp output then { output with status := .failed, itemError := some errorValue, output := none }
  else { output with status := .failed }

def hostedFailed (result : HostedToolStreamResult) : Bool := result.isError || trimSpace result.errorCode ≠ ""

/-- The output item of a hosted call with its result. -/
def hostedResult (result : HostedToolStreamResult) (output : Output) : Except String Output := do
  let output ← hostedResultOutput result output
  let errorValue := if result.errorCode = "" then "hosted tool execution failed" else result.errorCode
  pure (if hostedFailed result then failHostedOutput errorValue output else output)

def hostedOutputType (output : Output) : Option HostedType :=
  match output.type with
  | .hosted type => some type
  | _ => none

def completeHostedTool (result : HostedToolStreamResult) (s : State U) : Except String (State U × List (Event U)) :=
  let id := trimSpace result.id
  match s.hostedByID.lookup id with
  | .none => .error ("hosted-tool result references unknown call " ++ id)
  | some tool =>
    if tool.done then .error ("duplicate hosted-tool result for call " ++ id)
    else if result.type ≠ "" ∧ some result.type ≠ (hostedOutputType tool.output).map hostedTypeName then
      .error ("hosted-tool result type " ++ result.type ++ " does not match call type")
    else do
      let output ← hostedResult result tool.output
      let terminal := (hostedOutputType output).bind fun type => hostedTerminalEvent type (hostedFailed result)
      pure <| emit
        (terminal.toList.map (fun type => (type, { outputIndex := some tool.outputIndex, itemID := id })) ++
          [(.outputItemDone, { outputIndex := some tool.outputIndex, itemID := id, item := some output })])
        { s with hostedByID := s.hostedByID.insert id ⟨tool.outputIndex, output, true⟩ }

/-! ## Closing -/

def closeText (status : Status) : Emits U := fun s =>
  if s.textStarted && !s.textDone then
    emit [(.outputTextDone, {
        outputIndex := some s.textOutputIndex, contentIndex := some 0, itemID := messageID s
        text := if s.emitSequenceNumber then some s.text else .none }),
      (.outputItemDone, { outputIndex := some s.textOutputIndex, item := some (messageOutput status s) })]
      { s with textDone := true }
  else (s, [])

def closeReasoning (status : Status) : Emits U := fun s =>
  if s.reasoningStarted && !s.reasoningDone then
    emit [(.reasoningSummaryDone, {
        outputIndex := some s.reasoningIndex, summaryIndex := some 0, itemID := reasoningID s
        text := if s.emitSequenceNumber then some s.reasoning else .none
        part := if s.emitSequenceNumber then .none else some s.reasoning }),
      (.outputItemDone, { outputIndex := some s.reasoningIndex, item := some (reasoningOutput status s) })]
      { s with reasoningDone := true }
  else (s, [])

def closeTool (status : Status) (chatIndex : ℤ) : Emits U := fun s =>
  match s.toolsByIndex.lookup chatIndex with
  | .none => (s, [])
  | some tool =>
    if tool.done then (s, [])
    else
      emit [(.functionArgsDone, {
          outputIndex := some tool.outputIndex, itemID := tool.itemID
          arguments := if s.emitSequenceNumber then some tool.arguments else .none
          name := if s.emitSequenceNumber then tool.name else "" }),
        (.outputItemDone, { outputIndex := some tool.outputIndex, item := some (toolOutput tool status) })]
        { s with toolsByIndex := s.toolsByIndex.insert chatIndex { tool with done := true } }

/-- The indices of `sortedTools`. -/
def sortedTools (s : State U) : List ℤ := s.toolsByIndex.keys.insertionSort (· ≤ ·)

/-- A hosted call without a result: it makes the response incomplete, or fails with it. -/
def closedHostedOutput (failed : Bool) (output : Output) : Output :=
  if failed then failHostedOutput "provider stream failed before hosted-tool result" output
  else { output with status := .incomplete }

def closeHosted (ref : OutputRef) : Emits U := fun s =>
  match ref with
  | .hosted id =>
    match s.hostedByID.lookup id with
    | .none => (s, [])
    | some tool =>
      if tool.done then (s, [])
      else
        let failed : Bool := s.status = .failed
        let output := closedHostedOutput failed tool.output
        let terminal := if failed then (hostedOutputType output).bind fun type => hostedTerminalEvent type true else none
        emit
          (terminal.toList.map (fun type => (type, { outputIndex := some tool.outputIndex, itemID := output.id })) ++
            [(.outputItemDone, { outputIndex := some tool.outputIndex, itemID := output.id, item := some output })])
          { s with
            status := if failed then .failed else .incomplete
            hostedByID := s.hostedByID.insert id ⟨tool.outputIndex, output, true⟩ }
  | _ => (s, [])

/-- The open calls, by their chat index. -/
def closeTools (status : Status) : Emits U := fun s => Sender.each (closeTool status) (sortedTools s) s

/-- The hosted calls without a result, in their order. -/
def closeHostedTools : Emits U := fun s => Sender.each closeHosted s.outputOrder s

def doneDeltaEvents : Emits U := fun s =>
  let status := outputStatus s
  (((closeText status).andThen (closeReasoning status)).andThen ((closeTools status).andThen closeHostedTools)) s

/-! ## The calls -/

def responsesStatusFromChatFinishReason (finishReason : String) : Status × Option String :=
  match trimSpace finishReason with
  | "length" => (.incomplete, some "max_output_tokens")
  | "content_filter" => (.incomplete, some "content_filter")
  | _ => (.completed, none)

def applyFinishReason (finishReason : String) (s : State U) : State U :=
  let (status, details) := responsesStatusFromChatFinishReason finishReason
  { s with status, incompleteDetails := details }

def convertToolCalls : List ToolCallResponse → State U → Except String (State U × List (Event U))
  | [], s => .ok (s, [])
  | toolCall :: toolCalls, s => do
    let (s, events) ← appendToolCallDelta toolCall s
    let (s, events') ← convertToolCalls toolCalls s
    pure (s, events ++ events')

def finishChoice (finishReason : Option String) : Emits U := fun s =>
  match finishReason with
  | some reason => if trimSpace reason = "" then (s, []) else doneDeltaEvents (applyFinishReason reason s)
  | .none => (s, [])

/-- The texts of a choice. -/
def convertTexts (delta : ChoiceDelta) : Emits U :=
  (if delta.getReasoningContent = "" then .none else appendReasoningDelta delta.getReasoningContent : Emits U).andThen
    (if delta.getContentString = "" then .none else appendTextDelta delta.getContentString)

def convertAnnotations (raw : Raw) (s : State U) : Except String (State U × List (Event U)) :=
  if raw.text = "" then .ok (s, []) else appendAnnotationDelta raw s

def convertChoice (choice : Choice) (s : State U) : Except String (State U × List (Event U)) := do
  let (s, texts) := convertTexts choice.delta s
  let (s, annotations) ← convertAnnotations choice.delta.annotations s
  let (s, tools) ← convertToolCalls choice.delta.toolCalls s
  let (s, done) := finishChoice choice.finishReason s
  pure (s, texts ++ annotations ++ tools ++ done)

def convertChoices : List Choice → State U → Except String (State U × List (Event U))
  | [], s => .ok (s, [])
  | choice :: choices, s => do
    let (s, events) ← convertChoice choice s
    let (s, events') ← convertChoices choices s
    pure (s, events ++ events')

/-- The fields of the state that a chunk fills in. -/
def noteChunk (usageFromChatUsage : U → U) (chunk : ChatChunk U) (s : State U) : State U :=
  { s with
    id := if s.id = "" then chunk.id else s.id
    model := if s.model = "" then chunk.model else s.model
    created := if s.created = 0 then chunk.created else s.created
    usage := match chunk.usage with
      | some usage => some (usageFromChatUsage usage)
      | .none => s.usage }

/-- `ChatCompletionsStreamChunkToResponsesEvents`. -/
def convertChunk (usageFromChatUsage : U → U) (chunk : ChatChunk U) (s : State U) :
    Except String (State U × List (Event U)) := do
  let (s, created) := ensureCreated (noteChunk usageFromChatUsage chunk s)
  let (s, events) ← convertChoices chunk.choices s
  pure (s, created ++ events)

/-- The default of a blank text. -/
def orDefault (default text : String) : String := if trimSpace text = "" then default else trimSpace text

/-- The events after which a failed stream is over. -/
def failEvents (code message param : String) : Emits U := fun s =>
  emit [(.error, { code, message, param }),
    (.failed, { response := some { finalResponse s with error := some ⟨code, message⟩ } })]
    { s with finalized := true }

def fail (code message param : String) : Emits U := fun s =>
  if s.finalized then (s, [])
  else
    ((ensureCreated.andThen doneDeltaEvents).andThen
      (failEvents (orDefault "server_error" code) (orDefault "upstream response stream failed" message) param))
      { s with status := .failed }

/-- The event after which a stream is over. -/
def completedEvent : Emits U := fun s =>
  emit [(if s.status = .incomplete then .incomplete else .completed, { response := some (finalResponse s) })]
    { s with finalized := true }

/-- `FinalizeChatCompletionsStreamToResponses`. -/
def finalize : Emits U := fun s =>
  if s.finalized then (s, []) else (doneDeltaEvents.andThen completedEvent) s

end Vancine.Streams.ChatToResponses
