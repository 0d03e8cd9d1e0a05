import Vancine.Streams.ChatClient
import Vancine.Streams.ChatToClaude

/-!
# From Claude to chat

An answer of Claude is converted event by event, or as a whole. In a stream the content blocks have indices of their
own; the calls of a chat stream are numbered densely, so each `tool_use` block gets the next number.
-/

namespace Vancine.Streams.ClaudeToChat

open Lib

/-! ## Answers of Claude -/

/-- `dto.ClaudeMediaMessage`: a content block, a delta, or the message of the first event. -/
structure ClaudeMediaMessage where
  type : String := ""
  text : Option String := none
  model : String := ""
  stopReason : Option String := none
  partialJson : Option String := none
  thinking : Option String := none
  citations : Raw := .empty
  citation : Raw := .empty
  id : String := ""
  name : String := ""
  input : Json := .null

inductive EventType
  | messageStart | contentBlockStart | contentBlockDelta | contentBlockStop | messageDelta | messageStop
  | other (type : String)
  deriving DecidableEq

/-- `dto.ClaudeResponse`: an event of a stream, or a whole answer. -/
structure ClaudeResponse where
  id : String := ""
  type : EventType
  content : List ClaudeMediaMessage := []
  stopReason : String := ""
  model : String := ""
  index : Option ℤ := none
  contentBlock : Option ClaudeMediaMessage := none
  delta : Option ClaudeMediaMessage := none
  message : Option ClaudeMediaMessage := none

/-! ## Citations -/

variable {U V W : Type} (host : ChatToClaude.Host U V) (marshal : Json → String)

/-- The annotation of a citation. A cited text that stands in the text has its place, counted in runes. -/
def claudeCitationToChat (text : String) (textOffset : ℕ) (citation : Json.Fields) : Option Json :=
  let field key := ChatToClaude.interface2String host (citation.lookup key)
  let url := trimSpace (field "url")
  if url = "" then none
  else
    let title := trimSpace (field "title")
    let citedText := field "cited_text"
    let encryptedIndex := field "encrypted_index"
    let place := if citedText = "" then none else indexOf citedText.toList text.toList
    let converted :=
      (if citedText = "" then [] else [("cited_text", Json.string citedText)]) ++
      (if encryptedIndex = "" then [] else [("encrypted_index", .string encryptedIndex)]) ++
      (match place with
        | none => []
        | some before =>
          let startIndex := textOffset + before
          [("end_index", .number (startIndex + citedText.length : ℕ)), ("start_index", .number startIndex)]) ++
      (if title = "" then [] else [("title", .string title)]) ++
      [("url", .string url)]
    some (.object [("type", .string "url_citation"), ("url_citation", .object converted)])

/-- The annotations, or `none` if the citations are not a list of objects. -/
def claudeCitationsToChat (raw : Raw) (text : String) (textOffset : ℕ) : Option (List Json) :=
  if raw.text = "" then some []
  else
    match raw.decoded with
    | some (.array items) =>
      (items.mapM ChatToClaude.annotationFields).map (·.filterMap (claudeCitationToChat host text textOffset))
    | some .null => some []
    | _ => none

def marshalChatAnnotations (annotations : List Json) : Raw :=
  if annotations = [] then .empty else ⟨marshal (.array annotations), some (.array annotations)⟩

/-- The annotations of a text that stands alone. -/
def annotationsOf (raw : Raw) (text : String) : Raw :=
  match claudeCitationsToChat host raw text 0 with
  | some annotations => marshalChatAnnotations marshal annotations
  | none => .empty

/-- A list with the one citation, or nothing if it is not JSON. -/
def oneCitation (citation : Raw) : Raw :=
  match citation.decoded with
  | some value => ⟨"[" ++ citation.text ++ "]", some (.array [value])⟩
  | none => .empty

/-! ## One event -/

/-- `reasonmap.ClaudeStopReasonToOpenAIFinishReason`. -/
def stopReasonClaudeToOpenAI (stopReason : String) : String :=
  match host.lower stopReason with
  | "stop_sequence" => "stop"
  | "end_turn" => "stop"
  | "max_tokens" => "length"
  | "tool_use" => "tool_calls"
  | "pause_turn" => "length"
  | "refusal" => "content_filter"
  | _ => stopReason

def contentBlockStart (fcIdx : ℤ) (block : ClaudeMediaMessage) : SentDelta :=
  match block.type with
  | "text" =>
    match block.text with
    | some text => { content := some text, annotations := annotationsOf host marshal block.citations text }
    | none => {}
  | "tool_use" => { toolCalls := [⟨some fcIdx, block.id, block.name, ""⟩] }
  | _ => {}

def contentBlockDelta (fcIdx : ℤ) (delta : ClaudeMediaMessage) : SentDelta :=
  match delta.type with
  -- a chunk with calls has no content; `convertChunk` has seen that there is a partial JSON
  | "input_json_delta" => { toolCalls := [⟨some fcIdx, "", "", delta.partialJson.getD ""⟩] }
  | "signature_delta" => { content := delta.text, reasoningContent := some "\n" }
  | "thinking_delta" => { content := delta.text, reasoningContent := delta.thinking }
  | "citations_delta" =>
    { content := delta.text
      annotations := if delta.citation.text = "" then .empty else annotationsOf host marshal (oneCitation delta.citation) "" }
  | _ => { content := delta.text }

def messageDeltaFinish (delta : ClaudeMediaMessage) : Option String :=
  (delta.stopReason.map (stopReasonClaudeToOpenAI host)).filter (· ≠ "null")

def streamResponseClaude2OpenAI (claudeResponse : ClaudeResponse) : Option (SentChunk W) :=
  let fcIdx := claudeResponse.index.getD 0
  let chunk (choice : SentChoice) : SentChunk W := { model := claudeResponse.model, choices := [choice] }
  match claudeResponse.type with
  | .messageStart =>
    let choice : SentChoice := { delta := { content := some "", role := "assistant" } }
    match claudeResponse.message with
    | some message => some { id := message.id, model := message.model, choices := [choice] }
    | none => some (chunk choice)
  | .contentBlockStart =>
    claudeResponse.contentBlock.map fun block => chunk { delta := contentBlockStart host marshal fcIdx block }
  | .contentBlockDelta =>
    match claudeResponse.delta with
    | some delta => some (chunk { delta := contentBlockDelta host marshal fcIdx delta })
    | none => some (chunk {})
  | .messageDelta => some (chunk { finishReason := claudeResponse.delta.bind (messageDeltaFinish host) })
  | .contentBlockStop | .messageStop | .other _ => none

/-! ## A stream -/

structure ClaudeToChatStreamState where
  toolIndexByContentBlock : AList fun _ : ℤ => ℤ := ∅
  blockTypeByContentBlock : AList fun _ : ℤ => String := ∅
  nextToolIndex : ℤ := 0

def isClaudeHostedToolStreamBlock (blockType : String) : Bool :=
  match blockType with
  | "server_tool_use" | "mcp_tool_use" | "web_search_tool_result" | "mcp_tool_result"
  | "code_execution_tool_result" | "web_fetch_tool_result" => true
  | _ => false

/-- The number of the call of a block, which is the next one if it has none. -/
def ClaudeToChatStreamState.toolIndex (contentBlockIndex : ℤ) (s : ClaudeToChatStreamState) :
    ℤ × ClaudeToChatStreamState :=
  match s.toolIndexByContentBlock.lookup contentBlockIndex with
  | some toolIndex => (toolIndex, s)
  | none =>
    (s.nextToolIndex, { s with
      toolIndexByContentBlock := s.toolIndexByContentBlock.insert contentBlockIndex s.nextToolIndex
      nextToolIndex := s.nextToolIndex + 1 })

/-- The state after an event and its chunk, or an error. -/
abbrev Converted (W : Type) := Except String (ClaudeToChatStreamState × Option (SentChunk W))

def convertBlockStart (s : ClaudeToChatStreamState) (claudeResponse : ClaudeResponse) : Converted W :=
  let blockType := trimSpace ((claudeResponse.contentBlock.map (·.type)).getD "")
  if blockType = "" then .ok (s, streamResponseClaude2OpenAI host marshal claudeResponse)
  else
    match claudeResponse.index with
    | none => .error "Claude content block stream start is missing index"
    | some contentBlockIndex =>
      let s := { s with blockTypeByContentBlock := s.blockTypeByContentBlock.insert contentBlockIndex blockType }
      if blockType = "tool_use" then
        let (toolIndex, s) := s.toolIndex contentBlockIndex
        .ok (s, streamResponseClaude2OpenAI host marshal { claudeResponse with index := some toolIndex })
      else if isClaudeHostedToolStreamBlock blockType then .ok (s, none)
      else .ok (s, streamResponseClaude2OpenAI host marshal claudeResponse)

def convertInputJson (s : ClaudeToChatStreamState) (claudeResponse : ClaudeResponse) (delta : ClaudeMediaMessage) :
    Converted W :=
  match claudeResponse.index with
  | none => .error "Claude tool-use stream delta is missing content block index"
  | some contentBlockIndex =>
    if delta.partialJson = none then .error "Claude tool-use stream delta is missing partial JSON"
    else
      match s.toolIndexByContentBlock.lookup contentBlockIndex with
      | some toolIndex =>
        .ok (s, streamResponseClaude2OpenAI host marshal { claudeResponse with index := some toolIndex })
      | none =>
        if isClaudeHostedToolStreamBlock ((s.blockTypeByContentBlock.lookup contentBlockIndex).getD "") then .ok (s, none)
        else
          .error ("Claude tool-use stream delta references unknown content block index " ++ toString contentBlockIndex)

def convertChunk (s : ClaudeToChatStreamState) (claudeResponse : ClaudeResponse) : Converted W :=
  match claudeResponse.type with
  | .contentBlockStart => convertBlockStart host marshal s claudeResponse
  | .contentBlockDelta =>
    match claudeResponse.delta with
    | some delta =>
      if delta.type = "input_json_delta" then convertInputJson host marshal s claudeResponse delta
      else .ok (s, streamResponseClaude2OpenAI host marshal claudeResponse)
    | none => .ok (s, streamResponseClaude2OpenAI host marshal claudeResponse)
  | .contentBlockStop =>
    let s := match claudeResponse.index with
      | some contentBlockIndex =>
        { s with blockTypeByContentBlock := s.blockTypeByContentBlock.erase contentBlockIndex }
      | none => s
    .ok (s, streamResponseClaude2OpenAI host marshal claudeResponse)
  | _ => .ok (s, streamResponseClaude2OpenAI host marshal claudeResponse)

/-- The chunks of a stream, each with its event. -/
def convertAll (s : ClaudeToChatStreamState) :
    List ClaudeResponse → Except String (ClaudeToChatStreamState × List (ClaudeResponse × SentChunk W))
  | [] => .ok (s, [])
  | event :: events => do
    let (s, chunk) ← convertChunk host marshal s event
    let (s, chunks) ← convertAll s events
    return (s, (chunk.map fun c => (event, c)).toList ++ chunks)

/-! ## A whole answer -/

/-- What is gathered from the content blocks. -/
structure Gathered where
  responseText : String := ""
  responseTextOffset : ℕ := 0
  thinkingContent : String := ""
  tools : List ToolCallResponse := []
  annotations : List Json := []

def gather (g : Gathered) (message : ClaudeMediaMessage) : Gathered :=
  match message.type with
  | "tool_use" => { g with tools := g.tools ++ [⟨none, message.id, message.name, marshal message.input⟩] }
  | "thinking" =>
    match message.thinking with
    | some thinking => { g with thinkingContent := thinking }
    | none => g
  | "text" =>
    let text := message.text.getD ""
    { g with
      responseText := g.responseText ++ text
      responseTextOffset := g.responseTextOffset + text.length
      annotations :=
        g.annotations ++ (claudeCitationsToChat host message.citations text g.responseTextOffset).getD [] }
  | _ => g

/-- The thinking of the first block. -/
def responseThinking (content : List ClaudeMediaMessage) : String := (content.head?.bind (·.thinking)).getD ""

/-- The answer, at a time. -/
def responseClaude2OpenAI (timestamp : ℤ) (claudeResponse : ClaudeResponse) : TextResponse W :=
  let g := claudeResponse.content.foldl (gather host marshal) {}
  let thinking := responseThinking claudeResponse.content
  { id := claudeResponse.id
    model := claudeResponse.model
    created := timestamp
    choices := [{
      message := {
        role := "assistant"
        content := some g.responseText
        reasoningContent :=
          if g.thinkingContent ≠ "" then some g.thinkingContent else if thinking ≠ "" then some thinking else none
        toolCalls := g.tools
        annotations := marshalChatAnnotations marshal g.annotations }
      finishReason := stopReasonClaudeToOpenAI host claudeResponse.stopReason }] }

end Vancine.Streams.ClaudeToChat
