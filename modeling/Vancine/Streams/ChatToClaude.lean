import Mathlib.Data.List.AList
import Vancine.Lib.Text
import Vancine.Streams.Chunks

/-!
# From a chat stream to a Claude stream

The converter keeps one open text or thinking block, or the `tool_use` blocks of the calls that stream side by side.
A call waits for its id and its name before its block is opened; its arguments are kept until then.

The calls of the source are shared pointers; here the maps hold their positions among the calls. Usage is passed on:
its types and the functions on it are parameters.
-/

namespace Vancine.Streams.ChatToClaude

open Lib

/-- The types of usage, U of chat and V of Claude, and what is done with them; and what the host gives. -/
structure Host (U V : Type) where
  usageFromOpenAI : U → V
  mergeUsageNonZero : Option U → U → U
  mergeClaudeUsageNonZero : V → V → V
  hasOpenAIUsageTokens : U → Bool
  /-- The usage of a first frame without one. -/
  estimatedUsage : V
  /-- The ids that `kitutil.GetUUID` gives one after the other. -/
  uuid : ℕ → String
  lower : String → String
  formatFloat : ℚ → String
  formatFloatPlain : ℚ → String

variable {U V : Type} (host : Host U V)

/-! ## Events -/

inductive ContentBlock
  | text | thinking
  | toolUse (id name : String)

inductive Delta
  | text (text : String)
  | thinking (thinking : String)
  | inputJson (partialJson : String)
  | citations (citation : Json)

inductive Event (V : Type)
  | messageStart (id model : String) (usage : V)
  | contentBlockStart (index : ℕ) (block : ContentBlock)
  | contentBlockDelta (index : ℕ) (delta : Delta)
  | contentBlockStop (index : ℕ)
  | messageDelta (usage : Option V) (stopReason : String)
  | messageStop

/-! ## State -/

structure ClaudeStreamToolCall where
  blockIndex : ℕ
  id : String := ""
  name : String := ""
  pendingArguments : String := ""
  started : Bool := false

inductive LastMessagesType
  | none | text | thinking | tools
  deriving DecidableEq

structure ClaudeConvertInfo (U : Type) where
  lastMessagesType : LastMessagesType := .none
  index : ℕ := 0
  usage : Option U := .none
  finishReason : String := ""
  done : Bool := false
  toolCallBaseIndex : ℕ := 0
  toolCallMaxIndexOffset : ℕ := 0
  toolCalls : List ClaudeStreamToolCall := []
  toolCallByIndex : AList fun _ : ℤ => ℕ := ∅
  toolCallByID : AList fun _ : String => ℕ := ∅
  /-- `SendResponseCount` of the request. -/
  sendResponseCount : ℕ := 0
  /-- How many ids were given. -/
  uuids : ℕ := 0

/-- What a step sends. -/
abbrev Sends (U V : Type) := Sender (ClaudeConvertInfo U) (Event V)

def send (events : List (Event V)) : Sends U V := fun s => (s, events)

/-! ## Blocks -/

def stopOpenBlocks (s : ClaudeConvertInfo U) : List (Event V) :=
  match s.lastMessagesType with
  | .text | .thinking => [.contentBlockStop s.index]
  | .tools =>
    if s.toolCalls = [] then
      (List.range (s.toolCallMaxIndexOffset + 1)).map fun offset => .contentBlockStop (s.toolCallBaseIndex + offset)
    else (s.toolCalls.filter (·.started)).map fun tool => .contentBlockStop tool.blockIndex
  | .none => []

/-- The events that open the block of a call, with the arguments that waited for it. -/
def startToolEvents (tool : ClaudeStreamToolCall) : List (Event V) :=
  .contentBlockStart tool.blockIndex (.toolUse tool.id tool.name) ::
    if tool.pendingArguments = "" then []
    else [.contentBlockDelta tool.blockIndex (.inputJson tool.pendingArguments)]

def ClaudeStreamToolCall.start (tool : ClaudeStreamToolCall) : ClaudeStreamToolCall :=
  { tool with started := true, pendingArguments := "" }

/-- A call that has a name and is not started is started, with a new id if it has none. `n` ids were given. -/
def startPending (n : ℕ) (tool : ClaudeStreamToolCall) : ℕ × ClaudeStreamToolCall × List (Event V) :=
  if tool.started || tool.name = "" then (n, tool, [])
  else if tool.id = "" then
    let tool := { tool with id := "toolu_" ++ host.uuid n }
    (n + 1, tool.start, startToolEvents tool)
  else (n, tool.start, startToolEvents tool)

def startPendingAll (n : ℕ) : List ClaudeStreamToolCall → ℕ × List ClaudeStreamToolCall × List (Event V)
  | [] => (n, [], [])
  | tool :: tools =>
    let (n, tool, events) := startPending host n tool
    let (n, tools, events') := startPendingAll n tools
    (n, tool :: tools, events ++ events')

def startPendingToolBlocks : Sends U V := fun s =>
  if s.lastMessagesType = .tools then
    let (n, tools, events) := startPendingAll host s.uuids s.toolCalls
    ({ s with uuids := n, toolCalls := tools }, events)
  else (s, [])

def appendStopOpenBlocks : Sends U V := (startPendingToolBlocks host).andThen fun s => (s, stopOpenBlocks s)

/-- Nothing is open, and the next index is free. -/
def advanceIndex (s : ClaudeConvertInfo U) : ClaudeConvertInfo U :=
  match s.lastMessagesType with
  | .tools => { s with
      lastMessagesType := .none
      index := s.toolCallBaseIndex + s.toolCalls.length
      toolCallBaseIndex := 0
      toolCallMaxIndexOffset := 0
      toolCalls := []
      toolCallByIndex := ∅
      toolCallByID := ∅ }
  | _ => { s with lastMessagesType := .none, index := s.index + 1 }

def stopOpenBlocksAndAdvance : Sends U V := fun s =>
  if s.lastMessagesType = .none then (s, [])
  else
    let (s, events) := appendStopOpenBlocks host s
    (advanceIndex s, events)

/-! ## Citations -/

/-- `kitutil.Interface2String`. -/
def interface2String : Option Json → String
  | some (.string s) => s
  | some (.number n) => host.formatFloatPlain n
  | some (.bool b) => Json.boolText b
  | some .null | none => ""
  | some value => value.printed host.formatFloat

/-- The citation of an annotation; the text that it could be cut from is empty. -/
def claudeCitation (item : Json.Fields) : Option Json :=
  if trimSpace (interface2String host (item.lookup "type")) ≠ "url_citation" then none
  else
    let citation := match item.lookup "url_citation" with
      | some (.object citation) => citation
      | _ => item
    let url := trimSpace (interface2String host (citation.lookup "url"))
    let title := trimSpace (interface2String host (citation.lookup "title"))
    let citedText := interface2String host (citation.lookup "cited_text")
    let encryptedIndex := interface2String host (citation.lookup "encrypted_index")
    if url = "" then none
    else
      some (.object (
        (if citedText = "" then [] else [("cited_text", .string citedText)]) ++
        (if encryptedIndex = "" then [] else [("encrypted_index", .string encryptedIndex)]) ++
        (if title = "" then [] else [("title", .string title)]) ++
        [("type", .string "web_search_result_location"), ("url", .string url)]))

def annotationFields : Json → Option Json.Fields
  | .object fields => some fields
  | .null => some []
  | _ => none

def chatAnnotationsToClaude (raw : Raw) : List Json :=
  match raw.decoded with
  | some (.array items) =>
    match items.mapM annotationFields with
    | some annotations => annotations.filterMap (claudeCitation host)
    | none => []
  | _ => []

/-! ## Text, thinking and citations -/

/-- A text or a thinking block becomes the open one. -/
def openBlock (type : LastMessagesType) (block : ContentBlock) : Sends U V := fun s =>
  if s.lastMessagesType = type then (s, [])
  else
    ((stopOpenBlocksAndAdvance host).andThen fun s =>
      ({ s with lastMessagesType := type }, [.contentBlockStart s.index block])) s

def appendThinking (reasoning : String) : Sends U V :=
  (openBlock host .thinking .thinking).andThen fun s => (s, [.contentBlockDelta s.index (.thinking reasoning)])

def appendText (text : String) : Sends U V :=
  (openBlock host .text .text).andThen fun s => (s, [.contentBlockDelta s.index (.text text)])

def appendCitationDeltas (raw : Raw) : Sends U V := fun s =>
  let citations := chatAnnotationsToClaude host raw
  if citations = [] then (s, [])
  else
    ((openBlock host .text .text).andThen fun s =>
      (s, citations.map fun citation => .contentBlockDelta s.index (.citations citation))) s

/-! ## Calls -/

/-- The call of a fragment among the calls with these ids: the one with the id of the fragment, or the last one at
its index if that has no other id. -/
def findTool (ids : List String) (byIndex : AList fun _ : ℤ => ℕ) (byID : AList fun _ : String => ℕ) (toolIndex : ℤ)
    (incomingID : String) : Option ℕ :=
  match (if incomingID = "" then none else byID.lookup incomingID) <|> byIndex.lookup toolIndex with
  | none => none
  | some position =>
    let id := ids.getD position ""
    if incomingID ≠ "" ∧ id ≠ "" ∧ id ≠ incomingID then none else some position

/-- The call that a fragment belongs to, which is a new one if there is none. -/
def placeTool (toolIndex : ℤ) (incomingID : String) (s : ClaudeConvertInfo U) : ℕ × ClaudeConvertInfo U :=
  match findTool (s.toolCalls.map (·.id)) s.toolCallByIndex s.toolCallByID toolIndex incomingID with
  | some position => (position, { s with toolCallByIndex := s.toolCallByIndex.insert toolIndex position })
  | none =>
    let position := s.toolCalls.length
    (position, { s with
      toolCalls := s.toolCalls ++ [{ blockIndex := s.toolCallBaseIndex + position }]
      toolCallByIndex := s.toolCallByIndex.insert toolIndex position })

/-- The call with what the fragment says of it. -/
def ClaudeStreamToolCall.note (toolCall : ToolCallResponse) (tool : ClaudeStreamToolCall) : ClaudeStreamToolCall :=
  { tool with
    id := if tool.id = "" then trimSpace toolCall.id else tool.id
    name := if tool.name = "" then trimSpace toolCall.function.name else tool.name
    pendingArguments :=
      if tool.started then tool.pendingArguments else tool.pendingArguments ++ toolCall.function.arguments }

/-- The call after a fragment, and the events of it. -/
def ClaudeStreamToolCall.advance (arguments : String) (tool : ClaudeStreamToolCall) :
    ClaudeStreamToolCall × List (Event V) :=
  if !tool.started && tool.id ≠ "" && tool.name ≠ "" then (tool.start, startToolEvents tool)
  else if tool.started && arguments ≠ "" then
    (tool, [.contentBlockDelta tool.blockIndex (.inputJson arguments)])
  else (tool, [])

def appendToolCall (position : ℕ) (toolCall : ToolCallResponse) : Sends U V := fun s =>
  let incomingID := trimSpace toolCall.id
  let (place, s) := placeTool (toolCall.index.getD position) incomingID s
  match s.toolCalls[place]? with
  | none => (s, [])
  | some tool =>
    let (tool', events) := (tool.note toolCall).advance toolCall.function.arguments
    ({ s with
      toolCalls := s.toolCalls.set place tool'
      toolCallByID :=
        if tool.id = "" ∧ incomingID ≠ "" then s.toolCallByID.insert incomingID place else s.toolCallByID }, events)

def appendToolCallsFrom (position : ℕ) : List ToolCallResponse → Sends U V
  | [] => .none
  | toolCall :: toolCalls => (appendToolCall position toolCall).andThen (appendToolCallsFrom (position + 1) toolCalls)

def openTools : Sends U V := fun s =>
  if s.lastMessagesType = .tools then (s, [])
  else
    ((stopOpenBlocksAndAdvance host).andThen fun s =>
      ({ s with
        lastMessagesType := .tools
        toolCallBaseIndex := s.index
        toolCallMaxIndexOffset := 0
        toolCalls := []
        toolCallByIndex := ∅
        toolCallByID := ∅ }, [])) s

def appendToolCalls (toolCalls : List ToolCallResponse) : Sends U V :=
  ((openTools host).andThen (appendToolCallsFrom 0 toolCalls)).andThen fun s =>
    ({ s with
      toolCallMaxIndexOffset := s.toolCalls.length - 1
      index := if s.toolCalls = [] then s.index else s.toolCallBaseIndex + s.toolCalls.length - 1 }, [])

/-! ## The end -/

/-- `reasonmap.OpenAIFinishReasonToClaudeStopReason`. -/
def stopReasonOpenAI2Claude (reason : String) : String :=
  match host.lower reason with
  | "stop" => "end_turn"
  | "stop_sequence" => "stop_sequence"
  | "length" | "max_tokens" => "max_tokens"
  | "content_filter" => "refusal"
  | "tool_calls" => "tool_use"
  | _ => reason

def clientVisibleClaudeStreamUsage (incoming : Option U) (s : ClaudeConvertInfo U) : ClaudeConvertInfo U × Option V :=
  let prior := s.usage.map host.usageFromOpenAI
  let converted := incoming.map host.usageFromOpenAI
  let s := match incoming with
    | some usage => { s with usage := some (host.mergeUsageNonZero s.usage usage) }
    | none => s
  (s, match prior, converted with
    | none, converted => converted
    | some prior, none => some prior
    | some prior, some converted => some (host.mergeClaudeUsageNonZero prior converted))

/-- The last two events, after the blocks are closed. -/
def endMessage (usage : Option V) (stopReason : String) : Sends U V :=
  (appendStopOpenBlocks host).andThen fun s =>
    ({ s with done := true }, [.messageDelta usage stopReason, .messageStop])

/-- The stop reason of a message without one. -/
def stopReasonOrEndTurn (s : ClaudeConvertInfo U) : String :=
  let stopReason := stopReasonOpenAI2Claude host s.finishReason
  if stopReason = "" then "end_turn" else stopReason

/-! ## The calls of the converter -/

def messageStart (chunk : ChatChunk U) : Sends U V := fun s =>
  if s.sendResponseCount = 1 then
    match chunk.usage with
    | some usage =>
      if host.hasOpenAIUsageTokens usage then
        ({ s with usage := some (host.mergeUsageNonZero s.usage usage) },
          [.messageStart chunk.id chunk.model (host.usageFromOpenAI usage)])
      else (s, [.messageStart chunk.id chunk.model host.estimatedUsage])
    | none => (s, [.messageStart chunk.id chunk.model host.estimatedUsage])
  else (s, [])

/-- The finish reason of a choice, which is not empty. -/
def finishReason? (choice : Choice) : Option String := choice.finishReason.filter (· ≠ "")

def noteFinishReason (choice : Choice) (s : ClaudeConvertInfo U) : ClaudeConvertInfo U :=
  match finishReason? choice with
  | some reason => { s with finishReason := reason }
  | none => s

/-- The one field of a choice that is converted, and its annotations. -/
def convertDelta (delta : ChoiceDelta) : Sends U V :=
  (if delta.toolCalls ≠ [] then appendToolCalls host delta.toolCalls
    else if delta.getReasoningContent ≠ "" then appendThinking host delta.getReasoningContent
    else if delta.getContentString ≠ "" then appendText host delta.getContentString
    else .none : Sends U V).andThen (appendCitationDeltas host delta.annotations)

/-- The message ends if there is a usage for it, of the chunk or of one before. -/
def endWithUsage (incoming : Option U) (stopReason : ClaudeConvertInfo U → String) : Sends U V := fun s =>
  let (s, usage) := clientVisibleClaudeStreamUsage host incoming s
  match usage with
  | some usage => endMessage host (some usage) (stopReason s) s
  | none => (s, [])

/-- The end of a choice with a finish reason. -/
def finishChoice (chunk : ChatChunk U) (choice : Choice) : Sends U V := fun s =>
  if (finishReason? choice).isSome || s.done then
    endWithUsage host chunk.usage (fun s => stopReasonOpenAI2Claude host s.finishReason) s
  else (s, [])

/-- What a chunk brings: its first choice, or a usage only, with which some streams end. -/
def convertChoices (chunk : ChatChunk U) : Sends U V := fun s =>
  match chunk.choices with
  | [] => endWithUsage host chunk.usage (stopReasonOrEndTurn host) s
  | choice :: _ =>
    ((convertDelta host choice.delta).andThen (finishChoice host chunk choice)) (noteFinishReason choice s)

def streamResponseOpenAI2Claude (chunk : ChatChunk U) : Sends U V := fun s =>
  if s.done then (s, []) else ((messageStart host chunk).andThen (convertChoices host chunk)) s

def finalizeStreamResponseOpenAI2Claude : Sends U V := fun s =>
  if s.done then (s, [])
  else
    let (s, usage) := clientVisibleClaudeStreamUsage host none s
    endMessage host usage (stopReasonOrEndTurn host s) s

/-- A chunk of a stream: the count is raised before it is converted. -/
def convertChunk (chunk : ChatChunk U) : Sends U V := fun s =>
  streamResponseOpenAI2Claude host chunk { s with sendResponseCount := s.sendResponseCount + 1 }

/-- The events of a whole stream. -/
def stream (chunks : List (ChatChunk U)) : List (Event V) :=
  ((Sender.each (convertChunk host) chunks).andThen (finalizeStreamResponseOpenAI2Claude host) {}).2

end Vancine.Streams.ChatToClaude
