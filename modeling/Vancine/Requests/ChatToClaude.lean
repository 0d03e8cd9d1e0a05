import Vancine.Lib.Json

/-!
# A chat request for Claude

The messages of a chat request are brought into shape first: roles are mapped, neighbours of one role with plain text
are merged, and empty texts get a placeholder. Then the system messages go into blocks of their own, the results of
tools are added to the user message before them, and the other messages become messages of Claude.

The content of a message is text here: plain, in parts, or absent.
-/

namespace Vancine.Requests

open Lib

inductive Content
  | absent
  | text (s : String)
  | parts (texts : List String)
  deriving DecidableEq

structure ToolCall where
  id : String
  name : String
  arguments : String
  deriving DecidableEq

/-- A message as it is sent. The tool calls are absent, or a list. -/
structure ChatMessage where
  role : String
  content : Content := .absent
  toolCallId : String := ""
  toolCalls : Option (List ToolCall) := none

inductive Role
  | system
  | user
  | assistant
  | tool
  deriving DecidableEq

/-- `dto.Message` after the first pass. -/
structure Message where
  role : Role
  content : Content
  toolCallId : String := ""
  toolCalls : Option (List ToolCall) := none

inductive Block
  | text (s : String)
  | toolUse (id name : String) (input : Json.Fields)
  | toolResult (toolUseId : String) (content : Content)

inductive ClaudeContent
  | text (s : String)
  | blocks (items : List Block)

structure ClaudeMessage where
  role : Role
  content : ClaudeContent

inductive ConvertError
  | reasoning
  | panicked
  | missingMaxTokens

/-- The parts of a request that are used here. -/
structure ChatRequest where
  messages : List ChatMessage
  /-- `none` when the field is missing. -/
  stop : Option Json := none
  maxCompletionTokens : Option ℕ := none
  maxTokens : Option ℕ := none

structure ClaudeRequest where
  system : List String
  messages : List ClaudeMessage
  stopSequences : Option (List String)
  maxTokens : ℕ

/-- `ApplyReasoning`, which may set the token limit, the configured limit of a model, and the decoding of the arguments
of a tool call: what is no object leaves the empty object or a part of it. -/
structure ConvertLibrary where
  applyReasoning : Option ℕ → Option (Option ℕ)
  defaultMaxTokens : Option ℕ
  decodeArguments : String → Json.Fields

/-! ## The first pass -/

section FirstPass

def mapRole (role : String) (toolCallId : String) : Role :=
  if role = "developer" ∨ role = "system" then .system
  else if role = "assistant" then .assistant
  else if (role = "function" ∨ role = "tool") ∧ toolCallId ≠ "" then .tool
  else .user

namespace Content

/-- `StringContent`. -/
def stringContent : Content → String
  | .absent => ""
  | .text s => s
  | .parts texts => String.join texts

def isStringContent : Content → Bool
  | .text _ => true
  | _ => false

/-- The texts of `ParseContent`. -/
def parseContent : Content → List String
  | .absent => []
  | .text s => [s]
  | .parts texts => texts

/-- An empty text gets a placeholder. -/
def orPlaceholder : Content → Content
  | .absent => .text "..."
  | .text s => if s = "" then .text "..." else .text s
  | .parts texts => .parts texts

end Content

/-- A message by itself. -/
def formatMessage (message : ChatMessage) : Message :=
  let role := mapRole message.role message.toolCallId
  { role
    content := message.content
    toolCallId := if role = .tool then message.toolCallId else ""
    toolCalls := if role = .assistant then message.toolCalls else none }

/-- The message is merged into the last one. -/
def merges (last message : Message) : Bool :=
  decide (last.role = message.role) && decide (last.role ≠ .tool) && last.content.isStringContent &&
    message.content.isStringContent

/-- One round of the first loop, with the messages so far and the last one. -/
def formatStep (state : List Message × Message) (message : ChatMessage) : List Message × Message :=
  let (formatMessages, last) := state
  let fmtMessage := formatMessage message
  if merges last fmtMessage then
    let merged := .text (last.content.stringContent ++ " " ++ fmtMessage.content.stringContent)
    let next := { fmtMessage with content := Content.orPlaceholder merged }
    (formatMessages.dropLast ++ [next], next)
  else
    let next := { fmtMessage with content := fmtMessage.content.orPlaceholder }
    (formatMessages ++ [next], next)

/-- The last message is a tool message before there is one. -/
def formatMessages (messages : List ChatMessage) : List Message :=
  (messages.foldl formatStep ([], { role := .tool, content := .absent })).1

end FirstPass

/-! ## The second pass -/

section SecondPass

variable (lib : ConvertLibrary)

structure Converting where
  claudeMessages : List ClaudeMessage := []
  isFirstMessage : Bool := true
  systemMessages : List String := []

def placeholderUserMessage : ClaudeMessage := ⟨.user, .blocks [.text "..."]⟩

def ClaudeContent.toBlocks : ClaudeContent → List Block
  | .text s => [.text s]
  | .blocks items => items

def systemTexts (content : Content) : List String := content.parseContent.filter (· ≠ "")

def useBlocks (toolCalls : Option (List ToolCall)) : List Block :=
  (toolCalls.getD []).map fun call => .toolUse call.id call.name (lib.decodeArguments call.arguments)

/-- A message that is neither a system message nor the result of a tool. -/
def claudeContent (message : Message) : ClaudeContent :=
  if message.content.isStringContent ∧ message.toolCalls.isNone then
    .text (if message.content.stringContent = "" then "..." else message.content.stringContent)
  else .blocks ((systemTexts message.content).map .text ++ useBlocks lib message.toolCalls)

/-- The result of a tool is added to a user message, or makes one. -/
def addToolResult (claudeMessages : List ClaudeMessage) (result : Block) : List ClaudeMessage :=
  match claudeMessages.getLast? with
  | some last =>
    if last.role = .user then
      claudeMessages.dropLast ++ [{ last with content := .blocks (last.content.toBlocks ++ [result]) }]
    else claudeMessages ++ [⟨.user, .blocks [result]⟩]
  | none => [⟨.user, .blocks [result]⟩]

/-- One round of the second loop. -/
def convertStep (state : Converting) (message : Message) : Converting :=
  if message.role = .system then
    { state with systemMessages := state.systemMessages ++ systemTexts message.content }
  else
    let claudeMessages :=
      if state.isFirstMessage ∧ message.role ≠ .user then state.claudeMessages ++ [placeholderUserMessage]
      else state.claudeMessages
    { state with
      isFirstMessage := false
      claudeMessages :=
        if message.role = .tool then addToolResult claudeMessages (.toolResult message.toolCallId message.content)
        else claudeMessages ++ [⟨message.role, claudeContent lib message⟩] }

def convertMessages (messages : List Message) : Converting :=
  let state := messages.foldl (convertStep lib) {}
  if state.claudeMessages.isEmpty ∧ ¬state.systemMessages.isEmpty then
    { state with claudeMessages := [placeholderUserMessage] }
  else state

end SecondPass

/-! ## The request -/

/-- The assertion `item.(string)`, which panics on what is no text. -/
def stopItem (item : Json) : Except ConvertError String :=
  match item.string? with
  | some stop => .ok stop
  | none => .error .panicked

def stopSequences : Option Json → Except ConvertError (Option (List String))
  | some (.string stop) => .ok (some [stop])
  | some (.array items) => (items.mapM stopItem).map some
  | _ => .ok none

def positive (tokens : Option ℕ) : Option ℕ := tokens.filter (0 < ·)

/-- The token limit, if the options of the reasoning are valid. -/
def maxTokensOf (lib : ConvertLibrary) (request : ChatRequest) : Except ConvertError (Option ℕ) :=
  match lib.applyReasoning ((positive request.maxCompletionTokens).or (positive request.maxTokens)) with
  | none => .error .reasoning
  | some maxTokens => .ok (maxTokens.or lib.defaultMaxTokens)

/-- `OpenAIChatRequestToClaudeMessages`, as far as its messages go. -/
def openAIChatRequestToClaudeMessages (lib : ConvertLibrary) (request : ChatRequest) :
    Except ConvertError ClaudeRequest := do
  let maxTokens ← maxTokensOf lib request
  let stop ← stopSequences request.stop
  let state := convertMessages lib (formatMessages request.messages)
  match maxTokens with
  | none => .error .missingMaxTokens
  | some maxTokens =>
    .ok { system := state.systemMessages, messages := state.claudeMessages, stopSequences := stop, maxTokens }

end Vancine.Requests
