import Vancine.Streams.ChatClient
import Vancine.Streams.GeminiPartialCalls

/-!
# From Gemini to chat

An answer of Gemini is a list of candidates, each with parts: thoughts, texts, images, code and function calls. Each
candidate becomes a choice. A stream brings the parts of the candidates in chunks.

Annotations from grounding are left out.
-/

namespace Vancine.Streams.Gemini

open Lib

/-! ## Answers of Gemini -/

structure GeminiInlineData where
  mimeType : String
  data : String

structure GeminiPartExecutableCode where
  language : String
  code : String

structure GeminiPart where
  text : String := ""
  thought : Bool := false
  inlineData : Option GeminiInlineData := none
  functionCall : Option FunctionCall := none
  executableCode : Option GeminiPartExecutableCode := none
  /-- The output of the result. -/
  codeExecutionResult : Option String := none

structure GeminiChatCandidate where
  index : ℤ := 0
  parts : List GeminiPart := []
  finishReason : Option String := none

/-- `dto.GeminiChatResponse`, with the usage that it reports. -/
structure GeminiChatResponse (U : Type) where
  candidates : List GeminiChatCandidate
  usage : Option U := none

/-- What the host gives: JSON, quoted strings, and the ids of `kitutil.GetUUID` one after the other. -/
structure Host extends Quoting where
  marshal : Json → String
  uuid : ℕ → String

variable {U : Type} (host : Host)

/-! ## Parts -/

/-- The content of a choice as it is written, and how many parts were written. -/
structure Content where
  text : String := ""
  appended : ℕ := 0

/-- A part on a new line. -/
def Content.write (part : String) (content : Content) : Content :=
  ⟨(if content.appended > 0 then content.text ++ "\n" else content.text) ++ part, content.appended + 1⟩

def GeminiInlineData.isImage (d : GeminiInlineData) : Bool := "image".toList.isPrefixOf d.mimeType.toList

def GeminiInlineData.image (d : GeminiInlineData) : String := "![image](data:" ++ d.mimeType ++ ";base64," ++ d.data ++ ")"

def GeminiInlineData.media (d : GeminiInlineData) : String := "[media](data:" ++ d.mimeType ++ ";base64," ++ d.data ++ ")"

/-- The call, and how many ids were given after it. `n` were given before. -/
def geminiResponseToolCall (n : ℕ) (call : FunctionCall) : ToolCallResponse × ℕ :=
  let callID := trimSpace call.id
  if callID = "" then (⟨none, "call_" ++ host.uuid n, call.functionName, host.marshal call.arguments⟩, n + 1)
  else (⟨none, callID, call.functionName, host.marshal call.arguments⟩, n)

/-- What a finish reason becomes. Everything but the ordinary ends is a filter. -/
def geminiFinishReason (reason : String) : String :=
  match reason with
  | "STOP" => "stop"
  | "MAX_TOKENS" => "length"
  | _ => "content_filter"

/-! ## A whole answer -/

structure WholeChoice where
  content : Content := {}
  reasoningContent : Option String := none
  toolCalls : List ToolCallResponse := []
  finishReason : String := "stop"
  uuids : ℕ

def wholePart (w : WholeChoice) (part : GeminiPart) : WholeChoice :=
  match part.inlineData, part.functionCall with
  | some d, _ => { w with content := w.content.write (if d.isImage then d.image else d.media) }
  | none, some call =>
    let (toolCall, n) := geminiResponseToolCall host w.uuids call
    { w with finishReason := "tool_calls", toolCalls := w.toolCalls ++ [toolCall], uuids := n }
  | none, none =>
    if part.thought then { w with reasoningContent := some part.text }
    else
      match part.executableCode, part.codeExecutionResult with
      | some code, _ =>
        { w with content := w.content.write ("```" ++ code.language ++ "\n" ++ code.code ++ "\n```") }
      | none, some output => { w with content := w.content.write ("```output\n" ++ output ++ "\n```") }
      | none, none => if part.text = "\n" then w else { w with content := w.content.write part.text }

def wholeCandidate (n : ℕ) (candidate : GeminiChatCandidate) : WholeChoice :=
  candidate.parts.foldl (wholePart host) { uuids := n }

def WholeChoice.choice (candidate : GeminiChatCandidate) (isToolCall : Bool) (w : WholeChoice) : TextChoice :=
  let finishReason := match candidate.finishReason with
    | some reason => geminiFinishReason reason
    | none => w.finishReason
  { index := candidate.index
    message := {
      role := "assistant"
      content := some w.content.text
      reasoningContent := w.reasoningContent
      toolCalls := w.toolCalls }
    finishReason := if isToolCall then "tool_calls" else finishReason }

/-- The choices of the candidates. A call in a candidate marks all choices from there on. -/
def wholeChoices (isToolCall : Bool) (n : ℕ) : List GeminiChatCandidate → List TextChoice
  | [] => []
  | candidate :: candidates =>
    let w := wholeCandidate host n candidate
    let isToolCall := isToolCall || !w.toolCalls.isEmpty
    w.choice candidate isToolCall :: wholeChoices isToolCall w.uuids candidates

/-- The answer, of which `n` ids were given before. -/
def responseGeminiChat2OpenAI (n : ℕ) (id : String) (created : ℤ) (response : GeminiChatResponse U) : TextResponse U :=
  { id := id, created := created, choices := wholeChoices host false n response.candidates }

/-! ## A chunk -/

structure ChunkChoice where
  content : Content := {}
  toolCalls : List ToolCallResponse := []
  isTools : Bool := false
  isThought : Bool := false
  uuids : ℕ

def streamPart (w : ChunkChoice) (part : GeminiPart) : ChunkChoice :=
  match part.inlineData, part.functionCall with
  | some d, _ => if d.isImage then { w with content := w.content.write d.image } else w
  | none, some call =>
    let (toolCall, n) := geminiResponseToolCall host w.uuids call
    { w with isTools := true, toolCalls := w.toolCalls ++ [{ toolCall with index := some w.toolCalls.length }], uuids := n }
  | none, none =>
    if part.thought then { w with isThought := true, content := w.content.write part.text }
    else
      match part.executableCode, part.codeExecutionResult with
      | some code, _ =>
        { w with content := w.content.write ("```" ++ code.language ++ "\n" ++ code.code ++ "\n```\n") }
      | none, some output => { w with content := w.content.write ("```output\n" ++ output ++ "\n```\n") }
      | none, none => if part.text = "\n" then w else { w with content := w.content.write part.text }

/-- The finish reason of a candidate in a chunk. That of an ordinary stop is left to the last chunk. -/
def chunkFinishReason (candidate : GeminiChatCandidate) : Option String :=
  (candidate.finishReason.filter (· ≠ "STOP")).map geminiFinishReason

def streamCandidate (n : ℕ) (candidate : GeminiChatCandidate) : ChunkChoice :=
  candidate.parts.foldl (streamPart host) { uuids := n }

/-- The content is reasoning if there is a thought in it. -/
def ChunkChoice.delta (w : ChunkChoice) : SentDelta :=
  if w.isThought then { reasoningContent := some w.content.text, toolCalls := w.toolCalls }
  else { content := some w.content.text, toolCalls := w.toolCalls }

def ChunkChoice.choice (candidate : GeminiChatCandidate) (w : ChunkChoice) : SentChoice :=
  { index := candidate.index
    delta := w.delta
    finishReason := if w.isTools then some "tool_calls" else chunkFinishReason candidate }

def streamChoices (n : ℕ) : List GeminiChatCandidate → List SentChoice × ℕ
  | [] => ([], n)
  | candidate :: candidates =>
    let w := streamCandidate host n candidate
    let (choices, n) := streamChoices w.uuids candidates
    (w.choice candidate :: choices, n)

/-- A candidate has stopped. -/
def isStop (candidates : List GeminiChatCandidate) : Bool := candidates.any (·.finishReason = some "STOP")

def streamResponseGeminiChat2OpenAI (n : ℕ) (response : GeminiChatResponse U) : SentChunk U × ℕ :=
  let (choices, n) := streamChoices host n response.candidates
  ({ choices := choices, usage := response.usage }, n)

/-! ## A stream -/

structure GeminiToChatStreamState (U : Type) where
  id : String
  created : ℤ
  sawToolCall : Bool := false
  finishEmitted : Bool := false
  latestUsage : Option U := none
  nextToolIndexByCandidate : AList fun _ : ℤ => ℕ := ∅
  /-- The indices of the calls of a candidate by their ids. -/
  toolIndexByCandidateID : AList fun _ : ℤ × String => ℕ := ∅
  partialToolByCandidate : PartialTools := ∅
  /-- How many ids were given. -/
  uuids : ℕ := 0

/-- A new stream, at a time. -/
def newGeminiToChatStreamState (timestamp : ℤ) (id : String) (created : ℤ) : GeminiToChatStreamState U :=
  let created := if created = 0 then timestamp else created
  if trimSpace id = "" then { id := "chatcmpl-" ++ host.uuid 0, created := created, uuids := 1 }
  else { id := trimSpace id, created := created }

def prepareParts (candidateIndex : ℤ) (tools : PartialTools) :
    List GeminiPart → Except String (PartialTools × List GeminiPart)
  | [] => .ok (tools, [])
  | part :: parts =>
    match part.functionCall with
    | none => (prepareParts candidateIndex tools parts).map fun r => (r.1, part :: r.2)
    | some call =>
      if isComplete tools candidateIndex call then
        (prepareParts candidateIndex tools parts).map fun r => (r.1, part :: r.2)
      else
        match appendPartialFunctionCall host.toQuoting tools candidateIndex call with
        | .error e => .error ("reconstruct Gemini streamed function arguments: " ++ e)
        | .ok (tools, none) => prepareParts candidateIndex tools parts
        | .ok (tools, some completed) =>
          (prepareParts candidateIndex tools parts).map fun r =>
            (r.1, { part with functionCall := some completed } :: r.2)

def preparePartialFunctionCalls (tools : PartialTools) :
    List GeminiChatCandidate → Except String (PartialTools × List GeminiChatCandidate)
  | [] => .ok (tools, [])
  | candidate :: candidates =>
    match prepareParts host candidate.index tools candidate.parts with
    | .error e => .error e
    | .ok (tools, parts) =>
      (preparePartialFunctionCalls tools candidates).map fun r => (r.1, { candidate with parts := parts } :: r.2)

/-- A candidate has ended in another way than with a stop. -/
def hasNonStopFinish (candidates : List GeminiChatCandidate) : Bool :=
  candidates.any fun candidate => candidate.finishReason.any fun reason => reason ≠ "" && reason ≠ "STOP"

namespace GeminiToChatStreamState

variable (s : GeminiToChatStreamState U)

/-- The index of a call, which is a new one unless its id has one. -/
def stableIndex (candidateIndex : ℤ) (callID : String) : ℕ × GeminiToChatStreamState U :=
  match if callID = "" then none else s.toolIndexByCandidateID.lookup (candidateIndex, callID) with
  | some stableIndex => (stableIndex, s)
  | none =>
    let stableIndex := (s.nextToolIndexByCandidate.lookup candidateIndex).getD 0
    (stableIndex, { s with
      nextToolIndexByCandidate := s.nextToolIndexByCandidate.insert candidateIndex (stableIndex + 1)
      toolIndexByCandidateID :=
        if callID = "" then s.toolIndexByCandidateID
        else s.toolIndexByCandidateID.insert (candidateIndex, callID) stableIndex })

/-- The calls of a choice with their indices. -/
def numberCalls (candidateIndex : ℤ) :
    GeminiToChatStreamState U → List ToolCallResponse → List ToolCallResponse × GeminiToChatStreamState U
  | s, [] => ([], s)
  | s, toolCall :: toolCalls =>
    let (index, s) := s.stableIndex candidateIndex (trimSpace toolCall.id)
    let (toolCalls, s) := numberCalls candidateIndex s toolCalls
    ({ toolCall with index := some index } :: toolCalls, s)

def numberChoices : GeminiToChatStreamState U → List SentChoice → List SentChoice × GeminiToChatStreamState U
  | s, [] => ([], s)
  | s, choice :: choices =>
    let (toolCalls, s) := s.numberCalls choice.index choice.delta.toolCalls
    let (choices, s) := numberChoices s choices
    ({ choice with delta := { choice.delta with toolCalls := toolCalls } } :: choices, s)

end GeminiToChatStreamState

/-- `IsToolCall` of a chunk: only its first choice is looked at. -/
def isToolCall (choices : List SentChoice) : Bool := choices.head?.any fun choice => !choice.delta.toolCalls.isEmpty

/-- The finish reason of the calls is left to the last chunk. -/
def clearToolCallsFinish (choice : SentChoice) : SentChoice :=
  if choice.finishReason = some "tool_calls" then { choice with finishReason := none } else choice

def terminalChunk (model : String) (s : GeminiToChatStreamState U) : SentChunk U :=
  { id := s.id
    model := model
    created := s.created
    choices := [{ finishReason := some (if s.sawToolCall then "tool_calls" else "stop") }]
    usage := s.latestUsage }

def finishes (choices : List SentChoice) : Bool := choices.any fun choice => choice.finishReason.any (· ≠ "")

/-- The chunk with the choices is sent, and the last chunk after it if a candidate has stopped and nothing has
finished. -/
def sendChoices (model : String) (usage : Option U) (candidates : List GeminiChatCandidate) (choices : List SentChoice)
    (s : GeminiToChatStreamState U) : GeminiToChatStreamState U × List (SentChunk U) :=
  let toolCall := isToolCall choices
  let choices := if toolCall && !hasNonStopFinish candidates then choices.map clearToolCallsFinish else choices
  let s := { s with
    sawToolCall := s.sawToolCall || toolCall
    latestUsage := usage <|> s.latestUsage
    finishEmitted := s.finishEmitted || finishes choices }
  let response : SentChunk U := { id := s.id, created := s.created, model := model, choices := choices, usage := usage }
  if isStop candidates && !s.finishEmitted then ({ s with finishEmitted := true }, [response, terminalChunk model s])
  else (s, [response])

/-- A chunk of the stream, with the usage that goes with it. -/
def convertChunk (model : String) (s : GeminiToChatStreamState U) (geminiResponse : GeminiChatResponse U)
    (usage : Option U) : Except String (GeminiToChatStreamState U × List (SentChunk U)) :=
  match preparePartialFunctionCalls host s.partialToolByCandidate geminiResponse.candidates with
  | .error e => .error e
  | .ok (tools, candidates) =>
    let (response, n) := streamResponseGeminiChat2OpenAI host s.uuids { geminiResponse with candidates := candidates }
    let (choices, s) := { s with partialToolByCandidate := tools, uuids := n }.numberChoices response.choices
    .ok (sendChoices model usage candidates choices s)

def finalize (model : String) (s : GeminiToChatStreamState U) :
    Except String (GeminiToChatStreamState U × List (SentChunk U)) :=
  match s.partialToolByCandidate.keys.min? with
  | some candidateIndex =>
    let tool := (s.partialToolByCandidate.lookup candidateIndex).getD {}
    .error ("Gemini stream ended with an incomplete function call for candidate " ++ toString candidateIndex ++
      " (id " ++ host.quoted tool.id ++ ", name " ++ host.quoted tool.name ++ ")")
  | none =>
    if s.finishEmitted then .ok (s, []) else .ok ({ s with finishEmitted := true }, [terminalChunk model s])

/-- A stream: what is sent for each response, and what is sent at the end. -/
def stream (model : String) (s : GeminiToChatStreamState U) :
    List (GeminiChatResponse U × Option U) → Except String (List (List (SentChunk U)))
  | [] => (finalize host model s).map fun r => [r.2]
  | (response, usage) :: responses =>
    match convertChunk host model s response usage with
    | .error e => .error e
    | .ok (s, chunks) => (stream model s responses).map (chunks :: ·)

end Vancine.Streams.Gemini
