import Vancine.Streams.ClaudeToChat

/-!
# A Claude answer converts the same streamed or whole

A message is streamed block by block. The chunks of the stream give the texts of the text blocks, the thinking of all
thinking blocks, and one call for each `tool_use` block. The whole message gives the same texts and calls, but the
thinking of one block only.
-/

namespace Vancine.Streams.ClaudeToChat

open Lib

variable {U V W : Type} (host : ChatToClaude.Host U V) (marshal : Json → String)

/-! ## Messages and their streams -/

inductive TextDelta
  | text (text : String)
  | citation (citation : Raw)

inductive ThinkingDelta
  | thinking (thinking : String)
  | signature (signature : String)

/-- A content block and the way in which it is streamed. -/
inductive StreamedBlock
  | text (start : String) (startCitations : Raw) (deltas : List TextDelta) (citations : Raw)
  | thinking (deltas : List ThinkingDelta)
  | toolUse (id name : String) (input : Json) (partialJsons : List String)

def TextDelta.value : TextDelta → String
  | .text t => t
  | .citation _ => ""

def ThinkingDelta.value : ThinkingDelta → String
  | .thinking t => t
  | .signature _ => ""

def TextDelta.media : TextDelta → ClaudeMediaMessage
  | .text t => { type := "text_delta", text := some t }
  | .citation c => { type := "citations_delta", citation := c }

def ThinkingDelta.media : ThinkingDelta → ClaudeMediaMessage
  | .thinking t => { type := "thinking_delta", thinking := some t }
  | .signature _ => { type := "signature_delta" }

def inputJsonDelta (partialJson : String) : ClaudeMediaMessage :=
  { type := "input_json_delta", partialJson := some partialJson }

namespace StreamedBlock

/-- The text of a text block. -/
def textValue : StreamedBlock → String
  | .text start _ deltas _ => start ++ String.join (deltas.map (·.value))
  | _ => ""

/-- The thinking of a thinking block. -/
def thinking? : StreamedBlock → Option String
  | .thinking deltas => some (String.join (deltas.map (·.value)))
  | _ => none

/-- The block of the whole message. -/
def whole : StreamedBlock → ClaudeMediaMessage
  | .text start _ deltas citations =>
    { type := "text", text := some (start ++ String.join (deltas.map (·.value))), citations := citations }
  | .thinking deltas => { type := "thinking", thinking := some (String.join (deltas.map (·.value))) }
  | .toolUse id name input _ => { type := "tool_use", id := id, name := name, input := input }

/-- The block as its stream begins. -/
def started : StreamedBlock → ClaudeMediaMessage
  | .text start startCitations _ _ => { type := "text", text := some start, citations := startCitations }
  | .thinking _ => { type := "thinking", thinking := some "" }
  | .toolUse id name _ _ => { type := "tool_use", id := id, name := name, input := .object [] }

def deltas : StreamedBlock → List ClaudeMediaMessage
  | .text _ _ deltas _ => deltas.map (·.media)
  | .thinking deltas => deltas.map (·.media)
  | .toolUse _ _ _ partialJsons =>
    partialJsons.map inputJsonDelta

/-- The partial JSON of a call adds up to a text of its input, as the reader of arguments takes it. The stream of an
empty input may have no text at all. -/
def Complete {R : Type} (reading : String → R) : StreamedBlock → Prop
  | .toolUse _ _ input partialJsons =>
    reading (String.join partialJsons) = reading (marshal input) ∨ String.join partialJsons = "" ∧ input = .object []
  | _ => True

/-- A call is streamed with the text of its arguments. -/
def HasArguments : StreamedBlock → Prop
  | .toolUse _ _ _ partialJsons => String.join partialJsons ≠ ""
  | _ => True

end StreamedBlock

def startEvent (i : ℤ) (block : ClaudeMediaMessage) : ClaudeResponse :=
  { type := .contentBlockStart, index := some i, contentBlock := some block }

def deltaEvent (i : ℤ) (delta : ClaudeMediaMessage) : ClaudeResponse :=
  { type := .contentBlockDelta, index := some i, delta := some delta }

def stopEvent (i : ℤ) : ClaudeResponse := { type := .contentBlockStop, index := some i }

def StreamedBlock.events (i : ℤ) (b : StreamedBlock) : List ClaudeResponse :=
  startEvent i b.started :: (b.deltas.map (deltaEvent i) ++ [stopEvent i])

/-- The events of the content, from the block with an index on. -/
def contentEvents (i : ℤ) : List StreamedBlock → List ClaudeResponse
  | [] => []
  | b :: blocks => b.events i ++ contentEvents (i + 1) blocks

def EventType.isOther : EventType → Bool
  | .other _ => true
  | _ => false

/-- A well-formed stream of the blocks. Pings and the like may stand anywhere. -/
def IsStream (blocks : List StreamedBlock) (events : List ClaudeResponse) : Prop :=
  ∃ start tail, start.type = EventType.messageStart ∧
    (∀ e ∈ tail, e.type = EventType.messageDelta ∨ e.type = EventType.messageStop) ∧
    events.filter (fun e => !e.type.isOther) = start :: (contentEvents 0 blocks ++ tail)

/-! ## What is to agree -/

/-- The chunks of a stream with their events. -/
abbrev Sent (W : Type) := List (ClaudeResponse × SentChunk W)

def Sent.deltas (sent : Sent W) : List ChoiceDelta := sent.flatMap fun c => c.2.deltas

def isSignature (event : ClaudeResponse) : Bool :=
  event.type = .contentBlockDelta && event.delta.any (·.type = "signature_delta")

def Sent.unsigned (sent : Sent W) : Sent W := sent.filter fun c => !isSignature c.1

/-- The stream gives the message that the whole answer is converted to. A signature adds a newline to the reasoning,
and nothing else is different. Arguments are compared as they are read, as texts or as values. -/
def Agrees (W : Type) {R : Type} (reading : String → R) (events : List ClaudeResponse) (message : TextMessage) : Prop :=
  ∃ s, ∃ sent : Sent W, convertAll host marshal {} events = .ok (s, sent) ∧
    readText sent.deltas = message.content.getD "" ∧
    readReasoning sent.unsigned.deltas = message.reasoningContent.getD "" ∧
    (∀ c ∈ sent, isSignature c.1 = true → readReasoning c.2.deltas = "\n") ∧
    (readCalls sent.deltas).map (fun c => (c.2.id, c.2.name, reading c.2.arguments)) =
      message.toolCalls.map (fun t => (t.id, t.function.name, reading t.function.arguments)) ∧
    (readCalls sent.deltas).map Prod.fst = (List.range message.toolCalls.length).map Int.ofNat

/-- At most one thinking block says anything, and if one does, it is the last of them or begins the message. -/
def OneThinking (blocks : List StreamedBlock) : Prop :=
  let thinkings := blocks.filterMap (·.thinking?)
  (∀ t ∈ thinkings.dropLast, t = "") ∨
    ((blocks.head?.bind (·.thinking?)).isSome ∧ ∀ t ∈ thinkings.tail, t = "")

/-! ## What chunks say -/

/-- The text, the reasoning without signatures, and the fragments of calls. -/
structure Says (sent : Sent W) (text reasoning : String) (fragments : List ToolCallResponse) : Prop where
  text : readText sent.deltas = text
  reasoning : readReasoning sent.unsigned.deltas = reasoning
  signatures : ∀ c ∈ sent, isSignature c.1 = true → readReasoning c.2.deltas = "\n"
  fragments : sent.deltas.flatMap (·.toolCalls) = fragments

namespace Says

variable {sent sent' : Sent W} {text text' reasoning reasoning' : String} {fragments fragments' : List ToolCallResponse}

theorem nil : Says ([] : Sent W) "" "" [] where
  text := rfl
  reasoning := rfl
  signatures := fun _ h => nomatch h
  fragments := rfl

theorem append (h : Says sent text reasoning fragments) (h' : Says sent' text' reasoning' fragments') :
    Says (sent ++ sent') (text ++ text') (reasoning ++ reasoning') (fragments ++ fragments') where
  text := by
    unfold Sent.deltas
    rw [List.flatMap_append, readText_append]
    exact congrArg₂ _ h.text h'.text
  reasoning := by
    unfold Sent.unsigned Sent.deltas
    rw [List.filter_append, List.flatMap_append, readReasoning_append]
    exact congrArg₂ _ h.reasoning h'.reasoning
  signatures := fun c hc => (List.mem_append.mp hc).elim (h.signatures c) (h'.signatures c)
  fragments := by
    unfold Sent.deltas
    rw [List.flatMap_append, List.flatMap_append]
    exact congrArg₂ _ h.fragments h'.fragments

theorem single (event : ClaudeResponse) {id model : String} {choice : SentChoice}
    (hsig : isSignature event = true → choice.delta.getReasoningContent = "\n") :
    Says [(event, (⟨id, model, 0, [choice], none⟩ : SentChunk W))] choice.delta.getContentString
      (if isSignature event then "" else choice.delta.getReasoningContent) choice.delta.toolCalls where
  text := by simp [Sent.deltas, SentChunk.deltas]
  reasoning := by
    cases h : isSignature event with
    | true => simp [Sent.unsigned, Sent.deltas, h]
    | false => simp [Sent.unsigned, Sent.deltas, SentChunk.deltas, h]
  signatures := by
    intro c hc h
    obtain rfl : c = _ := List.mem_singleton.mp hc
    simpa [SentChunk.deltas] using hsig h
  fragments := by simp [Sent.deltas, SentChunk.deltas]

end Says

/-! ## What a block says -/

/-- The fragments of the arguments of a call. -/
def argumentFragments (toolIndex : ℤ) (partialJsons : List String) : List ToolCallResponse :=
  partialJsons.map fun partialJson => ⟨some toolIndex, "", "", partialJson⟩

/-- The call of a `tool_use` block. -/
def StreamedBlock.call? : StreamedBlock → Option ClientCall
  | .toolUse id name _ partialJsons => some ⟨id, name, String.join partialJsons⟩
  | _ => none

/-- The fragments of a block whose call gets a number. -/
def StreamedBlock.fragments (toolIndex : ℤ) : StreamedBlock → List ToolCallResponse
  | .toolUse id name _ partialJsons => ⟨some toolIndex, id, name, ""⟩ :: argumentFragments toolIndex partialJsons
  | _ => []

/-- The thinking of a block. -/
def StreamedBlock.thinkingValue (b : StreamedBlock) : String := b.thinking?.getD ""

/-- How many calls a block has. -/
def StreamedBlock.callCount (b : StreamedBlock) : ℕ := b.call?.toList.length

/-! ## Runs -/

/-- The blocks from an index on have no numbers yet. -/
def Unnumbered (i : ℤ) (s : ClaudeToChatStreamState) : Prop := ∀ j, i ≤ j → s.toolIndexByContentBlock.lookup j = none

section Runs

variable {host marshal}
variable {s s' s'' : ClaudeToChatStreamState} {events events' : List ClaudeResponse} {text text' reasoning reasoning' : String}
  {fragments fragments' : List ToolCallResponse}

theorem convertAll_cons (s : ClaudeToChatStreamState) (event : ClaudeResponse) (events : List ClaudeResponse) :
    convertAll (W := W) host marshal s (event :: events) =
      (convertChunk host marshal s event).bind fun r =>
        (convertAll host marshal r.1 events).bind fun t => .ok (t.1, (r.2.map fun c => (event, c)).toList ++ t.2) := rfl

theorem convertAll_append {sent sent' : Sent W} (h : convertAll host marshal s events = .ok (s', sent))
    (h' : convertAll host marshal s' events' = .ok (s'', sent')) :
    convertAll host marshal s (events ++ events') = .ok (s'', sent ++ sent') := by
  induction events generalizing s sent with
  | nil =>
    cases h
    exact h'
  | cons event events ih =>
    obtain ⟨⟨s₁, chunk⟩, hchunk, h⟩ := except_bind_ok h
    obtain ⟨⟨s₂, sent₂⟩, hevents, h⟩ := except_bind_ok h
    cases h
    rw [List.cons_append, convertAll_cons, hchunk]
    show (convertAll host marshal s₁ (events ++ events')).bind _ = _
    rw [ih hevents]
    exact congrArg (fun l => Except.ok (s'', l)) (List.append_assoc _ _ _).symm

variable (host marshal) (W)

/-- Events are converted to chunks that say this. -/
def Runs (s : ClaudeToChatStreamState) (events : List ClaudeResponse) (s' : ClaudeToChatStreamState)
    (text reasoning : String) (fragments : List ToolCallResponse) : Prop :=
  ∃ sent : Sent W, convertAll host marshal s events = .ok (s', sent) ∧ Says sent text reasoning fragments

variable {host marshal} {W}

theorem Runs.nil : Runs W host marshal s [] s "" "" [] := ⟨[], rfl, Says.nil⟩

theorem Runs.append (h : Runs W host marshal s events s' text reasoning fragments)
    (h' : Runs W host marshal s' events' s'' text' reasoning' fragments') :
    Runs W host marshal s (events ++ events') s'' (text ++ text') (reasoning ++ reasoning') (fragments ++ fragments') := by
  obtain ⟨sent, hsent, hspoken⟩ := h
  obtain ⟨sent', hsent', hspoken'⟩ := h'
  exact ⟨sent ++ sent', convertAll_append hsent hsent', hspoken.append hspoken'⟩

variable {event : ClaudeResponse}

theorem convertAll_single {chunk : Option (SentChunk W)} (h : convertChunk host marshal s event = .ok (s', chunk)) :
    convertAll host marshal s [event] = .ok (s', (chunk.map fun c => (event, c)).toList) := by
  rw [convertAll_cons, h]
  exact congrArg (fun l => Except.ok (s', l)) (List.append_nil _)

theorem Runs.single {id model : String} {choice : SentChoice}
    (h : convertChunk host marshal s event = .ok (s', some (⟨id, model, 0, [choice], none⟩ : SentChunk W)))
    (htext : choice.delta.getContentString = text)
    (hreasoning : (if isSignature event then "" else choice.delta.getReasoningContent) = reasoning)
    (hsig : isSignature event = true → choice.delta.getReasoningContent = "\n")
    (hfragments : choice.delta.toolCalls = fragments) : Runs W host marshal s [event] s' text reasoning fragments := by
  subst htext hreasoning hfragments
  exact ⟨_, convertAll_single h, Says.single event hsig⟩

theorem Runs.silent (h : convertChunk host marshal s event = .ok (s', (none : Option (SentChunk W)))) :
    Runs W host marshal s [event] s' "" "" [] :=
  ⟨[], convertAll_single h, Says.nil⟩

/-- Events that change nothing and have no chunk may stand anywhere. -/
theorem convertAll_filter {p : ClaudeResponse → Bool}
    (hp : ∀ s e, p e = false → convertChunk host marshal s e = .ok (s, (none : Option (SentChunk W))))
    (s : ClaudeToChatStreamState) (events : List ClaudeResponse) :
    convertAll (W := W) host marshal s (events.filter p) = convertAll host marshal s events := by
  induction events generalizing s with
  | nil => rfl
  | cons event events ih =>
    cases h : p event with
    | true =>
      simp only [List.filter_cons_of_pos h, convertAll_cons, ih]
    | false =>
      rw [List.filter_cons_of_neg (by simp [h]), ih, convertAll_cons, hp s event h]
      show _ = (convertAll host marshal s events).bind _
      cases convertAll host marshal s events with
      | error _ => rfl
      | ok _ => rfl

/-! ## One block -/

@[simp] theorem trimSpace_text : trimSpace "text" = "text" := trimSpace_of_all (by decide)

@[simp] theorem trimSpace_thinking : trimSpace "thinking" = "thinking" := trimSpace_of_all (by decide)

@[simp] theorem trimSpace_tool_use : trimSpace "tool_use" = "tool_use" := trimSpace_of_all (by decide)

theorem runs_textDeltas (s : ClaudeToChatStreamState) (i : ℤ) (deltas : List TextDelta) :
    Runs W host marshal s ((deltas.map (·.media)).map (deltaEvent i)) s (String.join (deltas.map (·.value))) "" [] := by
  induction deltas with
  | nil => exact Runs.nil
  | cons delta deltas ih =>
    have hone : Runs W host marshal s [deltaEvent i delta.media] s delta.value "" [] := by
      cases delta with
      | text t => exact Runs.single (by simp [convertChunk, deltaEvent, TextDelta.media]; rfl) rfl rfl nofun rfl
      | citation c => exact Runs.single (by simp [convertChunk, deltaEvent, TextDelta.media]; rfl) rfl rfl nofun rfl
    simpa using hone.append ih

theorem runs_thinkingDeltas (s : ClaudeToChatStreamState) (i : ℤ) (deltas : List ThinkingDelta) :
    Runs W host marshal s ((deltas.map (·.media)).map (deltaEvent i)) s "" (String.join (deltas.map (·.value))) [] := by
  induction deltas with
  | nil => exact Runs.nil
  | cons delta deltas ih =>
    have hone : Runs W host marshal s [deltaEvent i delta.media] s "" delta.value [] := by
      cases delta with
      | thinking t => exact Runs.single (by simp [convertChunk, deltaEvent, ThinkingDelta.media]; rfl) rfl rfl nofun rfl
      | signature t =>
        exact Runs.single (by simp [convertChunk, deltaEvent, ThinkingDelta.media]; rfl) rfl rfl (fun _ => rfl) rfl
    simpa using hone.append ih

theorem runs_inputJsons {toolIndex i : ℤ} (hs : s.toolIndexByContentBlock.lookup i = some toolIndex)
    (partialJsons : List String) : Runs W host marshal s ((partialJsons.map inputJsonDelta).map (deltaEvent i)) s
      "" "" (argumentFragments toolIndex partialJsons) := by
  induction partialJsons with
  | nil => exact Runs.nil
  | cons partialJson partialJsons ih =>
    have hone : Runs W host marshal s [deltaEvent i (inputJsonDelta partialJson)] s
        "" "" (argumentFragments toolIndex [partialJson]) := by
      have h : convertChunk host marshal s (deltaEvent i (inputJsonDelta partialJson)) =
          .ok (s, some (⟨"", "", 0, [{ delta := { toolCalls := [⟨some toolIndex, "", "", partialJson⟩] } }], none⟩ :
            SentChunk W)) := by
        simp [convertChunk, convertInputJson, deltaEvent, inputJsonDelta, hs]
        rfl
      exact Runs.single h rfl rfl nofun rfl
    simpa [argumentFragments] using hone.append ih

theorem runs_stop (s : ClaudeToChatStreamState) (i : ℤ) :
    Runs W host marshal s [stopEvent i] { s with blockTypeByContentBlock := s.blockTypeByContentBlock.erase i } "" "" [] :=
  Runs.silent rfl

variable (W) (host) (marshal)

/-- A block is streamed to what it says, and a call takes the next number. -/
theorem runs_block {i : ℤ} (hs : Unnumbered i s) (b : StreamedBlock) :
    ∃ s', Runs W host marshal s (b.events i) s' b.textValue b.thinkingValue (b.fragments s.nextToolIndex) ∧
      Unnumbered (i + 1) s' ∧ s'.nextToolIndex = s.nextToolIndex + b.callCount := by
  have hlater : Unnumbered (i + 1) s := fun j hj => hs j (by omega)
  have hi : s.toolIndexByContentBlock.lookup i = none := hs i le_rfl
  cases b with
  | text start startCitations deltas citations =>
    have hstart : Runs W host marshal s [startEvent i (StreamedBlock.text start startCitations deltas citations).started]
        { s with blockTypeByContentBlock := s.blockTypeByContentBlock.insert i "text" } start "" [] :=
      Runs.single (by simp [convertChunk, convertBlockStart, startEvent, StreamedBlock.started,
        isClaudeHostedToolStreamBlock]; rfl) rfl rfl nofun rfl
    have h := hstart.append ((runs_textDeltas _ i deltas).append (runs_stop _ i))
    simp only [String.append_empty] at h
    exact ⟨_, h, hlater, by simp [StreamedBlock.callCount, StreamedBlock.call?]⟩
  | thinking deltas =>
    have hstart : Runs W host marshal s [startEvent i (StreamedBlock.thinking deltas).started]
        { s with blockTypeByContentBlock := s.blockTypeByContentBlock.insert i "thinking" } "" "" [] :=
      Runs.single (by simp [convertChunk, convertBlockStart, startEvent, StreamedBlock.started,
        isClaudeHostedToolStreamBlock]; rfl) rfl rfl nofun rfl
    have h := hstart.append ((runs_thinkingDeltas _ i deltas).append (runs_stop _ i))
    simp only [String.append_empty, String.empty_append] at h
    exact ⟨_, h, hlater, by simp [StreamedBlock.callCount, StreamedBlock.call?]⟩
  | toolUse id name input partialJsons =>
    have hstart : Runs W host marshal s [startEvent i (StreamedBlock.toolUse id name input partialJsons).started]
        { s with
          blockTypeByContentBlock := s.blockTypeByContentBlock.insert i "tool_use"
          toolIndexByContentBlock := s.toolIndexByContentBlock.insert i s.nextToolIndex
          nextToolIndex := s.nextToolIndex + 1 } "" "" [⟨some s.nextToolIndex, id, name, ""⟩] :=
      Runs.single (by simp [convertChunk, convertBlockStart, startEvent, StreamedBlock.started,
        ClaudeToChatStreamState.toolIndex, hi]; rfl) rfl rfl nofun rfl
    have h := hstart.append ((runs_inputJsons (AList.lookup_insert _) partialJsons).append (runs_stop _ i))
    simp only [String.append_empty, List.append_nil] at h
    refine ⟨_, h, fun j hj => ?_, by simp [StreamedBlock.callCount, StreamedBlock.call?]⟩
    exact (AList.lookup_insert_ne (by omega)).trans (hs j (by omega))

/-- The fragments of blocks whose calls are numbered from `n` on. -/
def fragmentsFrom (n : ℤ) : List StreamedBlock → List ToolCallResponse
  | [] => []
  | b :: blocks => b.fragments n ++ fragmentsFrom (n + b.callCount) blocks

theorem runs_blocks {i : ℤ} (hs : Unnumbered i s) (blocks : List StreamedBlock) :
    ∃ s', Runs W host marshal s (contentEvents i blocks) s' (String.join (blocks.map (·.textValue)))
      (String.join (blocks.map (·.thinkingValue))) (fragmentsFrom s.nextToolIndex blocks) := by
  induction blocks generalizing i s with
  | nil => exact ⟨s, Runs.nil⟩
  | cons b blocks ih =>
    obtain ⟨s₁, hb, hs₁, hnext⟩ := runs_block W host marshal hs b
    obtain ⟨s₂, hrest⟩ := ih hs₁
    rw [hnext] at hrest
    refine ⟨s₂, ?_⟩
    simpa [contentEvents, fragmentsFrom] using hb.append hrest

theorem runs_messageStart (h : event.type = .messageStart) (s : ClaudeToChatStreamState) :
    Runs W host marshal s [event] s "" "" [] := by
  obtain ⟨id, type, content, stopReason, model, index, contentBlock, delta, message⟩ := event
  obtain rfl : type = .messageStart := h
  cases message with
  | none => exact Runs.single rfl rfl rfl nofun rfl
  | some message => exact Runs.single rfl rfl rfl nofun rfl

theorem runs_messageEnd (h : event.type = .messageDelta ∨ event.type = .messageStop) (s : ClaudeToChatStreamState) :
    Runs W host marshal s [event] s "" "" [] := by
  obtain ⟨id, type, content, stopReason, model, index, contentBlock, delta, message⟩ := event
  obtain rfl | rfl : type = .messageDelta ∨ type = .messageStop := h
  · exact Runs.single rfl rfl rfl nofun rfl
  · exact Runs.silent rfl

theorem runs_tail {tail : List ClaudeResponse} (h : ∀ e ∈ tail, e.type = .messageDelta ∨ e.type = .messageStop)
    (s : ClaudeToChatStreamState) : Runs W host marshal s tail s "" "" [] := by
  induction tail with
  | nil => exact Runs.nil
  | cons event tail ih =>
    exact (runs_messageEnd W host marshal (h event (by simp)) s).append (ih fun e he => h e (by simp [he]))

theorem runs_stream {blocks : List StreamedBlock} (h : IsStream blocks events) :
    ∃ s', Runs W host marshal {} events s' (String.join (blocks.map (·.textValue)))
      (String.join (blocks.map (·.thinkingValue))) (fragmentsFrom 0 blocks) := by
  obtain ⟨start, tail, hstart, htail, hevents⟩ := h
  obtain ⟨s', hblocks⟩ := runs_blocks W host marshal (i := 0) (s := {})
    (fun j _ => AList.lookup_empty j) blocks
  refine ⟨s', ?_⟩
  have hquiet : ∀ (s : ClaudeToChatStreamState) (e : ClaudeResponse), (!e.type.isOther) = false →
      convertChunk host marshal s e = .ok (s, (none : Option (SentChunk W))) := by
    intro s e he
    obtain ⟨id, type, content, stopReason, model, index, contentBlock, delta, message⟩ := e
    cases type with
    | other type => rfl
    | _ => simp [EventType.isOther] at he
  have hrun := (runs_messageStart W host marshal hstart {}).append (hblocks.append (runs_tail W host marshal htail s'))
  obtain ⟨sent, hsent, hspoken⟩ := hrun
  refine ⟨sent, ?_, by simpa using hspoken⟩
  rw [← convertAll_filter hquiet, hevents]
  exact hsent

end Runs

/-! ## The calls of a stream -/

variable {calls : ClientCalls} {texts : List String} {claudeResponse : ClaudeResponse}

theorem foldl_argumentFragments {n : ℤ} (hn : n ∉ calls.map Prod.fst) (call : ClientCall) (partialJsons : List String) :
    (argumentFragments n partialJsons).foldl addFragment (calls ++ [(n, call)]) =
      calls ++ [(n, { call with arguments := call.arguments ++ String.join partialJsons })] := by
  induction partialJsons generalizing call with
  | nil => simp [argumentFragments]
  | cons partialJson partialJsons ih =>
    show (argumentFragments n partialJsons).foldl addFragment (addFragment (calls ++ [(n, call)]) _) = _
    rw [addFragment_last rfl hn, ih]
    simp [ClientCall.extend, String.append_assoc]

/-- Each `tool_use` block becomes one call, and the calls are numbered densely. -/
theorem foldl_fragmentsFrom {n : ℤ} (hn : ∀ k ∈ calls.map Prod.fst, k < n) (blocks : List StreamedBlock) :
    (fragmentsFrom n blocks).foldl addFragment calls = calls ++ numbered n (blocks.filterMap (·.call?)) := by
  induction blocks generalizing calls n with
  | nil => exact (List.append_nil calls).symm
  | cons b blocks ih =>
    have hnew : n ∉ calls.map Prod.fst := fun h => lt_irrefl n (hn n h)
    have hquiet : (fragmentsFrom (n + (0 : ℕ)) blocks).foldl addFragment calls =
        calls ++ numbered n (blocks.filterMap (·.call?)) := by
      show (fragmentsFrom (n + 0) blocks).foldl addFragment calls = _
      rw [Int.add_zero]
      exact ih hn
    cases b with
    | text start startCitations deltas citations => exact hquiet
    | thinking deltas => exact hquiet
    | toolUse id name input partialJsons =>
      have hnext : ∀ k ∈ (calls ++ [(n, (⟨id, name, String.join partialJsons⟩ : ClientCall))]).map Prod.fst, k < n + 1 := by
        intro k hk
        rw [List.map_append, List.mem_append] at hk
        rcases hk with hk | hk
        · exact Int.lt_add_one_of_le (hn k hk).le
        · simp at hk
          omega
      show ((_ :: argumentFragments n partialJsons) ++ fragmentsFrom (n + (1 : ℕ)) blocks).foldl addFragment calls = _
      rw [List.foldl_append, List.foldl_cons, addFragment_new rfl hnew, foldl_argumentFragments hnew]
      show (fragmentsFrom (n + 1) blocks).foldl addFragment
        (calls ++ [(n, ⟨id, name, "" ++ String.join partialJsons⟩)]) = _
      rw [String.empty_append, ih hnext, List.append_assoc]
      rfl

/-! ## The whole message -/

/-- The call of a whole block. -/
def StreamedBlock.wholeCall? : StreamedBlock → Option ToolCallResponse
  | .toolUse id name input _ => some ⟨none, id, name, marshal input⟩
  | _ => none

theorem gather_blocks (g : Gathered) (blocks : List StreamedBlock) :
    ((blocks.map (·.whole)).foldl (gather host marshal) g).responseText =
        g.responseText ++ String.join (blocks.map (·.textValue)) ∧
      ((blocks.map (·.whole)).foldl (gather host marshal) g).thinkingContent =
        (blocks.filterMap (·.thinking?)).getLast?.getD g.thinkingContent ∧
      ((blocks.map (·.whole)).foldl (gather host marshal) g).tools =
        g.tools ++ blocks.filterMap (·.wholeCall? marshal) := by
  induction blocks generalizing g with
  | nil => simp
  | cons b blocks ih =>
    obtain ⟨htext, hthinking, htools⟩ := ih (gather host marshal g b.whole)
    rw [List.map_cons, List.foldl_cons, htext, hthinking, htools]
    cases b with
    | text start startCitations deltas citations =>
      simp [gather, StreamedBlock.whole, StreamedBlock.textValue, StreamedBlock.thinking?, StreamedBlock.wholeCall?,
        String.append_assoc]
    | thinking deltas =>
      simp [gather, StreamedBlock.whole, StreamedBlock.textValue, StreamedBlock.thinking?, StreamedBlock.wholeCall?,
        List.getLast?_cons]
    | toolUse id name input partialJsons =>
      simp [gather, StreamedBlock.whole, StreamedBlock.textValue, StreamedBlock.thinking?, StreamedBlock.wholeCall?]

theorem responseThinking_blocks (blocks : List StreamedBlock) :
    responseThinking (blocks.map (·.whole)) = (blocks.head?.bind (·.thinking?)).getD "" := by
  cases blocks with
  | nil => rfl
  | cons b blocks =>
    cases b with
    | text start startCitations deltas citations | thinking deltas | toolUse id name input partialJsons => rfl

/-- The message of an answer. -/
def wholeMessage (answer : TextResponse W) : TextMessage := (answer.choices.head?.map (·.message)).getD {}

/-! ## Where they agree -/

/-- The thinking that a whole message keeps. -/
def keptThinking (blocks : List StreamedBlock) : String :=
  let last := (blocks.filterMap (·.thinking?)).getLast?.getD ""
  if last = "" then (blocks.head?.bind (·.thinking?)).getD "" else last

theorem join_eq_empty : String.join texts = "" ↔ ∀ t ∈ texts, t = "" := by
  induction texts with
  | nil => simp
  | cons text texts ih => simp [ih]

theorem join_thinkingValue (blocks : List StreamedBlock) :
    String.join (blocks.map (·.thinkingValue)) = String.join (blocks.filterMap (·.thinking?)) := by
  induction blocks with
  | nil => rfl
  | cons b blocks ih =>
    cases h : b.thinking? with
    | none =>
      have hb : b.thinkingValue = "" := by simp [StreamedBlock.thinkingValue, h]
      rw [List.map_cons, String.join_cons, hb, ih, List.filterMap_cons_none h, String.empty_append]
    | some t =>
      have hb : b.thinkingValue = t := by simp [StreamedBlock.thinkingValue, h]
      rw [List.map_cons, String.join_cons, hb, ih, List.filterMap_cons_some h, String.join_cons]

/-- All texts together are the last one, or the first one if the last is empty. -/
theorem join_concat_eq_iff {last : String} {first : Option String}
    (hfirst : ∀ t, first = some t → (texts ++ [last]).head? = some t) :
    String.join (texts ++ [last]) = (if last = "" then first.getD "" else last) ↔
      (∀ t ∈ texts, t = "") ∨ (first.isSome ∧ ∀ t ∈ (texts ++ [last]).tail, t = "") := by
  cases texts with
  | nil =>
    cases first with
    | none => simp
    | some t =>
      obtain rfl : last = t := by simpa using hfirst t rfl
      simp
  | cons head texts =>
    cases first with
    | none =>
      by_cases hlast : last = ""
      · simp [hlast, join_eq_empty]
      · simp [hlast, join_eq_empty, ← String.append_assoc]
    | some t =>
      obtain rfl : head = t := by simpa using hfirst t rfl
      by_cases hlast : last = ""
      · have hsplit : (∀ t, t ∈ texts ∨ t = "" → t = "") ↔ ∀ t ∈ texts, t = "" :=
          ⟨fun h t ht => h t (Or.inl ht), fun h t ht => ht.elim (h t) id⟩
        simp [hlast, join_eq_empty, hsplit]
      · simp [hlast, join_eq_empty, ← String.append_assoc]

/-- One thinking is kept, and that is all thinking if no other block thinks anything. -/
theorem join_eq_kept_iff (blocks : List StreamedBlock) :
    String.join (blocks.filterMap (·.thinking?)) = keptThinking blocks ↔ OneThinking blocks := by
  have hfirst : ∀ t, blocks.head?.bind (·.thinking?) = some t → (blocks.filterMap (·.thinking?)).head? = some t := by
    intro t ht
    cases blocks with
    | nil => exact absurd ht nofun
    | cons b blocks =>
      have hb : b.thinking? = some t := ht
      rw [List.filterMap_cons_some hb, List.head?_cons]
  unfold keptThinking OneThinking
  rcases List.eq_nil_or_concat (blocks.filterMap (·.thinking?)) with hnil | ⟨texts, last, htexts⟩
  · rw [hnil] at hfirst ⊢
    have hnone : blocks.head?.bind (·.thinking?) = none :=
      Option.eq_none_iff_forall_ne_some.mpr fun t ht => absurd (hfirst t ht) nofun
    simp [hnone]
  · rw [List.concat_eq_append] at htexts
    rw [htexts] at hfirst ⊢
    simpa using join_concat_eq_iff hfirst

variable {blocks : List StreamedBlock}

/-- The calls are read alike if each one is streamed with the text of its arguments. -/
theorem calls_agree_iff {R : Type} {reading : String → R} (hreading : ∀ v, reading (marshal v) ≠ reading "")
    (hblocks : ∀ b ∈ blocks, b.Complete marshal reading) :
    (blocks.filterMap (·.call?)).map (fun c => (c.id, c.name, reading c.arguments)) =
        (blocks.filterMap (·.wholeCall? marshal)).map (fun t => (t.id, t.function.name, reading t.function.arguments)) ↔
      ∀ b ∈ blocks, b.HasArguments := by
  induction blocks with
  | nil => simp
  | cons b blocks ih =>
    have hrest := ih fun b hb => hblocks b (List.mem_cons_of_mem _ hb)
    rw [List.forall_mem_cons]
    cases b with
    | text start startCitations deltas citations => exact hrest.trans (iff_of_eq (true_and _)).symm
    | thinking deltas => exact hrest.trans (iff_of_eq (true_and _)).symm
    | toolUse id name input partialJsons =>
      have hhead : reading (String.join partialJsons) = reading (marshal input) ↔ String.join partialJsons ≠ "" := by
        constructor
        · rintro heq hempty
          rw [hempty] at heq
          exact hreading input heq.symm
        · intro hne
          exact (hblocks _ (List.mem_cons_self ..)).resolve_right fun h => hne h.1
      rw [← hrest, ← show _ ↔ StreamedBlock.HasArguments (.toolUse id name input partialJsons) from hhead]
      simp [StreamedBlock.call?, StreamedBlock.wholeCall?]

theorem wholeMessage_blocks (hcontent : claudeResponse.content = blocks.map (·.whole)) (timestamp : ℤ) :
    let message := wholeMessage (responseClaude2OpenAI (W := W) host marshal timestamp claudeResponse)
    message.content.getD "" = String.join (blocks.map (·.textValue)) ∧
      message.reasoningContent.getD "" = keptThinking blocks ∧
      message.toolCalls = blocks.filterMap (·.wholeCall? marshal) := by
  obtain ⟨htext, hthinking, htools⟩ := gather_blocks host marshal {} blocks
  rw [← hcontent] at htext hthinking htools
  have hfirst := responseThinking_blocks blocks
  rw [← hcontent] at hfirst
  refine ⟨htext.trans String.empty_append, ?_, htools.trans (List.nil_append _)⟩
  simp only [wholeMessage, responseClaude2OpenAI, List.head?_cons, Option.map_some, Option.getD_some, hthinking, hfirst,
    keptThinking]
  split_ifs <;> simp_all

theorem length_calls (blocks : List StreamedBlock) :
    (blocks.filterMap (·.wholeCall? marshal)).length = (blocks.filterMap (·.call?)).length := by
  induction blocks with
  | nil => rfl
  | cons b blocks ih =>
    cases b with
    | text start startCitations deltas citations => exact ih
    | thinking deltas => exact ih
    | toolUse id name input partialJsons => exact congrArg Nat.succ ih

/-- The stream of a message gives what the whole message gives, part by part. -/
theorem agrees_iff {R : Type} {reading : String → R} {events : List ClaudeResponse} (hevents : IsStream blocks events)
    (hcontent : claudeResponse.content = blocks.map (·.whole)) (timestamp : ℤ) : Agrees host marshal W reading events
        (wholeMessage (responseClaude2OpenAI (W := W) host marshal timestamp claudeResponse)) ↔
      String.join (blocks.filterMap (·.thinking?)) = keptThinking blocks ∧
        (blocks.filterMap (·.call?)).map (fun c => (c.id, c.name, reading c.arguments)) =
          (blocks.filterMap (·.wholeCall? marshal)).map
            (fun t => (t.id, t.function.name, reading t.function.arguments)) := by
  obtain ⟨s', sent, hsent, hspoken⟩ := runs_stream W host marshal hevents
  obtain ⟨htext, hreasoning, htools⟩ := wholeMessage_blocks (W := W) host marshal hcontent timestamp
  have hcalls : readCalls sent.deltas = numbered 0 (blocks.filterMap (·.call?)) := by
    unfold readCalls
    rw [hspoken.fragments, foldl_fragmentsFrom (fun k hk => absurd hk List.not_mem_nil), List.nil_append]
  have hread : (readCalls sent.deltas).map (fun c => (c.2.id, c.2.name, reading c.2.arguments)) =
      (blocks.filterMap (·.call?)).map (fun c => (c.id, c.name, reading c.arguments)) := by
    rw [hcalls]
    conv_rhs => rw [← numbered_calls 0 (blocks.filterMap (·.call?))]
    rw [List.map_map]
    rfl
  unfold Agrees
  rw [htext, hreasoning, htools]
  constructor
  · rintro ⟨s₁, sent₁, hsent₁, -, hthinking, -, hsame, -⟩
    obtain ⟨rfl, rfl⟩ : s' = s₁ ∧ sent = sent₁ := by simpa [hsent] using hsent₁
    exact ⟨by rw [← hthinking, hspoken.reasoning, join_thinkingValue], hread ▸ hsame⟩
  · rintro ⟨hthinking, hsame⟩
    refine ⟨s', sent, hsent, hspoken.text, ?_, hspoken.signatures, hread.trans hsame, ?_⟩
    · rw [hspoken.reasoning, join_thinkingValue, hthinking]
    · rw [hcalls, length_calls, List.range_eq_range']
      exact numbered_indices 0 _

/-- A stream gives the reasoning, the text and the calls of the whole message just when at most one of its thinking
blocks says anything, the last of them or the first block, and every call is streamed with the text of its
arguments. -/
theorem streamed_agrees_iff {R : Type} {reading : String → R} (hreading : ∀ v, reading (marshal v) ≠ reading "")
    {blocks : List StreamedBlock} (hblocks : ∀ b ∈ blocks, b.Complete marshal reading)
    {events : List ClaudeResponse} (hevents : IsStream blocks events) {claudeResponse : ClaudeResponse}
    (hcontent : claudeResponse.content = blocks.map (·.whole)) (timestamp : ℤ) :
    Agrees host marshal W reading events
        (wholeMessage (responseClaude2OpenAI (W := W) host marshal timestamp claudeResponse)) ↔
      OneThinking blocks ∧ ∀ b ∈ blocks, b.HasArguments := by
  rw [agrees_iff host marshal hevents hcontent, join_eq_kept_iff, calls_agree_iff marshal hreading hblocks]

/-! ## Messages that agree and that do not -/

theorem contentEvents_not_other (i : ℤ) (blocks : List StreamedBlock) :
    ∀ e ∈ contentEvents i blocks, e.type.isOther = false := by
  induction blocks generalizing i with
  | nil => exact fun e he => absurd he List.not_mem_nil
  | cons b blocks ih =>
    intro e he
    simp only [contentEvents, StreamedBlock.events, List.cons_append, List.mem_cons, List.mem_append, List.mem_map,
      List.not_mem_nil, or_false] at he
    rcases he with rfl | (⟨delta, -, rfl⟩ | rfl) | he
    · rfl
    · rfl
    · rfl
    · exact ih (i + 1) e he

/-- The events of a message and nothing else. -/
def messageEvents (blocks : List StreamedBlock) : List ClaudeResponse :=
  { type := .messageStart } :: (contentEvents 0 blocks ++ [{ type := .messageDelta }, { type := .messageStop }])

theorem isStream_messageEvents (blocks : List StreamedBlock) : IsStream blocks (messageEvents blocks) := by
  refine ⟨_, _, rfl, fun e he => ?_, List.filter_eq_self.mpr fun e he => ?_⟩
  · simp only [List.mem_cons, List.not_mem_nil, or_false] at he
    exact he.imp (congrArg ClaudeResponse.type) (congrArg ClaudeResponse.type)
  · simp only [messageEvents, List.mem_cons, List.mem_append, List.not_mem_nil, or_false] at he
    rcases he with rfl | he | rfl | rfl
    · rfl
    · rw [contentEvents_not_other 0 blocks e he]
      rfl
    · rfl
    · rfl

def bareHost : ChatToClaude.Host Unit Unit where
  usageFromOpenAI := id
  mergeUsageNonZero _ usage := usage
  mergeClaudeUsageNonZero _ usage := usage
  hasOpenAIUsageTokens _ := false
  estimatedUsage := ()
  uuid n := toString n
  lower := id
  formatFloat _ := ""
  formatFloatPlain _ := ""

/-- A thought with its signature, a text in two pieces and a call without arguments. -/
def signedAnswer : List StreamedBlock :=
  [.thinking [.thinking "Look it up.", .signature "c2ln"], .text "" .empty [.text "One ", .text "moment."] .empty,
    .toolUse "toolu_1" "lookup" (.object []) ["\x7b", "\x7d"]]

theorem streamed_agrees_iff_signed :
    Agrees bareHost (fun _ => "{}") Unit id (messageEvents signedAnswer)
      (wholeMessage (responseClaude2OpenAI (W := Unit) bareHost (fun _ => "{}") 0
        { type := .other "message", content := signedAnswer.map (·.whole) })) :=
  (streamed_agrees_iff bareHost (fun _ => "{}") (fun _ => by decide)
    (by simp [signedAnswer, StreamedBlock.Complete]) (isStream_messageEvents signedAnswer) rfl 0).mpr
    ⟨Or.inl (by simp [signedAnswer, StreamedBlock.thinking?]),
      by simp [signedAnswer, StreamedBlock.HasArguments]⟩

/-- Two thoughts, as interleaved thinking gives them. -/
def twoThoughts : List StreamedBlock := [.thinking [.thinking "First."], .thinking [.thinking "Then."]]

/-- The whole answer keeps the second thought only. -/
theorem whole_answer_loses_thought :
    ¬Agrees bareHost (fun _ => "{}") Unit id (messageEvents twoThoughts)
      (wholeMessage (responseClaude2OpenAI (W := Unit) bareHost (fun _ => "{}") 0
        { type := .other "message", content := twoThoughts.map (·.whole) })) := by
  rw [agrees_iff bareHost (fun _ => "{}") (isStream_messageEvents twoThoughts) rfl]
  exact fun h => absurd h.1 (by decide)

end Vancine.Streams.ClaudeToChat
