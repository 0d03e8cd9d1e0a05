import Vancine.ChatRequests.History

/-!
# Claude messages as chat messages

`ClaudeMessagesRequestToOpenAIChat` goes through the blocks of a message once. Texts and images are collected, and so
are tool calls; a tool result becomes a message at once. What was collected becomes one more message.

The settings of the request and its list of tools are converted apart from the messages, and left out.
-/

namespace Vancine.ChatRequests

open Lib

/-! ## Requests -/

/-- The content of a tool result is a text or any other value. -/
inductive Block
  | text (text : String) (cacheControl : Option String)
  | image (mediaType data : String)
  | toolUse (id name : String) (input : Json)
  | toolResult (toolUseId name : String) (content : Json)

inductive ClaudeContent
  | text (s : String)
  | blocks (items : List Block)

structure ClaudeMessage where
  role : String
  content : ClaudeContent

structure SystemBlock where
  text : Option String
  cacheControl : Option String

inductive System
  | text (s : String)
  | blocks (items : List SystemBlock)

structure ClaudeRequest where
  system : Option System
  messages : List ClaudeMessage

/-- `mediaText` is the text of a tool result that is no string: its blocks, decoded and written again. -/
structure ClaudeLibrary extends JsonLibrary where
  mediaText : Json → String

def Block.id : Block → String
  | .toolUse id _ _ => id
  | _ => ""

def Block.name : Block → String
  | .toolUse _ name _ => name
  | .toolResult _ name _ => name
  | _ => ""

/-- The blocks of `ParseContent`; a string has none. -/
def ClaudeContent.parse : ClaudeContent → List Block
  | .text _ => []
  | .blocks items => items

/-! ## Conversion -/

def dataUrl (mediaType data : String) : String := "data:" ++ mediaType ++ ";base64," ++ data

def ClaudeRequest.searchToolNameByToolCallId (request : ClaudeRequest) (toolCallId : String) : String :=
  match (request.messages.flatMap fun m => m.content.parse).find? fun b => b.id = toolCallId with
  | some b => b.name
  | none => ""

/-- The message that the system prompt becomes. -/
def systemMessages (isOpenRouterClaude : Bool) : Option System → List Message
  | none => []
  | some (.text s) => if s = "" then [] else [{ role := "system", content := .text s }]
  | some (.blocks systems) =>
    if systems = [] then []
    else if isOpenRouterClaude then
      [{ role := "system", content := .media (systems.map fun b => .text (b.text.getD "") b.cacheControl) }]
    else [{ role := "system", content := .text (String.join (systems.map fun b => b.text.getD "")) }]

/-- What the loop over the blocks of a message has so far. -/
structure Converting where
  openAIMessages : List Message
  mediaMessages : List MediaContent := []
  toolCalls : List ToolCallRequest := []

def toolMessage (lib : ClaudeLibrary) (request : ClaudeRequest) (toolUseId name : String) (content : Json) : Message :=
  { role := "tool"
    name := some (if name = "" then request.searchToolNameByToolCallId toolUseId else name)
    toolCallId := toolUseId
    content := .text <| match content with
      | .string s => s
      | v => lib.mediaText v }

def blockStep (lib : ClaudeLibrary) (request : ClaudeRequest) (state : Converting) : Block → Converting
  | .text text cacheControl => { state with mediaMessages := state.mediaMessages ++ [.text text cacheControl] }
  | .image mediaType data =>
    { state with mediaMessages := state.mediaMessages ++ [.image { url := dataUrl mediaType data }] }
  | .toolUse id name input => { state with toolCalls := state.toolCalls ++ [⟨id, name, lib.marshal input⟩] }
  | .toolResult toolUseId name content =>
    { state with openAIMessages := state.openAIMessages ++ [toolMessage lib request toolUseId name content] }

/-- The content is set when there are no tool calls. -/
def messageStep (lib : ClaudeLibrary) (request : ClaudeRequest) (openAIMessages : List Message)
    (claudeMessage : ClaudeMessage) : List Message :=
  let (openAIMessages, openAIMessage) : List Message × Message :=
    match claudeMessage.content with
    | .text s => (openAIMessages, { role := claudeMessage.role, content := .text s })
    | .blocks content =>
      let state := content.foldl (blockStep lib request) { openAIMessages }
      (state.openAIMessages, {
        role := claudeMessage.role
        toolCalls := state.toolCalls
        content :=
          if state.mediaMessages ≠ [] ∧ state.toolCalls = [] then .media state.mediaMessages else .absent })
  if openAIMessage.content.parse ≠ [] ∨ openAIMessage.toolCalls ≠ [] then openAIMessages ++ [openAIMessage]
  else openAIMessages

/-- The messages of the chat request. -/
def claudeMessagesRequestToOpenAIChat (lib : ClaudeLibrary) (isOpenRouterClaude : Bool) (request : ClaudeRequest) :
    List Message :=
  request.messages.foldl (messageStep lib request) (systemMessages isOpenRouterClaude request.system)

/-! ## What the messages say -/

def textItems (s : String) : List Item := if s = "" then [] else [.text s]

def Block.items : Block → List Item
  | .text s _ => textItems s
  | .image mediaType data => [.image (dataUrl mediaType data)]
  | _ => []

def Block.calls : Block → List SourceCall
  | .toolUse id name input => [⟨some id, name, input⟩]
  | _ => []

def Block.results : Block → List (Option String)
  | .toolResult toolUseId _ _ => [some toolUseId]
  | _ => []

def ClaudeMessage.source (m : ClaudeMessage) : SourceMessage :=
  match m.content with
  | .text s => ⟨textItems s, [], []⟩
  | .blocks items => ⟨items.flatMap Block.items, items.flatMap Block.calls, items.flatMap Block.results⟩

/-! ## The messages made from one -/

section Made

variable (lib : ClaudeLibrary) (request : ClaudeRequest)

def Block.media : Block → List MediaContent
  | .text s cacheControl => [.text s cacheControl]
  | .image mediaType data => [.image { url := dataUrl mediaType data }]
  | _ => []

def Block.toolCalls : Block → List ToolCallRequest
  | .toolUse id name input => [⟨id, name, lib.marshal input⟩]
  | _ => []

def Block.toolMessages : Block → List Message
  | .toolResult toolUseId name content => [toolMessage lib request toolUseId name content]
  | _ => []

theorem foldl_blockStep (state : Converting) (items : List Block) : items.foldl (blockStep lib request) state =
      { openAIMessages := state.openAIMessages ++ items.flatMap (Block.toolMessages lib request)
        mediaMessages := state.mediaMessages ++ items.flatMap Block.media
        toolCalls := state.toolCalls ++ items.flatMap (Block.toolCalls lib) } := by
  induction items generalizing state with
  | nil => simp
  | cons b items ih =>
    rw [List.foldl_cons, ih]
    cases b <;> simp [blockStep, Block.toolMessages, Block.media, Block.toolCalls]

/-- The message after the tool results. -/
def ownMessage (m : ClaudeMessage) : Message :=
  match m.content with
  | .text s => { role := m.role, content := .text s }
  | .blocks items => {
      role := m.role
      toolCalls := items.flatMap (Block.toolCalls lib)
      content :=
        if items.flatMap Block.media ≠ [] ∧ items.flatMap (Block.toolCalls lib) = [] then
          .media (items.flatMap Block.media)
        else .absent }

/-- It is left out when there is nothing in it. -/
def Message.orNone (message : Message) : List Message :=
  if message.content.parse ≠ [] ∨ message.toolCalls ≠ [] then [message] else []

def madeFrom (m : ClaudeMessage) : List Message :=
  m.content.parse.flatMap (Block.toolMessages lib request) ++ (ownMessage lib m).orNone

theorem append_orNone (messages : List Message) (message : Message) :
    (if message.content.parse ≠ [] ∨ message.toolCalls ≠ [] then messages ++ [message] else messages) =
      messages ++ message.orNone := by
  rw [Message.orNone]
  split
  · rfl
  · exact (List.append_nil messages).symm

theorem messageStep_eq (messages : List Message) (m : ClaudeMessage) :
    messageStep lib request messages m = messages ++ madeFrom lib request m := by
  obtain ⟨role, content⟩ := m
  rw [madeFrom, ← List.append_assoc, ← append_orNone]
  cases content with
  | text s =>
    show _ = if _ then (messages ++ []) ++ _ else messages ++ []
    rw [List.append_nil]
    rfl
  | blocks items =>
    rw [messageStep]
    dsimp only
    rw [foldl_blockStep]
    rfl

theorem claudeMessagesRequestToOpenAIChat_eq (isOpenRouterClaude : Bool) :
    claudeMessagesRequestToOpenAIChat lib isOpenRouterClaude request =
      systemMessages isOpenRouterClaude request.system ++ (request.messages.map (madeFrom lib request)).flatten := by
  have hstep : messageStep lib request = fun messages m => messages ++ madeFrom lib request m :=
    funext fun messages => funext fun m => messageStep_eq lib request messages m
  rw [claudeMessagesRequestToOpenAIChat, hstep]
  exact List.foldl_append_eq_append ..

end Made

/-! ## What is in them -/

section Contents

variable {lib : ClaudeLibrary} {request : ClaudeRequest}

theorem filterMap_media (b : Block) : b.media.filterMap MediaContent.item? = b.items := by
  cases b with
  | text s cacheControl =>
    show List.filterMap _ [_] = textItems s
    unfold textItems
    split <;> simp_all [MediaContent.item?]
  | image mediaType data => rfl
  | _ => rfl

theorem filterMap_flatMap_media (items : List Block) :
    (items.flatMap Block.media).filterMap MediaContent.item? = items.flatMap Block.items := by
  rw [List.filterMap_flatMap]
  exact List.flatMap_congr fun b _ => filterMap_media b

theorem toolCalls_eq_nil (b : Block) : b.toolCalls lib = [] ↔ b.calls = [] := by
  cases b <;> simp [Block.toolCalls, Block.calls]

theorem forall₂_calls {items : List Block}
    (hlib : ∀ call ∈ items.flatMap Block.calls, lib.unmarshal (lib.marshal call.arguments) = some call.arguments) :
    List.Forall₂ (Carries lib.toJsonLibrary) (items.flatMap Block.calls) (items.flatMap (Block.toolCalls lib)) := by
  induction items with
  | nil => exact List.Forall₂.nil
  | cons b items ih =>
    rw [List.flatMap_cons] at hlib
    have hrest := ih fun call hcall => hlib call (List.mem_append_right _ hcall)
    cases b with
    | toolUse id name input =>
      refine List.Forall₂.cons ⟨fun i hi => (Option.mem_some.mp hi), rfl, ?_⟩ hrest
      exact hlib ⟨some id, name, input⟩ (List.mem_append_left _ (List.mem_singleton_self _))
    | _ => exact hrest

theorem forall₂_results (items : List Block) :
    List.Forall₂ (fun (id : Option String) (m : Message) => ∀ i ∈ id, m.toolCallId = i) (items.flatMap Block.results)
      (items.flatMap (Block.toolMessages lib request)) := by
  induction items with
  | nil => exact List.Forall₂.nil
  | cons b items ih =>
    cases b with
    | toolResult toolUseId name content => exact List.Forall₂.cons (fun i hi => Option.mem_some.mp hi) ih
    | _ => exact ih

theorem role_toolMessages {items : List Block} {m : Message} (hm : m ∈ items.flatMap (Block.toolMessages lib request)) :
    m.role = "tool" ∧ m.toolCalls = [] := by
  obtain ⟨b, -, hm⟩ := List.mem_flatMap.mp hm
  cases b with
  | toolResult toolUseId name content =>
    rw [List.mem_singleton.mp hm]
    exact ⟨rfl, rfl⟩
  | _ => exact absurd hm List.not_mem_nil

theorem orNone_tail (message : Message) :
    message.orNone = [message] ∨ message.orNone = [] ∧ message.content.parse = [] ∧ message.toolCalls = [] := by
  unfold Message.orNone
  split
  · exact Or.inl rfl
  · next hnone =>
    obtain ⟨hcontent, hcalls⟩ := not_or.mp hnone
    exact Or.inr ⟨rfl, not_not.mp hcontent, not_not.mp hcalls⟩

/-- What a message says arrives, except that texts and images go when there are tool calls. -/
theorem converted_madeFrom {m : ClaudeMessage} (hrole : m.role ≠ "tool")
    (hlib : ∀ call ∈ m.source.calls, lib.unmarshal (lib.marshal call.arguments) = some call.arguments) :
    Converted lib.toJsonLibrary m.source (madeFrom lib request m) := by
  obtain ⟨role, content⟩ := m
  cases content with
  | text s =>
    have hown : OwnAfter (ownMessage lib ⟨role, .text s⟩) [] (ownMessage lib ⟨role, .text s⟩).orNone :=
      ⟨fun _ h => absurd h List.not_mem_nil, hrole, orNone_tail _⟩
    refine hown.converted ?_ List.Forall₂.nil List.Forall₂.nil
    exact filterMap_media (.text s none)
  | blocks items =>
    have hown : OwnAfter (ownMessage lib ⟨role, .blocks items⟩) (items.flatMap (Block.toolMessages lib request))
        (ownMessage lib ⟨role, .blocks items⟩).orNone := ⟨fun _ => role_toolMessages, hrole, orNone_tail _⟩
    refine hown.converted ?_ (forall₂_calls hlib) (forall₂_results items)
    have hnone : items.flatMap (Block.toolCalls lib) = [] ↔ items.flatMap Block.calls = [] := by
      rw [List.flatMap_eq_nil_iff, List.flatMap_eq_nil_iff]
      exact forall₂_congr fun b _ => toolCalls_eq_nil b
    show ((if items.flatMap Block.media ≠ [] ∧ items.flatMap (Block.toolCalls lib) = [] then
      Content.media (items.flatMap Block.media) else .absent).parse).filterMap MediaContent.item? =
        if items.flatMap Block.calls = [] then items.flatMap Block.items else []
    rw [← filterMap_flatMap_media]
    by_cases hcalls : items.flatMap Block.calls = []
    · rw [if_pos hcalls]
      by_cases hmedia : items.flatMap Block.media = []
      · rw [if_neg fun h => h.1 hmedia, hmedia]
        rfl
      · rw [if_pos ⟨hmedia, hnone.mpr hcalls⟩]
        rfl
    · rw [if_neg hcalls, if_neg fun h => hcalls (hnone.mp h.2)]
      rfl

end Contents

end Vancine.ChatRequests
