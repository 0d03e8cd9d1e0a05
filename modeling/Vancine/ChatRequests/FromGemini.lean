import Vancine.ChatRequests.FromClaude

/-!
# Gemini contents as chat messages

`GeminiGenerateContentRequestToOpenAIChat` goes through the parts of a content once, as the converter of Claude messages
does. A call without an id gets one that no call or response of the request uses, and a response without an id takes
that of a call that is still open.

The settings of the request and its list of tools are converted apart from the messages, and left out.
-/

namespace Vancine.ChatRequests

open Lib

/-! ## Requests -/

/-- A part holds one kind of data. -/
inductive GeminiPart
  | text (s : String) (thought : Bool)
  | inlineData (mimeType data : String)
  | fileData (mimeType fileUri : String)
  | functionCall (id name : String) (arguments : Json)
  | functionResponse (id name : String) (response : Json)

structure GeminiContent where
  role : String
  parts : List GeminiPart

structure GeminiRequest where
  systemInstructions : Option (List GeminiPart)
  contents : List GeminiContent

def convertGeminiRoleToOpenAI (geminiRole : String) : String :=
  if geminiRole = "user" then "user"
  else if geminiRole = "model" then "assistant"
  else if geminiRole = "function" then "function"
  else "user"

def extractTextFromGeminiParts (parts : List GeminiPart) : String :=
  "\n".intercalate <| parts.filterMap fun part =>
    match part with
    | .text s _ => if s = "" then none else some s
    | _ => none

/-! ## Ids of calls -/

/-- Ids and names of the open calls, in order. -/
structure GeminiFunctionCallHistory where
  reservedIDs : List String
  pending : List (String × String)
  nextID : ℕ

def GeminiPart.id : GeminiPart → String
  | .functionCall id _ _ => id
  | .functionResponse id _ _ => id
  | _ => ""

def newGeminiFunctionCallHistory (contents : List GeminiContent) : GeminiFunctionCallHistory where
  reservedIDs := ((contents.flatMap GeminiContent.parts).map GeminiPart.id).filter (· ≠ "")
  pending := []
  nextID := 1

def fallbackID (n : ℕ) : String := "call_" ++ toString n

theorem fallbackID_injective : Function.Injective fallbackID := by
  intro m n h
  have hread : ∀ k : ℕ, Nat.ofDigitChars 10 ((fallbackID k).toList.drop 5) 0 = k := by
    intro k
    have hdigits : (fallbackID k).toList.drop 5 = Nat.toDigits 10 k := by
      rw [fallbackID, String.toList_append]
      exact Nat.toList_repr
    rw [hdigits, Nat.ofDigitChars_toDigits (by decide) (by decide)]
  rw [← hread m, h, hread n]

theorem exists_free (reservedIDs : List String) (nextID : ℕ) : ∃ k, fallbackID (nextID + k) ∉ reservedIDs := by
  by_contra hnone
  have hall : ∀ k, fallbackID (nextID + k) ∈ reservedIDs := fun k => not_not.mp fun hk => hnone ⟨k, hk⟩
  have hinjective : Function.Injective fun k => (⟨fallbackID (nextID + k), hall k⟩ : {id // id ∈ reservedIDs}) := by
    intro a b hab
    exact Nat.add_left_cancel (fallbackID_injective (Subtype.mk.inj hab))
  exact not_injective_infinite_finite _ hinjective

namespace GeminiFunctionCallHistory

def newFallbackID (h : GeminiFunctionCallHistory) : String × GeminiFunctionCallHistory :=
  let n := h.nextID + Nat.find (exists_free h.reservedIDs h.nextID)
  (fallbackID n, { h with nextID := n + 1, reservedIDs := fallbackID n :: h.reservedIDs })

def add (h : GeminiFunctionCallHistory) (id name : String) : String × GeminiFunctionCallHistory :=
  let (id, h) := if id = "" then h.newFallbackID else (id, h)
  (id, { h with pending := h.pending ++ [(id, name)] })

/-- The `match` of a function response. -/
def answer (h : GeminiFunctionCallHistory) (id name : String) : String × GeminiFunctionCallHistory :=
  if id ≠ "" then (id, { h with pending := h.pending.eraseP fun call => call.1 = id })
  else
    match h.pending.find? fun call => name = "" ∨ call.2 = name with
    | some call => (call.1, { h with pending := h.pending.eraseP fun call => name = "" ∨ call.2 = name })
    | none => h.newFallbackID

theorem newFallbackID_free (h : GeminiFunctionCallHistory) : h.newFallbackID.1 ∉ h.reservedIDs :=
  Nat.find_spec (exists_free h.reservedIDs h.nextID)

variable {h : GeminiFunctionCallHistory}

theorem add_id {id : String} (name : String) (hid : id ≠ "") : (h.add id name).1 = id := by
  rw [add, if_neg hid]

theorem answer_id {id : String} (name : String) (hid : id ≠ "") : (h.answer id name).1 = id := by
  rw [answer, if_pos hid]

end GeminiFunctionCallHistory

/-! ## Conversion -/

/-- What the loop over the parts of a content has so far. -/
structure GeminiConverting where
  callHistory : GeminiFunctionCallHistory
  messages : List Message
  mediaContents : List MediaContent := []
  toolCalls : List ToolCallRequest := []
  reasoningTexts : List String := []

def partStep (lib : JsonLibrary) (state : GeminiConverting) : GeminiPart → GeminiConverting
  | .text s thought =>
    if s = "" then state
    else if thought then { state with reasoningTexts := state.reasoningTexts ++ [s] }
    else { state with mediaContents := state.mediaContents ++ [.text s none] }
  | .inlineData mimeType data =>
    { state with
      mediaContents := state.mediaContents ++ [.image { url := dataUrl mimeType data, detail := "auto", mimeType }] }
  | .fileData mimeType fileUri =>
    { state with mediaContents := state.mediaContents ++ [.image { url := fileUri, detail := "auto", mimeType }] }
  | .functionCall id name arguments =>
    let (callID, callHistory) := state.callHistory.add id name
    { state with callHistory, toolCalls := state.toolCalls ++ [⟨callID, name, lib.marshal arguments⟩] }
  | .functionResponse id name response =>
    let (callID, callHistory) := state.callHistory.answer id name
    { state with
      callHistory
      messages := state.messages ++
        [{ role := "tool", toolCallId := callID, content := .text (lib.marshal response) }] }

/-- The message of a content, after its tool results. -/
def GeminiConverting.message (state : GeminiConverting) (geminiRole : String) : Message where
  role := convertGeminiRoleToOpenAI geminiRole
  toolCalls := state.toolCalls
  content :=
    if state.toolCalls ≠ [] then .absent
    else
      match state.mediaContents with
      | [] => .absent
      | [.text s _] => .text s
      | mediaContents => .media mediaContents
  reasoningContent := if state.reasoningTexts ≠ [] then some ("\n".intercalate state.reasoningTexts) else none

def contentStep (lib : JsonLibrary) (state : GeminiFunctionCallHistory × List Message) (content : GeminiContent) :
    GeminiFunctionCallHistory × List Message :=
  let collected := content.parts.foldl (partStep lib) { callHistory := state.1, messages := state.2 }
  let message := collected.message content.role
  if message.content.parse ≠ [] ∨ message.toolCalls ≠ [] ∨ message.reasoningContent ≠ none then
    (collected.callHistory, collected.messages ++ [message])
  else (collected.callHistory, collected.messages)

def systemInstructionMessages (systemInstructions : Option (List GeminiPart)) : List Message :=
  match systemInstructions with
  | none => []
  | some parts => [{ role := "system", content := .text (extractTextFromGeminiParts parts) }]

/-- The messages of the chat request. -/
def geminiGenerateContentRequestToOpenAIChat (lib : JsonLibrary) (request : GeminiRequest) : List Message :=
  let converted := request.contents.foldl (contentStep lib) (newGeminiFunctionCallHistory request.contents, [])
  systemInstructionMessages request.systemInstructions ++ converted.2

/-! ## What the contents say -/

def optionalID (id : String) : Option String := if id = "" then none else some id

def GeminiPart.items : GeminiPart → List Item
  | .text s thought => if thought then [] else textItems s
  | .inlineData mimeType data => [.image (dataUrl mimeType data)]
  | .fileData _ fileUri => [.image fileUri]
  | _ => []

def GeminiPart.calls : GeminiPart → List SourceCall
  | .functionCall id name arguments => [⟨optionalID id, name, arguments⟩]
  | _ => []

def GeminiPart.results : GeminiPart → List (Option String)
  | .functionResponse id _ _ => [optionalID id]
  | _ => []

def GeminiContent.source (content : GeminiContent) : SourceMessage :=
  ⟨content.parts.flatMap GeminiPart.items, content.parts.flatMap GeminiPart.calls,
    content.parts.flatMap GeminiPart.results⟩

/-! ## The messages made from one -/

section Made

variable {lib : JsonLibrary}

/-- What the parts so far have brought about, from the messages there were. -/
structure Collected (lib : JsonLibrary) (before : List Message) (source : SourceMessage) (state : GeminiConverting) :
    Prop where
  items : state.mediaContents.filterMap MediaContent.item? = source.items
  nonempty : ∀ media ∈ state.mediaContents, media.item?.isSome
  calls : List.Forall₂ (Carries lib) source.calls state.toolCalls
  results : ∃ tools : List Message, state.messages = before ++ tools ∧
    (∀ m ∈ tools, m.role = "tool" ∧ m.toolCalls = []) ∧
    List.Forall₂ (fun (id : Option String) (m : Message) => ∀ i ∈ id, m.toolCallId = i) source.results tools

/-- The source with one more part. -/
def SourceMessage.addPart (source : SourceMessage) (part : GeminiPart) : SourceMessage :=
  ⟨source.items ++ part.items, source.calls ++ part.calls, source.results ++ part.results⟩

theorem optionalID_mem {id i : String} (h : i ∈ optionalID id) : id ≠ "" ∧ i = id := by
  unfold optionalID at h
  split at h
  · cases h
  · next hid => exact ⟨hid, (Option.mem_some.mp h).symm⟩

theorem item?_isSome {s : String} (hs : s ≠ "") : (MediaContent.text s none).item? = some (.text s) := if_neg hs

theorem forall₂_concat {α β : Type} {R : α → β → Prop} {l : List α} {l' : List β} (h : List.Forall₂ R l l') {a : α}
    {b : β} (hab : R a b) : List.Forall₂ R (l ++ [a]) (l' ++ [b]) :=
  List.rel_append h (List.Forall₂.cons hab List.Forall₂.nil)

variable {state : GeminiConverting}

variable {before : List Message} {content : GeminiContent}

theorem Collected.step {source : SourceMessage} (h : Collected lib before source state) {part : GeminiPart}
    (hlib : ∀ call ∈ part.calls, lib.unmarshal (lib.marshal call.arguments) = some call.arguments) :
    Collected lib before (source.addPart part) (partStep lib state part) := by
  obtain ⟨hitems, hnonempty, hcalls, hresults⟩ := h
  have hmedia : ∀ media : MediaContent, media.item?.isSome →
      ∀ m ∈ state.mediaContents ++ [media], m.item?.isSome := fun media hsome =>
    List.forall_mem_append.mpr ⟨hnonempty, List.forall_mem_singleton.mpr hsome⟩
  cases part with
  | text s thought =>
    simp only [SourceMessage.addPart, GeminiPart.items, GeminiPart.calls, GeminiPart.results, List.append_nil, partStep]
    by_cases hs : s = ""
    · simp only [hs, textItems, if_true, ite_self, List.append_nil]
      exact ⟨hitems, hnonempty, hcalls, hresults⟩
    · cases thought with
      | true =>
        simp only [if_neg hs, if_true, List.append_nil]
        exact ⟨hitems, hnonempty, hcalls, hresults⟩
      | false =>
        have hitem := item?_isSome hs
        simp only [if_neg hs, textItems, Bool.false_eq_true, if_false]
        refine ⟨?_, hmedia _ (by rw [hitem]; rfl), hcalls, hresults⟩
        rw [List.filterMap_append, hitems, List.filterMap_cons_some hitem]
        rfl
  | inlineData mimeType data =>
    simp only [SourceMessage.addPart, GeminiPart.items, GeminiPart.calls, GeminiPart.results, List.append_nil, partStep]
    refine ⟨?_, hmedia _ rfl, hcalls, hresults⟩
    rw [List.filterMap_append, hitems]
    rfl
  | fileData mimeType fileUri =>
    simp only [SourceMessage.addPart, GeminiPart.items, GeminiPart.calls, GeminiPart.results, List.append_nil, partStep]
    refine ⟨?_, hmedia _ rfl, hcalls, hresults⟩
    rw [List.filterMap_append, hitems]
    rfl
  | functionCall id name arguments =>
    simp only [SourceMessage.addPart, GeminiPart.items, GeminiPart.results, List.append_nil, partStep]
    refine ⟨hitems, hnonempty, forall₂_concat hcalls ⟨fun i hi => ?_, rfl, ?_⟩, hresults⟩
    · obtain ⟨hid, rfl⟩ := optionalID_mem hi
      exact GeminiFunctionCallHistory.add_id name hid
    · exact hlib _ (List.mem_singleton_self _)
  | functionResponse id name response =>
    simp only [SourceMessage.addPart, GeminiPart.items, GeminiPart.calls, GeminiPart.results, List.append_nil, partStep]
    obtain ⟨tools, hmessages, htools, hids⟩ := hresults
    refine ⟨hitems, hnonempty, hcalls, _, by rw [hmessages, List.append_assoc], ?_, forall₂_concat hids fun i hi => ?_⟩
    · exact List.forall_mem_append.mpr ⟨htools, List.forall_mem_singleton.mpr ⟨rfl, rfl⟩⟩
    · obtain ⟨hid, rfl⟩ := optionalID_mem hi
      exact GeminiFunctionCallHistory.answer_id name hid

theorem Collected.foldl {source : SourceMessage} (h : Collected lib before source state) {parts : List GeminiPart}
    (hlib : ∀ call ∈ parts.flatMap GeminiPart.calls, lib.unmarshal (lib.marshal call.arguments) = some call.arguments) :
    Collected lib before (parts.foldl SourceMessage.addPart source) (parts.foldl (partStep lib) state) := by
  induction parts generalizing source state with
  | nil => exact h
  | cons part parts ih =>
    rw [List.flatMap_cons] at hlib
    exact ih (h.step fun call hcall => hlib call (List.mem_append_left _ hcall)) fun call hcall =>
      hlib call (List.mem_append_right _ hcall)

theorem foldl_addPart (source : SourceMessage) (parts : List GeminiPart) : parts.foldl SourceMessage.addPart source =
      ⟨source.items ++ parts.flatMap GeminiPart.items, source.calls ++ parts.flatMap GeminiPart.calls,
        source.results ++ parts.flatMap GeminiPart.results⟩ := by
  induction parts generalizing source with
  | nil => simp
  | cons part parts ih =>
    rw [List.foldl_cons, ih]
    simp [SourceMessage.addPart]

theorem collected_content (history : GeminiFunctionCallHistory) (before : List Message)
    (hlib : ∀ call ∈ content.source.calls, lib.unmarshal (lib.marshal call.arguments) = some call.arguments) :
    Collected lib before content.source
      (content.parts.foldl (partStep lib) { callHistory := history, messages := before }) := by
  have hstart : Collected lib before ⟨[], [], []⟩ { callHistory := history, messages := before } :=
    ⟨rfl, fun _ h => absurd h List.not_mem_nil, List.Forall₂.nil, [], (List.append_nil before).symm,
      fun _ h => absurd h List.not_mem_nil, List.Forall₂.nil⟩
  have hrun := hstart.foldl hlib
  rwa [foldl_addPart] at hrun

/-- The content of the message holds what was collected, unless there are tool calls. -/
theorem items_message (hnonempty : ∀ media ∈ state.mediaContents, media.item?.isSome) (role : String) :
    (state.message role).content.parse.filterMap MediaContent.item? =
      if state.toolCalls = [] then state.mediaContents.filterMap MediaContent.item? else [] := by
  by_cases hcalls : state.toolCalls = []
  · rw [if_pos hcalls]
    show (Content.parse (if state.toolCalls ≠ [] then .absent else _)).filterMap _ = _
    rw [if_neg (not_not.mpr hcalls)]
    split
    · next h => rw [h]; rfl
    · next s cacheControl h =>
      rw [h]
      have hsome := hnonempty (.text s cacheControl) (h ▸ List.mem_singleton_self _)
      rfl
    · rfl
  · rw [if_neg hcalls]
    show (Content.parse (if state.toolCalls ≠ [] then .absent else _)).filterMap _ = _
    rw [if_pos hcalls]
    rfl

theorem role_message (state : GeminiConverting) (role : String) : (state.message role).role ≠ "tool" := by
  show convertGeminiRoleToOpenAI role ≠ "tool"
  unfold convertGeminiRoleToOpenAI
  split_ifs <;> decide

theorem contentStep_converted (state : GeminiFunctionCallHistory × List Message)
    (hlib : ∀ call ∈ content.source.calls, lib.unmarshal (lib.marshal call.arguments) = some call.arguments) :
    ∃ made, (contentStep lib state content).2 = state.2 ++ made ∧ Converted lib content.source made := by
  have hcollected := collected_content state.1 state.2 hlib
  rw [contentStep]
  generalize content.parts.foldl (partStep lib) { callHistory := state.1, messages := state.2 } = collected
    at hcollected
  obtain ⟨hitems, hnonempty, hcalls, tools, hmessages, htools, hids⟩ := hcollected
  have hsource : (collected.message content.role).content.parse.filterMap MediaContent.item? =
      if content.source.calls = [] then content.source.items else [] := by
    have hnil : collected.toolCalls = [] ↔ content.source.calls = [] := by
      rw [← List.length_eq_zero_iff, ← List.length_eq_zero_iff, hcalls.length_eq]
    rw [items_message hnonempty, hitems]
    exact if_congr hnil rfl rfl
  have hrole := role_message collected content.role
  split
  · refine ⟨tools ++ [collected.message content.role], by rw [hmessages, List.append_assoc], ?_⟩
    exact OwnAfter.converted ⟨htools, hrole, Or.inl rfl⟩ hsource hcalls hids
  · next hnone =>
    obtain ⟨hcontent, hrest⟩ := not_or.mp hnone
    refine ⟨tools ++ [], by rw [hmessages, List.append_nil], ?_⟩
    exact OwnAfter.converted ⟨htools, hrole, Or.inr ⟨rfl, not_not.mp hcontent, not_not.mp (not_or.mp hrest).1⟩⟩
      hsource hcalls hids

theorem foldl_contentStep {contents : List GeminiContent} (state : GeminiFunctionCallHistory × List Message)
    (hlib : ∀ content ∈ contents, ∀ call ∈ content.source.calls,
      lib.unmarshal (lib.marshal call.arguments) = some call.arguments) :
    ∃ made : List (List Message), (contents.foldl (contentStep lib) state).2 = state.2 ++ made.flatten ∧
      List.Forall₂ (Converted lib) (contents.map GeminiContent.source) made := by
  induction contents generalizing state with
  | nil => exact ⟨[], (List.append_nil _).symm, List.Forall₂.nil⟩
  | cons content contents ih =>
    obtain ⟨hcontent, hrest⟩ := List.forall_mem_cons.mp hlib
    obtain ⟨messages, hmessages, hconverted⟩ := contentStep_converted state hcontent
    obtain ⟨made, hmade, hall⟩ := ih (contentStep lib state content) hrest
    refine ⟨messages :: made, ?_, List.Forall₂.cons hconverted hall⟩
    rw [List.foldl_cons, hmade, hmessages, List.flatten_cons, List.append_assoc]

end Made

end Vancine.ChatRequests
