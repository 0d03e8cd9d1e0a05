import Vancine.ChatRequests.CallPairs

/-!
# Calls and results in the messages

The messages of a converted request have the ids the history gives, and how these pair results with calls.
-/

namespace Vancine.ChatRequests

open Lib

/-- The ids of the calls of the messages, in order. -/
def toolCallIDs (messages : List Message) : List String := messages.flatMap fun m => m.toolCalls.map ToolCallRequest.id

/-- The ids of the calls that the tool messages answer. -/
def toolResultIDs (messages : List Message) : List String :=
  (messages.filter (·.role = "tool")).map Message.toolCallId

theorem toolCallIDs_append (a b : List Message) : toolCallIDs (a ++ b) = toolCallIDs a ++ toolCallIDs b :=
  List.flatMap_append

theorem toolResultIDs_append (a b : List Message) : toolResultIDs (a ++ b) = toolResultIDs a ++ toolResultIDs b := by
  rw [toolResultIDs, List.filter_append, List.map_append]
  rfl

theorem toolResultIDs_other {m : Message} (hrole : m.role ≠ "tool") : toolResultIDs [m] = [] := by
  rw [toolResultIDs, List.filter_cons_of_neg (by simpa using hrole)]
  rfl

theorem calledIDs_append (a b : List Given) : calledIDs (a ++ b) = calledIDs a ++ calledIDs b := by
  rw [calledIDs, calledPairs, List.filterMap_append, List.map_append]
  rfl

theorem answeredIDs_append (a b : List Given) : answeredIDs (a ++ b) = answeredIDs a ++ answeredIDs b :=
  List.filterMap_append

section Conversion

variable (lib : JsonLibrary)

/-- What the parts of a content have brought about, from the history and the messages there were. -/
structure Numbered (history : GeminiFunctionCallHistory) (before : List Message) (parts : List GeminiPart)
    (state : GeminiConverting) (new : List Given) : Prop where
  history : ∀ given, parts.foldl giveStep (history, given) = (state.callHistory, given ++ new)
  calls : state.toolCalls.map ToolCallRequest.id = calledIDs new
  toolCalls : toolCallIDs state.messages = toolCallIDs before
  results : toolResultIDs state.messages = toolResultIDs before ++ answeredIDs new

variable {lib} {history : GeminiFunctionCallHistory} {before : List Message}

theorem Numbered.step {parts : List GeminiPart} {state : GeminiConverting} {new : List Given}
    (h : Numbered history before parts state new) (part : GeminiPart) :
    Numbered history before (parts ++ [part]) (partStep lib state part)
      (new ++ [(part, (state.callHistory.give part).1)]) := by
  have hhistory (given : List Given) : (parts ++ [part]).foldl giveStep (history, given) =
      ((state.callHistory.give part).2, given ++ (new ++ [(part, (state.callHistory.give part).1)])) := by
    rw [List.foldl_concat, h.history, giveStep, List.append_assoc]
  have hcalled := calledIDs_concat new part (state.callHistory.give part).1
  have hanswered := answeredIDs_concat new part (state.callHistory.give part).1
  cases part with
  | text s thought =>
    have hstate : (partStep lib state (.text s thought)).callHistory = state.callHistory ∧
        (partStep lib state (.text s thought)).toolCalls = state.toolCalls ∧
        (partStep lib state (.text s thought)).messages = state.messages := by
      unfold partStep
      dsimp only
      split
      · exact ⟨rfl, rfl, rfl⟩
      · split <;> exact ⟨rfl, rfl, rfl⟩
    obtain ⟨hh, hc, hm⟩ := hstate
    constructor
    case history => rw [hh]; exact hhistory
    case calls => rw [hc, h.calls, hcalled]; exact (List.append_nil _).symm
    case toolCalls => rw [hm, h.toolCalls]
    case results => rw [hm, h.results, hanswered]; exact congrArg _ (List.append_nil _).symm
  | inlineData | fileData =>
    constructor
    case history => exact hhistory
    case calls => rw [hcalled]; exact h.calls.trans (List.append_nil _).symm
    case toolCalls => exact h.toolCalls
    case results => rw [hanswered]; exact h.results.trans (congrArg _ (List.append_nil _).symm)
  | functionCall id name arguments =>
    constructor
    case history => exact hhistory
    case calls =>
      rw [hcalled, ← h.calls]
      exact List.map_append
    case toolCalls => exact h.toolCalls
    case results => rw [hanswered]; exact h.results.trans (congrArg _ (List.append_nil _).symm)
  | functionResponse id name response =>
    constructor
    case history => exact hhistory
    case calls => rw [hcalled]; exact h.calls.trans (List.append_nil _).symm
    case toolCalls =>
      show toolCallIDs (state.messages ++ [_]) = _
      rw [toolCallIDs_append, h.toolCalls]
      exact List.append_nil _
    case results =>
      show toolResultIDs (state.messages ++ [_]) = _
      rw [toolResultIDs_append, h.results, hanswered, List.append_assoc]
      rfl

variable (lib)

theorem numbered_content (history : GeminiFunctionCallHistory) (before : List Message) (parts : List GeminiPart) :
    ∃ new, Numbered history before parts
      (parts.foldl (partStep lib) { callHistory := history, messages := before }) new := by
  induction parts using List.reverseRecOn with
  | nil => exact ⟨[], fun given => by rw [List.append_nil]; rfl, rfl, rfl, (List.append_nil _).symm⟩
  | append_singleton parts part ih =>
    obtain ⟨new, hnew⟩ := ih
    rw [List.foldl_concat]
    exact ⟨_, hnew.step part⟩

theorem contentStep_numbered (state : GeminiFunctionCallHistory × List Message) (content : GeminiContent) : ∃ new,
      (∀ given, content.parts.foldl giveStep (state.1, given) = ((contentStep lib state content).1, given ++ new)) ∧
      toolCallIDs (contentStep lib state content).2 = toolCallIDs state.2 ++ calledIDs new ∧
      toolResultIDs (contentStep lib state content).2 = toolResultIDs state.2 ++ answeredIDs new := by
  obtain ⟨new, hhistory, hcalls, htoolCalls, hresults⟩ := numbered_content lib state.1 state.2 content.parts
  refine ⟨new, ?_⟩
  rw [contentStep]
  generalize content.parts.foldl (partStep lib) { callHistory := state.1, messages := state.2 } = collected at *
  have hrole := role_message collected content.role
  split
  · refine ⟨hhistory, ?_, ?_⟩
    · rw [toolCallIDs_append, htoolCalls, ← hcalls]
      exact congrArg _ (List.append_nil _)
    · rw [toolResultIDs_append, hresults, toolResultIDs_other hrole]
      exact List.append_nil _
  next hnone =>
    -- a message that is left out has no calls
    have hnil : collected.toolCalls = [] := not_not.mp (not_or.mp (not_or.mp hnone).2).1
    rw [hnil] at hcalls
    refine ⟨hhistory, ?_, hresults⟩
    rw [htoolCalls, ← hcalls]
    exact (List.append_nil _).symm

theorem foldl_contentStep_numbered (contents : List GeminiContent) (state : GeminiFunctionCallHistory × List Message) :
    ∃ new, (∀ given, (contents.flatMap GeminiContent.parts).foldl giveStep (state.1, given) =
        ((contents.foldl (contentStep lib) state).1, given ++ new)) ∧
      toolCallIDs (contents.foldl (contentStep lib) state).2 = toolCallIDs state.2 ++ calledIDs new ∧
      toolResultIDs (contents.foldl (contentStep lib) state).2 = toolResultIDs state.2 ++ answeredIDs new := by
  induction contents generalizing state with
  | nil => exact ⟨[], fun given => by rw [List.append_nil]; rfl, (List.append_nil _).symm, (List.append_nil _).symm⟩
  | cons content rest ih =>
    obtain ⟨new, hhistory, hcalls, hresults⟩ := contentStep_numbered lib state content
    obtain ⟨later, hhistory', hcalls', hresults'⟩ := ih (contentStep lib state content)
    refine ⟨new ++ later, fun given => ?_, ?_, ?_⟩
    · rw [List.flatMap_cons, List.foldl_append, hhistory, hhistory', List.append_assoc]
      rfl
    · rw [List.foldl_cons, hcalls', hcalls, calledIDs_append, List.append_assoc]
    · rw [List.foldl_cons, hresults', hresults, answeredIDs_append, List.append_assoc]

end Conversion

/-- The ids a request has. -/
def requestIDs (parts : List GeminiPart) : List String := (parts.map GeminiPart.id).filter (· ≠ "")

theorem messages_given (lib : JsonLibrary) (request : GeminiRequest) :
    let parts := request.contents.flatMap GeminiContent.parts
    let given := (givenAfter (requestIDs parts) parts).2
    toolCallIDs (geminiGenerateContentRequestToOpenAIChat lib request) = calledIDs given ∧
      toolResultIDs (geminiGenerateContentRequestToOpenAIChat lib request) = answeredIDs given := by
  intro parts given
  obtain ⟨new, hhistory, hcalls, hresults⟩ := foldl_contentStep_numbered lib request.contents
    (newGeminiFunctionCallHistory request.contents, [])
  have hgiven : given = new := congrArg Prod.snd (hhistory [])
  have hsystem : toolCallIDs (systemInstructionMessages request.systemInstructions) = [] ∧
      toolResultIDs (systemInstructionMessages request.systemInstructions) = [] := by
    unfold systemInstructionMessages
    cases request.systemInstructions with
    | none => exact ⟨rfl, rfl⟩
    | some parts => exact ⟨rfl, toolResultIDs_other (show "system" ≠ "tool" by decide)⟩
  rw [geminiGenerateContentRequestToOpenAIChat, toolCallIDs_append, toolResultIDs_append, hsystem.1, hsystem.2, hgiven]
  exact ⟨hcalls, hresults⟩

theorem paired_of_calls {calls : List GeminiPart} (hcalls : ∀ p ∈ calls, p.response? = none)
    (hdistinct : (ownCallIDs calls).Nodup) {name : String} {response : Json} (hname : name ≠ "")
    (hcount : 0 < countCalls name calls) : PairedHistory (calls ++ [.functionResponse "" name response]) where
  distinct := by
    rw [ownCallIDs_concat]
    exact (List.append_nil (ownCallIDs calls)).symm ▸ hdistinct
  answersEarlier := by
    refine everywhere_concat.mpr ⟨fun before x after hsplit id n hresp => ?_, fun id n hresp hid => ?_⟩
    · rw [hcalls x (hsplit ▸ List.mem_append_right _ List.mem_cons_self)] at hresp
      cases hresp
    · cases hresp
      exact absurd rfl hid
  idless := by
    refine everywhere_concat.mpr ⟨fun before x after hsplit n hresp => ?_, fun n hresp => ?_⟩
    · rw [hcalls x (hsplit ▸ List.mem_append_right _ List.mem_cons_self)] at hresp
      cases hresp
    · cases hresp
      have hnone : countResponses name calls = 0 := List.countP_eq_zero.mpr fun p hp => by simp [hcalls p hp]
      exact ⟨hname, by omega⟩

def weatherCalls : List GeminiPart := [.functionCall "x" "weather" .null, .functionCall "" "weather" .null]

/-- A call with an id, one without, and a result without an id. -/
def mixedHistory : GeminiRequest where
  systemInstructions := none
  contents := [⟨"model", weatherCalls⟩, ⟨"function", [.functionResponse "" "weather" .null]⟩]

theorem paired_mixedHistory : PairedHistory (mixedHistory.contents.flatMap GeminiContent.parts) :=
  show PairedHistory (weatherCalls ++ [.functionResponse "" "weather" .null]) from
    paired_of_calls (by decide) (by decide) (by decide) (by decide)

/-- How `null` is written. -/
def nullLibrary : JsonLibrary where
  marshal _ := "null"
  unmarshal _ := some .null

/-- Calls and results are paired by their ids, and the results without one in the order of the calls exactly when each
comes at the turn of a call without one; then no such call is answered twice. -/
theorem geminiCalls_paired (lib : JsonLibrary) (request : GeminiRequest)
    (hhistory : PairedHistory (request.contents.flatMap GeminiContent.parts)) :
    ∃ given : List Given, given.map Prod.fst = request.contents.flatMap GeminiContent.parts ∧
      toolCallIDs (geminiGenerateContentRequestToOpenAIChat lib request) = calledIDs given ∧
      toolResultIDs (geminiGenerateContentRequestToOpenAIChat lib request) = answeredIDs given ∧
      (calledIDs given).Nodup ∧
      (∀ e ∈ given, e.1.id ≠ "" → e.2 = e.1.id) ∧
      (∀ e ∈ given, ∀ name, e.1.call? = some ("", name) →
        e.2 ∉ requestIDs (request.contents.flatMap GeminiContent.parts)) ∧
      (InOrder given ↔ PairedBefore (request.contents.flatMap GeminiContent.parts)) ∧
      (PairedBefore (request.contents.flatMap GeminiContent.parts) → ∀ name, (idlessAnswers name given).Nodup ∧
        ∀ id ∈ idlessAnswers name given, ∀ e ∈ given, e.1.response?.isSome → e.2 = id →
          e.1.response? = some ("", name)) := by
  obtain ⟨hcalls, hresults⟩ := messages_given lib request
  generalize request.contents.flatMap GeminiContent.parts = parts at *
  have hrequest : ∀ p ∈ parts, p.id ≠ "" → p.id ∈ requestIDs parts := fun p hp hne =>
    List.mem_filter.mpr ⟨List.mem_map_of_mem hp, by simpa using hne⟩
  obtain ⟨hparts, ht⟩ := tracked_givenAfter hhistory hrequest
  have horder := inOrder_iff hhistory hrequest
  refine ⟨_, hparts, hcalls, hresults, ht.nodup, ht.kept, ht.fresh, horder, fun hpaired name => ?_⟩
  have hin := horder.mpr hpaired
  refine ⟨List.Nodup.sublist (hin name).sublist (ht.nodup_idlessCalls name), ?_⟩
  rintro _ hid e he hsome rfl
  obtain ⟨⟨own, n⟩, hresp⟩ := Option.isSome_iff_exists.mp hsome
  have hcalled := (hin name).mem hid
  by_cases hown : own = ""
  · subst hown
    rw [hresp, ht.name_unique ((hin n).mem (mem_idlessAnswers.mpr ⟨e, he, hresp, rfl⟩)) hcalled]
  · -- an id of the request is not that of a call without one
    have hpart : e.1.id = own := id_of_response? hresp
    obtain ⟨c, hc, hcall, heq⟩ := mem_idlessCalls.mp hcalled
    have hkept := ht.kept e he (by rwa [hpart])
    have hmem := hrequest e.1 (hparts ▸ List.mem_map_of_mem he) (by rwa [hpart])
    rw [← hkept, ← heq] at hmem
    exact absurd hmem (ht.fresh c hc name hcall)

theorem geminiCalls_paired_mixed :
    ∃ given : List Given, given.map Prod.fst = mixedHistory.contents.flatMap GeminiContent.parts ∧
      toolResultIDs (geminiGenerateContentRequestToOpenAIChat nullLibrary mixedHistory) = answeredIDs given :=
  have ⟨given, hparts, _, hresults, _⟩ := geminiCalls_paired nullLibrary mixedHistory paired_mixedHistory
  ⟨given, hparts, hresults⟩

/-- The result is given the id of the first call of its name, though the call without an id is another. -/
theorem mixedHistory_crossed :
    PairedHistory (mixedHistory.contents.flatMap GeminiContent.parts) ∧
      ∃ made, made ≠ "x" ∧
        toolCallIDs (geminiGenerateContentRequestToOpenAIChat nullLibrary mixedHistory) = ["x", made] ∧
        toolResultIDs (geminiGenerateContentRequestToOpenAIChat nullLibrary mixedHistory) = ["x"] := by
  obtain ⟨hcalls, hresults⟩ := messages_given nullLibrary mixedHistory
  let history : GeminiFunctionCallHistory := { reservedIDs := ["x"], pending := [("x", "weather")], nextID := 1 }
  refine ⟨paired_mixedHistory, history.newFallbackID.1, ?_, ?_, ?_⟩
  · intro heq
    exact history.newFallbackID_free (heq ▸ List.mem_singleton_self "x")
  · rw [hcalls]
    rfl
  · rw [hresults]
    rfl

end Vancine.ChatRequests
