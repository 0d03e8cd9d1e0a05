import Vancine.ChatRequests.FromGemini

/-!
# When a history arrives

Both converters leave the content of a message empty when the message has tool calls. A history arrives whole exactly
when no message has tool calls and a text or an image beside them.
-/

namespace Vancine.ChatRequests

open Lib

/-- The arguments of all calls are read back as they were written. -/
def ReadsBack (lib : JsonLibrary) (sources : List SourceMessage) : Prop :=
  ∀ s ∈ sources, ∀ call ∈ s.calls, lib.unmarshal (lib.marshal call.arguments) = some call.arguments

section Arrival

variable {lib : ClaudeLibrary}

theorem claude_converted {request : ClaudeRequest} {messages : List ClaudeMessage}
    (hroles : ∀ m ∈ messages, m.role ≠ "tool")
    (hlib : ReadsBack lib.toJsonLibrary (messages.map ClaudeMessage.source)) :
    List.Forall₂ (Converted lib.toJsonLibrary) (messages.map ClaudeMessage.source)
      (messages.map (madeFrom lib request)) := by
  induction messages with
  | nil => exact List.Forall₂.nil
  | cons m messages ih =>
    obtain ⟨hrole, hroles⟩ := List.forall_mem_cons.mp hroles
    obtain ⟨hm, hlib⟩ := List.forall_mem_cons.mp hlib
    exact List.Forall₂.cons (converted_madeFrom hrole hm) (ih hroles hlib)

/-- Histories of Claude and of Gemini as chat messages. -/
theorem histories_arrive_iff (lib : ClaudeLibrary) (isOpenRouterClaude : Bool) (claude : ClaudeRequest)
    (gemini : GeminiRequest) (hroles : ∀ m ∈ claude.messages, m.role ≠ "tool")
    (hclaude : ReadsBack lib.toJsonLibrary (claude.messages.map ClaudeMessage.source))
    (hgemini : ReadsBack lib.toJsonLibrary (gemini.contents.map GeminiContent.source)) :
    (Arrives lib.toJsonLibrary (claude.messages.map ClaudeMessage.source)
        (systemMessages isOpenRouterClaude claude.system)
        (claudeMessagesRequestToOpenAIChat lib isOpenRouterClaude claude) ↔
      ∀ s ∈ claude.messages.map ClaudeMessage.source, s.Plain) ∧
    (Arrives lib.toJsonLibrary (gemini.contents.map GeminiContent.source)
        (systemInstructionMessages gemini.systemInstructions)
        (geminiGenerateContentRequestToOpenAIChat lib.toJsonLibrary gemini) ↔
      ∀ s ∈ gemini.contents.map GeminiContent.source, s.Plain) := by
  constructor
  · rw [claudeMessagesRequestToOpenAIChat_eq]
    exact arrives_iff (claude_converted hroles hclaude)
  · obtain ⟨made, hmade, hconverted⟩ := foldl_contentStep (newGeminiFunctionCallHistory gemini.contents, [])
      fun content hcontent => hgemini _ (List.mem_map_of_mem hcontent)
    rw [geminiGenerateContentRequestToOpenAIChat]
    rw [hmade, List.nil_append]
    exact arrives_iff hconverted

end Arrival

/-! ## Both sides of the condition -/

/-- Knows the empty object only. -/
def emptyObjectLibrary : ClaudeLibrary where
  marshal _ := "{}"
  unmarshal _ := some (.object [])
  mediaText _ := "null"

def findCall : Block := .toolUse "call_1" "find" (.object [])

def claudeTurns (content : List Block) : ClaudeRequest where
  system := none
  messages := [⟨"user", .text "Where is it?"⟩, ⟨"assistant", .blocks content⟩,
    ⟨"user", .blocks [.toolResult "call_1" "" (.string "here"), .image "image/png" "AA=="]⟩]

def geminiTurns (parts : List GeminiPart) : GeminiRequest where
  systemInstructions := none
  contents := [⟨"user", [.text "Where is it?" false]⟩, ⟨"model", parts⟩,
    ⟨"user", [.functionResponse "call_1" "find" (.object [])]⟩]

variable {sources : List SourceMessage}

theorem readsBack_of_empty (h : ∀ s ∈ sources, ∀ call ∈ s.calls, call.arguments = .object []) :
    ReadsBack emptyObjectLibrary.toJsonLibrary sources := fun s hs call hcall => by
  rw [h s hs call hcall]
  rfl

def thoughtAndCall : GeminiRequest := geminiTurns [.text "I should look." true, .functionCall "" "find" (.object [])]

def textAndCall : GeminiRequest := geminiTurns [.text "I look it up." false, .functionCall "" "find" (.object [])]

/-- A call by itself, and a call after a thought. -/
theorem histories_arrive_plain :
    Arrives emptyObjectLibrary.toJsonLibrary ((claudeTurns [findCall]).messages.map ClaudeMessage.source)
        (systemMessages false (claudeTurns [findCall]).system)
        (claudeMessagesRequestToOpenAIChat emptyObjectLibrary false (claudeTurns [findCall])) ∧
      Arrives emptyObjectLibrary.toJsonLibrary (thoughtAndCall.contents.map GeminiContent.source)
        (systemInstructionMessages thoughtAndCall.systemInstructions)
        (geminiGenerateContentRequestToOpenAIChat emptyObjectLibrary.toJsonLibrary thoughtAndCall) := by
  have hclaude : ∀ s ∈ (claudeTurns [findCall]).messages.map ClaudeMessage.source, s.Plain :=
    List.forall_mem_cons.mpr ⟨Or.inl rfl, List.forall_mem_cons.mpr ⟨Or.inr rfl, List.forall_mem_cons.mpr
      ⟨Or.inl rfl, fun _ h => absurd h List.not_mem_nil⟩⟩⟩
  have hgemini : ∀ s ∈ thoughtAndCall.contents.map GeminiContent.source, s.Plain :=
    List.forall_mem_cons.mpr ⟨Or.inl rfl, List.forall_mem_cons.mpr ⟨Or.inr rfl, List.forall_mem_cons.mpr
      ⟨Or.inl rfl, fun _ h => absurd h List.not_mem_nil⟩⟩⟩
  have hboth := histories_arrive_iff emptyObjectLibrary false (claudeTurns [findCall]) thoughtAndCall (by decide)
    (readsBack_of_empty (by simp [claudeTurns, findCall, ClaudeMessage.source, Block.calls]))
    (readsBack_of_empty (by simp [thoughtAndCall, geminiTurns, GeminiContent.source, GeminiPart.calls]))
  exact ⟨hboth.1.mpr hclaude, hboth.2.mpr hgemini⟩

theorem not_arrives_of_length {lib : JsonLibrary} {messages : List Message}
    (h : (heldItems messages).length < (sources.map fun s => s.items.length).sum) :
    ¬Arrives lib sources [] messages := by
  rintro ⟨made, rfl, hwhole⟩
  have := length_items_le hwhole
  rw [List.nil_append] at h
  omega

/-- The sentence before a call is nowhere in the chat messages. -/
theorem text_beside_call_dropped :
    ¬Arrives emptyObjectLibrary.toJsonLibrary
        ((claudeTurns [.text "I look it up." none, findCall]).messages.map ClaudeMessage.source) []
        (claudeMessagesRequestToOpenAIChat emptyObjectLibrary false
          (claudeTurns [.text "I look it up." none, findCall])) ∧
      ¬Arrives emptyObjectLibrary.toJsonLibrary (textAndCall.contents.map GeminiContent.source) []
        (geminiGenerateContentRequestToOpenAIChat emptyObjectLibrary.toJsonLibrary textAndCall) :=
  ⟨not_arrives_of_length (by decide), not_arrives_of_length (by decide)⟩

end Vancine.ChatRequests
