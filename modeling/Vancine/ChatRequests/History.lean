import Mathlib
import Vancine.Lib.Json

/-!
# Histories as chat messages

The messages of a chat request, and what it means that a source history reaches them whole: each source message has
messages of its own, in order, and these have its texts and images, its tool calls and its tool results.
-/

namespace Vancine.ChatRequests

open Lib

/-! ## Chat messages -/

structure MessageImageUrl where
  url : String
  detail : String := ""
  mimeType : String := ""
  deriving DecidableEq

/-- `cache_control` is kept as it is. -/
inductive MediaContent
  | text (text : String) (cacheControl : Option String)
  | image (imageUrl : MessageImageUrl)
  deriving DecidableEq

inductive Content
  | absent
  | text (s : String)
  | media (parts : List MediaContent)
  deriving DecidableEq

/-- `ParseContent`. -/
def Content.parse : Content → List MediaContent
  | .absent => []
  | .text s => [.text s none]
  | .media parts => parts

/-- A call of a function. -/
structure ToolCallRequest where
  id : String
  name : String
  arguments : String
  deriving DecidableEq

/-- No tool calls are written as no field. -/
structure Message where
  role : String
  content : Content := .absent
  name : Option String := none
  toolCallId : String := ""
  toolCalls : List ToolCallRequest := []
  reasoningContent : Option String := none

/-- The texts that `json.Marshal` writes, and what a reader makes of them. -/
structure JsonLibrary where
  marshal : Json → String
  unmarshal : String → Option Json

/-! ## What a source message says -/

/-- A text that is not empty, or an image by its URL. -/
inductive Item
  | text (s : String)
  | image (url : String)

def MediaContent.item? : MediaContent → Option Item
  | .text s _ => if s = "" then none else some (.text s)
  | .image imageUrl => some (.image imageUrl.url)

/-- Some protocols have calls without an id. -/
structure SourceCall where
  id : Option String
  name : String
  arguments : Json

structure SourceMessage where
  items : List Item
  calls : List SourceCall
  /-- The ids of the calls that the tool results answer. -/
  results : List (Option String)

/-- The call under its id and name, with equal arguments. -/
structure Carries (lib : JsonLibrary) (source : SourceCall) (call : ToolCallRequest) : Prop where
  id : ∀ id ∈ source.id, call.id = id
  name : call.name = source.name
  arguments : lib.unmarshal call.arguments = some source.arguments

/-- What the messages other than tool results hold. -/
def heldItems (messages : List Message) : List Item :=
  ((messages.filter fun m => m.role ≠ "tool").flatMap fun m => m.content.parse).filterMap MediaContent.item?

def toolMessages (messages : List Message) : List Message := messages.filter fun m => m.role = "tool"

/-- Everything that a source message says is in the messages made from it. -/
structure Whole (lib : JsonLibrary) (source : SourceMessage) (messages : List Message) : Prop where
  items : source.items.Sublist (heldItems messages)
  calls : List.Forall₂ (Carries lib) source.calls (messages.flatMap Message.toolCalls)
  results : List.Forall₂ (fun id m => ∀ i ∈ id, m.toolCallId = i) source.results (toolMessages messages)

/-- The history is there whole and in order, after the messages in front. -/
def Arrives (lib : JsonLibrary) (sources : List SourceMessage) (front messages : List Message) : Prop :=
  ∃ made : List (List Message), messages = front ++ made.flatten ∧ List.Forall₂ (Whole lib) sources made

/-! ## Messages that have either calls or content -/

/-- The source message does not have both tool calls and something to say beside them. -/
def SourceMessage.Plain (source : SourceMessage) : Prop := source.calls = [] ∨ source.items = []

/-- How both converters make messages: everything arrives, except that the items go when there are calls. -/
structure Converted (lib : JsonLibrary) (source : SourceMessage) (messages : List Message) : Prop where
  items : heldItems messages = if source.calls = [] then source.items else []
  calls : List.Forall₂ (Carries lib) source.calls (messages.flatMap Message.toolCalls)
  results : List.Forall₂ (fun id m => ∀ i ∈ id, m.toolCallId = i) source.results (toolMessages messages)

section Conversion

variable {lib : JsonLibrary}

theorem heldItems_append (a b : List Message) : heldItems (a ++ b) = heldItems a ++ heldItems b := by
  simp [heldItems]

/-- Tool results, and a message after them that is left out when there is nothing in it. -/
structure OwnAfter (own : Message) (tools tail : List Message) : Prop where
  tools : ∀ m ∈ tools, m.role = "tool" ∧ m.toolCalls = []
  role : own.role ≠ "tool"
  tail : tail = [own] ∨ tail = [] ∧ own.content.parse = [] ∧ own.toolCalls = []

variable {own : Message} {tools tail : List Message} {source : SourceMessage} {sources : List SourceMessage}
  {made : List (List Message)}

theorem OwnAfter.heldItems_eq (h : OwnAfter own tools tail) :
    heldItems (tools ++ tail) = own.content.parse.filterMap MediaContent.item? := by
  have htools : heldItems tools = [] := by
    have hnone : tools.filter (fun m => m.role ≠ "tool") = [] :=
      List.filter_eq_nil_iff.mpr fun m hm => by simp [(h.tools m hm).1]
    rw [heldItems, hnone]
    rfl
  rw [heldItems_append, htools, List.nil_append]
  rcases h.tail with rfl | ⟨rfl, hcontent, -⟩
  · simp [heldItems, h.role]
  · rw [hcontent]
    rfl

theorem OwnAfter.toolCalls_eq (h : OwnAfter own tools tail) :
    (tools ++ tail).flatMap Message.toolCalls = own.toolCalls := by
  have htools : tools.flatMap Message.toolCalls = [] := List.flatMap_eq_nil_iff.mpr fun m hm => (h.tools m hm).2
  rw [List.flatMap_append, htools, List.nil_append]
  rcases h.tail with rfl | ⟨rfl, -, hcalls⟩
  · exact List.flatMap_singleton _ _
  · exact hcalls.symm

theorem OwnAfter.toolMessages_eq (h : OwnAfter own tools tail) : toolMessages (tools ++ tail) = tools := by
  have htools : tools.filter (fun m => m.role = "tool") = tools :=
    List.filter_eq_self.mpr fun m hm => decide_eq_true (h.tools m hm).1
  have htail : tail.filter (fun m => m.role = "tool") = [] := by
    rcases h.tail with rfl | ⟨rfl, -, -⟩
    · exact List.filter_eq_nil_iff.mpr fun m hm => by simpa [List.mem_singleton.mp hm] using h.role
    · rfl
  rw [toolMessages, List.filter_append, htools, htail, List.append_nil]

theorem OwnAfter.converted (h : OwnAfter own tools tail)
    (hitems : own.content.parse.filterMap MediaContent.item? = if source.calls = [] then source.items else [])
    (hcalls : List.Forall₂ (Carries lib) source.calls own.toolCalls)
    (hresults : List.Forall₂ (fun (id : Option String) (m : Message) => ∀ i ∈ id, m.toolCallId = i) source.results tools) :
    Converted lib source (tools ++ tail) where
  items := h.heldItems_eq.trans hitems
  calls := by
    rw [h.toolCalls_eq]
    exact hcalls
  results := by
    rw [h.toolMessages_eq]
    exact hresults

variable {messages : List Message}

theorem Converted.whole (h : Converted lib source messages) (hplain : source.Plain) : Whole lib source messages where
  items := by
    rcases hplain with hcalls | hitems
    · rw [h.items, if_pos hcalls]
    · rw [hitems]
      exact List.nil_sublist _
  calls := h.calls
  results := h.results

/-- Fewer items are held than said, unless nothing is dropped. -/
theorem Converted.length_le (h : Converted lib source messages) : (heldItems messages).length ≤ source.items.length ∧
      (source.items.length ≤ (heldItems messages).length → source.Plain) := by
  rw [h.items]
  by_cases hcalls : source.calls = []
  · rw [if_pos hcalls]
    exact ⟨Nat.le_refl _, fun _ => Or.inl hcalls⟩
  · rw [if_neg hcalls]
    exact ⟨Nat.zero_le _, fun hle => Or.inr (List.length_eq_zero_iff.mp (Nat.le_zero.mp hle))⟩

theorem length_items_le (h : List.Forall₂ (Whole lib) sources made) :
    (sources.map fun s => s.items.length).sum ≤ (heldItems made.flatten).length := by
  induction h with
  | nil => exact Nat.zero_le _
  | cons hwhole _ ih =>
    rw [List.map_cons, List.sum_cons, List.flatten_cons, heldItems_append, List.length_append]
    exact Nat.add_le_add hwhole.items.length_le ih

theorem length_heldItems_le (h : List.Forall₂ (Converted lib) sources made) :
    (heldItems made.flatten).length ≤ (sources.map fun s => s.items.length).sum ∧
      ((sources.map fun s => s.items.length).sum ≤ (heldItems made.flatten).length → ∀ s ∈ sources, s.Plain) := by
  induction h with
  | nil => exact ⟨Nat.zero_le _, fun _ _ hs => absurd hs List.not_mem_nil⟩
  | cons hconverted _ ih =>
    obtain ⟨hle, hplain⟩ := hconverted.length_le
    rw [List.map_cons, List.sum_cons, List.flatten_cons, heldItems_append, List.length_append]
    refine ⟨Nat.add_le_add hle ih.1, fun hsum => List.forall_mem_cons.mpr ⟨hplain ?_, ih.2 ?_⟩⟩
    · have := ih.1
      omega
    · omega

/-- A history that is converted so arrives exactly when no message has both. -/
theorem arrives_iff {front : List Message} (h : List.Forall₂ (Converted lib) sources made) :
    Arrives lib sources front (front ++ made.flatten) ↔ ∀ s ∈ sources, s.Plain := by
  constructor
  · rintro ⟨made', heq, hwhole⟩
    have hflatten : made.flatten = made'.flatten := List.append_cancel_left heq
    refine (length_heldItems_le h).2 ?_
    rw [hflatten]
    exact length_items_le hwhole
  · intro hplain
    refine ⟨made, rfl, ?_⟩
    induction h with
    | nil => exact List.Forall₂.nil
    | cons hconverted _ ih =>
      obtain ⟨hs, hrest⟩ := List.forall_mem_cons.mp hplain
      exact List.Forall₂.cons (hconverted.whole hs) (ih hrest)

end Conversion

end Vancine.ChatRequests
