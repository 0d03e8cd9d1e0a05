import Vancine.Streams.GeminiToChat

/-!
# The content of a Gemini candidate

A candidate says something in its thoughts, shows something in its texts and images, and calls functions. Lines are
broken between the parts of a choice, so texts are compared by their letters.
-/

namespace Vancine.Streams.Gemini

open Lib

variable {U : Type} (host : Host)

/-! ## Content -/

/-- A part of a candidate. The type of an image begins with `image`. -/
inductive Part
  | thought (text : String)
  | text (text : String)
  | call (id name : String) (arguments : Json)
  | image (subtype data : String)

structure Candidate where
  index : ℤ := 0
  parts : List Part
  finishReason : Option String := none

namespace Part

def imageData (kind data : String) : GeminiInlineData := ⟨"image" ++ kind, data⟩

def chat : Part → GeminiPart
  | thought t => { text := t, thought := true }
  | text t => { text := t }
  | call id name arguments => { functionCall := some { id := id, functionName := name, arguments := arguments } }
  | image kind data => { inlineData := some (imageData kind data) }

def thought? : Part → Option String
  | thought t => some t
  | _ => none

/-- The text of a part that is not a thought. An image is shown as Markdown. -/
def shown? : Part → Option String
  | text t => some t
  | image kind data => some (imageData kind data).image
  | _ => none

def call? : Part → Option FunctionCall
  | call id name arguments => some { id := id, functionName := name, arguments := arguments }
  | _ => none

@[simp] theorem imageData_isImage (kind data : String) : (imageData kind data).isImage = true := by
  simp [GeminiInlineData.isImage, imageData]

end Part

namespace Candidate

def chat (c : Candidate) : GeminiChatCandidate := ⟨c.index, c.parts.map Part.chat, c.finishReason⟩

def thoughts (c : Candidate) : List String := c.parts.filterMap (·.thought?)

def shown (c : Candidate) : List String := c.parts.filterMap (·.shown?)

def calls (c : Candidate) : List FunctionCall := c.parts.filterMap (·.call?)

end Candidate

/-! ## Letters -/

/-- The characters of a text but its line breaks. -/
def letters (s : String) : List Char := s.toList.filter (· ≠ '\n')

@[simp] theorem letters_append (s t : String) : letters (s ++ t) = letters s ++ letters t := by
  simp [letters]

@[simp] theorem letters_empty : letters "" = [] := rfl

@[simp] theorem letters_break : letters "\n" = [] := rfl

@[simp] theorem letters_write (part : String) (content : Content) :
    letters (content.write part).text = letters content.text ++ letters part := by
  unfold Content.write
  split <;> simp

/-- The text is made of the texts. -/
def MadeOf (texts : List String) (text : String) : Prop := letters text = texts.flatMap letters

/-- Texts without letters. -/
def Blank (texts : List String) : Prop := ∀ t ∈ texts, letters t = []

theorem blank_iff {texts : List String} : Blank texts ↔ texts.flatMap letters = [] := List.flatMap_eq_nil_iff.symm

/-- Only the last text is made of all texts if the others are blank. -/
theorem madeOf_last_iff (texts : List String) : MadeOf texts (texts.getLast?.getD "") ↔ Blank texts.dropLast := by
  unfold MadeOf
  rcases List.eq_nil_or_concat texts with rfl | ⟨init, last, rfl⟩
  · exact iff_of_true rfl (fun t ht => absurd ht List.not_mem_nil)
  · simp [blank_iff]

/-! ## Calls -/

/-- The function is called with the arguments, under its id if it has one. -/
def Calls (call : FunctionCall) (id name arguments : String) : Prop :=
  name = call.functionName ∧ arguments = host.marshal call.arguments ∧ (trimSpace call.id ≠ "" → id = trimSpace call.id)

/-- The calls that are sent, and how many ids are given after them. -/
def sentCalls (n : ℕ) : List FunctionCall → List ToolCallResponse × ℕ
  | [] => ([], n)
  | call :: calls =>
    let (toolCall, n) := geminiResponseToolCall host n call
    let (toolCalls, n) := sentCalls n calls
    (toolCall :: toolCalls, n)

theorem calls_geminiResponseToolCall (n : ℕ) (call : FunctionCall) :
    let toolCall := (geminiResponseToolCall host n call).1
    Calls host call toolCall.id toolCall.function.name toolCall.function.arguments := by
  unfold geminiResponseToolCall
  by_cases h : trimSpace call.id = ""
  · simp [Calls, h]
  · simp [Calls, h]

variable (n : ℕ)

theorem calls_sentCalls (calls : List FunctionCall) : List.Forall₂ (fun call (toolCall : ToolCallResponse) =>
      Calls host call toolCall.id toolCall.function.name toolCall.function.arguments) calls (sentCalls host n calls).1 := by
  induction calls generalizing n with
  | nil => exact .nil
  | cons call calls ih => exact .cons (calls_geminiResponseToolCall host n call) (ih _)

@[simp] theorem sentCalls_isEmpty (calls : List FunctionCall) : (sentCalls host n calls).1.isEmpty = calls.isEmpty := by
  cases calls with
  | nil => rfl
  | cons call calls => rfl

/-! ## A whole choice -/

theorem foldl_wholePart (w : WholeChoice) (parts : List Part) :
    let w' := (parts.map Part.chat).foldl (wholePart host) w
    letters w'.content.text = letters w.content.text ++ (parts.filterMap (·.shown?)).flatMap letters ∧
      w'.reasoningContent = (parts.filterMap (·.thought?)).getLast?.or w.reasoningContent ∧
      w'.toolCalls = w.toolCalls ++ (sentCalls host w.uuids (parts.filterMap (·.call?))).1 ∧
      w'.uuids = (sentCalls host w.uuids (parts.filterMap (·.call?))).2 ∧
      w'.finishReason = if parts.filterMap (·.call?) = [] then w.finishReason else "tool_calls" := by
  induction parts generalizing w with
  | nil => simp [sentCalls]
  | cons part parts ih =>
    obtain ⟨hcontent, hreasoning, hcalls, huuids, hfinish⟩ := ih (wholePart host w part.chat)
    simp only [List.map_cons, List.foldl_cons, hcontent, hreasoning, hcalls, huuids, hfinish]
    cases part with
    | thought t => simp [wholePart, Part.chat, Part.thought?, Part.shown?, Part.call?, List.getLast?_cons]
    | text t =>
      by_cases ht : t = "\n"
      · simp [wholePart, Part.chat, Part.thought?, Part.shown?, Part.call?, ht]
      · simp [wholePart, Part.chat, Part.thought?, Part.shown?, Part.call?, ht]
    | call id name arguments => simp [wholePart, Part.chat, Part.thought?, Part.shown?, Part.call?, sentCalls]
    | image kind data => simp [wholePart, Part.chat, Part.thought?, Part.shown?, Part.call?]

theorem wholeCandidate_chat (c : Candidate) : MadeOf c.shown (wholeCandidate host n c.chat).content.text ∧
      (wholeCandidate host n c.chat).reasoningContent = c.thoughts.getLast? ∧
      (wholeCandidate host n c.chat).toolCalls = (sentCalls host n c.calls).1 ∧
      (wholeCandidate host n c.chat).uuids = (sentCalls host n c.calls).2 ∧
      (wholeCandidate host n c.chat).finishReason = if c.calls = [] then "stop" else "tool_calls" := by
  obtain ⟨hcontent, hreasoning, hcalls, huuids, hfinish⟩ := foldl_wholePart host { uuids := n } c.parts
  exact ⟨hcontent, hreasoning.trans Option.or_none, hcalls, huuids, hfinish⟩

/-- The finish reason of a whole choice by itself. -/
def Candidate.wholeFinish (c : Candidate) : String :=
  if c.calls = [] then (c.finishReason.map geminiFinishReason).getD "stop" else "tool_calls"

theorem geminiFinishReason_ne_tool_calls (reason : String) : geminiFinishReason reason ≠ "tool_calls" := by
  unfold geminiFinishReason
  split <;> decide

/-- What a whole choice says of its candidate, all but the finish reason. -/
structure WholeContent (c : Candidate) (choice : TextChoice) : Prop where
  index : choice.index = c.index
  reasoning : MadeOf c.thoughts (choice.message.reasoningContent.getD "")
  content : MadeOf c.shown (choice.message.content.getD "")
  calls : List.Forall₂ (fun call (toolCall : ToolCallResponse) =>
    Calls host call toolCall.id toolCall.function.name toolCall.function.arguments) c.calls choice.message.toolCalls

theorem wholeContent_iff (c : Candidate) (isToolCall : Bool) :
    WholeContent host c ((wholeCandidate host n c.chat).choice c.chat isToolCall) ↔ Blank c.thoughts.dropLast := by
  obtain ⟨hcontent, hreasoning, hcalls, -, -⟩ := wholeCandidate_chat host n c
  rw [← madeOf_last_iff, ← hreasoning]
  refine ⟨fun h => h.reasoning, fun h => ⟨rfl, h, hcontent, ?_⟩⟩
  show List.Forall₂ _ _ (wholeCandidate host n c.chat).toolCalls
  rw [hcalls]
  exact calls_sentCalls host n c.calls

theorem whole_finishReason (c : Candidate) (before : Bool) : ((wholeCandidate host n c.chat).choice c.chat
        (before || !(wholeCandidate host n c.chat).toolCalls.isEmpty)).finishReason =
      if before then "tool_calls" else c.wholeFinish := by
  obtain ⟨-, -, hcalls, -, hfinish⟩ := wholeCandidate_chat host n c
  unfold WholeChoice.choice Candidate.wholeFinish
  rw [hcalls, sentCalls_isEmpty, hfinish]
  cases before with
  | true => rfl
  | false =>
    cases hc : c.calls with
    | nil =>
      have hreason : c.chat.finishReason = c.finishReason := rfl
      rw [hreason]
      cases c.finishReason with
      | none => rfl
      | some reason => rfl
    | cons call calls => rfl

/-- Each choice has the finish reason that it has by itself, unless a call before it marks a choice without calls. -/
theorem whole_finishReason_iff (c : Candidate) (before : Bool) :
    (if before then "tool_calls" else c.wholeFinish) = c.wholeFinish ↔ (before = true → c.calls ≠ []) := by
  cases before with
  | false => simp
  | true =>
    by_cases hc : c.calls = []
    · have hne : c.wholeFinish ≠ "tool_calls" := by
        unfold Candidate.wholeFinish
        rw [if_pos hc]
        cases c.finishReason with
        | none => decide
        | some reason => exact geminiFinishReason_ne_tool_calls reason
      simpa [hc] using hne.symm
    · simp [Candidate.wholeFinish, hc]

/-- The choices of a whole answer say what their candidates say, and each has the finish reason that it has when its
candidate is the only one. -/
def WholeFaithful (candidates : List Candidate) (choices : List TextChoice) : Prop :=
  List.Forall₂ (fun c choice => WholeContent host c choice ∧
    (wholeChoices host false 0 [c.chat]).map (·.finishReason) = [choice.finishReason]) candidates choices

theorem wholeChoices_alone (c : Candidate) :
    (wholeChoices host false n [c.chat]).map (·.finishReason) = [c.wholeFinish] :=
  congrArg (fun r => [r]) (whole_finishReason host n c false)

theorem wholeFaithful_iff (before : Bool) (n : ℕ) (candidates : List Candidate) :
    WholeFaithful host candidates (wholeChoices host before n (candidates.map Candidate.chat)) ↔
      (∀ c ∈ candidates, Blank c.thoughts.dropLast) ∧ (before = true → ∀ c ∈ candidates, c.calls ≠ []) ∧
        candidates.Pairwise fun c c' => c.calls ≠ [] → c'.calls ≠ [] := by
  unfold WholeFaithful
  induction candidates generalizing before n with
  | nil => simp [wholeChoices]
  | cons c candidates ih =>
    obtain ⟨-, -, hcalls, -, -⟩ := wholeCandidate_chat host n c
    show List.Forall₂ _ (c :: candidates)
      ((wholeCandidate host n c.chat).choice c.chat (before || !(wholeCandidate host n c.chat).toolCalls.isEmpty) ::
        wholeChoices host (before || !(wholeCandidate host n c.chat).toolCalls.isEmpty)
          (wholeCandidate host n c.chat).uuids (candidates.map Candidate.chat)) ↔ _
    rw [List.forall₂_cons, ih, wholeContent_iff, wholeChoices_alone, whole_finishReason, hcalls, sentCalls_isEmpty,
      List.cons.injEq, and_iff_left rfl, eq_comm, whole_finishReason_iff, List.forall_mem_cons, List.forall_mem_cons,
      List.pairwise_cons]
    have hmark : (before || !c.calls.isEmpty) = true ↔ before = true ∨ c.calls ≠ [] := by simp
    rw [hmark]
    constructor
    · rintro ⟨⟨hblank, hc⟩, hblanks, hlater, hpairs⟩
      exact ⟨⟨hblank, hblanks⟩, fun h => ⟨hc h, hlater (Or.inl h)⟩, fun c' hc' h => hlater (Or.inr h) c' hc', hpairs⟩
    · rintro ⟨⟨hblank, hblanks⟩, hbefore, hafter, hpairs⟩
      refine ⟨⟨hblank, fun h => (hbefore h).1⟩, hblanks, ?_, hpairs⟩
      rintro (h | h)
      · exact (hbefore h).2
      · exact fun c' hc' => hafter c' hc' h

end Vancine.Streams.Gemini
