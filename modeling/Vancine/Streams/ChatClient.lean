import Vancine.Streams.Chunks

/-!
# The client of a chat stream

What a converter to chat sends, and what a client makes of it: the texts put together in the order in which they come,
and a tool call for each index, in the order in which the indices appear.
-/

namespace Vancine.Streams

/-! ## Chunks that are sent -/

/-- `ChatCompletionsStreamResponseChoiceDelta` with its role. -/
structure SentDelta extends ChoiceDelta where
  role : String := ""

structure SentChoice where
  delta : SentDelta := {}
  finishReason : Option String := none
  index : ℤ := 0

/-- `dto.ChatCompletionsStreamResponse`, over any type of usage. -/
structure SentChunk (U : Type) where
  id : String := ""
  model : String := ""
  created : ℤ := 0
  choices : List SentChoice
  usage : Option U := none

/-! ## Answers that are sent whole -/

/-- `dto.Message` of an answer. Its calls are JSON, which is held as the calls that it stands for. -/
structure TextMessage where
  role : String := ""
  content : Option String := none
  reasoningContent : Option String := none
  toolCalls : List ToolCallResponse := []
  annotations : Raw := .empty

structure TextChoice where
  index : ℤ := 0
  message : TextMessage
  finishReason : String := ""

/-- `dto.OpenAITextResponse`, over any type of usage. -/
structure TextResponse (U : Type) where
  id : String := ""
  model : String := ""
  created : ℤ := 0
  choices : List TextChoice
  usage : Option U := none

variable {U : Type}

def SentChunk.deltas (chunk : SentChunk U) : List ChoiceDelta := chunk.choices.map (·.delta.toChoiceDelta)

/-! ## Calls -/

structure ClientCall where
  id : String
  name : String
  arguments : String

/-- A later fragment of a call. What it does not say stays as it is. -/
def ClientCall.extend (call : ClientCall) (fragment : ToolCallResponse) : ClientCall where
  id := if fragment.id = "" then call.id else fragment.id
  name := if fragment.function.name = "" then call.name else fragment.function.name
  arguments := call.arguments ++ fragment.function.arguments

def ClientCall.first (fragment : ToolCallResponse) : ClientCall :=
  ⟨fragment.id, fragment.function.name, fragment.function.arguments⟩

/-- The calls of a client, each with its index. -/
abbrev ClientCalls := List (ℤ × ClientCall)

/-- A fragment without an index belongs to the first call. -/
def addFragment (calls : ClientCalls) (fragment : ToolCallResponse) : ClientCalls :=
  let i := fragment.index.getD 0
  if i ∈ calls.map Prod.fst then calls.map fun c => if c.1 = i then (i, c.2.extend fragment) else c
  else calls ++ [(i, .first fragment)]

/-! ## What a client has read -/

def readText (deltas : List ChoiceDelta) : String := String.join (deltas.map (·.getContentString))

def readReasoning (deltas : List ChoiceDelta) : String := String.join (deltas.map (·.getReasoningContent))

def readCalls (deltas : List ChoiceDelta) : ClientCalls := (deltas.flatMap (·.toolCalls)).foldl addFragment []

/-! ## Reading on -/

@[simp] theorem readText_nil : readText [] = "" := rfl

@[simp] theorem readText_cons (delta : ChoiceDelta) (deltas : List ChoiceDelta) :
    readText (delta :: deltas) = delta.getContentString ++ readText deltas := by
  simp [readText]

@[simp] theorem readText_append (deltas deltas' : List ChoiceDelta) :
    readText (deltas ++ deltas') = readText deltas ++ readText deltas' := by
  simp only [readText, List.map_append, String.join_append]

@[simp] theorem readReasoning_nil : readReasoning [] = "" := rfl

@[simp] theorem readReasoning_cons (delta : ChoiceDelta) (deltas : List ChoiceDelta) :
    readReasoning (delta :: deltas) = delta.getReasoningContent ++ readReasoning deltas := by
  simp [readReasoning]

@[simp] theorem readReasoning_append (deltas deltas' : List ChoiceDelta) :
    readReasoning (deltas ++ deltas') = readReasoning deltas ++ readReasoning deltas' := by
  simp only [readReasoning, List.map_append, String.join_append]

section Calls

variable {calls : ClientCalls} {i : ℤ} {fragment : ToolCallResponse}

/-- The first fragment of an index puts a call after those that are there. -/
theorem addFragment_new (hindex : fragment.index = some i) (hnew : i ∉ calls.map Prod.fst) :
    addFragment calls fragment = calls ++ [(i, .first fragment)] := by
  simp only [addFragment, hindex, Option.getD_some]
  exact if_neg hnew

theorem addFragment_last (hindex : fragment.index = some i) (hnew : i ∉ calls.map Prod.fst) (call : ClientCall) :
    addFragment (calls ++ [(i, call)]) fragment = calls ++ [(i, call.extend fragment)] := by
  have hother : calls.map (fun c => if c.1 = i then (i, c.2.extend fragment) else c) = calls := by
    refine (List.map_congr_left fun c hc => ?_).trans (List.map_id calls)
    have hne : c.1 ≠ i := fun h => hnew (h ▸ List.mem_map_of_mem hc)
    exact if_neg hne
  simp only [addFragment, hindex, Option.getD_some]
  rw [if_pos (by simp), List.map_append, hother]
  simp

/-- Calls that are numbered one after the other. -/
def numbered (n : ℤ) : List ClientCall → ClientCalls
  | [] => []
  | call :: calls => (n, call) :: numbered (n + 1) calls

theorem numbered_calls (n : ℤ) (calls : List ClientCall) : (numbered n calls).map Prod.snd = calls := by
  induction calls generalizing n with
  | nil => rfl
  | cons call calls ih => exact congrArg (call :: ·) (ih (n + 1))

theorem numbered_indices (n : ℕ) (calls : List ClientCall) :
    (numbered n calls).map Prod.fst = (List.range' n calls.length).map Int.ofNat := by
  induction calls generalizing n with
  | nil => rfl
  | cons call calls ih => exact congrArg ((n : ℤ) :: ·) (ih (n + 1))

theorem length_addFragment (calls : ClientCalls) (fragment : ToolCallResponse) : (addFragment calls fragment).length =
      if fragment.index.getD 0 ∈ calls.map Prod.fst then calls.length else calls.length + 1 := by
  simp only [addFragment]
  split <;> simp

theorem addFragment_indices (calls : ClientCalls) (fragment : ToolCallResponse) :
    (addFragment calls fragment).map Prod.fst = if fragment.index.getD 0 ∈ calls.map Prod.fst then calls.map Prod.fst
      else calls.map Prod.fst ++ [fragment.index.getD 0] := by
  simp only [addFragment]
  split
  · rw [List.map_map]
    refine List.map_congr_left fun c _ => ?_
    show (if c.1 = fragment.index.getD 0 then _ else c).1 = c.1
    split
    · next h => exact h.symm
    · rfl
  · simp

theorem length_foldl_addFragment (calls : ClientCalls) (fragments : List ToolCallResponse) :
    (fragments.foldl addFragment calls).length ≤ calls.length + fragments.length := by
  induction fragments generalizing calls with
  | nil => exact le_rfl
  | cons fragment fragments ih =>
    have h := ih (addFragment calls fragment)
    rw [length_addFragment] at h
    rw [List.foldl_cons, List.length_cons]
    split at h <;> omega

/-- If each fragment adds a call, their indices are different and new. -/
theorem nodup_of_length_foldl {calls : ClientCalls} {fragments : List ToolCallResponse}
    (hnodup : (calls.map Prod.fst).Nodup)
    (h : (fragments.foldl addFragment calls).length = calls.length + fragments.length) :
    (calls.map Prod.fst ++ fragments.map fun fragment => fragment.index.getD 0).Nodup := by
  induction fragments generalizing calls with
  | nil => simpa using hnodup
  | cons fragment fragments ih =>
    have hbound := length_foldl_addFragment (addFragment calls fragment) fragments
    rw [List.foldl_cons, List.length_cons] at h
    have hnew : fragment.index.getD 0 ∉ calls.map Prod.fst := by
      intro hmem
      rw [length_addFragment, if_pos hmem] at hbound
      omega
    have hindices := addFragment_indices calls fragment
    rw [if_neg hnew] at hindices
    have hlength := length_addFragment calls fragment
    rw [if_neg hnew] at hlength
    have hadded : ((addFragment calls fragment).map Prod.fst).Nodup := by
      rw [hindices, ← List.concat_eq_append]
      exact List.Nodup.concat hnew hnodup
    have hrest := ih hadded (by omega)
    rwa [hindices, List.append_assoc] at hrest

end Calls

end Vancine.Streams
