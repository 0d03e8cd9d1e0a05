import Vancine.Lib.Blocks
import Vancine.Streams.ChatToClaude

/-!
# The message that chat chunks stand for

The parts of a message, in their order: text, thinking and calls. Text goes on with the text before it, and so does
thinking. Fragments of calls that follow each other stream side by side; what comes between them ends those calls.

This is the message itself, with nothing waiting and nothing sent. A part has a block in the stream, at its place
among the parts, once the call has a name and, while it streams, an id.
-/

namespace Vancine.Streams.ChatToClaude

open Lib Lib.Blocks

/-! ## Parts -/

structure Call where
  id : String := ""
  name : String := ""
  arguments : String := ""
  deriving DecidableEq

inductive Voice
  | text | thinking
  deriving DecidableEq

inductive Part
  | prose (voice : Voice) (text : String)
  | call (call : Call)

/-- The text, or the arguments. -/
def Part.body : Part → String
  | .prose _ t => t
  | .call c => c.arguments

/-- The calls that stream side by side, and where they are found. -/
structure Calls where
  list : List Call := []
  byIndex : AList fun _ : ℤ => ℕ := ∅
  byID : AList fun _ : String => ℕ := ∅

inductive Current
  | nothing
  | prose (voice : Voice) (text : String)
  | calls (calls : Calls)

def Current.parts : Current → List Part
  | .nothing => []
  | .prose voice t => [.prose voice t]
  | .calls streaming => streaming.list.map .call

/-- The parts that are over, and those that go on. -/
structure Outline where
  past : List Part := []
  current : Current := .nothing

namespace Outline

def parts (o : Outline) : List Part := o.past ++ o.current.parts

def close (o : Outline) : Outline := ⟨o.parts, .nothing⟩

/-- What goes on in the voice, if it does not already. -/
def voiced (voice : Voice) (o : Outline) : Outline × String :=
  match o.current with
  | .prose v t => if v = voice then (o, t) else (o.close, "")
  | _ => (o.close, "")

def say (voice : Voice) (content : String) (o : Outline) : Outline :=
  if content = "" then o
  else
    let (o, t) := o.voiced voice
    { o with current := .prose voice (t ++ content) }

/-- Citations belong to a text. -/
def cite (cites : Bool) (o : Outline) : Outline :=
  if cites then
    let (o, t) := o.voiced .text
    { o with current := .prose .text t }
  else o

end Outline

/-! ## Calls -/

/-- What a fragment says of its call. -/
def Call.note (toolCall : ToolCallResponse) (call : Call) : Call where
  id := if call.id = "" then trimSpace toolCall.id else call.id
  name := if call.name = "" then trimSpace toolCall.function.name else call.name
  arguments := call.arguments ++ toolCall.function.arguments

/-- The call that a fragment belongs to, which is a new one if there is none. -/
def Calls.place (toolIndex : ℤ) (incomingID : String) (calls : Calls) : ℕ × Calls :=
  match findTool (calls.list.map Call.id) calls.byIndex calls.byID toolIndex incomingID with
  | some position => (position, { calls with byIndex := calls.byIndex.insert toolIndex position })
  | none =>
    (calls.list.length, { calls with
      list := calls.list ++ [{}]
      byIndex := calls.byIndex.insert toolIndex calls.list.length })

def Calls.add (position : ℕ) (toolCall : ToolCallResponse) (calls : Calls) : Calls :=
  let incomingID := trimSpace toolCall.id
  let (place, calls) := calls.place (toolCall.index.getD position) incomingID
  match calls.list[place]? with
  | none => calls
  | some call =>
    { calls with
      list := calls.list.set place (call.note toolCall)
      byID := if call.id = "" ∧ incomingID ≠ "" then calls.byID.insert incomingID place else calls.byID }

def Calls.addFrom (position : ℕ) : List ToolCallResponse → Calls → Calls
  | [], calls => calls
  | toolCall :: toolCalls, calls => addFrom (position + 1) toolCalls (calls.add position toolCall)

def Outline.addCalls (toolCalls : List ToolCallResponse) (o : Outline) : Outline :=
  if toolCalls = [] then o
  else
    match o.current with
    | .calls streaming => { o with current := .calls (streaming.addFrom 0 toolCalls) }
    | _ => { o.close with current := .calls (Calls.addFrom 0 toolCalls {}) }

/-! ## Chunks -/

/-- What a chunk says. -/
structure Said where
  reasoning : String := ""
  content : String := ""
  toolCalls : List ToolCallResponse := []
  cites : Bool := false

variable {U V : Type} (host : Host U V)

def saidChoice (delta : ChoiceDelta) : Said :=
  ⟨delta.getReasoningContent, delta.getContentString, delta.toolCalls,
    !(chatAnnotationsToClaude host delta.annotations).isEmpty⟩

def said (chunk : ChatChunk U) : Said :=
  match chunk.choices with
  | [] => {}
  | choice :: _ => saidChoice host choice.delta

def Outline.hear (o : Outline) (said : Said) : Outline :=
  (((o.say .thinking said.reasoning).say .text said.content).addCalls said.toolCalls).cite said.cites

/-- The message of a whole stream. -/
def outline (heard : List Said) : Outline := heard.foldl Outline.hear {}

/-! ## The blocks of an outline -/

inductive Kind
  | prose (voice : Voice)
  | tool (name : String)

/-- How far the part is: it streams, the calls that wait for an id have got one, or it is over. -/
inductive Stage
  | streaming | flushed | done
  deriving DecidableEq

def Part.block (stage : Stage) (index : ℕ) : Part → Option (Block Kind)
  | .prose voice t => some ⟨index, .prose voice, t, stage = .done⟩
  | .call c =>
    if c.name = "" ∨ (stage = .streaming ∧ c.id = "") then none
    else some ⟨index, .tool c.name, c.arguments, stage = .done⟩

abbrev Entry := Stage × Part

def viewOf (entries : List Entry) (i : ℕ) : Option (Block Kind) := entries[i]?.bind fun e => e.2.block e.1 i

def Outline.entries (o : Outline) : List Entry :=
  o.past.map (Stage.done, ·) ++ o.current.parts.map (Stage.streaming, ·)

theorem Part.block_index {stage : Stage} {i : ℕ} {part : Part} {b : Block Kind} (h : part.block stage i = some b) :
    b.index = i ∧ b.text = part.body ∧ b.closed = decide (stage = .done) := by
  cases part with
  | call call =>
    unfold Part.block at h
    dsimp only at h
    split_ifs at h
    cases h
    exact ⟨rfl, rfl, rfl⟩
  | _ =>
    cases h
    exact ⟨rfl, rfl, rfl⟩

theorem viewOf_length (entries : List Entry) : viewOf entries entries.length = none := by
  simp [viewOf]

theorem viewOf_push (entries : List Entry) (e : Entry) :
    viewOf (entries ++ [e]) = Function.update (viewOf entries) entries.length (e.2.block e.1 entries.length) := by
  funext i
  by_cases hi : i = entries.length
  · subst hi
    simp [viewOf]
  · rw [Function.update_of_ne hi]
    unfold viewOf
    by_cases hlt : i < entries.length
    · rw [List.getElem?_append_left hlt]
    · have hle : entries.length < i := by omega
      have hle' : (entries ++ [e]).length ≤ i := by
        rw [List.length_append, List.length_singleton]
        omega
      rw [List.getElem?_eq_none hle.le, List.getElem?_eq_none hle']

theorem viewOf_set {entries : List Entry} {place : ℕ} (hplace : place < entries.length) (e : Entry) :
    viewOf (entries.set place e) = Function.update (viewOf entries) place (e.2.block e.1 place) := by
  funext i
  by_cases hi : i = place
  · subst hi
    simp [viewOf, hplace]
  · rw [Function.update_of_ne hi]
    unfold viewOf
    rw [List.getElem?_set_ne (Ne.symm hi)]

theorem viewOf_middle (before after : List Entry) (e : Entry) :
    viewOf (before ++ e :: after) before.length = e.2.block e.1 before.length := by
  simp [viewOf]

theorem viewOf_change (before after : List Entry) (e e' : Entry) : viewOf (before ++ e' :: after) =
      Function.update (viewOf (before ++ e :: after)) before.length (e'.2.block e'.1 before.length) := by
  have hset : before ++ e' :: after = (before ++ e :: after).set before.length e' := by simp
  rw [hset, viewOf_set (by simp)]

end Vancine.Streams.ChatToClaude
