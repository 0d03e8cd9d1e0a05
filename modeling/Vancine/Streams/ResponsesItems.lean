import Vancine.Lib.Blocks
import Vancine.Streams.ChatToResponses

/-!
# The items of a Responses stream

An output item is a block: `output_item.added` opens it, the deltas are its text and `output_item.done` closes it.
`view` reads the blocks off the state of the converter. Each step of the converter sends the events that take the
blocks of the state before it to the blocks of the state after it, with the numbers that are next.
-/

namespace Vancine.Streams.ChatToResponses

open Lib Lib.Blocks Vancine.Streams.Responses

variable {U : Type}

/-! ## Events as marks -/

/-- What tells an item from the others: a response has one message and one reasoning item, and calls have ids. -/
def identity (item : Output) : OutputType × String :=
  (item.type, match item.type with
    | .message | .reasoning => ""
    | .functionCall | .hosted _ => item.id)

/-- The text or the arguments of an item. -/
def body (item : Output) : String :=
  match item.type with
  | .message => String.join (item.content.map (·.text))
  | .reasoning => String.join item.summary
  | .functionCall | .hosted _ => item.arguments.getD ""

def isTerminal : EventType → Bool
  | .completed | .incomplete | .failed => true
  | _ => false

def isDelta : EventType → Bool
  | .outputTextDelta | .reasoningSummaryDelta | .functionArgsDelta | .mcpCallArgumentsDelta => true
  | _ => false

def mark (type : EventType) (payload : Payload U) : Mark (OutputType × String) :=
  if type = .created then .start
  else if isTerminal type then .stop
  else
    match payload.outputIndex with
    | none => .aside
    | some i =>
      if isDelta type then .part i payload.delta
      else if type = .outputItemDone then .closes i
      else
        match type, payload.item with
        | .outputItemAdded, some item => .opens i (identity item)
        | _, _ => .note i

def eventMark (e : Event U) : Mark (OutputType × String) := ChatToResponses.mark e.type e.payload

/-! ## Numbers -/

/-- The events have the next numbers, and `s'` goes on after them. -/
def Numbered (s : State U) (events : List (Event U)) (s' : State U) : Prop :=
  s'.emitSequenceNumber = s.emitSequenceNumber ∧
    (s.emitSequenceNumber = true →
      s'.nextSequenceNumber = s.nextSequenceNumber + events.length ∧
        events.map Event.sequenceNumber = (List.range' s.nextSequenceNumber events.length).map some)

theorem Numbered.refl (s : State U) : Numbered s [] s := ⟨rfl, fun _ => ⟨rfl, rfl⟩⟩

theorem Numbered.append {s₀ s₁ s₂ : State U} {events events' : List (Event U)} (h : Numbered s₀ events s₁)
    (h' : Numbered s₁ events' s₂) : Numbered s₀ (events ++ events') s₂ := by
  refine ⟨h'.1.trans h.1, fun hs => ?_⟩
  obtain ⟨hnext, hnumbers⟩ := h.2 hs
  obtain ⟨hnext', hnumbers'⟩ := h'.2 (h.1.trans hs)
  constructor
  · rw [hnext', hnext, List.length_append]
    omega
  · rw [List.map_append, hnumbers, hnumbers', hnext, List.length_append, ← List.range'_append_1, List.map_append]

/-- The state after `n` events. -/
def State.advance (n : ℕ) (s : State U) : State U :=
  if s.emitSequenceNumber then { s with nextSequenceNumber := s.nextSequenceNumber + n } else s

variable (events : List (EventType × Payload U))

theorem emit_fst (s : State U) : (emit events s).1 = s.advance events.length := by
  induction events generalizing s with
  | nil => simp [emit, Sender.none, State.advance]
  | cons e events ih =>
    by_cases hs : s.emitSequenceNumber
    · simp only [emit, event, hs, if_true, ih, State.advance, List.length_cons]
      congr 1
      omega
    · simp [emit, event, hs, ih, State.advance]

theorem emit_marks (s : State U) : (emit events s).2.map eventMark = events.map fun e => mark e.1 e.2 := by
  induction events generalizing s with
  | nil => rfl
  | cons e events ih =>
    by_cases hs : s.emitSequenceNumber <;> simp [emit, event, hs, ih, eventMark]

theorem emit_numbered (s : State U) : Numbered s (emit events s).2 (emit events s).1 := by
  induction events generalizing s with
  | nil => exact .refl s
  | cons e events ih =>
    have hone : Numbered s [(event e.1 e.2 s).2] (event e.1 e.2 s).1 := by
      by_cases hs : s.emitSequenceNumber <;> simp [Numbered, event, hs]
    exact hone.append (ih _)

/-! ## The blocks of a state -/

def StreamTool.block (tool : StreamTool) : Block (OutputType × String) :=
  ⟨tool.outputIndex, (.functionCall, tool.itemID), tool.arguments, tool.done⟩

def HostedTool.block (tool : HostedTool) : Block (OutputType × String) :=
  ⟨tool.outputIndex, identity tool.output, body tool.output, tool.done⟩

/-- The item under a reference, if it was added. -/
def view (s : State U) : OutputRef → Option (Block (OutputType × String))
  | .message => if s.textStarted then some ⟨s.textOutputIndex, (.message, ""), s.text, s.textDone⟩ else none
  | .reasoning =>
    if s.reasoningStarted then some ⟨s.reasoningIndex, (.reasoning, ""), s.reasoning, s.reasoningDone⟩ else none
  | .tool index => (s.toolsByIndex.lookup index).map StreamTool.block
  | .hosted id => (s.hostedByID.lookup id).map HostedTool.block

def items (s : State U) : List (Block (OutputType × String)) := listed (view s) s.outputOrder

def phase (s : State U) : Phase :=
  if s.finalized then .after else if s.sentCreated then .within else .before

/-- What was sent so far, as the state has it. -/
def log (s : State U) : Log (OutputType × String) := ⟨phase s, items s⟩

/-- Every reference has its own place, and what was not added is blank. -/
structure WellFormed (s : State U) : Prop where
  next : s.nextOutputIndex = s.outputOrder.length
  placed : Placed (view s) s.outputOrder
  text : s.textStarted = false → s.text = "" ∧ s.textDone = false
  reasoning : s.reasoningStarted = false → s.reasoning = "" ∧ s.reasoningDone = false

/-- The stream was begun and not ended. -/
structure Live (s : State U) : Prop extends WellFormed s where
  created : s.sentCreated = true
  running : s.finalized = false

variable {s : State U}

theorem Live.log_eq (h : Live s) : log s = ⟨.within, listed (view s) s.outputOrder⟩ := by
  simp [log, phase, items, h.created, h.running]

section Advance

variable (n : ℕ) (s : State U)

@[simp] theorem view_advance : view (s.advance n) = view s := by
  unfold State.advance
  split_ifs <;> rfl

@[simp] theorem log_advance : log (s.advance n) = log s := by
  unfold State.advance
  split_ifs <;> rfl

@[simp] theorem outputOrder_advance : (s.advance n).outputOrder = s.outputOrder := by
  unfold State.advance
  split_ifs <;> rfl

theorem live_advance {s : State U} (h : Live s) (n : ℕ) : Live (s.advance n) := by
  unfold State.advance
  split_ifs
  · exact ⟨⟨h.next, h.placed, h.text, h.reasoning⟩, h.created, h.running⟩
  · exact h

end Advance

/-- Whether the message and the reasoning item have begun, and whether they are done. -/
structure Spoken where
  textStarted : Bool := false
  textDone : Bool := false
  reasoningStarted : Bool := false
  reasoningDone : Bool := false

def spoken (s : State U) : Spoken := ⟨s.textStarted, s.textDone, s.reasoningStarted, s.reasoningDone⟩

@[simp] theorem spoken_emit (s : State U) : spoken (emit events s).1 = spoken s := by
  rw [emit_fst]
  unfold State.advance
  split_ifs <;> rfl

/-- A step that keeps the stream alive: its events lead from the blocks before it to the blocks after it. -/
structure Sends (s : State U) (r : State U × List (Event U)) : Prop where
  live : Live r.1
  flow : acceptAll (log s) (r.2.map eventMark) = some (log r.1)
  numbered : Numbered s r.2 r.1

theorem Sends.refl (h : Live s) : Sends s (s, []) := ⟨h, rfl, .refl s⟩

theorem Sends.append {r r' : State U × List (Event U)} (h : Sends s r) (h' : Sends r.1 r') :
    Sends s (r'.1, r.2 ++ r'.2) := by
  refine ⟨h'.live, ?_, h.numbered.append h'.numbered⟩
  rw [List.map_append]
  exact acceptAll_append_some h.flow h'.flow

theorem Sends.andThen {m m' : Emits U} (h : Sends s (m s)) (h' : Sends (m s).1 (m' (m s).1)) :
    Sends s (m.andThen m' s) := h.append h'

/-- Events that lead from the blocks of `s` to those of `s₁`. -/
theorem sends_emit {s s₁ : State U} {events : List (EventType × Payload U)} (hlive : Live s₁)
    (hflow : acceptAll (log s) (events.map fun e => mark e.1 e.2) = some (log s₁))
    (hemit : s₁.emitSequenceNumber = s.emitSequenceNumber) (hnext : s₁.nextSequenceNumber = s.nextSequenceNumber) :
    Sends s (emit events s₁) := by
  refine ⟨?_, ?_, ?_⟩
  · rw [emit_fst]
    exact live_advance hlive _
  · rw [emit_marks, emit_fst, log_advance]
    exact hflow
  · have h := emit_numbered events s₁
    unfold Numbered at h ⊢
    rwa [hemit, hnext] at h

theorem bind_ok {α β : Type} {x : Except String α} {f : α → Except String β} {r : β} (h : x >>= f = .ok r) :
    ∃ a, x = .ok a ∧ f a = .ok r := by
  cases x with
  | error message => cases h
  | ok a => exact ⟨a, rfl, h⟩

/-! ## Changes of one item -/

theorem view_message (s s₁ : State U) (hreasoning : s₁.reasoningStarted = s.reasoningStarted)
    (hindex : s₁.reasoningIndex = s.reasoningIndex) (htext : s₁.reasoning = s.reasoning)
    (hdone : s₁.reasoningDone = s.reasoningDone) (htools : s₁.toolsByIndex = s.toolsByIndex)
    (hhosted : s₁.hostedByID = s.hostedByID) : view s₁ = Function.update (view s) .message (view s₁ .message) := by
  funext ref
  cases ref <;> simp [view, hreasoning, hindex, htext, hdone, htools, hhosted]

theorem view_reasoning (s s₁ : State U) (hstarted : s₁.textStarted = s.textStarted)
    (hindex : s₁.textOutputIndex = s.textOutputIndex) (htext : s₁.text = s.text)
    (hdone : s₁.textDone = s.textDone) (htools : s₁.toolsByIndex = s.toolsByIndex)
    (hhosted : s₁.hostedByID = s.hostedByID) : view s₁ = Function.update (view s) .reasoning (view s₁ .reasoning) := by
  funext ref
  cases ref <;> simp [view, hstarted, hindex, htext, hdone, htools, hhosted]

theorem view_tool (s : State U) (index : ℤ) (tool : StreamTool) :
    view { s with toolsByIndex := s.toolsByIndex.insert index tool } =
      Function.update (view s) (.tool index) (some tool.block) := by
  funext ref
  cases ref with
  | tool i =>
    by_cases hi : i = index
    · subst hi
      simp [view]
    · simp [view, hi]
  | _ => simp [view]

theorem view_hosted (s : State U) (id : String) (tool : HostedTool) :
    view { s with hostedByID := s.hostedByID.insert id tool } =
      Function.update (view s) (.hosted id) (some tool.block) := by
  funext ref
  cases ref with
  | hosted i =>
    by_cases hi : i = id
    · subst hi
      simp [view]
    · simp [view, hi]
  | _ => simp [view]

theorem view_nextIndex (ref : OutputRef) (s : State U) : view (nextIndex ref s).2 = view s := rfl

theorem Live.push (h : Live s) (s₁ : State U) {ref : OutputRef} {label : OutputType × String} (hnew : view s ref = none)
    (hview : view s₁ = Function.update (view s) ref (some ⟨s.nextOutputIndex, label, "", false⟩))
    (hnext : s₁.nextOutputIndex = s.nextOutputIndex + 1) (horder : s₁.outputOrder = s.outputOrder ++ [ref])
    (htext : s₁.textStarted = false → s₁.text = "" ∧ s₁.textDone = false)
    (hreasoning : s₁.reasoningStarted = false → s₁.reasoning = "" ∧ s₁.reasoningDone = false)
    (hcreated : s₁.sentCreated = true) (hrunning : s₁.finalized = false) :
    Live s₁ ∧ accept (log s) (.opens s.nextOutputIndex label) = some (log s₁) := by
  have hlive : Live s₁ := by
    refine ⟨⟨?_, ?_, htext, hreasoning⟩, hcreated, hrunning⟩
    · rw [hnext, horder, h.next, List.length_append, List.length_singleton]
    · rw [hview, horder]
      exact h.placed.push hnew h.next
  refine ⟨hlive, ?_⟩
  rw [h.log_eq, hlive.log_eq, hview, horder, h.next]
  exact h.placed.accept_opens hnew label

theorem Live.set {s s₁ : State U} (h : Live s) {ref : OutputRef} {b b' : Block (OutputType × String)}
    (hb : view s ref = some b) (hview : view s₁ = Function.update (view s) ref (some b'))
    (hindex : b'.index = b.index) (hnext : s₁.nextOutputIndex = s.nextOutputIndex)
    (horder : s₁.outputOrder = s.outputOrder) (htext : s₁.textStarted = false → s₁.text = "" ∧ s₁.textDone = false)
    (hreasoning : s₁.reasoningStarted = false → s₁.reasoning = "" ∧ s₁.reasoningDone = false)
    (hcreated : s₁.sentCreated = true) (hrunning : s₁.finalized = false) : Live s₁ := by
  refine ⟨⟨?_, ?_, htext, hreasoning⟩, hcreated, hrunning⟩
  · rw [hnext, horder, h.next]
  · rw [hview, horder]
    exact h.placed.set b' hb hindex

end Vancine.Streams.ChatToResponses
