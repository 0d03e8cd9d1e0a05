import Vancine.Streams.ResponsesItems

/-!
# Steps of the Responses converter

Each step sends what its blocks need. Only text for the message, or reasoning, that is already done would not be
taken: fragments of a call that is done are refused by the converter itself.
-/

namespace Vancine.Streams.ChatToResponses

open Lib Lib.Blocks Vancine.Streams.Responses

variable {U : Type} {s : State U}

theorem Sends.none (h : Live s) : Sends s ((Sender.none : Emits U) s) := .refl h

/-! ## The message -/

theorem startText_sends (h : Live s) : Sends s (startText s) := by
  unfold startText
  by_cases hs : s.textStarted
  · rw [if_pos hs]
    exact .refl h
  · rw [if_neg hs]
    obtain ⟨htext, hdone⟩ := h.text (by simpa using hs)
    have hnew : view s .message = none := by simp [view, hs]
    let s₁ : State U :=
      { (nextIndex .message { s with textStarted := true }).2 with textOutputIndex := s.nextOutputIndex }
    have hview : view s₁ = Function.update (view s) .message (some ⟨s.nextOutputIndex, (.message, ""), "", false⟩) := by
      rw [view_message s s₁ rfl rfl rfl rfl rfl rfl]
      simp [s₁, view, nextIndex, htext, hdone]
    obtain ⟨hlive, haccept⟩ := h.push s₁ hnew hview rfl rfl (fun h => by cases h) h.reasoning h.created h.running
    refine sends_emit hlive ?_ rfl rfl
    exact (acceptAll_singleton _ _).trans haccept

theorem startText_spoken (s : State U) : spoken (startText s).1 = { spoken s with textStarted := true } := by
  unfold startText
  by_cases hs : s.textStarted
  · rw [if_pos hs]
    simp [spoken, hs]
  · rw [if_neg hs, spoken_emit]
    rfl

theorem view_started (s : State U) (hs : s.textStarted = true) :
    view s .message = some ⟨s.textOutputIndex, (.message, ""), s.text, s.textDone⟩ := if_pos hs

variable {payload : Payload U} {α : Type} {toolCall : ToolCallResponse} {tool tool' : StreamTool} {type : HostedType}
  {id : String} {result : HostedToolStreamResult} {ref : OutputRef}

theorem textDelta_sends (h : Live s) (hs : s.textStarted = true) (hdone : s.textDone = false)
    (hindex : payload.outputIndex = some s.textOutputIndex) :
    Sends s (emit [(.outputTextDelta, payload)] { s with text := s.text ++ payload.delta }) := by
  let s₁ : State U := { s with text := s.text ++ payload.delta }
  have hview : view s₁ = Function.update (view s) .message
      (some (Block.append payload.delta ⟨s.textOutputIndex, (.message, ""), s.text, s.textDone⟩)) := by
    rw [view_message s s₁ rfl rfl rfl rfl rfl rfl, view_started s₁ hs]
    rfl
  have hlive : Live s₁ :=
    h.set (view_started s hs) hview rfl rfl rfl (fun hf => absurd (hf.symm.trans hs) Bool.false_ne_true) h.reasoning
      h.created h.running
  refine sends_emit hlive ?_ rfl rfl
  have hmark : mark .outputTextDelta payload = .part s.textOutputIndex payload.delta := by
    simp [mark, hindex, isTerminal, isDelta]
  rw [List.map_singleton, acceptAll_singleton, hmark, h.log_eq, hlive.log_eq, hview]
  exact h.placed.accept_part (view_started s hs) hdone payload.delta

theorem appendTextDelta_sends (h : Live s) (hdone : s.textDone = false) (delta : String) :
    Sends s (appendTextDelta delta s) := by
  have hspoken := startText_spoken s
  refine (startText_sends h).andThen ?_
  apply textDelta_sends (startText_sends h).live
  · exact congrArg Spoken.textStarted hspoken
  · exact (congrArg Spoken.textDone hspoken).trans hdone
  · rfl

theorem appendTextDelta_spoken (delta : String) (s : State U) :
    spoken (appendTextDelta delta s).1 = { spoken s with textStarted := true } := by
  simp only [appendTextDelta, Sender.andThen_fst, spoken_emit]
  exact startText_spoken s

theorem annotationAdded_sends (h : Live s) (hs : s.textStarted = true) (hdone : s.textDone = false) (item : Json) :
    Sends s (annotationAdded item s) := by
  have hlive₁ : Live { s with annotations := s.annotations ++ [item] } :=
    ⟨⟨h.next, h.placed, h.text, h.reasoning⟩, h.created, h.running⟩
  refine sends_emit hlive₁ ?_ rfl rfl
  rw [h.log_eq, hlive₁.log_eq]
  exact (acceptAll_singleton _ _).trans (h.placed.accept_note (view_started s hs) hdone)

theorem annotationAdded_spoken (item : Json) (s : State U) : spoken (annotationAdded item s).1 = spoken s :=
  spoken_emit _ _

/-- One step after the other, when each keeps what the next one needs. -/
theorem each_sends {f : α → Emits U} {P : State U → Prop}
    (hstep : ∀ a s, Live s → P s → Sends s (f a s) ∧ P (f a s).1) (as : List α) (h : Live s) (hs : P s) :
    Sends s (Sender.each f as s) ∧ P (Sender.each f as s).1 := by
  induction as generalizing s with
  | nil => exact ⟨.refl h, hs⟩
  | cons a as ih =>
    obtain ⟨hsends, hP⟩ := hstep a s h hs
    obtain ⟨hsends', hP'⟩ := ih hsends.live hP
    exact ⟨hsends.andThen hsends', hP'⟩

theorem each_spoken {f : α → Emits U} (hstep : ∀ a s, spoken (f a s).1 = spoken s) (as : List α) (s : State U) :
    spoken (Sender.each f as s).1 = spoken s := by
  induction as generalizing s with
  | nil => rfl
  | cons a as ih => exact (ih _).trans (hstep a s)

theorem annotationsAdded_sends (h : Live s) (hs : s.textStarted = true) (annotations : List Json)
    (hdone : s.textDone = false ∨ annotations = []) : Sends s (Sender.each annotationAdded annotations s) := by
  rcases hdone with hdone | rfl
  · refine (each_sends (P := fun s => s.textStarted = true ∧ s.textDone = false) ?_ annotations h ⟨hs, hdone⟩).1
    intro item s h hs
    refine ⟨annotationAdded_sends h hs.1 hs.2 item, ?_⟩
    have hspoken := annotationAdded_spoken item s
    exact ⟨(congrArg Spoken.textStarted hspoken).trans hs.1, (congrArg Spoken.textDone hspoken).trans hs.2⟩
  · exact .refl h

variable {r : State U × List (Event U)} {decode : DecodeAction} {start : HostedToolStreamStart} {output : Output}
  {b : Block (OutputType × String)}

/-- Text and annotations go to the message as long as it is not done. -/
theorem appendAnnotationDelta_sends (h : Live s) {raw : Raw}
    (hdone : s.textDone = false ∨ chatAnnotationsToResponses raw = .ok []) (hr : appendAnnotationDelta raw s = .ok r) :
    Sends s r ∧ spoken r.1 = { spoken s with textStarted := true } := by
  unfold appendAnnotationDelta at hr
  cases hraw : chatAnnotationsToResponses raw with
  | error message =>
    rw [hraw] at hr
    cases hr
  | ok annotations =>
    rw [hraw] at hr
    cases hr
    have hspoken := startText_spoken s
    constructor
    · refine (startText_sends h).andThen (annotationsAdded_sends (startText_sends h).live ?_ annotations ?_)
      · exact congrArg Spoken.textStarted hspoken
      · rw [hraw] at hdone
        refine hdone.imp (fun hdone => ?_) fun hnil => ?_
        · exact (congrArg Spoken.textDone hspoken).trans hdone
        · exact Except.ok.inj hnil
    · exact (each_spoken annotationAdded_spoken annotations _).trans hspoken

/-! ## The reasoning item -/

theorem startReasoning_sends (h : Live s) : Sends s (startReasoning s) := by
  unfold startReasoning
  by_cases hs : s.reasoningStarted
  · rw [if_pos hs]
    exact .refl h
  · rw [if_neg hs]
    obtain ⟨htext, hdone⟩ := h.reasoning (by simpa using hs)
    have hnew : view s .reasoning = none := by simp [view, hs]
    let s₁ : State U :=
      { (nextIndex .reasoning { s with reasoningStarted := true }).2 with reasoningIndex := s.nextOutputIndex }
    have hview :
        view s₁ = Function.update (view s) .reasoning (some ⟨s.nextOutputIndex, (.reasoning, ""), "", false⟩) := by
      rw [view_reasoning s s₁ rfl rfl rfl rfl rfl rfl]
      simp [s₁, view, nextIndex, htext, hdone]
    obtain ⟨hlive, haccept⟩ := h.push s₁ hnew hview rfl rfl h.text (fun h => by cases h) h.created h.running
    refine sends_emit hlive ?_ rfl rfl
    exact (acceptAll_singleton _ _).trans haccept

theorem startReasoning_spoken (s : State U) :
    spoken (startReasoning s).1 = { spoken s with reasoningStarted := true } := by
  unfold startReasoning
  by_cases hs : s.reasoningStarted
  · rw [if_pos hs]
    simp [spoken, hs]
  · rw [if_neg hs, spoken_emit]
    rfl

theorem view_reasoned (s : State U) (hs : s.reasoningStarted = true) :
    view s .reasoning = some ⟨s.reasoningIndex, (.reasoning, ""), s.reasoning, s.reasoningDone⟩ := if_pos hs

theorem reasoningDelta_sends (h : Live s) (hs : s.reasoningStarted = true) (hdone : s.reasoningDone = false)
    (hindex : payload.outputIndex = some s.reasoningIndex) :
    Sends s (emit [(.reasoningSummaryDelta, payload)] { s with reasoning := s.reasoning ++ payload.delta }) := by
  let s₁ : State U := { s with reasoning := s.reasoning ++ payload.delta }
  have hview : view s₁ = Function.update (view s) .reasoning
      (some (Block.append payload.delta ⟨s.reasoningIndex, (.reasoning, ""), s.reasoning, s.reasoningDone⟩)) := by
    rw [view_reasoning s s₁ rfl rfl rfl rfl rfl rfl, view_reasoned s₁ hs]
    rfl
  have hlive : Live s₁ :=
    h.set (view_reasoned s hs) hview rfl rfl rfl h.text (fun hf => absurd (hf.symm.trans hs) Bool.false_ne_true)
      h.created h.running
  refine sends_emit hlive ?_ rfl rfl
  have hmark : mark .reasoningSummaryDelta payload = .part s.reasoningIndex payload.delta := by
    simp [mark, hindex, isTerminal, isDelta]
  rw [List.map_singleton, acceptAll_singleton, hmark, h.log_eq, hlive.log_eq, hview]
  exact h.placed.accept_part (view_reasoned s hs) hdone payload.delta

theorem appendReasoningDelta_sends (h : Live s) (hdone : s.reasoningDone = false) (delta : String) :
    Sends s (appendReasoningDelta delta s) := by
  have hspoken := startReasoning_spoken s
  refine (startReasoning_sends h).andThen ?_
  apply reasoningDelta_sends (startReasoning_sends h).live
  · exact congrArg Spoken.reasoningStarted hspoken
  · exact (congrArg Spoken.reasoningDone hspoken).trans hdone
  · rfl

theorem appendReasoningDelta_spoken (delta : String) (s : State U) :
    spoken (appendReasoningDelta delta s).1 = { spoken s with reasoningStarted := true } := by
  simp only [appendReasoningDelta, Sender.andThen_fst, spoken_emit]
  exact startReasoning_spoken s

/-! ## Function calls -/

theorem view_call {index : ℤ} {tool : StreamTool} (htool : s.toolsByIndex.lookup index = some tool) :
    view s (.tool index) = some tool.block := by
  simp [view, htool]

theorem startTool_sends (h : Live s) (toolCall : ToolCallResponse) : Sends s (startTool toolCall s) := by
  unfold startTool
  cases htool : s.toolsByIndex.lookup (toolIndex toolCall) with
  | some tool => exact .refl h
  | none =>
    have hnew : view s (.tool (toolIndex toolCall)) = none := by simp [view, htool]
    let tool := newTool toolCall s.nextOutputIndex s
    let s₁ : State U :=
      { (nextIndex (.tool (toolIndex toolCall)) s).2 with
        toolsByIndex := s.toolsByIndex.insert (toolIndex toolCall) tool }
    have hview : view s₁ = Function.update (view s) (.tool (toolIndex toolCall))
        (some ⟨s.nextOutputIndex, (.functionCall, tool.itemID), "", false⟩) :=
      view_tool (nextIndex (.tool (toolIndex toolCall)) s).2 _ tool
    obtain ⟨hlive, haccept⟩ := h.push s₁ hnew hview rfl rfl h.text h.reasoning h.created h.running
    exact sends_emit hlive ((acceptAll_singleton _ _).trans haccept) rfl rfl

theorem startTool_spoken (toolCall : ToolCallResponse) (s : State U) : spoken (startTool toolCall s).1 = spoken s := by
  unfold startTool
  cases s.toolsByIndex.lookup (toolIndex toolCall) with
  | some tool => rfl
  | none => exact spoken_emit _ _

/-- A fragment that is taken is one of an open call, and leaves its item as it is. -/
theorem checkTool_ok (h : checkTool toolCall tool = .ok tool') : tool.done = false ∧ tool'.block = tool.block := by
  unfold checkTool at h
  dsimp only at h
  split_ifs at h with hdone _ _
  · cases h
    exact ⟨by simpa using hdone, rfl⟩
  all_goals
    cases h
    exact ⟨by simpa using hdone, rfl⟩

theorem argumentsDelta_sends (h : Live s) {index : ℤ} {arguments : String}
    (htool : s.toolsByIndex.lookup index = some tool) (hdone : tool.done = false)
    (hblock : tool'.block = tool.block.append arguments) (hindex : payload.outputIndex = some tool.outputIndex)
    (hdelta : payload.delta = arguments) :
    Sends s (emit (if arguments = "" then [] else [(.functionArgsDelta, payload)])
      { s with toolsByIndex := s.toolsByIndex.insert index tool' }) := by
  have hview := view_tool s index tool'
  rw [hblock] at hview
  have hlive := h.set (view_call htool) hview rfl rfl rfl h.text h.reasoning h.created h.running
  refine sends_emit hlive ?_ rfl rfl
  rw [h.log_eq, hlive.log_eq, hview]
  by_cases harguments : arguments = ""
  · subst harguments
    have hsame : tool.block.append "" = tool.block := by simp [Block.append]
    rw [if_pos rfl, hsame, ← view_call htool, Function.update_eq_self]
    rfl
  · have hmark : mark .functionArgsDelta payload = .part tool.outputIndex arguments := by
      simp [mark, hindex, hdelta, isTerminal, isDelta]
    rw [if_neg harguments, List.map_singleton, acceptAll_singleton, hmark]
    exact h.placed.accept_part (view_call htool) hdone arguments

theorem appendToolCallDelta_sends (h : Live s) (hr : appendToolCallDelta toolCall s = .ok r) :
    Sends s r ∧ spoken r.1 = spoken s := by
  have hstart := startTool_sends h toolCall
  have hspoken := startTool_spoken toolCall s
  unfold appendToolCallDelta at hr
  generalize startTool toolCall s = started at hr hstart hspoken
  obtain ⟨s₁, events⟩ := started
  dsimp only at hr hstart hspoken
  cases htool : s₁.toolsByIndex.lookup (toolIndex toolCall) with
  | none =>
    rw [htool] at hr
    cases hr
    exact ⟨hstart, hspoken⟩
  | some tool =>
    rw [htool] at hr
    cases hcheck : checkTool toolCall tool with
    | error message =>
      simp only [hcheck] at hr
      cases hr
    | ok tool' =>
      simp only [hcheck] at hr
      cases hr
      obtain ⟨hdone, hblock⟩ := checkTool_ok hcheck
      refine ⟨hstart.append (argumentsDelta_sends hstart.live htool hdone ?_ ?_ rfl), ?_⟩
      · rw [← hblock]
        rfl
      · exact congrArg some (congrArg Block.index hblock)
      · rw [spoken_emit]
        exact hspoken

theorem convertToolCalls_sends {toolCalls : List ToolCallResponse} (h : Live s)
    (hr : convertToolCalls toolCalls s = .ok r) : Sends s r ∧ spoken r.1 = spoken s := by
  induction toolCalls generalizing s r with
  | nil =>
    cases hr
    exact ⟨.refl h, rfl⟩
  | cons toolCall toolCalls ih =>
    obtain ⟨first, hfirst, hr⟩ := bind_ok hr
    obtain ⟨rest, hrest, hr⟩ := bind_ok hr
    cases hr
    obtain ⟨hsends, hspoken⟩ := appendToolCallDelta_sends h hfirst
    obtain ⟨hsends', hspoken'⟩ := ih hsends.live hrest
    exact ⟨hsends.append hsends', hspoken'.trans hspoken⟩

/-! ## Hosted calls -/

theorem ensureCreated_sends (h : WellFormed s) (hrunning : s.finalized = false) : Sends s (ensureCreated s) := by
  unfold ensureCreated
  by_cases hs : s.sentCreated
  · rw [if_pos hs]
    exact .refl ⟨h, hs, hrunning⟩
  · rw [if_neg hs]
    have hlive : Live { s with sentCreated := true } :=
      ⟨⟨h.next, h.placed, h.text, h.reasoning⟩, rfl, hrunning⟩
    refine sends_emit hlive ?_ rfl rfl
    have hlog : log s = ⟨.before, items s⟩ := by simp [log, phase, hs, hrunning]
    rw [hlog, hlive.log_eq]
    rfl

theorem ensureCreated_spoken (s : State U) : spoken (ensureCreated s).1 = spoken s := by
  unfold ensureCreated
  by_cases hs : s.sentCreated
  · rw [if_pos hs]
  · rw [if_neg hs]
    exact spoken_emit _ _

/-- Whether the call is in place makes no difference to the first event. -/
theorem ensureCreated_placeHosted (id : String) (output : Output) (s : State U) :
    ensureCreated (placeHosted id output s) = (placeHosted id output (ensureCreated s).1, (ensureCreated s).2) := by
  by_cases hs : s.sentCreated <;> by_cases hnumber : s.emitSequenceNumber <;>
    simp [ensureCreated, placeHosted, nextIndex, emit, event, Sender.none, createdResponse, hs, hnumber]

theorem hostedOutput_ok (h : hostedOutput decode type id start = .ok output) :
    output.type = .hosted type ∧ (type = .webSearchCall → output.arguments = none) := by
  unfold hostedOutput at h
  cases type with
  | webSearchCall =>
    obtain ⟨action, -, h⟩ := bind_ok h
    cases h
    exact ⟨rfl, fun _ => rfl⟩
  | mcpCall =>
    dsimp only at h
    split_ifs at h
    obtain ⟨arguments, -, h⟩ := bind_ok h
    cases h
    exact ⟨rfl, nofun⟩

theorem hostedStart_accept (h : Live s) (hnew : view s (.hosted id) = none) (htype : output.type = .hosted type)
    (hweb : type = .webSearchCall → output.arguments = none) :
    acceptAll (log s) ((hostedStartEvents (U := U) type s.nextOutputIndex id output).map fun e => mark e.1 e.2) =
      some ⟨.within, listed (view (placeHosted id output s)) (s.outputOrder ++ [.hosted id])⟩ := by
  have hview : view (placeHosted id output s) = Function.update (view s) (.hosted id)
      (some ⟨s.nextOutputIndex, identity output, body output, false⟩) :=
    view_hosted (nextIndex (.hosted id) s).2 id _
  let opened : Block (OutputType × String) := ⟨s.outputOrder.length, identity output, "", false⟩
  have hplaced := h.placed.push (b := opened) hnew rfl
  have hopened : Function.update (view s) (.hosted id) (some opened) (.hosted id) = some opened :=
    Function.update_self ..
  have hnote := hplaced.accept_note hopened rfl
  rw [h.log_eq, hview, h.next]
  cases type with
  | webSearchCall =>
    have hbody : body output = "" := by simp [body, htype, hweb rfl]
    have hmarks : (hostedStartEvents (U := U) .webSearchCall s.outputOrder.length id output).map
        (fun e => mark e.1 e.2) =
          [.opens s.outputOrder.length (identity output), .note opened.index, .note opened.index] := rfl
    rw [hmarks, acceptAll_cons, h.placed.accept_opens hnew, Option.bind_some, acceptAll_cons, hnote, Option.bind_some,
      acceptAll_singleton, hnote, hbody]
  | mcpCall =>
    have hbody : body output = output.arguments.getD "" := by simp [body, htype]
    have hmarks : (hostedStartEvents (U := U) .mcpCall s.outputOrder.length id output).map
        (fun e => mark e.1 e.2) = [.opens s.outputOrder.length (identity output), .note opened.index,
            .part opened.index (output.arguments.getD ""), .note opened.index] := rfl
    have hpart := hplaced.accept_part hopened rfl (output.arguments.getD "")
    have hplaced' := hplaced.set (opened.append (output.arguments.getD "")) hopened rfl
    have hnote' := hplaced'.accept_note (Function.update_self ..) rfl
    rw [hmarks, acceptAll_cons, h.placed.accept_opens hnew, Option.bind_some, acceptAll_cons, hnote, Option.bind_some,
      acceptAll_cons, hpart, Option.bind_some, acceptAll_singleton, hbody]
    rw [Function.update_idem] at hnote' ⊢
    simpa [opened, Block.append] using hnote'

theorem placeHosted_sends (h : Live s) (hnew : view s (.hosted id) = none) (htype : output.type = .hosted type)
    (hweb : type = .webSearchCall → output.arguments = none) :
    Sends s (emit (hostedStartEvents type s.nextOutputIndex id output) (placeHosted id output s)) := by
  have hlive : Live (placeHosted id output s) := by
    refine ⟨⟨?_, ?_, h.text, h.reasoning⟩, h.created, h.running⟩
    · simp [placeHosted, nextIndex, h.next]
    · have hview := view_hosted (nextIndex (.hosted id) s).2 id ⟨s.nextOutputIndex, output, false⟩
      rw [view_nextIndex] at hview
      rw [show view (placeHosted id output s) = _ from hview]
      exact h.placed.push hnew h.next
  refine sends_emit hlive ?_ rfl rfl
  rw [hostedStart_accept h hnew htype hweb, hlive.log_eq]
  rfl

/-- A hosted call that starts is new, and its item is the one of its start. -/
theorem startHostedTool_ok (hr : startHostedTool decode start s = .ok r) :
    ∃ id type output, s.hostedByID.lookup id = none ∧ hostedOutput decode type id start = .ok output ∧
      r = (ensureCreated.andThen (emit (hostedStartEvents type s.nextOutputIndex id output)))
        (placeHosted id output s) := by
  unfold startHostedTool at hr
  dsimp only at hr
  by_cases hid : trimSpace start.id = ""
  · rw [if_pos hid] at hr
    cases hr
  rw [if_neg hid] at hr
  by_cases hknown : (s.hostedByID.lookup (trimSpace start.id)).isSome
  · rw [if_pos hknown] at hr
    cases hr
  rw [if_neg hknown] at hr
  cases htype : hostedType? start.type with
  | none =>
    rw [htype] at hr
    cases hr
  | some type =>
    rw [htype] at hr
    dsimp only at hr
    split_ifs at hr with hcaller
    obtain ⟨output, houtput, hr⟩ := bind_ok hr
    cases hr
    exact ⟨_, type, output, by simpa using hknown, houtput, rfl⟩

theorem ensureCreated_view (s : State U) :
    view (ensureCreated s).1 = view s ∧ (ensureCreated s).1.nextOutputIndex = s.nextOutputIndex := by
  unfold ensureCreated
  by_cases hs : s.sentCreated
  · rw [if_pos hs]
    exact ⟨rfl, rfl⟩
  · rw [if_neg hs, emit_fst, view_advance]
    refine ⟨rfl, ?_⟩
    unfold State.advance
    split_ifs <;> rfl

theorem startHostedTool_sends (h : WellFormed s) (hrunning : s.finalized = false)
    (hr : startHostedTool decode start s = .ok r) : Sends s r ∧ spoken r.1 = spoken s := by
  have hcreated := ensureCreated_sends h hrunning
  obtain ⟨hview, hnext⟩ := ensureCreated_view s
  obtain ⟨id, type, output, hlookup, houtput, rfl⟩ := startHostedTool_ok hr
  obtain ⟨htype, hweb⟩ := hostedOutput_ok houtput
  have hnew : view (ensureCreated s).1 (.hosted id) = none := by
    rw [hview]
    simp [view, hlookup]
  have hplace := placeHosted_sends hcreated.live hnew htype hweb
  -- the first event of the stream goes before the call
  have hsplit : (ensureCreated.andThen (emit (hostedStartEvents type s.nextOutputIndex id output)))
      (placeHosted id output s) =
        ((emit (hostedStartEvents type s.nextOutputIndex id output) (placeHosted id output (ensureCreated s).1)).1,
          (ensureCreated s).2 ++ (emit (hostedStartEvents type s.nextOutputIndex id output)
              (placeHosted id output (ensureCreated s).1)).2) := by
    unfold Sender.andThen
    rw [ensureCreated_placeHosted]
  rw [hsplit]
  rw [hnext] at hplace
  refine ⟨hcreated.append hplace, ?_⟩
  rw [spoken_emit]
  exact ensureCreated_spoken s

theorem view_hostedCall {tool : HostedTool} (htool : s.hostedByID.lookup id = some tool) :
    view s (.hosted id) = some tool.block := by
  simp [view, htool]

theorem failHostedOutput_keeps (errorValue : String) (output : Output) :
    identity (failHostedOutput errorValue output) = identity output ∧
      body (failHostedOutput errorValue output) = body output := by
  unfold failHostedOutput
  split_ifs <;> exact ⟨rfl, rfl⟩

/-- The result of a call leaves what its item is and the arguments in it. -/
theorem hostedResult_ok {output output' : Output} (h : hostedResult result output = .ok output') :
    identity output' = identity output ∧ body output' = body output := by
  obtain ⟨completed, hcompleted, h⟩ := bind_ok h
  have hkept : identity completed = identity output ∧ body completed = body output := by
    unfold hostedResultOutput at hcompleted
    by_cases hmcp : isHostedMcp output
    · rw [if_pos hmcp] at hcompleted
      obtain ⟨text, -, hcompleted⟩ := bind_ok hcompleted
      cases hcompleted
      exact ⟨rfl, rfl⟩
    · rw [if_neg hmcp] at hcompleted
      cases hcompleted
      exact ⟨rfl, rfl⟩
  cases h
  by_cases hfailed : hostedFailed result
  · rw [if_pos hfailed]
    have hfail := failHostedOutput_keeps
      (if result.errorCode = "" then "hosted tool execution failed" else result.errorCode) completed
    exact ⟨hfail.1.trans hkept.1, hfail.2.trans hkept.2⟩
  · rw [if_neg hfailed]
    exact hkept

/-! ## Closing -/

/-- The item is not there or is done. -/
def Shut (s : State U) (ref : OutputRef) : Prop := ∀ b, view s ref = some b → b.closed = true

/-- A step that only closes items, and closes these. -/
structure Shuts (s : State U) (r : State U × List (Event U)) (refs : OutputRef → Prop) : Prop extends Sends s r where
  order : r.1.outputOrder = s.outputOrder
  keeps : ∀ ref, Shut s ref → Shut r.1 ref
  shuts : ∀ ref, refs ref → Shut r.1 ref

theorem Shuts.andThen {m m' : Emits U} {refs refs' : OutputRef → Prop} (h : Shuts s (m s) refs)
    (h' : Shuts (m s).1 (m' (m s).1) refs') : Shuts s (m.andThen m' s) fun ref => refs ref ∨ refs' ref where
  toSends := h.toSends.andThen h'.toSends
  order := h'.order.trans h.order
  keeps ref hshut := h'.keeps ref (h.keeps ref hshut)
  shuts ref href := href.elim (fun href => h'.keeps ref (h.shuts ref href)) (h'.shuts ref)

theorem Shuts.refl {refs : OutputRef → Prop} (h : Live s) (hrefs : ∀ ref, refs ref → Shut s ref) :
    Shuts s (s, []) refs := ⟨.refl h, rfl, fun _ h => h, hrefs⟩

theorem Shuts.one (hsends : Sends s r) (horder : r.1.outputOrder = s.outputOrder)
    (hview : view r.1 = Function.update (view s) ref (some b.close)) : Shuts s r (· = ref) where
  toSends := hsends
  order := horder
  keeps ref' hshut := by
    intro b' hb'
    rw [hview] at hb'
    by_cases href : ref' = ref
    · subst href
      rw [Function.update_self] at hb'
      cases hb'
      rfl
    · rw [Function.update_of_ne href] at hb'
      exact hshut b' hb'
  shuts ref' href := by
    intro b' hb'
    subst href
    rw [hview, Function.update_self] at hb'
    cases hb'
    rfl

theorem each_shuts {f : α → Emits U} {refs : α → OutputRef → Prop} (hstep : ∀ a s, Live s → Shuts s (f a s) (refs a))
    (as : List α) (h : Live s) : Shuts s (Sender.each f as s) fun ref => ∃ a ∈ as, refs a ref := by
  induction as generalizing s with
  | nil => exact .refl h (by simp)
  | cons a as ih =>
    have hfirst := hstep a s h
    have hall := hfirst.andThen (ih hfirst.live)
    refine ⟨hall.toSends, hall.order, hall.keeps, ?_⟩
    rintro ref ⟨a', ha', href⟩
    rcases List.mem_cons.mp ha' with rfl | ha'
    · exact hall.shuts ref (.inl href)
    · exact hall.shuts ref (.inr ⟨a', ha', href⟩)

theorem shuts_emit {s₁ : State U} {events : List (EventType × Payload U)} (hlive : Live s₁)
    (hview : view s₁ = Function.update (view s) ref (some b.close)) (horder : s₁.outputOrder = s.outputOrder)
    (hflow : acceptAll (log s) (events.map fun e => mark e.1 e.2) = some (log s₁))
    (hemit : s₁.emitSequenceNumber = s.emitSequenceNumber) (hnext : s₁.nextSequenceNumber = s.nextSequenceNumber) :
    Shuts s (emit events s₁) (· = ref) := by
  refine .one (b := b) (sends_emit hlive hflow hemit hnext) ?_ ?_
  · rw [emit_fst, outputOrder_advance, horder]
  · rw [emit_fst, view_advance, hview]

theorem noteClose_accept (h : Live s) {s₁ : State U} (hlive : Live s₁) (hb : view s ref = some b)
    (hopen : b.closed = false) (hview : view s₁ = Function.update (view s) ref (some b.close))
    (horder : s₁.outputOrder = s.outputOrder) : acceptAll (log s) [.note b.index, .closes b.index] = some (log s₁) := by
  rw [h.log_eq, hlive.log_eq, hview, horder, acceptAll_cons, h.placed.accept_note hb hopen, Option.bind_some,
    acceptAll_singleton]
  exact h.placed.accept_closes hb hopen

theorem closeText_shuts (h : Live s) (status : Status) : Shuts s (closeText status s) (· = .message) := by
  unfold closeText
  by_cases hopen : (s.textStarted && !s.textDone) = true
  · rw [if_pos hopen]
    rw [Bool.and_eq_true, Bool.not_eq_true'] at hopen
    have hmessage := view_started s hopen.1
    have hview : view { s with textDone := true } = Function.update (view s) .message
          (some (Block.close ⟨s.textOutputIndex, (.message, ""), s.text, s.textDone⟩)) := by
      rw [view_message s { s with textDone := true } rfl rfl rfl rfl rfl rfl]
      congr 1
      exact view_started { s with textDone := true } hopen.1
    have hlive := h.set hmessage hview rfl rfl rfl
      (fun hf => absurd (hf.symm.trans hopen.1) Bool.false_ne_true) h.reasoning h.created h.running
    exact shuts_emit hlive hview rfl (noteClose_accept h hlive hmessage hopen.2 hview rfl) rfl rfl
  · rw [if_neg hopen]
    refine .refl h ?_
    rintro ref rfl b hb
    by_cases hs : s.textStarted = true
    · rw [view_started s hs] at hb
      cases hb
      simpa [hs] using hopen
    · simp [view, hs] at hb

theorem closeReasoning_shuts (h : Live s) (status : Status) : Shuts s (closeReasoning status s) (· = .reasoning) := by
  unfold closeReasoning
  by_cases hopen : (s.reasoningStarted && !s.reasoningDone) = true
  · rw [if_pos hopen]
    rw [Bool.and_eq_true, Bool.not_eq_true'] at hopen
    have hreasoning := view_reasoned s hopen.1
    have hview : view { s with reasoningDone := true } = Function.update (view s) .reasoning
          (some (Block.close ⟨s.reasoningIndex, (.reasoning, ""), s.reasoning, s.reasoningDone⟩)) := by
      rw [view_reasoning s { s with reasoningDone := true } rfl rfl rfl rfl rfl rfl]
      congr 1
      exact view_reasoned { s with reasoningDone := true } hopen.1
    have hlive := h.set hreasoning hview rfl rfl rfl h.text
      (fun hf => absurd (hf.symm.trans hopen.1) Bool.false_ne_true) h.created h.running
    exact shuts_emit hlive hview rfl (noteClose_accept h hlive hreasoning hopen.2 hview rfl) rfl rfl
  · rw [if_neg hopen]
    refine .refl h ?_
    rintro ref rfl b hb
    by_cases hs : s.reasoningStarted = true
    · rw [view_reasoned s hs] at hb
      cases hb
      simpa [hs] using hopen
    · simp [view, hs] at hb

theorem closeTool_shuts (h : Live s) (status : Status) (index : ℤ) :
    Shuts s (closeTool status index s) (· = .tool index) := by
  unfold closeTool
  cases htool : s.toolsByIndex.lookup index with
  | none =>
    refine .refl h ?_
    rintro ref rfl b hb
    simp [view, htool] at hb
  | some tool =>
    dsimp only
    by_cases hdone : tool.done = true
    · rw [if_pos hdone]
      refine .refl h ?_
      rintro ref rfl b hb
      rw [view_call htool] at hb
      cases hb
      exact hdone
    · rw [if_neg hdone]
      have hopen : tool.done = false := by simpa using hdone
      have hview := view_tool s index { tool with done := true }
      have hlive := h.set (view_call htool) hview rfl rfl rfl h.text h.reasoning h.created h.running
      refine shuts_emit (b := tool.block) hlive hview rfl ?_ rfl rfl
      exact noteClose_accept h hlive (view_call htool) hopen hview rfl

theorem closeTools_shuts (h : Live s) (status : Status) :
    Shuts s (closeTools status s) fun ref => ∃ index, ref = .tool index := by
  have hall := each_shuts (fun index s h => closeTool_shuts h status index) (sortedTools s) h
  refine ⟨hall.toSends, hall.order, hall.keeps, ?_⟩
  rintro ref ⟨index, rfl⟩
  by_cases hmem : index ∈ sortedTools s
  · exact hall.shuts _ ⟨index, hmem, rfl⟩
  · -- no such call was added
    apply hall.keeps
    intro b hb
    have hnone : s.toolsByIndex.lookup index = none := by
      rw [AList.lookup_eq_none]
      intro hkey
      exact hmem ((List.mem_insertionSort _).mpr (AList.mem_keys.mp hkey))
    simp [view, hnone] at hb

theorem hostedDone_shuts (h : Live s) {id itemID : String} {tool : HostedTool} {terminal : Option EventType}
    {status : Status} (htool : s.hostedByID.lookup id = some tool) (hdone : tool.done = false)
    (houtput : identity output = identity tool.output ∧ body output = body tool.output)
    (hterminal : ∀ type ∈ terminal, ∃ hosted phase, type = .hosted hosted phase) : Shuts s (emit
      (terminal.toList.map (fun type => (type, { outputIndex := some tool.outputIndex, itemID := itemID })) ++
        [(.outputItemDone, { outputIndex := some tool.outputIndex, itemID := itemID, item := some output })])
      { s with status := status, hostedByID := s.hostedByID.insert id ⟨tool.outputIndex, output, true⟩ })
      (· = .hosted id) := by
  have hview : view { s with status := status, hostedByID := s.hostedByID.insert id ⟨tool.outputIndex, output, true⟩ } =
      Function.update (view s) (.hosted id) (some tool.block.close) := by
    refine (view_hosted { s with status := status } id ⟨tool.outputIndex, output, true⟩).trans ?_
    have hblock : HostedTool.block ⟨tool.outputIndex, output, true⟩ = tool.block.close := by
      simp [HostedTool.block, Block.close, houtput]
    rw [hblock]
    rfl
  have hlive := h.set (view_hostedCall htool) hview rfl rfl rfl h.text h.reasoning h.created h.running
  refine shuts_emit hlive hview rfl ?_ rfl rfl
  have hnotes : acceptAll (log s)
      ((terminal.toList.map (fun type =>
        (type, ({ outputIndex := some tool.outputIndex, itemID := itemID } : Payload U)))).map
          fun e => mark e.1 e.2) = some (log s) := by
    cases hcase : terminal with
    | none => rfl
    | some type =>
      obtain ⟨hosted, phase, rfl⟩ := hterminal type hcase
      rw [h.log_eq]
      exact (acceptAll_singleton _ _).trans (h.placed.accept_note (view_hostedCall htool) hdone)
  rw [List.map_append]
  refine acceptAll_append_some hnotes ?_
  rw [h.log_eq, hlive.log_eq, hview]
  exact (acceptAll_singleton _ _).trans (h.placed.accept_closes (view_hostedCall htool) hdone)

theorem hostedTerminalEvent_hosted {failed : Bool} :
    ∀ type ∈ (hostedOutputType output).bind fun type => hostedTerminalEvent type failed,
      ∃ hosted phase, type = .hosted hosted phase := by
  intro type htype
  obtain ⟨hosted, -, hevent⟩ := Option.bind_eq_some_iff.mp htype
  cases hosted <;> cases failed <;> simp [hostedTerminalEvent] at hevent <;> exact ⟨_, _, hevent.symm⟩

theorem completeHostedTool_sends (h : Live s) (hr : completeHostedTool result s = .ok r) :
    Sends s r ∧ spoken r.1 = spoken s := by
  unfold completeHostedTool at hr
  dsimp only at hr
  cases htool : s.hostedByID.lookup (trimSpace result.id) with
  | none =>
    rw [htool] at hr
    cases hr
  | some tool =>
    rw [htool] at hr
    dsimp only at hr
    split_ifs at hr with hdone htype
    obtain ⟨output, hresult, hr⟩ := bind_ok hr
    cases hr
    have houtput := hostedResult_ok hresult
    refine ⟨?_, spoken_emit _ _⟩
    exact (hostedDone_shuts h htool (by simpa using hdone) houtput hostedTerminalEvent_hosted).toSends

theorem closedHostedOutput_keeps (failed : Bool) (output : Output) :
    identity (closedHostedOutput failed output) = identity output ∧
      body (closedHostedOutput failed output) = body output := by
  unfold closedHostedOutput
  split_ifs
  · exact failHostedOutput_keeps _ output
  · exact ⟨rfl, rfl⟩

theorem closeHosted_shuts (ref : OutputRef) (h : Live s) :
    Shuts s (closeHosted ref s) fun ref' => ref' = ref ∧ ∃ id, ref = .hosted id := by
  unfold closeHosted
  cases ref with
  | hosted id =>
    suffices hone : Shuts s _ (· = .hosted id) from
      ⟨hone.toSends, hone.order, hone.keeps, fun ref href => hone.shuts ref href.1⟩
    dsimp only
    cases htool : s.hostedByID.lookup id with
    | none =>
      refine .refl h ?_
      rintro ref rfl b hb
      simp [view, htool] at hb
    | some tool =>
      dsimp only
      by_cases hdone : tool.done = true
      · rw [if_pos hdone]
        refine .refl h ?_
        rintro ref rfl b hb
        rw [view_hostedCall htool] at hb
        cases hb
        exact hdone
      · rw [if_neg hdone]
        refine hostedDone_shuts h htool (by simpa using hdone) (closedHostedOutput_keeps _ _) ?_
        split_ifs
        · exact hostedTerminalEvent_hosted
        · simp
  | _ => exact .refl h (by simp)

theorem closeHostedTools_shuts (h : Live s) : Shuts s (closeHostedTools s) fun ref => ∃ id, ref = .hosted id := by
  have hall := each_shuts (fun ref s h => closeHosted_shuts ref h) s.outputOrder h
  refine ⟨hall.toSends, hall.order, hall.keeps, ?_⟩
  rintro ref ⟨id, rfl⟩
  by_cases hmem : .hosted id ∈ s.outputOrder
  · exact hall.shuts _ ⟨_, hmem, rfl, id, rfl⟩
  · -- no such call was added
    apply hall.keeps
    intro b hb
    exact absurd (List.mem_of_getElem? (h.placed.get hb)) hmem

theorem doneDeltaEvents_shuts (h : Live s) : Shuts s (doneDeltaEvents s) fun _ => True := by
  have htext := closeText_shuts h (outputStatus s)
  have hreasoning := htext.andThen (closeReasoning_shuts htext.live (outputStatus s))
  have htools := closeTools_shuts hreasoning.live (outputStatus s)
  have hcalls := htools.andThen (closeHostedTools_shuts htools.live)
  have hall := hreasoning.andThen hcalls
  refine ⟨hall.toSends, hall.order, hall.keeps, fun ref _ => hall.shuts ref ?_⟩
  cases ref with
  | message => exact .inl (.inl rfl)
  | reasoning => exact .inl (.inr rfl)
  | tool index => exact .inr (.inl ⟨index, rfl⟩)
  | hosted id => exact .inr (.inr ⟨id, rfl⟩)

/-! What closing does to the message and the reasoning item. -/

theorem closeText_spoken (h : Live s) (status : Status) :
    spoken (closeText status s).1 = { spoken s with textDone := s.textStarted } := by
  unfold closeText
  by_cases hopen : (s.textStarted && !s.textDone) = true
  · rw [if_pos hopen, spoken_emit]
    rw [Bool.and_eq_true] at hopen
    simp [spoken, hopen.1]
  · rw [if_neg hopen]
    by_cases hs : s.textStarted = true
    · have hdone : s.textDone = true := by simpa [hs] using hopen
      simp [spoken, hs, hdone]
    · have hs' : s.textStarted = false := by simpa using hs
      simp [spoken, hs', (h.text hs').2]

theorem closeReasoning_spoken (h : Live s) (status : Status) :
    spoken (closeReasoning status s).1 = { spoken s with reasoningDone := s.reasoningStarted } := by
  unfold closeReasoning
  by_cases hopen : (s.reasoningStarted && !s.reasoningDone) = true
  · rw [if_pos hopen, spoken_emit]
    rw [Bool.and_eq_true] at hopen
    simp [spoken, hopen.1]
  · rw [if_neg hopen]
    by_cases hs : s.reasoningStarted = true
    · have hdone : s.reasoningDone = true := by simpa [hs] using hopen
      simp [spoken, hs, hdone]
    · have hs' : s.reasoningStarted = false := by simpa using hs
      simp [spoken, hs', (h.reasoning hs').2]

theorem closeTool_spoken (status : Status) (index : ℤ) (s : State U) :
    spoken (closeTool status index s).1 = spoken s := by
  unfold closeTool
  cases s.toolsByIndex.lookup index with
  | none => rfl
  | some tool =>
    dsimp only
    by_cases hdone : tool.done = true
    · rw [if_pos hdone]
    · rw [if_neg hdone]
      exact spoken_emit _ _

theorem closeHosted_spoken (ref : OutputRef) (s : State U) : spoken (closeHosted ref s).1 = spoken s := by
  unfold closeHosted
  cases ref with
  | hosted id =>
    dsimp only
    cases s.hostedByID.lookup id with
    | none => rfl
    | some tool =>
      dsimp only
      by_cases hdone : tool.done = true
      · rw [if_pos hdone]
      · rw [if_neg hdone]
        exact spoken_emit _ _
  | _ => rfl

/-- After a finish reason what has begun is done. -/
def Spoken.finish (spoken : Spoken) : Spoken :=
  { spoken with textDone := spoken.textStarted, reasoningDone := spoken.reasoningStarted }

theorem doneDeltaEvents_spoken (h : Live s) : spoken (doneDeltaEvents s).1 = (spoken s).finish := by
  have htext := closeText_spoken h (outputStatus s)
  have hreasoning := closeReasoning_spoken (closeText_shuts h (outputStatus s)).live (outputStatus s)
  rw [htext] at hreasoning
  have hstarted : (closeText (outputStatus s) s).1.reasoningStarted = s.reasoningStarted :=
    congrArg Spoken.reasoningStarted htext
  unfold doneDeltaEvents
  rw [Sender.andThen_fst, Sender.andThen_fst, Sender.andThen_fst, closeHostedTools, each_spoken closeHosted_spoken, closeTools,
    each_spoken (fun index s => closeTool_spoken _ index s), hreasoning, hstarted]
  rfl

end Vancine.Streams.ChatToResponses
