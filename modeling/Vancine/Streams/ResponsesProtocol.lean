import Vancine.Streams.ResponsesSteps

/-!
# The protocol of a Responses stream

A stream is a sequence of chunks and of starts and results of hosted calls, all of them accepted, with an end. It
keeps to the protocol if something was sent before a normal end, and if no text, annotation or reasoning comes for an
item that a finish reason has closed: `output_item.done` was sent for it, and the converter sends the delta after it.
-/

namespace Vancine.Streams.ChatToResponses

open Lib Lib.Blocks Vancine.Streams.Responses

variable {U : Type}

/-! ## Runs -/

inductive Op (U : Type)
  | chunk (received : ChatChunk U)
  | startHosted (start : HostedToolStreamStart)
  | completeHosted (result : HostedToolStreamResult)

inductive Ending
  | finalize
  | fail (code message param : String)

/-- The code outside: the conversion of a usage, and the decoder of an action. -/
structure Outside (U : Type) where
  usageFromChatUsage : U → U
  decode : DecodeAction

def Op.apply (outside : Outside U) : Op U → State U → Except String (State U × List (Event U))
  | .chunk received => convertChunk outside.usageFromChatUsage received
  | .startHosted start => startHostedTool outside.decode start
  | .completeHosted result => completeHostedTool result

def Ending.apply : Ending → Emits U
  | .finalize => ChatToResponses.finalize
  | .fail code message param => ChatToResponses.fail code message param

def convertOps (outside : Outside U) : List (Op U) → State U → Except String (State U × List (Event U))
  | [], s => .ok (s, [])
  | op :: ops, s => do
    let (s, events) ← op.apply outside s
    let (s, events') ← convertOps outside ops s
    pure (s, events ++ events')

/-- The events of a whole stream. -/
def stream (outside : Outside U) (s : State U) (ops : List (Op U)) (ending : Ending) :
    Except String (List (Event U)) := do
  let (s, events) ← convertOps outside ops s
  pure (events ++ (ending.apply s).2)

/-! ## What comes too late -/

def finishes (choice : Choice) : Bool :=
  match choice.finishReason with
  | some reason => trimSpace reason ≠ ""
  | none => false

/-- What the choice begins and finishes. -/
def Spoken.next (choice : Choice) (spoken : Spoken) : Spoken :=
  let spoken := { spoken with
    textStarted :=
      spoken.textStarted || choice.delta.getContentString ≠ "" || choice.delta.annotations.text ≠ ""
    reasoningStarted := spoken.reasoningStarted || choice.delta.getReasoningContent ≠ "" }
  if finishes choice then spoken.finish else spoken

/-- No text and no annotation for a message that is done, and no reasoning after the reasoning is done. -/
structure InTime (spoken : Spoken) (choice : Choice) : Prop where
  text : spoken.textDone = true → choice.delta.getContentString = ""
  annotations : spoken.textDone = true → chatAnnotationsToResponses choice.delta.annotations = .ok []
  reasoning : spoken.reasoningDone = true → choice.delta.getReasoningContent = ""

def AllInTime (spoken : Spoken) : List Choice → Prop
  | [] => True
  | choice :: choices => InTime spoken choice ∧ AllInTime (spoken.next choice) choices

def Op.choices : Op U → List Choice
  | .chunk received => received.choices
  | _ => []

theorem allInTime_append (spoken : Spoken) (choices choices' : List Choice) : AllInTime spoken (choices ++ choices') ↔
      AllInTime spoken choices ∧ AllInTime (choices.foldl (fun spoken choice => spoken.next choice) spoken) choices' := by
  induction choices generalizing spoken with
  | nil => simp [AllInTime]
  | cons choice choices ih => simp [AllInTime, ih, and_assoc]

/-! ## Steps of a run -/

variable {s : State U}

theorem convertTexts_sends (h : Live s) {choice : Choice} (hintime : InTime (spoken s) choice) :
    Sends s (convertTexts choice.delta s) ∧ spoken (convertTexts choice.delta s).1 = { spoken s with
        textStarted := s.textStarted || choice.delta.getContentString ≠ ""
        reasoningStarted := s.reasoningStarted || choice.delta.getReasoningContent ≠ "" } := by
  unfold convertTexts
  have hreasoning : Sends s ((if choice.delta.getReasoningContent = "" then Sender.none
      else appendReasoningDelta choice.delta.getReasoningContent : Emits U) s) ∧
      spoken ((if choice.delta.getReasoningContent = "" then Sender.none
        else appendReasoningDelta choice.delta.getReasoningContent : Emits U) s).1 =
          { spoken s with
            reasoningStarted := s.reasoningStarted || choice.delta.getReasoningContent ≠ "" } := by
    by_cases hempty : choice.delta.getReasoningContent = ""
    · rw [if_pos hempty]
      exact ⟨.none h, by simp [Sender.none, spoken, hempty]⟩
    · rw [if_neg hempty]
      have hdone : s.reasoningDone = false := by
        by_contra hdone
        exact hempty (hintime.reasoning (by simpa [spoken] using hdone))
      refine ⟨appendReasoningDelta_sends h hdone _, ?_⟩
      rw [appendReasoningDelta_spoken]
      simp [hempty]
  obtain ⟨hsends, hspoken⟩ := hreasoning
  generalize (if choice.delta.getReasoningContent = "" then Sender.none
      else appendReasoningDelta choice.delta.getReasoningContent : Emits U) = reasoning at hsends hspoken ⊢
  by_cases hempty : choice.delta.getContentString = ""
  · rw [if_pos hempty]
    refine ⟨hsends.andThen (.none hsends.live), ?_⟩
    rw [Sender.andThen_fst]
    show spoken (reasoning s).1 = _
    rw [hspoken]
    simp [spoken, hempty]
  · rw [if_neg hempty]
    have hdone : (reasoning s).1.textDone = false := by
      by_contra hdone
      have hsame : (reasoning s).1.textDone = s.textDone := congrArg Spoken.textDone hspoken
      exact hempty (hintime.text (by simpa [spoken, hsame] using hdone))
    refine ⟨hsends.andThen (appendTextDelta_sends hsends.live hdone _), ?_⟩
    rw [Sender.andThen_fst, appendTextDelta_spoken, hspoken]
    simp [hempty]

variable {r : State U × List (Event U)} {response : Response U}

theorem convertAnnotations_sends (h : Live s) {raw : Raw}
    (hintime : s.textDone = true → chatAnnotationsToResponses raw = .ok []) (hr : convertAnnotations raw s = .ok r) :
    Sends s r ∧ spoken r.1 = { spoken s with textStarted := s.textStarted || raw.text ≠ "" } := by
  unfold convertAnnotations at hr
  by_cases hempty : raw.text = ""
  · rw [if_pos hempty] at hr
    cases hr
    exact ⟨.refl h, by simp [spoken, hempty]⟩
  · rw [if_neg hempty] at hr
    have hdone : s.textDone = false ∨ chatAnnotationsToResponses raw = .ok [] := by
      by_cases hdone : s.textDone = true
      · exact .inr (hintime hdone)
      · exact .inl (by simpa using hdone)
    obtain ⟨hsends, hspoken⟩ := appendAnnotationDelta_sends h hdone hr
    exact ⟨hsends, by simp [hspoken, hempty]⟩

theorem finishChoice_sends (h : Live s) (choice : Choice) : Sends s (finishChoice choice.finishReason s) ∧
      spoken (finishChoice choice.finishReason s).1 = if finishes choice then (spoken s).finish else spoken s := by
  unfold finishChoice finishes
  cases choice.finishReason with
  | none => exact ⟨.refl h, rfl⟩
  | some reason =>
    dsimp only
    by_cases hblank : trimSpace reason = ""
    · rw [if_pos hblank]
      exact ⟨.refl h, by simp [hblank]⟩
    · rw [if_neg hblank]
      have hlive : Live (applyFinishReason reason s) :=
        ⟨⟨h.next, h.placed, h.text, h.reasoning⟩, h.created, h.running⟩
      have hsends := (doneDeltaEvents_shuts hlive).toSends
      refine ⟨⟨hsends.live, hsends.flow, hsends.numbered⟩, ?_⟩
      rw [doneDeltaEvents_spoken hlive]
      simp [hblank, applyFinishReason, spoken]

/-- **One choice.** -/
theorem convertChoice_sends (h : Live s) {choice : Choice} (hintime : InTime (spoken s) choice)
    (hr : convertChoice choice s = .ok r) : Sends s r ∧ spoken r.1 = (spoken s).next choice := by
  obtain ⟨htexts, hspoken⟩ := convertTexts_sends h hintime
  obtain ⟨annotations, hannotations, hr⟩ := bind_ok hr
  obtain ⟨tools, htools, hr⟩ := bind_ok hr
  cases hr
  have hsame : (convertTexts choice.delta s).1.textDone = s.textDone := congrArg Spoken.textDone hspoken
  obtain ⟨hannotated, hspoken₁⟩ := convertAnnotations_sends htexts.live
    (fun hdone => hintime.annotations (hsame.symm.trans hdone)) hannotations
  obtain ⟨hcalled, hspoken₂⟩ := convertToolCalls_sends hannotated.live htools
  obtain ⟨hfinished, hspoken₃⟩ := finishChoice_sends hcalled.live choice
  refine ⟨((htexts.append hannotated).append hcalled).append hfinished, ?_⟩
  have hstarted : (convertTexts choice.delta s).1.textStarted =
      (s.textStarted || decide (choice.delta.getContentString ≠ "")) := congrArg Spoken.textStarted hspoken
  show spoken (finishChoice choice.finishReason tools.1).1 = _
  rw [hspoken₃, hspoken₂, hspoken₁, hspoken, hstarted]
  rfl

theorem convertChoices_sends {choices : List Choice} (h : Live s) (hintime : AllInTime (spoken s) choices)
    (hr : convertChoices choices s = .ok r) :
    Sends s r ∧ spoken r.1 = choices.foldl (fun spoken choice => spoken.next choice) (spoken s) := by
  induction choices generalizing s r with
  | nil =>
    cases hr
    exact ⟨.refl h, rfl⟩
  | cons choice choices ih =>
    obtain ⟨first, hfirst, hr⟩ := bind_ok hr
    obtain ⟨rest, hrest, hr⟩ := bind_ok hr
    cases hr
    obtain ⟨hsends, hspoken⟩ := convertChoice_sends h hintime.1 hfirst
    have hintime' := hintime.2
    rw [← hspoken] at hintime'
    obtain ⟨hsends', hspoken'⟩ := ih hsends.live hintime' hrest
    refine ⟨hsends.append hsends', ?_⟩
    rw [hspoken', hspoken]
    rfl

/-- Before the first step there is nothing. -/
def Idle (s : State U) : Prop := s.sentCreated = false ∧ s.outputOrder = []

variable (outside : Outside U)

theorem convertChunk_sends {received : ChatChunk U} (h : WellFormed s) (hrunning : s.finalized = false)
    (hintime : AllInTime (spoken s) received.choices)
    (hr : convertChunk outside.usageFromChatUsage received s = .ok r) :
    Sends s r ∧ spoken r.1 = received.choices.foldl (fun spoken choice => spoken.next choice) (spoken s) := by
  obtain ⟨rest, hrest, hr⟩ := bind_ok hr
  cases hr
  have hnoted : WellFormed (noteChunk outside.usageFromChatUsage received s) :=
    ⟨h.next, h.placed, h.text, h.reasoning⟩
  have hcreated := ensureCreated_sends hnoted hrunning
  have hspoken := ensureCreated_spoken (noteChunk outside.usageFromChatUsage received s)
  have hintime' : AllInTime (spoken (ensureCreated (noteChunk outside.usageFromChatUsage received s)).1)
      received.choices := by
    rw [hspoken]
    exact hintime
  obtain ⟨hsends, hspoken'⟩ := convertChoices_sends hcreated.live hintime' hrest
  have hall := hcreated.append hsends
  refine ⟨⟨hall.live, hall.flow, hall.numbered⟩, ?_⟩
  show spoken rest.1 = _
  rw [hspoken', hspoken]
  rfl

/-- **One step of a run.** -/
theorem Op.sends (op : Op U) (h : WellFormed s) (hrunning : s.finalized = false)
    (hbegun : s.sentCreated = true ∨ Idle s) (hintime : AllInTime (spoken s) op.choices)
    (hr : op.apply outside s = .ok r) :
    Sends s r ∧ spoken r.1 = op.choices.foldl (fun spoken choice => spoken.next choice) (spoken s) := by
  cases op with
  | chunk received => exact convertChunk_sends outside h hrunning hintime hr
  | startHosted start => exact startHostedTool_sends h hrunning hr
  | completeHosted result =>
    rcases hbegun with hcreated | hidle
    · exact completeHostedTool_sends ⟨h, hcreated, hrunning⟩ hr
    · -- there is no call to complete
      exfalso
      have hnone : s.hostedByID.lookup (trimSpace result.id) = none := by
        cases htool : s.hostedByID.lookup (trimSpace result.id) with
        | none => rfl
        | some tool =>
          have hget := h.placed.get (view_hostedCall htool)
          rw [hidle.2] at hget
          cases hget
      simp [Op.apply, completeHostedTool, hnone] at hr

theorem convertOps_live (ops : List (Op U)) (h : Live s) (hintime : AllInTime (spoken s) (ops.flatMap Op.choices))
    (hr : convertOps outside ops s = .ok r) : Sends s r := by
  induction ops generalizing s r with
  | nil =>
    cases hr
    exact .refl h
  | cons op ops ih =>
    obtain ⟨first, hfirst, hr⟩ := bind_ok hr
    obtain ⟨rest, hrest, hr⟩ := bind_ok hr
    cases hr
    rw [List.flatMap_cons, allInTime_append] at hintime
    obtain ⟨hsends, hspoken⟩ := op.sends outside h.toWellFormed h.running (.inl h.created) hintime.1 hfirst
    have hintime' := hintime.2
    rw [← hspoken] at hintime'
    exact hsends.append (ih hsends.live hintime' hrest)

/-- **A whole run.** Nothing was sent, or the stream is alive. -/
theorem convertOps_sends (ops : List (Op U)) (h : WellFormed s) (hrunning : s.finalized = false) (hidle : Idle s)
    (hintime : AllInTime (spoken s) (ops.flatMap Op.choices)) (hr : convertOps outside ops s = .ok r) :
    (ops = [] ∧ r = (s, [])) ∨ Sends s r := by
  cases ops with
  | nil =>
    cases hr
    exact .inl ⟨rfl, rfl⟩
  | cons op ops =>
    right
    obtain ⟨first, hfirst, hr⟩ := bind_ok hr
    obtain ⟨rest, hrest, hr⟩ := bind_ok hr
    cases hr
    rw [List.flatMap_cons, allInTime_append] at hintime
    obtain ⟨hsends, hspoken⟩ := op.sends outside h hrunning (.inr hidle) hintime.1 hfirst
    have hintime' := hintime.2
    rw [← hspoken] at hintime'
    exact hsends.append (convertOps_live outside ops hsends.live hintime' hrest)

/-! ## The end -/

theorem finalOutput_view {ref : OutputRef} {b : Block (OutputType × String)} (hb : view s ref = some b) :
    ∃ item, finalOutput s ref = some item ∧ identity item = b.label ∧ body item = b.text := by
  cases ref with
  | message =>
    by_cases hs : s.textStarted = true
    · rw [view_started s hs] at hb
      cases hb
      exact ⟨_, rfl, rfl, by simp [body, messageOutput, String.join]⟩
    · simp [view, hs] at hb
  | reasoning =>
    by_cases hs : s.reasoningStarted = true
    · rw [view_reasoned s hs] at hb
      cases hb
      exact ⟨_, rfl, rfl, by simp [body, reasoningOutput, String.join]⟩
    · simp [view, hs] at hb
  | tool index =>
    obtain ⟨tool, htool, rfl⟩ := Option.map_eq_some_iff.mp hb
    exact ⟨toolOutput tool (outputStatus s), by simp [finalOutput, htool], rfl, rfl⟩
  | hosted id =>
    obtain ⟨tool, htool, rfl⟩ := Option.map_eq_some_iff.mp hb
    exact ⟨tool.output, by simp [finalOutput, htool], rfl, rfl⟩

/-- The events end the stream with the response, which has the items of `last`. -/
structure Ends (s : State U) (events : List (Event U)) (response : Response U) (last : State U) : Prop where
  flow : acceptAll (log s) (events.map eventMark) = some ⟨.after, items last⟩
  placed : Placed (view last) last.outputOrder
  output : response.output = (finalResponse last).output
  sent : (events.map (·.payload.response)).getLast? = some (some response)
  numbers : s.emitSequenceNumber = true →
    events.map Event.sequenceNumber = (List.range' s.nextSequenceNumber events.length).map some

variable {events : List (Event U)}

theorem Sends.ends {last : State U} (h : Sends s r) (hends : Ends r.1 events response last) :
    Ends s (r.2 ++ events) response last where
  flow := by
    rw [List.map_append]
    exact acceptAll_append_some h.flow hends.flow
  placed := hends.placed
  output := hends.output
  sent := by
    rw [List.map_append, List.getLast?_append, hends.sent]
    rfl
  numbers hs := by
    obtain ⟨hnext, hnumbers⟩ := h.numbered.2 hs
    rw [List.map_append, hnumbers, hends.numbers (h.numbered.1.trans hs), hnext, List.length_append,
      ← List.range'_append_1, List.map_append]

theorem emit_responses (events : List (EventType × Payload U)) (s : State U) :
    (emit events s).2.map (·.payload.response) = events.map (·.2.response) := by
  induction events generalizing s with
  | nil => rfl
  | cons e events ih =>
    by_cases hs : s.emitSequenceNumber <;> simp [emit, event, hs, ih]

theorem ends_emit (h : Live s) (hshut : ∀ ref, Shut s ref) (asides : List (EventType × Payload U))
    (hasides : ∀ e ∈ asides, mark e.1 e.2 = .aside) {type : EventType} (htype : mark (U := U) type {} = .stop)
    (houtput : response.output = (finalResponse s).output) :
    Ends s (emit (asides ++ [(type, { response := some response })]) { s with finalized := true }).2 response s where
  flow := by
    have hstop : mark type { response := some response } = .stop := htype
    have hskip : acceptAll (log s) (asides.map fun e => mark e.1 e.2) = some (log s) := by
      rw [h.log_eq]
      clear houtput hstop
      induction asides with
      | nil => rfl
      | cons e asides ih =>
        rw [List.map_cons, hasides e List.mem_cons_self, acceptAll_cons]
        exact ih fun e he => hasides e (List.mem_cons_of_mem _ he)
    have hclosed : (listed (view s) s.outputOrder).all (·.closed) = true := by
      rw [List.all_eq_true]
      intro b hb
      obtain ⟨ref, -, hb⟩ := mem_listed.mp hb
      exact hshut ref b hb
    rw [emit_marks, List.map_append]
    refine acceptAll_append_some hskip ?_
    rw [List.map_singleton, hstop, acceptAll_singleton, h.log_eq]
    exact if_pos hclosed
  placed := h.placed
  output := houtput
  sent := by
    rw [emit_responses, List.map_append, List.getLast?_append]
    rfl
  numbers hs := by
    have hnumbered := emit_numbered (asides ++ [(type, { response := some response })]) { s with finalized := true }
    exact (hnumbered.2 hs).2

theorem completedEvent_ends (h : Live s) (hshut : ∀ ref, Shut s ref) :
    Ends s (completedEvent s).2 (finalResponse s) s := by
  have hstop : mark (U := U) (if s.status = .incomplete then .incomplete else .completed) {} = .stop := by
    split_ifs <;> rfl
  exact ends_emit h hshut [] (by simp) hstop rfl

theorem failEvents_ends (h : Live s) (hshut : ∀ ref, Shut s ref) (code message param : String) :
    Ends s (failEvents code message param s).2 { finalResponse s with error := some ⟨code, message⟩ } s :=
  ends_emit h hshut [(.error, { code, message, param })] (by simp [mark, isTerminal]) rfl rfl

theorem finalize_ends (h : Live s) : ∃ response last, Ends s (finalize s).2 response last := by
  have hdone := doneDeltaEvents_shuts h
  unfold finalize
  rw [if_neg (by simp [h.running]), Sender.andThen_snd]
  exact ⟨_, _, hdone.toSends.ends (completedEvent_ends hdone.live fun ref => hdone.shuts ref trivial)⟩

theorem fail_ends (h : WellFormed s) (hrunning : s.finalized = false) (code message param : String) :
    ∃ response last, Ends s (fail code message param s).2 response last := by
  have hfailed : WellFormed { s with status := .failed } := ⟨h.next, h.placed, h.text, h.reasoning⟩
  have hcreated := ensureCreated_sends hfailed hrunning
  have hdone := doneDeltaEvents_shuts hcreated.live
  have hlast := failEvents_ends hdone.live (fun ref => hdone.shuts ref trivial) (orDefault "server_error" code)
    (orDefault "upstream response stream failed" message) param
  have hends := (hcreated.andThen hdone.toSends).ends hlast
  unfold fail
  rw [if_neg (by simp [hrunning]), Sender.andThen_snd]
  exact ⟨_, _, hends.flow, hends.placed, hends.output, hends.sent, hends.numbers⟩

theorem Ending.ends (ending : Ending) (h : WellFormed s) (hrunning : s.finalized = false)
    (hbegun : s.sentCreated = true ∨ ending ≠ .finalize) :
    ∃ response last, Ends s (ending.apply s).2 response last := by
  cases ending with
  | finalize => exact finalize_ends ⟨h, hbegun.resolve_right (by simp), hrunning⟩
  | fail code message param => exact fail_ends h hrunning code message param

/-! ## The protocol -/

/-- The events begin with `response.created` and end with the one terminal event. Item `i` of the final response is
opened, worked on and closed under index `i`, and its deltas are its text or arguments. -/
structure Protocol (emitSequenceNumber : Bool) (events : List (Event U)) (response : Response U) : Prop where
  first : ∃ rest, events.map eventMark = .start :: rest ∧ .start ∉ rest
  last : ∃ init final, events = init ++ [final] ∧ eventMark final = .stop ∧ final.payload.response = some response ∧
    Mark.stop ∉ init.map eventMark
  indices : (events.map eventMark).filterMap Mark.opened? = List.range response.output.length
  items : ∀ i item, response.output[i]? = some item →
    BlockEvents ⟨i, identity item, body item, true⟩ (eventsOf i (events.map eventMark))
  deltas : ∀ i item, response.output[i]? = some item → textOf i (events.map eventMark) = body item
  others : ∀ i ≥ response.output.length, eventsOf i (events.map eventMark) = []
  numbers : emitSequenceNumber = true →
    events.map Event.sequenceNumber = (List.range events.length).map some

/-- The output of a response has the blocks of the state at their places. -/
theorem output_getElem? (hplaced : Placed (view s) s.outputOrder) {i : ℕ} {item : Output}
    (hitem : (finalResponse s).output[i]? = some item) :
    ∃ b ∈ items s, b.index = i ∧ b.label = identity item ∧ b.text = body item := by
  have hall : ∀ ref ∈ s.outputOrder, ∃ item, finalOutput s ref = some item := by
    intro ref href
    obtain ⟨b, hb⟩ := hplaced.of_mem href
    obtain ⟨item, hitem, -⟩ := finalOutput_view hb
    exact ⟨item, hitem⟩
  have hget : (finalResponse s).output[i]? = s.outputOrder[i]?.bind (finalOutput s) :=
    getElem?_filterMap hall i
  rw [hget] at hitem
  obtain ⟨ref, href, hitem⟩ := Option.bind_eq_some_iff.mp hitem
  obtain ⟨b, hb, hindex⟩ := hplaced.of_get href
  obtain ⟨item', hitem', hidentity, hbody⟩ := finalOutput_view hb
  rw [hitem] at hitem'
  cases hitem'
  exact ⟨b, mem_listed.mpr ⟨ref, List.mem_of_getElem? href, hb⟩, hindex, hidentity.symm, hbody.symm⟩

theorem length_output (hplaced : Placed (view s) s.outputOrder) :
    (finalResponse s).output.length = s.outputOrder.length := by
  apply length_filterMap
  intro ref href
  obtain ⟨b, hb⟩ := hplaced.of_mem href
  obtain ⟨item, hitem, -⟩ := finalOutput_view hb
  exact ⟨item, hitem⟩

theorem protocol_of_ends {last : State U} (hlog : log s = Log.empty) (hnumber : s.nextSequenceNumber = 0)
    (h : Ends s events response last) : Protocol s.emitSequenceNumber events response := by
  have hflow := h.flow
  rw [hlog] at hflow
  have hshaped := shaped_of_acceptAll hflow
  obtain ⟨⟨first, hfirst, hstop⟩, hclosed⟩ := hshaped.after rfl
  refine ⟨hshaped.start nofun, ?_, ?_, ?_, ?_, ?_, ?_⟩
  · obtain ⟨init, final, rfl, hinit, hfinal⟩ := List.map_eq_append_iff.mp hfirst
    obtain ⟨e, rfl, he⟩ := List.map_eq_singleton_iff.mp hfinal
    refine ⟨init, e, rfl, he, ?_, ?_⟩
    · have hsent := h.sent
      rw [List.map_append, List.getLast?_append] at hsent
      simpa using hsent
    · rw [hinit]
      exact hstop
  · rw [hshaped.opened, h.output, length_output h.placed]
    exact h.placed.map_index
  · intro i item hitem
    rw [h.output] at hitem
    obtain ⟨b, hb, rfl, hlabel, htext⟩ := output_getElem? h.placed hitem
    have hevents := hshaped.events b hb
    have hb' : b = ⟨b.index, identity item, body item, true⟩ := by
      rw [← hlabel, ← htext, ← hclosed b hb]
    rw [← hb']
    exact hevents
  · intro i item hitem
    rw [h.output] at hitem
    obtain ⟨b, hb, rfl, -, htext⟩ := output_getElem? h.placed hitem
    rw [hshaped.text b hb, htext]
  · intro i hi
    apply hshaped.others
    rw [h.output, length_output h.placed] at hi
    show i ∉ (listed (view last) last.outputOrder).map Block.index
    rw [h.placed.map_index]
    simpa using hi
  · intro hs
    rw [h.numbers hs, hnumber, List.range_eq_range']

section New

variable (outside : Outside U) (id model : String) (now : ℤ) (usage : U) (emitSequenceNumber : Bool)

theorem wellFormed_newState : WellFormed (newState id model now usage emitSequenceNumber) where
  next := rfl
  placed ref i := by
    cases ref <;> simp [view, newState]
  text _ := ⟨rfl, rfl⟩
  reasoning _ := ⟨rfl, rfl⟩

/-- **The protocol.** A stream that sent something before it was finalized, and in which nothing came too late. -/
theorem responses_protocol (ops : List (Op U)) (ending : Ending) {events : List (Event U)}
    (hstream : stream outside (newState id model now usage emitSequenceNumber) ops ending = .ok events)
    (hbegun : ops ≠ [] ∨ ending ≠ .finalize) (hintime : AllInTime {} (ops.flatMap Op.choices)) :
    ∃ response, Protocol emitSequenceNumber events response := by
  have hnew := wellFormed_newState id model now usage emitSequenceNumber
  obtain ⟨r, hr, hstream⟩ := bind_ok hstream
  cases hstream
  have hends : ∃ response last, Ends (newState id model now usage emitSequenceNumber)
      (r.2 ++ (ending.apply r.1).2) response last := by
    rcases convertOps_sends outside ops hnew rfl ⟨rfl, rfl⟩ hintime hr with ⟨hops, hr⟩ | hsends
    · rw [hr]
      exact ending.ends hnew rfl (.inr (hbegun.resolve_left (by simp [hops])))
    · obtain ⟨response, last, hends⟩ :=
        ending.ends hsends.live.toWellFormed hsends.live.running (.inl hsends.live.created)
      exact ⟨response, last, hsends.ends hends⟩
  obtain ⟨response, last, hends⟩ := hends
  exact ⟨response, protocol_of_ends (s := newState id model now usage emitSequenceNumber) rfl rfl hends⟩

end New

theorem map_ok {α β : Type} {x : Except String α} {f : α → β} {b : β} (h : x.map f = .ok b) :
    ∃ a, x = .ok a ∧ f a = b := by
  cases x with
  | error message => cases h
  | ok a => exact ⟨a, rfl, Except.ok.inj h⟩

/-- A chunk with one choice of text. -/
def textChunk (content : String) (finishReason : Option String) : ChatChunk Unit where
  id := "chatcmpl"
  model := "m"
  created := 1
  choices := [⟨{ content := some content }, finishReason⟩]
  usage := none

/-- Text in two chunks with a web search between them. -/
def searched : List (Op Unit) :=
  [.chunk (textChunk "a" none), .startHosted ⟨"web_search_call", "ws", "", .empty, .empty, ""⟩,
    .chunk (textChunk "b" (some "stop"))]

def searchDecoder : DecodeAction := fun _ => some ⟨"search", "q", [], none, "", ""⟩

theorem responses_protocol_searched :
    ∃ events response, stream ⟨id, searchDecoder⟩ (newState "resp" "m" 1 () true) searched .finalize = .ok events ∧
      Protocol true events response := by
  have hok : (stream ⟨id, searchDecoder⟩ (newState "resp" "m" 1 () true) searched .finalize).map (fun _ => ()) =
      .ok () := by
    decide +kernel
  obtain ⟨events, hevents, -⟩ := map_ok hok
  have hintime : AllInTime {} (searched.flatMap Op.choices) := by
    refine ⟨⟨?_, fun _ => rfl, ?_⟩, ⟨?_, fun _ => rfl, ?_⟩, trivial⟩ <;> decide
  obtain ⟨response, h⟩ := responses_protocol ⟨id, searchDecoder⟩ "resp" "m" 1 () true searched .finalize hevents
    (.inl (by simp [searched])) hintime
  exact ⟨events, response, hevents, h⟩

/-- Text after a finish reason. -/
def late : List (Op Unit) := [.chunk (textChunk "a" (some "stop")), .chunk (textChunk "b" none)]

/-- Text after a finish reason follows the end of its item, and a stream of nothing has no first event. -/
theorem late_and_empty_streams :
    (∃ events, stream ⟨id, searchDecoder⟩ (newState "resp" "m" 1 () true) late .finalize = .ok events ∧
      ¬∃ response, Protocol true events response) ∧
    ∃ events, stream ⟨id, searchDecoder⟩ (newState "resp" "m" 1 () true) [] .finalize = .ok events ∧
      ¬∃ response, Protocol true events response := by
  constructor
  · have hmarks : (stream ⟨id, searchDecoder⟩ (newState "resp" "m" 1 () true) late .finalize).map
        (·.map eventMark) = .ok [.start, .opens 0 (.message, ""), .part 0 "a", .note 0, .closes 0, .part 0 "b",
          .stop] := by
      decide +kernel
    obtain ⟨events, hevents, hmarks⟩ := map_ok hmarks
    refine ⟨events, hevents, ?_⟩
    rintro ⟨response, h⟩
    have hlength : response.output.length = 1 := by
      have hindices := congrArg List.length h.indices
      rw [hmarks, List.length_range] at hindices
      exact hindices.symm
    obtain ⟨inner, hinner, hevents₀⟩ := h.items 0 _ (List.getElem?_eq_getElem (by omega))
    rw [hmarks] at hevents₀
    -- the last event of the item is not its end
    have hpart : (eventsOf (L := OutputType × String) 0 [.start, .opens 0 (.message, ""), .part 0 "a", .note 0,
        .closes 0, .part 0 "b", .stop]).getLast? = some (.part 0 "b") := by
      decide
    rw [hevents₀, if_pos rfl, List.getLast?_append] at hpart
    cases hpart
  · have hmarks : (stream ⟨id, searchDecoder⟩ (newState "resp" "m" 1 () true) [] .finalize).map
        (·.map eventMark) = .ok [.stop] := by
      decide
    obtain ⟨events, hevents, hmarks⟩ := map_ok hmarks
    refine ⟨events, hevents, ?_⟩
    rintro ⟨response, h⟩
    obtain ⟨rest, hrest, -⟩ := h.first
    rw [hmarks] at hrest
    cases hrest

end Vancine.Streams.ChatToResponses
