import Vancine.Streams.ClaudeSteps

/-!
# The protocol of a Claude stream

Whatever chunks come, the blocks of the stream are opened once, and closed before the end. The message that they make
is the one that the chunks stand for, as long as no chunk has text beside thinking or either of them beside calls: the
converter takes one field of a chunk and drops the others. A call that never gets a name is dropped too. And without
a chunk there is no first event.
-/

namespace Vancine.Streams.ChatToClaude

open Lib Lib.Blocks

variable {U V : Type} (host : Host U V)

/-! ## Text of events -/

/-- The texts one after the other. -/
def concat {α : Type*} (f : α → String) : List α → String
  | [] => ""
  | a :: as => f a ++ concat f as

theorem concat_append {α : Type*} (f : α → String) (l l' : List α) : concat f (l ++ l') = concat f l ++ concat f l' := by
  induction l with
  | nil => simp [concat]
  | cons a l ih => simp [concat, ih, String.append_assoc]

theorem concat_empty {α : Type*} {f : α → String} {l : List α} (h : ∀ a ∈ l, f a = "") : concat f l = "" := by
  induction l with
  | nil => rfl
  | cons a l ih => simp [concat, h a List.mem_cons_self, ih fun a ha => h a (List.mem_cons_of_mem _ ha)]

def prose (voice : Voice) : Event V → String
  | .contentBlockDelta _ (.text t) => if voice = .text then t else ""
  | .contentBlockDelta _ (.thinking t) => if voice = .thinking then t else ""
  | _ => ""

def Said.prose (voice : Voice) (x : Said) : String :=
  match voice with
  | .text => x.content
  | .thinking => x.reasoning

/-- Events without text and thinking. -/
def Quiet (events : List (Event V)) : Prop := ∀ e ∈ events, ∀ voice, prose voice e = ""

theorem Quiet.nil : Quiet ([] : List (Event V)) := nofun

theorem Quiet.append {events events' : List (Event V)} (h : Quiet events) (h' : Quiet events') :
    Quiet (events ++ events') := fun e he => (List.mem_append.mp he).elim (h e) (h' e)

variable {events : List (Event V)}

theorem Quiet.concat (h : Quiet events) (voice : Voice) : concat (prose voice) events = "" :=
  concat_empty fun e he => h e he voice

variable {s : ClaudeConvertInfo U} {o : Outline}

theorem Quiet.andThen {m m' : Sends U V} (h : Quiet (m s).2) (h' : ∀ s, Quiet (m' s).2) :
    Quiet (m.andThen m' s).2 := h.append (h' _)

theorem startToolEvents_quiet (tool : ClaudeStreamToolCall) : Quiet (startToolEvents (V := V) tool) := by
  intro e he voice
  unfold startToolEvents at he
  split_ifs at he
  all_goals
    simp only [List.mem_cons, List.not_mem_nil, or_false] at he
    rcases he with rfl | rfl <;> rfl

theorem startPending_quiet (n : ℕ) (tool : ClaudeStreamToolCall) : Quiet (startPending (V := V) host n tool).2.2 := by
  unfold startPending
  split_ifs
  · exact .nil
  · exact startToolEvents_quiet _
  · exact startToolEvents_quiet _

theorem startPendingAll_quiet (n : ℕ) (tools : List ClaudeStreamToolCall) :
    Quiet (startPendingAll (V := V) host n tools).2.2 := by
  induction tools generalizing n with
  | nil => exact .nil
  | cons tool tools ih => exact (startPending_quiet host n tool).append (ih _)

theorem stopOpenBlocks_quiet (s : ClaudeConvertInfo U) : Quiet (stopOpenBlocks (V := V) s) := by
  intro e he voice
  unfold stopOpenBlocks at he
  cases htype : s.lastMessagesType with
  | none =>
    rw [htype] at he
    cases he
  | tools =>
    rw [htype] at he
    dsimp only at he
    split_ifs at he
    all_goals
      obtain ⟨_, -, rfl⟩ := List.mem_map.mp he
      rfl
  | _ =>
    rw [htype] at he
    obtain rfl := List.mem_singleton.mp he
    rfl

theorem appendStopOpenBlocks_quiet (s : ClaudeConvertInfo U) : Quiet (appendStopOpenBlocks (V := V) host s).2 := by
  refine Quiet.andThen ?_ stopOpenBlocks_quiet
  unfold startPendingToolBlocks
  split_ifs
  · exact startPendingAll_quiet host _ _
  · exact .nil

theorem stopOpenBlocksAndAdvance_quiet (s : ClaudeConvertInfo U) :
    Quiet (stopOpenBlocksAndAdvance (V := V) host s).2 := by
  rw [stopOpenBlocksAndAdvance_snd]
  exact appendStopOpenBlocks_quiet host s

theorem openBlock_quiet (type : LastMessagesType) (block : ContentBlock) (s : ClaudeConvertInfo U) :
    Quiet (openBlock (V := V) host type block s).2 := by
  unfold openBlock
  split_ifs
  · exact .nil
  · refine Quiet.andThen (stopOpenBlocksAndAdvance_quiet host s) fun s e he voice => ?_
    obtain rfl := List.mem_singleton.mp he
    rfl

theorem appendCitationDeltas_quiet (raw : Raw) (s : ClaudeConvertInfo U) :
    Quiet (appendCitationDeltas (V := V) host raw s).2 := by
  unfold appendCitationDeltas
  dsimp only
  split_ifs
  · exact .nil
  · refine Quiet.andThen (openBlock_quiet host _ _ s) fun s e he voice => ?_
    obtain ⟨citation, -, rfl⟩ := List.mem_map.mp he
    rfl

theorem advance_quiet (arguments : String) (tool : ClaudeStreamToolCall) :
    Quiet (tool.advance (V := V) arguments).2 := by
  unfold ClaudeStreamToolCall.advance
  split_ifs
  · exact startToolEvents_quiet tool
  · intro e he voice
    obtain rfl := List.mem_singleton.mp he
    rfl
  · exact .nil

theorem appendToolCallsFrom_quiet (position : ℕ) (toolCalls : List ToolCallResponse) (s : ClaudeConvertInfo U) :
    Quiet (appendToolCallsFrom (V := V) position toolCalls s).2 := by
  induction toolCalls generalizing position s with
  | nil => exact .nil
  | cons toolCall toolCalls ih =>
    refine Quiet.andThen ?_ (ih (position + 1))
    unfold appendToolCall
    dsimp only
    split
    · exact .nil
    · exact advance_quiet _ _

theorem appendToolCalls_quiet (toolCalls : List ToolCallResponse) (s : ClaudeConvertInfo U) :
    Quiet (appendToolCalls (V := V) host toolCalls s).2 := by
  refine Quiet.andThen (Quiet.andThen ?_ (appendToolCallsFrom_quiet 0 toolCalls)) fun s => .nil
  unfold openTools
  split_ifs
  · exact .nil
  · exact Quiet.andThen (stopOpenBlocksAndAdvance_quiet host s) fun s => .nil

theorem appendProse_prose (voice voice' : Voice) (content : String) (s : ClaudeConvertInfo U) :
    concat (prose voice') (((openBlock (V := V) host voice.type voice.block).andThen
      fun s => (s, [.contentBlockDelta s.index (voice.delta content)])) s).2 =
        if voice' = voice then content else "" := by
  rw [Sender.andThen_snd, concat_append, (openBlock_quiet host _ _ s).concat]
  cases voice <;> cases voice' <;> simp [concat, prose, Voice.delta]

theorem convertDelta_prose (delta : ChoiceDelta) (voice : Voice) (s : ClaudeConvertInfo U) :
    concat (prose voice) (convertDelta (V := V) host delta s).2 = (saidChoice host delta).kept.prose voice := by
  unfold convertDelta
  rw [Sender.andThen_snd, concat_append, (appendCitationDeltas_quiet host delta.annotations _).concat,
    String.append_empty]
  by_cases htools : delta.toolCalls ≠ []
  · rw [if_pos htools, (appendToolCalls_quiet host delta.toolCalls s).concat]
    cases voice <;> simp [Said.kept, saidChoice, htools, Said.prose]
  · rw [if_neg htools]
    by_cases hreasoning : delta.getReasoningContent ≠ ""
    · rw [if_pos hreasoning]
      refine (appendProse_prose host .thinking voice _ s).trans ?_
      cases voice <;> simp [Said.kept, saidChoice, htools, hreasoning, Said.prose]
    · rw [if_neg hreasoning]
      have hblank : delta.getReasoningContent = "" := by simpa using hreasoning
      by_cases hcontent : delta.getContentString ≠ ""
      · rw [if_pos hcontent]
        refine (appendProse_prose host .text voice _ s).trans ?_
        cases voice <;> simp [Said.kept, saidChoice, htools, hblank, Said.prose]
      · rw [if_neg hcontent]
        have hempty : delta.getContentString = "" := by simpa using hcontent
        cases voice <;> simp [Said.kept, saidChoice, htools, hblank, hempty, Said.prose, Sender.none, concat]

/-! ## The end -/

/-- Events that end the message of `o'`, with these texts. -/
def Ends (o o' : Outline) (texts : Voice → String) (events : List (Event V)) : Prop :=
  ∃ body usage reason, events = body ++ [.messageDelta usage reason, .messageStop] ∧
    Leads (viewOf o.entries) (body.map mark) (viewOf o'.close.entries) ∧
    ∀ voice, concat (prose voice) body = texts voice

theorem Tells.stay {o o' : Outline} {s s₁ : ClaudeConvertInfo U} {m m' : Sends U V} (h : Tells o o' s (m s₁))
    (hstay : m' (m s₁).1 = ((m s₁).1, [])) : Tells o o' s (m.andThen m' s₁) ∧ (m.andThen m' s₁).2 = (m s₁).2 := by
  have hsame : m.andThen m' s₁ = m s₁ := by
    unfold Sender.andThen
    simp [hstay]
  rw [hsame]
  exact ⟨h, rfl⟩

theorem Tells.ends {o o' o'' : Outline} {r : ClaudeConvertInfo U × List (Event V)} {texts : Voice → String}
    (h : Tells o o' s r) (hends : Ends o' o'' texts events) :
    Ends o o'' (fun voice => concat (prose voice) r.2 ++ texts voice) (r.2 ++ events) := by
  obtain ⟨body, usage, reason, rfl, hflow, htexts⟩ := hends
  refine ⟨r.2 ++ body, usage, reason, (List.append_assoc ..).symm, ?_, fun voice => ?_⟩
  · rw [List.map_append]
    exact h.flow.append hflow
  · rw [concat_append, htexts]

theorem endMessage_ends (h : Represents o s) (hsettled : o.Settled) (usage : Option V) (reason : String) :
    Ends o o (fun _ => "") (endMessage host usage reason s).2 :=
  ⟨_, usage, reason, rfl, appendStopOpenBlocks_leads host h hsettled, (appendStopOpenBlocks_quiet host s).concat⟩

/-! ## Chunks -/

/-- The chunk is the last one of the message: `known` says whether a usage was there before it. -/
def endsMessage (known : Bool) (chunk : ChatChunk U) : Bool :=
  (match chunk.choices with
    | [] => true
    | choice :: _ => (finishReason? choice).isSome) && (known || chunk.usage.isSome)

/-- The chunks up to the last one of the message. -/
def heardFrom (known : Bool) : List (ChatChunk U) → List (ChatChunk U)
  | [] => []
  | chunk :: chunks => chunk :: if endsMessage known chunk then [] else heardFrom known chunks

theorem visibleUsage_isSome (incoming : Option U) (s : ClaudeConvertInfo U) :
    (clientVisibleClaudeStreamUsage host incoming s).2.isSome = (s.usage.isSome || incoming.isSome) := by
  unfold clientVisibleClaudeStreamUsage
  cases s.usage <;> cases incoming <;> rfl

theorem visibleUsage_fst (incoming : Option U) (s : ClaudeConvertInfo U) :
    ∃ usage, (clientVisibleClaudeStreamUsage host incoming s).1 = { s with usage := usage } ∧
      (incoming = none → usage = s.usage) := by
  unfold clientVisibleClaudeStreamUsage
  cases incoming with
  | none => exact ⟨s.usage, rfl, fun _ => rfl⟩
  | some incoming => exact ⟨_, rfl, nofun⟩

theorem endWithUsage_cases (h : Represents o s) (hsettled : o.Settled) (incoming : Option U)
    (reason : ClaudeConvertInfo U → String) :
    ((s.usage.isSome || incoming.isSome) = true ∧ (endWithUsage (V := V) host incoming reason s).1.done = true ∧
        Ends o o (fun _ => "") (endWithUsage (V := V) host incoming reason s).2) ∨
      ((s.usage.isSome || incoming.isSome) = false ∧ endWithUsage (V := V) host incoming reason s = (s, [])) := by
  rw [← visibleUsage_isSome host incoming s]
  obtain ⟨usage, hfst, husage⟩ := visibleUsage_fst host incoming s
  unfold endWithUsage
  dsimp only
  cases hvisible : (clientVisibleClaudeStreamUsage host incoming s).2 with
  | some visible =>
    refine .inl ⟨rfl, rfl, ?_⟩
    refine endMessage_ends host ?_ hsettled _ _
    rw [hfst]
    exact h
  | none =>
    have hnone : incoming = none := by
      have hsome := visibleUsage_isSome host incoming s
      rw [hvisible] at hsome
      have := (Bool.or_eq_false_iff.mp hsome.symm).2
      simpa using this
    refine .inr ⟨rfl, ?_⟩
    rw [hfst, husage hnone]

/-- **A chunk** ends the message, or adds to it what is taken of it. -/
theorem convertChoices_cases (h : Represents o s) (hsettled : o.Settled) (hdone : s.done = false)
    (chunk : ChatChunk U) :
    (endsMessage s.usage.isSome chunk = true ∧ (convertChoices (V := V) host chunk s).1.done = true ∧
        Ends o (o.hear (said host chunk).kept) (fun voice => (said host chunk).kept.prose voice)
          (convertChoices (V := V) host chunk s).2) ∨ (endsMessage s.usage.isSome chunk = false ∧
        Tells o (o.hear (said host chunk).kept) s (convertChoices (V := V) host chunk s) ∧
        ∀ voice, concat (prose voice) (convertChoices (V := V) host chunk s).2 = (said host chunk).kept.prose voice) := by
  unfold convertChoices endsMessage said
  cases hchoices : chunk.choices with
  | nil =>
    have hnothing : o.hear (Said.kept {}) = o := rfl
    dsimp only
    rw [Bool.true_and, hnothing]
    rcases endWithUsage_cases (V := V) host h hsettled chunk.usage (stopReasonOrEndTurn host) with
      ⟨hknown, hdone', hends⟩ | ⟨hknown, hsame⟩
    · refine .inl ⟨hknown, hdone', ?_⟩
      have htexts : (fun voice => (Said.kept {}).prose voice) = fun _ => "" := by
        funext voice
        cases voice <;> rfl
      rw [htexts]
      exact hends
    · refine .inr ⟨hknown, ?_, ?_⟩
      · rw [hsame]
        exact .refl h
      · intro voice
        rw [hsame]
        cases voice <;> rfl
  | cons choice choices =>
    have hsame : Tells (V := V) o o s (noteFinishReason choice s, []) := by
      unfold noteFinishReason
      cases finishReason? choice <;> exact ⟨h, .refl _, rfl⟩
    have hdelta := hsame.trans (convertDelta_tells (V := V) host hsame.represents hsettled choice.delta)
    have hprose (voice : Voice) := convertDelta_prose (V := V) host choice.delta voice (noteFinishReason choice s)
    have hsettled' := settled_hear hsettled (saidChoice host choice.delta).kept
    have hkept := hdelta.kept
    dsimp only
    generalize convertDelta (V := V) host choice.delta = m at hdelta hprose hkept ⊢
    generalize noteFinishReason choice s = s₁ at hdelta hprose hkept ⊢
    have hdone' : (m s₁).1.done = false := (congrArg Prod.fst hkept).trans hdone
    have husage : (m s₁).1.usage = s.usage := congrArg (·.2.1) hkept
    rw [← husage]
    cases hfinish : (finishReason? choice).isSome with
    | false =>
      have hstay : finishChoice (V := V) host chunk choice (m s₁).1 = ((m s₁).1, []) := by
        unfold finishChoice
        rw [hfinish, hdone']
        rfl
      obtain ⟨htells, hevents⟩ := hdelta.stay hstay
      refine .inr ⟨rfl, htells, fun voice => ?_⟩
      rw [hevents]
      exact hprose voice
    | true =>
      have hend : finishChoice (V := V) host chunk choice (m s₁).1 = endWithUsage host chunk.usage
          (fun s => stopReasonOpenAI2Claude host s.finishReason) (m s₁).1 := by
        unfold finishChoice
        rw [hfinish]
        rfl
      rw [Bool.true_and]
      rcases endWithUsage_cases (V := V) host hdelta.represents hsettled' chunk.usage
        (fun s => stopReasonOpenAI2Claude host s.finishReason) with ⟨hknown, hdone'', hends⟩ | ⟨hknown, hstay⟩
      · refine .inl ⟨hknown, ?_, ?_⟩
        · rw [Sender.andThen_fst, hend]
          exact hdone''
        · rw [Sender.andThen_snd, hend]
          have hall := hdelta.ends hends
          simp only [hprose, String.append_empty] at hall
          exact hall
      · obtain ⟨htells, hevents⟩ := hdelta.stay (hend.trans hstay)
        refine .inr ⟨hknown, htells, fun voice => ?_⟩
        rw [hevents]
        exact hprose voice

/-! ## Runs -/

/-- The rest of a stream: the chunks that come, and the end. -/
def rest (chunks : List (ChatChunk U)) : Sends U V :=
  (Sender.each (convertChunk host) chunks).andThen (finalizeStreamResponseOpenAI2Claude host)

/-- What the converter takes of the chunks. -/
def taken (chunks : List (ChatChunk U)) : List Said := chunks.map fun chunk => (said host chunk).kept

theorem rest_done (hdone : s.done = true) (chunks : List (ChatChunk U)) : (rest (V := V) host chunks s).2 = [] := by
  induction chunks generalizing s with
  | nil => simp [rest, Sender.each, Sender.none, Sender.andThen, finalizeStreamResponseOpenAI2Claude, hdone]
  | cons chunk chunks ih =>
    have hstay : convertChunk (V := V) host chunk s =
        ({ s with sendResponseCount := s.sendResponseCount + 1 }, []) := if_pos hdone
    have htail := ih (s := { s with sendResponseCount := s.sendResponseCount + 1 }) hdone
    simpa [rest, Sender.each, Sender.andThen, hstay] using htail

theorem rest_cons (chunk : ChatChunk U) (chunks : List (ChatChunk U)) (s : ClaudeConvertInfo U) :
    (rest (V := V) host (chunk :: chunks) s).2 =
      (convertChunk (V := V) host chunk s).2 ++ (rest (V := V) host chunks (convertChunk (V := V) host chunk s).1).2 :=
  List.append_assoc ..

/-- After the first chunk. -/
structure Going (o : Outline) (s : ClaudeConvertInfo U) : Prop where
  represents : Represents o s
  settled : o.Settled
  done : s.done = false

theorem chunk_rest_ends (h : Going o s) (chunk : ChatChunk U) (chunks : List (ChatChunk U))
    (hrest : ∀ o s', Going o s' → s'.usage = s.usage → s'.sendResponseCount = s.sendResponseCount →
      Ends o ((taken host (heardFrom s.usage.isSome chunks)).foldl Outline.hear o) (fun voice =>
        concat (Said.prose voice) (taken host (heardFrom s.usage.isSome chunks))) (rest (V := V) host chunks s').2) :
    Ends o ((taken host (heardFrom s.usage.isSome (chunk :: chunks))).foldl Outline.hear o)
      (fun voice => concat (Said.prose voice) (taken host (heardFrom s.usage.isSome (chunk :: chunks))))
      ((convertChoices (V := V) host chunk s).2 ++
        (rest (V := V) host chunks (convertChoices (V := V) host chunk s).1).2) := by
  unfold heardFrom
  rcases convertChoices_cases (V := V) host h.represents h.settled h.done chunk with
    ⟨hlast, hdone, hends⟩ | ⟨hmore, htells, hprose⟩
  · rw [if_pos hlast, rest_done host hdone, List.append_nil]
    simpa [taken, concat] using hends
  · rw [if_neg (by simp [hmore])]
    have hkept := htells.kept
    have hgoing : Going (o.hear (said host chunk).kept) (convertChoices (V := V) host chunk s).1 :=
      ⟨htells.represents, settled_hear h.settled _, (congrArg Prod.fst hkept).trans h.done⟩
    have hall := htells.ends (hrest _ _ hgoing (congrArg (·.2.1) hkept) (congrArg (·.2.2) hkept))
    simp only [hprose] at hall
    exact hall

/-- **The rest of a stream.** -/
theorem rest_ends (h : Going o s) (hcount : s.sendResponseCount ≠ 0) (chunks : List (ChatChunk U)) :
    Ends o ((taken host (heardFrom s.usage.isSome chunks)).foldl Outline.hear o)
      (fun voice => concat (Said.prose voice) (taken host (heardFrom s.usage.isSome chunks)))
      (rest (V := V) host chunks s).2 := by
  induction chunks generalizing o s with
  | nil =>
    have hend : (rest (V := V) host [] s).2 = (finalizeStreamResponseOpenAI2Claude (V := V) host s).2 := rfl
    rw [hend]
    unfold finalizeStreamResponseOpenAI2Claude
    rw [if_neg (by simp [h.done])]
    exact endMessage_ends host h.represents h.settled _ _
  | cons chunk chunks ih =>
    let s₁ : ClaudeConvertInfo U := { s with sendResponseCount := s.sendResponseCount + 1 }
    have hgoing : Going o s₁ := ⟨h.represents, h.settled, h.done⟩
    -- only the first chunk has the first event
    have hchunk : convertChunk (V := V) host chunk s = convertChoices host chunk s₁ := by
      have hcount' : s₁.sendResponseCount ≠ 1 := by
        show s.sendResponseCount + 1 ≠ 1
        omega
      have hstart : messageStart (V := V) host chunk s₁ = (s₁, []) := if_neg hcount'
      unfold convertChunk streamResponseOpenAI2Claude
      rw [if_neg (by simp [h.done])]
      simp [Sender.andThen, s₁, hstart]
    have hall := chunk_rest_ends (V := V) host hgoing chunk chunks fun o' s' hgoing' husage hcount' => by
      have hne : s'.sendResponseCount ≠ 0 := by
        rw [hcount']
        exact Nat.succ_ne_zero _
      have := ih hgoing' hne
      rw [husage] at this
      exact this
    rw [rest_cons, hchunk]
    exact hall

/-- A usage came with the first chunk. -/
def knownUsage (chunks : List (ChatChunk U)) : Bool :=
  (chunks.head?.bind (·.usage)).any host.hasOpenAIUsageTokens

/-- What the chunks say up to the last one of the message. -/
def heard (chunks : List (ChatChunk U)) : List Said := (heardFrom (knownUsage host chunks) chunks).map (said host)

/-- The first event, and the usage that is known from then on. -/
theorem messageStart_first (hcount : s.sendResponseCount = 1) (husage : s.usage = none) (chunk : ChatChunk U) :
    ∃ usage visible, messageStart (V := V) host chunk s =
        ({ s with usage := usage }, [.messageStart chunk.id chunk.model visible]) ∧
      usage.isSome = chunk.usage.any host.hasOpenAIUsageTokens := by
  unfold messageStart
  rw [if_pos hcount]
  cases hchunk : chunk.usage with
  | none => exact ⟨s.usage, _, rfl, by simp [husage]⟩
  | some usage =>
    dsimp only
    by_cases htokens : host.hasOpenAIUsageTokens usage = true
    · rw [if_pos htokens]
      exact ⟨_, _, rfl, by simp [htokens]⟩
    · rw [if_neg htokens]
      exact ⟨s.usage, _, rfl, by simp [husage, htokens]⟩

/-- **A stream with chunks.** -/
theorem stream_cons (chunk : ChatChunk U) (chunks : List (ChatChunk U)) :
    ∃ id model usage events, stream host (chunk :: chunks) = Event.messageStart id model usage :: events ∧
      Ends {} (outline ((heard host (chunk :: chunks)).map Said.kept))
        (fun voice => concat (Said.prose voice) ((heard host (chunk :: chunks)).map Said.kept)) events := by
  let s₀ : ClaudeConvertInfo U := { sendResponseCount := 1 }
  obtain ⟨usage, visible, hstart, hknown⟩ := messageStart_first (V := V) host (s := s₀) rfl rfl chunk
  let s₁ : ClaudeConvertInfo U := { s₀ with usage := usage }
  have hchunk : convertChunk (V := V) host chunk {} = ((convertChoices (V := V) host chunk s₁).1,
      [.messageStart chunk.id chunk.model visible] ++ (convertChoices (V := V) host chunk s₁).2) := by
    unfold convertChunk streamResponseOpenAI2Claude
    rw [if_neg (by simp)]
    show (messageStart (V := V) host chunk).andThen _ s₀ = _
    unfold Sender.andThen
    rw [hstart]
  have hgoing : Going {} s₁ := ⟨⟨rfl, rfl⟩, nofun, rfl⟩
  have hends := chunk_rest_ends (V := V) host hgoing chunk chunks fun o s' hgoing' husage hcount => by
    have hne : s'.sendResponseCount ≠ 0 := by
      rw [hcount]
      exact Nat.one_ne_zero
    have := rest_ends (V := V) host hgoing' hne chunks
    rw [husage] at this
    exact this
  have hheard : taken host (heardFrom s₁.usage.isSome (chunk :: chunks)) =
      (heard host (chunk :: chunks)).map Said.kept := by
    have hsame : s₁.usage.isSome = knownUsage host (chunk :: chunks) := hknown
    simp [taken, heard, hsame, Function.comp_def]
  rw [hheard] at hends
  refine ⟨chunk.id, chunk.model, visible, _, ?_, hends⟩
  show (rest (V := V) host (chunk :: chunks) {}).2 = _
  rw [rest_cons, hchunk]
  rfl

/-! ## The protocol -/

/-- The events of a message: its blocks, each opened once, worked on and closed, between the first event and the last
two. -/
def Bracketed (events : List (Event V)) : Prop :=
  ∃ id model usage body usage' reason,
    events = .messageStart id model usage :: body ++ [.messageDelta usage' reason, .messageStop] ∧
      (∀ e ∈ body, (mark e).index?.isSome = true) ∧
      ∀ i, eventsOf i (body.map mark) = [] ∨
        ∃ kind text, BlockEvents ⟨i, kind, text, true⟩ (eventsOf i (body.map mark))

/-- The events have all the text and the thinking of the chunks, and each part of the message has its own. -/
structure Lossless (heard : List Said) (events : List (Event V)) : Prop where
  prose : ∀ voice, concat (prose voice) events = concat (Said.prose voice) heard
  parts : ∀ i part, (outline heard).parts[i]? = some part → textOf i (events.map mark) = part.body

/-- Only one of text, thinking and calls. -/
def Said.OneField (x : Said) : Prop :=
  (x.toolCalls ≠ [] → x.reasoning = "" ∧ x.content = "") ∧ (x.reasoning ≠ "" → x.content = "")

/-- Calls with arguments have a name when they are over. -/
def Named (heard : List Said) : Prop :=
  ∀ call, .call call ∈ (outline heard).parts → call.name = "" → call.arguments = ""

theorem kept_eq_self {x : Said} (h : x.OneField) : x.kept = x := by
  obtain ⟨reasoning, content, toolCalls, cites⟩ := x
  obtain ⟨htools, hreasoning⟩ := h
  unfold Said.kept
  split_ifs with ht hr
  · obtain ⟨rfl, rfl⟩ := htools ht
    rfl
  · obtain rfl := hreasoning hr
    rfl
  · rfl

theorem map_kept {heard : List Said} (h : ∀ x ∈ heard, x.OneField) : heard.map Said.kept = heard := by
  induction heard with
  | nil => rfl
  | cons x heard ih =>
    rw [List.map_cons, kept_eq_self (h x List.mem_cons_self), ih fun y hy => h y (List.mem_cons_of_mem _ hy)]

theorem oneField_of_kept {x : Said} (h : ∀ voice, x.kept.prose voice = x.prose voice) : x.OneField := by
  have htext := h .text
  have hthinking := h .thinking
  unfold Said.kept at htext hthinking
  constructor
  · intro ht
    rw [if_pos ht] at htext hthinking
    exact ⟨hthinking.symm, htext.symm⟩
  · intro hr
    by_cases ht : x.toolCalls ≠ []
    · rw [if_pos ht] at hthinking
      exact absurd hthinking.symm hr
    · rw [if_neg ht, if_pos hr] at htext
      exact htext.symm

theorem kept_of_concat (voice : Voice) {heard : List Said}
    (h : concat (Said.prose voice) (heard.map Said.kept) = concat (Said.prose voice) heard) :
    ∀ x ∈ heard, x.kept.prose voice = x.prose voice := by
  have hle (x : Said) : x.kept.prose voice = "" ∨ x.kept.prose voice = x.prose voice := by
    unfold Said.kept
    split_ifs
    · cases voice <;> exact .inl rfl
    · cases voice
      · exact .inl rfl
      · exact .inr rfl
    · exact .inr rfl
  have hlength (heard : List Said) : (concat (Said.prose voice) (heard.map Said.kept)).length ≤
      (concat (Said.prose voice) heard).length := by
    induction heard with
    | nil => exact le_rfl
    | cons x heard ih =>
      simp only [List.map_cons, concat, String.length_append]
      have hx : (x.kept.prose voice).length ≤ (x.prose voice).length := by
        rcases hle x with hx | hx <;> simp [hx]
      omega
  induction heard with
  | nil => exact nofun
  | cons x heard ih =>
    simp only [List.map_cons, concat] at h
    have hx : x.kept.prose voice = x.prose voice := by
      rcases hle x with hx | hx
      · -- what is dropped is missing in the length
        have hlen := congrArg String.length h
        simp only [String.length_append, hx, String.length_empty] at hlen
        have := hlength heard
        have hzero : (x.prose voice).length = 0 := by omega
        rw [hx, String.length_eq_zero_iff.mp hzero]
      · exact hx
    rw [hx] at h
    have hrest := (String.append_right_inj _).mp h
    intro y hy
    rcases List.mem_cons.mp hy with rfl | hy
    · exact hx
    · exact ih hrest y hy

theorem view_close (o : Outline) (i : ℕ) : viewOf o.close.entries i = o.parts[i]?.bind (Part.block .done i) := by
  simp [viewOf, Outline.close, Outline.entries, Current.parts, Option.bind_map]

section Message

variable {o : Outline} {texts : Voice → String} {events : List (Event V)} (id model : String) (usage : V)

theorem Ends.bracketed (h : Ends {} o texts events) : Bracketed (.messageStart id model usage :: events) := by
  obtain ⟨body, usage', reason, rfl, hflow, -⟩ := h
  obtain ⟨log, hshaped, hshows⟩ := Leads.shaped hflow
  refine ⟨id, model, usage, body, usage', reason, rfl, ?_, fun i => ?_⟩
  · intro e he
    obtain ⟨rest, hrest, hstart⟩ := hshaped.start (by rw [hshows.phase]; nofun)
    obtain rfl := (List.cons.inj hrest).2
    have hstop := hshaped.within (by rw [hshows.phase]; nofun)
    have hmem := List.mem_map_of_mem (f := mark) he
    cases e with
    | messageStart id model usage => exact absurd hmem hstart
    | messageDelta usage reason => exact absurd (List.mem_cons_of_mem _ hmem) hstop
    | messageStop => exact absurd (List.mem_cons_of_mem _ hmem) hstop
    | contentBlockDelta index delta => cases delta <;> rfl
    | _ => rfl
  · have hevents : eventsOf i (body.map mark) = eventsOf i (Mark.start :: body.map mark) := rfl
    rw [hevents]
    cases hview : viewOf o.close.entries i with
    | none =>
      left
      apply hshaped.others
      rw [List.mem_map]
      rintro ⟨b, hb, rfl⟩
      have := (hshows.blocks b.index b).mpr ⟨hb, rfl⟩
      rw [hview] at this
      cases this
    | some b =>
      right
      obtain ⟨hb, hbi⟩ := (hshows.blocks i b).mp hview
      rw [view_close] at hview
      obtain ⟨part, -, hblock⟩ := Option.bind_eq_some_iff.mp hview
      obtain ⟨-, -, hclosed⟩ := Part.block_index hblock
      have hblocks := hshaped.events b hb
      have hover : b.closed = true := by simpa using hclosed
      have hb' : b = ⟨i, b.label, b.text, true⟩ := by rw [← hbi, ← hover]
      rw [hbi, hb'] at hblocks
      exact ⟨_, _, hblocks⟩

theorem Ends.prose (h : Ends {} o texts events) (voice : Voice) :
    concat (prose voice) (.messageStart id model usage :: events) = texts voice := by
  obtain ⟨body, usage', reason, rfl, -, htexts⟩ := h
  rw [← htexts voice]
  simp [concat, concat_append, ChatToClaude.prose]

theorem Ends.textOf (h : Ends {} o texts events) (i : ℕ) :
    textOf i ((.messageStart id model usage :: events).map mark) =
      ((o.parts[i]?.bind (Part.block .done i)).map Block.text).getD "" := by
  obtain ⟨body, usage', reason, rfl, hflow, -⟩ := h
  obtain ⟨log, hshaped, hshows⟩ := Leads.shaped hflow
  rw [← view_close]
  have hbody : Blocks.textOf i ((.messageStart id model usage :: (body ++ [.messageDelta usage' reason, .messageStop])).map
      (mark (V := V))) = Blocks.textOf i (Mark.start :: body.map mark) := by
    simp [Blocks.textOf, textOf_append, mark]
  rw [hbody]
  cases hview : viewOf o.close.entries i with
  | none =>
    apply textOf_of_no_events
    apply hshaped.others
    rw [List.mem_map]
    rintro ⟨b, hb, rfl⟩
    have := (hshows.blocks b.index b).mpr ⟨hb, rfl⟩
    rw [hview] at this
    cases this
  | some b =>
    obtain ⟨hb, rfl⟩ := (hshows.blocks i b).mp hview
    exact hshaped.text b hb

end Message

theorem stream_nil : ∃ usage reason, stream (V := V) host [] = [.messageDelta usage reason, .messageStop] :=
  ⟨none, stopReasonOrEndTurn host {}, rfl⟩

theorem block_over_text (i : ℕ) (part : Part) : ((part.block .done i).map Block.text).getD "" =
      match part with
      | .prose _ t => t
      | .call c => if c.name = "" then "" else c.arguments := by
  cases part with
  | prose voice t => rfl
  | call c => by_cases hname : c.name = "" <;> simp [Part.block, hname]

/-- A host without usage tokens. -/
def plainHost : Host Unit Unit where
  usageFromOpenAI := id
  mergeUsageNonZero _ usage := usage
  mergeClaudeUsageNonZero _ usage := usage
  hasOpenAIUsageTokens _ := false
  estimatedUsage := ()
  uuid n := toString n
  lower := id
  formatFloat _ := ""
  formatFloatPlain _ := ""

/-- Text and a whole call in one chunk, which is also the last one. -/
def mixedChunk : ChatChunk Unit where
  id := "chatcmpl"
  model := "m"
  created := 1
  choices := [⟨{ content := some "a", toolCalls := [⟨some 0, "c", ⟨"f", "{}"⟩⟩] }, some "tool_calls"⟩]
  usage := some ()

end Vancine.Streams.ChatToClaude
