import Vancine.Streams.GeminiContent

/-!
# Chunks of a Gemini stream

What a chunk of a stream says of its candidates: the thoughts and the texts of each choice, its calls, and its finish
reason.
-/

namespace Vancine.Streams.Gemini

open Lib

variable {U : Type} (host : Host)

/-! ## One candidate -/

/-- What a part writes into the content of a chunk. -/
def Part.written (p : Part) : List Char := letters (p.thought?.getD "") ++ letters (p.shown?.getD "")

def Candidate.written (c : Candidate) : List Char := c.parts.flatMap Part.written

/-- The call without its place in the chunk. -/
def unplaced (toolCall : ToolCallResponse) : ToolCallResponse := { toolCall with index := none }

theorem foldl_streamPart (w : ChunkChoice) (parts : List Part) :
    let w' := (parts.map Part.chat).foldl (streamPart host) w
    letters w'.content.text = letters w.content.text ++ parts.flatMap Part.written ∧
      w'.isThought = (w.isThought || !(parts.filterMap (·.thought?)).isEmpty) ∧
      w'.isTools = (w.isTools || !(parts.filterMap (·.call?)).isEmpty) ∧
      w'.toolCalls.map unplaced = w.toolCalls.map unplaced ++ (sentCalls host w.uuids (parts.filterMap (·.call?))).1 ∧
      w'.uuids = (sentCalls host w.uuids (parts.filterMap (·.call?))).2 := by
  induction parts generalizing w with
  | nil => simp [sentCalls]
  | cons part parts ih =>
    obtain ⟨hcontent, hthought, htools, hcalls, huuids⟩ := ih (streamPart host w part.chat)
    simp only [List.map_cons, List.foldl_cons, hcontent, hthought, htools, hcalls, huuids]
    cases part with
    | thought t => simp [streamPart, Part.chat, Part.thought?, Part.shown?, Part.call?, Part.written]
    | text t =>
      by_cases ht : t = "\n"
      · simp [streamPart, Part.chat, Part.thought?, Part.shown?, Part.call?, Part.written, ht]
      · simp [streamPart, Part.chat, Part.thought?, Part.shown?, Part.call?, Part.written, ht]
    | call id name arguments =>
      have hindex : ∀ n call, unplaced (geminiResponseToolCall host n call).1 = (geminiResponseToolCall host n call).1 := by
        intro n call
        unfold geminiResponseToolCall
        by_cases h : trimSpace call.id = ""
        · simp [unplaced, h]
        · simp [unplaced, h]
      have hplace : ∀ (t : ToolCallResponse) (i : Option ℤ), unplaced { t with index := i } = unplaced t := fun _ _ => rfl
      simp [streamPart, Part.chat, Part.thought?, Part.shown?, Part.call?, Part.written, sentCalls, hplace, hindex]
    | image kind data => simp [streamPart, Part.chat, Part.thought?, Part.shown?, Part.call?, Part.written]

theorem streamCandidate_chat (n : ℕ) (c : Candidate) :
    letters (streamCandidate host n c.chat).content.text = c.written ∧
      (streamCandidate host n c.chat).isThought = !c.thoughts.isEmpty ∧
      (streamCandidate host n c.chat).isTools = !c.calls.isEmpty ∧
      (streamCandidate host n c.chat).toolCalls.map unplaced = (sentCalls host n c.calls).1 ∧
      (streamCandidate host n c.chat).uuids = (sentCalls host n c.calls).2 :=
  foldl_streamPart host { uuids := n } c.parts

theorem flatMap_filterMap_letters (f : Part → Option String) (parts : List Part) :
    (parts.filterMap f).flatMap letters = parts.flatMap fun p => letters ((f p).getD "") := by
  induction parts with
  | nil => rfl
  | cons part parts ih =>
    cases h : f part with
    | none => simp [h, ih]
    | some t => simp [h, ih]

theorem written_of_blank {c : Candidate} (h : Blank c.shown) : c.written = c.thoughts.flatMap letters := by
  unfold Candidate.written Candidate.thoughts
  rw [flatMap_filterMap_letters]
  refine List.flatMap_congr fun p hp => ?_
  have hshown : letters (p.shown?.getD "") = [] := by
    cases ht : p.shown? with
    | none => rfl
    | some t => exact h t (List.mem_filterMap.mpr ⟨p, hp, ht⟩)
  rw [Part.written, hshown, List.append_nil]

theorem written_of_no_thoughts {c : Candidate} (h : c.thoughts = []) : c.written = c.shown.flatMap letters := by
  unfold Candidate.written Candidate.shown
  rw [flatMap_filterMap_letters]
  refine List.flatMap_congr fun p hp => ?_
  rw [Part.written, List.filterMap_eq_nil_iff.mp h p hp]
  rfl

/-! ## The choices of a chunk -/

def choicesOf (k : ℤ) (choices : List SentChoice) : List SentChoice := choices.filter (·.index = k)

def deltasOf (k : ℤ) (choices : List SentChoice) : List ChoiceDelta := (choicesOf k choices).map (·.delta.toChoiceDelta)

def finishesOf (k : ℤ) (choices : List SentChoice) : List (Option String) := (choicesOf k choices).map (·.finishReason)

/-- What of a choice its numbering and its finish reason leave as it is. -/
def voice (choice : SentChoice) : ℤ × String × String :=
  (choice.index, choice.delta.getContentString, choice.delta.getReasoningContent)

theorem readText_deltasOf (k : ℤ) (choices : List SentChoice) :
    readText (deltasOf k choices) = String.join (((choices.map voice).filter (·.1 = k)).map (·.2.1)) := by
  unfold readText deltasOf choicesOf
  rw [List.filter_map, List.map_map, List.map_map]
  rfl

theorem readReasoning_deltasOf (k : ℤ) (choices : List SentChoice) :
    readReasoning (deltasOf k choices) = String.join (((choices.map voice).filter (·.1 = k)).map (·.2.2)) := by
  unfold readReasoning deltasOf choicesOf
  rw [List.filter_map, List.map_map, List.map_map]
  rfl

variable (s : GeminiToChatStreamState U)

theorem numberChoices_voice (choices : List SentChoice) :
    (s.numberChoices choices).1.map voice = choices.map voice := by
  induction choices generalizing s with
  | nil => rfl
  | cons choice choices ih => exact congrArg (voice choice :: ·) (ih _)

theorem numberChoices_finishes (choices : List SentChoice) :
    (s.numberChoices choices).1.map (fun choice => (choice.index, choice.finishReason)) =
      choices.map (fun choice => (choice.index, choice.finishReason)) := by
  induction choices generalizing s with
  | nil => rfl
  | cons choice choices ih => exact congrArg ((choice.index, choice.finishReason) :: ·) (ih _)

theorem clear_voice (choices : List SentChoice) : (choices.map clearToolCallsFinish).map voice = choices.map voice := by
  rw [List.map_map]
  refine List.map_congr_left fun choice _ => ?_
  show voice (clearToolCallsFinish choice) = voice choice
  unfold clearToolCallsFinish
  split <;> rfl

/-- A candidate as its choice speaks: in its content, or in its reasoning if it has a thought. -/
theorem streamChoices_voice (n : ℕ) (cs : List Candidate) (k : ℤ) :
    let choices := (streamChoices host n (cs.map Candidate.chat)).1
    letters (readText (deltasOf k choices)) =
        (cs.filter (·.index = k)).flatMap (fun c => if c.thoughts = [] then c.written else []) ∧
      letters (readReasoning (deltasOf k choices)) =
        (cs.filter (·.index = k)).flatMap (fun c => if c.thoughts = [] then [] else c.written) := by
  induction cs generalizing n with
  | nil => exact ⟨rfl, rfl⟩
  | cons c cs ih =>
    obtain ⟨hcontent, hthought, -, -, huuids⟩ := streamCandidate_chat host n c
    obtain ⟨htext, hreasoning⟩ := ih (streamCandidate host n c.chat).uuids
    have hdelta : letters ((streamCandidate host n c.chat).choice c.chat).delta.getContentString =
          (if c.thoughts = [] then c.written else []) ∧
        letters ((streamCandidate host n c.chat).choice c.chat).delta.getReasoningContent =
          (if c.thoughts = [] then [] else c.written) := by
      rw [← hcontent]
      show letters (streamCandidate host n c.chat).delta.getContentString = _ ∧
        letters (streamCandidate host n c.chat).delta.getReasoningContent = _
      unfold ChunkChoice.delta
      rw [hthought]
      cases hc : c.thoughts with
      | nil => simp [ChoiceDelta.getContentString, ChoiceDelta.getReasoningContent]
      | cons t ts => simp [ChoiceDelta.getContentString, ChoiceDelta.getReasoningContent]
    have hcons : (streamChoices host n ((c :: cs).map Candidate.chat)).1 =
        (streamCandidate host n c.chat).choice c.chat ::
          (streamChoices host (streamCandidate host n c.chat).uuids (cs.map Candidate.chat)).1 := rfl
    rw [hcons]
    by_cases hk : c.index = k
    · have hindex : ((streamCandidate host n c.chat).choice c.chat).index = k := hk
      simp only [deltasOf, choicesOf, List.filter_cons, hindex, hk, decide_true, if_true, List.map_cons, readText_cons,
        readReasoning_cons, letters_append, List.flatMap_cons, hdelta]
      exact ⟨congrArg (_ ++ ·) htext, congrArg (_ ++ ·) hreasoning⟩
    · have hindex : ((streamCandidate host n c.chat).choice c.chat).index ≠ k := hk
      simp only [deltasOf, choicesOf, List.filter_cons, hindex, hk, decide_false, Bool.false_eq_true, if_false]
      exact ⟨htext, hreasoning⟩

/-! ## Finish reasons of a chunk -/

/-- The first candidate of a chunk calls a function. -/
def callsFirst (cs : List Candidate) : Bool := cs.head?.any fun c => !c.calls.isEmpty

/-- The finish reasons of the calls in a chunk are left to the last chunk. -/
def quiet (cs : List Candidate) : Bool := callsFirst cs && !hasNonStopFinish (cs.map Candidate.chat)

def Candidate.sentFinish (quiet : Bool) (c : Candidate) : Option String :=
  if c.calls = [] then chunkFinishReason c.chat else if quiet then none else some "tool_calls"

def finishing (cs : List Candidate) : Bool := cs.any fun c => (c.sentFinish (quiet cs)).isSome

def stops (cs : List Candidate) : Bool := cs.any (·.finishReason = some "STOP")

theorem chunkFinishReason_ne (c : GeminiChatCandidate) : chunkFinishReason c ≠ some "tool_calls" := by
  intro h
  obtain ⟨reason, -, hreason⟩ := Option.map_eq_some_iff.mp h
  exact geminiFinishReason_ne_tool_calls reason hreason

theorem streamChoices_finishes (n : ℕ) (cs : List Candidate) :
    (streamChoices host n (cs.map Candidate.chat)).1.map (fun choice => (choice.index, choice.finishReason)) =
      cs.map fun c => (c.index, c.sentFinish false) := by
  induction cs generalizing n with
  | nil => rfl
  | cons c cs ih =>
    obtain ⟨-, -, htools, -, -⟩ := streamCandidate_chat host n c
    have hone : ((streamCandidate host n c.chat).choice c.chat).finishReason = c.sentFinish false := by
      show (if (streamCandidate host n c.chat).isTools then _ else _) = _
      rw [htools]
      cases hc : c.calls with
      | nil => simp [Candidate.sentFinish, hc]
      | cons call calls => simp [Candidate.sentFinish, hc]
    exact congrArg₂ List.cons (congrArg (Prod.mk c.index) hone) (ih _)

variable {choices : List SentChoice}

variable {cs : List Candidate}

theorem clear_finishes
    (h : choices.map (fun choice => (choice.index, choice.finishReason)) = cs.map fun c => (c.index, c.sentFinish false)) :
    (choices.map clearToolCallsFinish).map (fun choice => (choice.index, choice.finishReason)) =
      cs.map fun c => (c.index, c.sentFinish true) := by
  induction cs generalizing choices with
  | nil =>
    obtain rfl : choices = [] := List.map_eq_nil_iff.mp h
    rfl
  | cons c cs ih =>
    obtain ⟨choice, choices, rfl, hone, hrest⟩ := List.map_eq_cons_iff.mp h
    obtain ⟨hindex, hfinish⟩ := Prod.mk.inj hone
    refine congrArg₂ List.cons ?_ (ih hrest)
    unfold clearToolCallsFinish
    rw [hfinish]
    by_cases hc : c.calls = []
    · have hne := chunkFinishReason_ne c.chat
      simp [Candidate.sentFinish, hc, hne, hindex, hfinish]
    · simp [Candidate.sentFinish, hc, hindex]

theorem sentFinish_ne_empty (q : Bool) (c : Candidate) : c.sentFinish q ≠ some "" := by
  intro h
  unfold Candidate.sentFinish at h
  split_ifs at h
  · obtain ⟨reason, -, hreason⟩ := Option.map_eq_some_iff.mp h
    unfold geminiFinishReason at hreason
    split at hreason <;> exact absurd hreason (by decide)
  · exact absurd h (by decide)

theorem finishesOf_eq {q : Bool}
    (h : choices.map (fun choice => (choice.index, choice.finishReason)) = cs.map fun c => (c.index, c.sentFinish q))
    (k : ℤ) : finishesOf k choices = (cs.filter (·.index = k)).map (·.sentFinish q) := by
  have hfilter := congrArg (fun l => (l.filter fun x => decide (x.1 = k)).map Prod.snd) h
  simpa [List.filter_map, Function.comp_def, finishesOf, choicesOf] using hfilter

theorem finishes_eq {q : Bool}
    (h : choices.map (fun choice => (choice.index, choice.finishReason)) = cs.map fun c => (c.index, c.sentFinish q)) :
    finishes choices = cs.any fun c => (c.sentFinish q).isSome := by
  have hany := congrArg (fun l => l.any fun x => x.2.any (· ≠ "")) h
  have hsome : ∀ c : Candidate, ((c.sentFinish q).any (· ≠ "")) = (c.sentFinish q).isSome := by
    intro c
    cases hc : c.sentFinish q with
    | none => rfl
    | some reason =>
      have hne : reason ≠ "" := fun h => sentFinish_ne_empty q c (h ▸ hc)
      simp [hne]
  calc finishes choices = cs.any fun c => (c.sentFinish q).any (· ≠ "") := by
        simpa [List.any_map, Function.comp_def, finishes] using hany
    _ = cs.any fun c => (c.sentFinish q).isSome := congrArg (List.any cs) (funext hsome)

/-! ## The state after a chunk -/

theorem prepareParts_chat (k : ℤ) {tools : PartialTools} (htools : tools.lookup k = none) (parts : List Part) :
    prepareParts host k tools (parts.map Part.chat) = .ok (tools, parts.map Part.chat) := by
  induction parts with
  | nil => rfl
  | cons part parts ih =>
    have hone : ∀ call, part.chat.functionCall = some call → isComplete tools k call = true := by
      intro call hcall
      cases part with
      | call id name arguments =>
        obtain rfl := Option.some.inj hcall
        simp [isComplete, htools]
      | thought t => exact absurd hcall nofun
      | text t => exact absurd hcall nofun
      | image kind data => exact absurd hcall nofun
    rw [List.map_cons]
    unfold prepareParts
    cases hcall : part.chat.functionCall with
    | none => rw [ih]; rfl
    | some call =>
      dsimp only
      rw [if_pos (hone call hcall), ih]
      rfl

theorem preparePartialFunctionCalls_chat (cs : List Candidate) :
    preparePartialFunctionCalls host ∅ (cs.map Candidate.chat) = .ok (∅, cs.map Candidate.chat) := by
  induction cs with
  | nil => rfl
  | cons c cs ih =>
    rw [List.map_cons]
    unfold preparePartialFunctionCalls
    have hparts : prepareParts host c.chat.index ∅ c.chat.parts = _ :=
      prepareParts_chat host c.index (AList.lookup_empty c.index) c.parts
    rw [hparts]
    dsimp only
    rw [ih]
    rfl

theorem isToolCall_streamChoices (n : ℕ) (cs : List Candidate) :
    isToolCall (streamChoices host n (cs.map Candidate.chat)).1 = callsFirst cs := by
  cases cs with
  | nil => rfl
  | cons c cs =>
    obtain ⟨-, -, -, hcalls, -⟩ := streamCandidate_chat host n c
    show (!(streamCandidate host n c.chat).delta.toolCalls.isEmpty) = !c.calls.isEmpty
    have hdelta : (streamCandidate host n c.chat).delta.toolCalls = (streamCandidate host n c.chat).toolCalls := by
      unfold ChunkChoice.delta
      split <;> rfl
    rw [hdelta, ← sentCalls_isEmpty host n c.calls, ← hcalls, List.isEmpty_map]

theorem isToolCall_numberChoices (choices : List SentChoice) :
    isToolCall (s.numberChoices choices).1 = isToolCall choices := by
  cases choices with
  | nil => rfl
  | cons choice choices =>
    show (!(s.numberCalls choice.index choice.delta.toolCalls).1.isEmpty) = !choice.delta.toolCalls.isEmpty
    cases choice.delta.toolCalls with
    | nil => rfl
    | cons t ts => rfl

theorem numberCalls_frame (k : ℤ) (s : GeminiToChatStreamState U) (toolCalls : List ToolCallResponse) :
    ∃ next byID, (s.numberCalls k toolCalls).2 =
      { s with nextToolIndexByCandidate := next, toolIndexByCandidateID := byID } := by
  induction toolCalls generalizing s with
  | nil => exact ⟨_, _, rfl⟩
  | cons t ts ih =>
    obtain ⟨next, byID, h⟩ := ih (s.stableIndex k (trimSpace t.id)).2
    refine ⟨next, byID, ?_⟩
    show ((s.stableIndex k (trimSpace t.id)).2.numberCalls k ts).2 = _
    rw [h]
    unfold GeminiToChatStreamState.stableIndex
    split <;> rfl

theorem numberChoices_frame (choices : List SentChoice) : ∃ next byID, (s.numberChoices choices).2 =
      { s with nextToolIndexByCandidate := next, toolIndexByCandidateID := byID } := by
  induction choices generalizing s with
  | nil => exact ⟨_, _, rfl⟩
  | cons choice choices ih =>
    obtain ⟨next, byID, h⟩ := numberCalls_frame choice.index s choice.delta.toolCalls
    obtain ⟨next', byID', h'⟩ := ih (s.numberCalls choice.index choice.delta.toolCalls).2
    refine ⟨next', byID', ?_⟩
    show ((s.numberCalls choice.index choice.delta.toolCalls).2.numberChoices choices).2 = _
    rw [h', h]

/-- A response of complete candidates. -/
def responseOf (cs : List Candidate) (reported : Option U) : GeminiChatResponse U := ⟨cs.map Candidate.chat, reported⟩

/-- The choices of a chunk with their numbers, and the state after they are numbered. -/
def numberedChoices (s : GeminiToChatStreamState U) (cs : List Candidate) :
    List SentChoice × GeminiToChatStreamState U :=
  let choices := streamChoices host s.uuids (cs.map Candidate.chat)
  ({ s with uuids := choices.2 } : GeminiToChatStreamState U).numberChoices choices.1

/-- The choices of a chunk as they are sent. -/
def chunkChoices (s : GeminiToChatStreamState U) (cs : List Candidate) : List SentChoice :=
  if quiet cs then (numberedChoices host s cs).1.map clearToolCallsFinish else (numberedChoices host s cs).1

/-- The state after a chunk, before the last chunk is sent. -/
def afterChunk (s : GeminiToChatStreamState U) (cs : List Candidate) (usage : Option U) : GeminiToChatStreamState U :=
  { (numberedChoices host s cs).2 with
    sawToolCall := s.sawToolCall || callsFirst cs
    latestUsage := usage <|> s.latestUsage
    finishEmitted := s.finishEmitted || finishing cs }

theorem numberedChoices_finishes (cs : List Candidate) :
    (numberedChoices host s cs).1.map (fun choice => (choice.index, choice.finishReason)) =
      cs.map fun c => (c.index, c.sentFinish false) :=
  (numberChoices_finishes _ _).trans (streamChoices_finishes host s.uuids cs)

theorem chunkChoices_finishes (cs : List Candidate) :
    (chunkChoices host s cs).map (fun choice => (choice.index, choice.finishReason)) =
      cs.map fun c => (c.index, c.sentFinish (quiet cs)) := by
  unfold chunkChoices
  cases quiet cs with
  | true => exact clear_finishes (numberedChoices_finishes host s cs)
  | false => exact numberedChoices_finishes host s cs

theorem chunkChoices_voice (cs : List Candidate) :
    (chunkChoices host s cs).map voice = (streamChoices host s.uuids (cs.map Candidate.chat)).1.map voice := by
  have hnumbered : (numberedChoices host s cs).1.map voice = _ := numberChoices_voice _ _
  unfold chunkChoices
  split
  · rw [clear_voice, hnumbered]
  · exact hnumbered

theorem chunkChoices_texts (cs : List Candidate) (k : ℤ) : letters (readText (deltasOf k (chunkChoices host s cs))) =
        (cs.filter (·.index = k)).flatMap (fun c => if c.thoughts = [] then c.written else []) ∧
      letters (readReasoning (deltasOf k (chunkChoices host s cs))) =
        (cs.filter (·.index = k)).flatMap (fun c => if c.thoughts = [] then [] else c.written) := by
  rw [readText_deltasOf, readReasoning_deltasOf, chunkChoices_voice, ← readText_deltasOf, ← readReasoning_deltasOf]
  exact streamChoices_voice host s.uuids cs k

/-- A chunk of complete candidates. The last chunk comes after the first that stops, unless a chunk has finished. -/
theorem convertChunk_chat (model : String) {s : GeminiToChatStreamState U} (hs : s.partialToolByCandidate = ∅)
    (cs : List Candidate) (reported usage : Option U) : convertChunk host model s (responseOf cs reported) usage = .ok (
        let s' := afterChunk host s cs usage
        let response : SentChunk U := ⟨s.id, model, s.created, chunkChoices host s cs, usage⟩
        if stops cs && !s'.finishEmitted then ({ s' with finishEmitted := true }, [response, terminalChunk model s'])
        else (s', [response])) := by
  have hcall : isToolCall (numberedChoices host s cs).1 = callsFirst cs :=
    (isToolCall_numberChoices _ _).trans (isToolCall_streamChoices host s.uuids cs)
  have hfinish : finishes (chunkChoices host s cs) = finishing cs := finishes_eq (chunkChoices_finishes host s cs)
  have hstop : isStop (cs.map Candidate.chat) = stops cs := List.any_map
  obtain ⟨next, byID, hframe⟩ : ∃ next byID, (numberedChoices host s cs).2 =
      { s with
        uuids := (streamChoices host s.uuids (cs.map Candidate.chat)).2
        nextToolIndexByCandidate := next
        toolIndexByCandidateID := byID } := numberChoices_frame _ _
  have hprepare : preparePartialFunctionCalls host s.partialToolByCandidate (responseOf cs reported).candidates =
      .ok (∅, cs.map Candidate.chat) := by
    rw [hs]
    exact preparePartialFunctionCalls_chat host cs
  have hstate : ({ s with
      partialToolByCandidate := ∅
      uuids := (streamChoices host s.uuids (cs.map Candidate.chat)).2 } : GeminiToChatStreamState U) =
      { s with uuids := (streamChoices host s.uuids (cs.map Candidate.chat)).2 } := by rw [← hs]
  unfold convertChunk
  rw [hprepare]
  dsimp only [streamResponseGeminiChat2OpenAI]
  rw [hstate]
  show Except.ok (sendChoices model usage (cs.map Candidate.chat) (numberedChoices host s cs).1
    (numberedChoices host s cs).2) = _
  have hchoices : (if callsFirst cs && !hasNonStopFinish (cs.map Candidate.chat) then
      (numberedChoices host s cs).1.map clearToolCallsFinish else (numberedChoices host s cs).1) =
      chunkChoices host s cs := rfl
  unfold sendChoices afterChunk
  rw [hcall, hstop]
  dsimp only
  rw [hchoices, hfinish, hframe]

end Vancine.Streams.Gemini
