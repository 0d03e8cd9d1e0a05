import Vancine.Streams.GeminiCalls

/-!
# What reaches the chat client of Gemini

A whole answer and a stream say what the candidates say, under conditions on the candidates. In a stream a candidate is
compared with itself alone: the stream in which the other candidates are left out.
-/

namespace Vancine.Streams.Gemini

open Lib

variable {U : Type} (host : Host)

/-! ## Streams of candidates -/

/-- A response of a stream: its candidates, the usage that it reports, and the usage that is passed with it. -/
structure Arrival (U : Type) where
  candidates : List Candidate
  reported : Option U := none
  usage : Option U := none

def Arrival.chat (a : Arrival U) : GeminiChatResponse U × Option U := (responseOf a.candidates a.reported, a.usage)

/-- The response without the other candidates. -/
def Arrival.only (k : ℤ) (a : Arrival U) : Arrival U := { a with candidates := a.candidates.filter (·.index = k) }

/-- What a stream brings of a candidate. -/
def candidateIn (k : ℤ) (arrivals : List (Arrival U)) : List Candidate :=
  arrivals.flatMap fun a => a.candidates.filter (·.index = k)

def calledInAll (arrivals : List (Arrival U)) : List (ℤ × FunctionCall) := arrivals.flatMap fun a => calledIn a.candidates

/-- The choices that are sent. -/
def choicesIn (outs : List (List (SentChunk U))) : List SentChoice := outs.flatten.flatMap (·.choices)

/-! ## The end of a stream -/

/-- The finish reason in the last chunk, which is one of the first choice. -/
def lastFinish (k : ℤ) (saw : Bool) : List (Option String) :=
  if k = 0 then [some (if saw then "tool_calls" else "stop")] else []

/-- The finish reasons of a choice, for each chunk that is sent for each response and at the end. -/
def finishTrace (k : ℤ) (emitted saw : Bool) : List (List Candidate) → List (List (List (Option String)))
  | [] => [if emitted then [] else [lastFinish k saw]]
  | cs :: rest =>
    let saw := saw || callsFirst cs
    let emitted := emitted || finishing cs
    ((cs.filter (·.index = k)).map (·.sentFinish (quiet cs)) ::
        if stops cs && !emitted then [lastFinish k saw] else []) ::
      finishTrace k (emitted || stops cs) saw rest

/-- Where the last chunk is sent, if it is: after which responses, and whether a first candidate called a function. -/
def lastChunk (saw : Bool) : List (List Candidate) → Option (ℕ × Bool)
  | [] => some (0, saw)
  | cs :: rest =>
    let saw := saw || callsFirst cs
    if finishing cs then none else if stops cs then some (0, saw) else (lastChunk saw rest).map fun r => (r.1 + 1, r.2)

/-- The finish reasons of a choice in a chunk that is sent. -/
def finishAt (k : ℤ) (outs : List (List (SentChunk U))) (i j : ℕ) : List (Option String) :=
  ((((outs.map fun chunks => chunks.map fun chunk => finishesOf k chunk.choices)[i]?).getD [])[j]?).getD []

variable (k : ℤ)

theorem terminalChunk_finishes (model : String) (s : GeminiToChatStreamState U) :
    finishesOf k (terminalChunk model s).choices = lastFinish k s.sawToolCall := by
  unfold lastFinish finishesOf choicesOf terminalChunk
  by_cases hk : k = 0
  · subst hk
    rfl
  · have hne : (0 : ℤ) ≠ k := fun h => hk h.symm
    simp [hk, hne]

theorem terminalChunk_voice (model : String) (s : GeminiToChatStreamState U) :
    readText (deltasOf k (terminalChunk model s).choices) = "" ∧
      readReasoning (deltasOf k (terminalChunk model s).choices) = "" := by
  unfold deltasOf choicesOf terminalChunk
  by_cases hk : (0 : ℤ) = k
  · simp [hk, ChoiceDelta.getContentString, ChoiceDelta.getReasoningContent]
  · simp [hk]

/-! ## Runs -/

/-- A stream of complete candidates: its texts, its calls and its finish reasons. -/
structure Sends (s : GeminiToChatStreamState U) (arrivals : List (Arrival U)) (outs : List (List (SentChunk U))) : Prop where
  text : ∀ k, letters (readText (deltasOf k (choicesIn outs))) =
    (candidateIn k arrivals).flatMap fun c => if c.thoughts = [] then c.written else []
  reasoning : ∀ k, letters (readReasoning (deltasOf k (choicesIn outs))) =
    (candidateIn k arrivals).flatMap fun c => if c.thoughts = [] then [] else c.written
  calls : callsIn (choicesIn outs) = ((numbering s).placeAll (sentTagged host s.uuids (calledInAll arrivals)).1).1
  finishes : ∀ k, (outs.map fun chunks => chunks.map fun chunk => finishesOf k chunk.choices) =
    finishTrace k s.finishEmitted s.sawToolCall (arrivals.map (·.candidates))

theorem deltasOf_append (choices choices' : List SentChoice) :
    deltasOf k (choices ++ choices') = deltasOf k choices ++ deltasOf k choices' := by
  simp [deltasOf, choicesOf]

theorem callsIn_append (choices choices' : List SentChoice) :
    callsIn (choices ++ choices') = callsIn choices ++ callsIn choices' := List.flatMap_append

theorem choicesIn_cons (chunks : List (SentChunk U)) (outs : List (List (SentChunk U))) :
    choicesIn (chunks :: outs) = chunks.flatMap (·.choices) ++ choicesIn outs := by
  simp [choicesIn]

/-- What is sent for one response, and the state after it. -/
structure ChunkSends (s : GeminiToChatStreamState U) (a : Arrival U) (s' : GeminiToChatStreamState U)
    (chunks : List (SentChunk U)) : Prop where
  complete : s'.partialToolByCandidate = ∅
  emitted : s'.finishEmitted = (s.finishEmitted || finishing a.candidates || stops a.candidates)
  saw : s'.sawToolCall = (s.sawToolCall || callsFirst a.candidates)
  numbering : numbering s' = ((numbering s).placeAll (sentTagged host s.uuids (calledIn a.candidates)).1).2
  uuids : s'.uuids = (sentTagged host s.uuids (calledIn a.candidates)).2
  text : ∀ k, readText (deltasOf k (chunks.flatMap (·.choices))) = readText (deltasOf k (chunkChoices host s a.candidates))
  reasoning : ∀ k, readReasoning (deltasOf k (chunks.flatMap (·.choices))) =
    readReasoning (deltasOf k (chunkChoices host s a.candidates))
  calls : callsIn (chunks.flatMap (·.choices)) = callsIn (chunkChoices host s a.candidates)
  finishes : ∀ k, (chunks.map fun chunk => finishesOf k chunk.choices) =
    (a.candidates.filter (·.index = k)).map (·.sentFinish (quiet a.candidates)) ::
      if stops a.candidates && !(s.finishEmitted || finishing a.candidates) then
        [lastFinish k (s.sawToolCall || callsFirst a.candidates)] else []

variable {s : GeminiToChatStreamState U}

theorem convertChunk_sends (model : String) (hs : s.partialToolByCandidate = ∅) (a : Arrival U) :
    ∃ s' chunks, convertChunk host model s a.chat.1 a.chat.2 = .ok (s', chunks) ∧ ChunkSends host s a s' chunks := by
  obtain ⟨-, hnumbering, huuids⟩ := chunkChoices_calls host s a.candidates a.usage
  have hcomplete : (afterChunk host s a.candidates a.usage).partialToolByCandidate = ∅ := by
    obtain ⟨next, byID, hframe⟩ : ∃ next byID, (numberedChoices host s a.candidates).2 =
        { s with
          uuids := (streamChoices host s.uuids (a.candidates.map Candidate.chat)).2
          nextToolIndexByCandidate := next
          toolIndexByCandidateID := byID } := numberChoices_frame _ _
    show (numberedChoices host s a.candidates).2.partialToolByCandidate = ∅
    rw [hframe]
    exact hs
  have hfinishes := finishesOf_eq (chunkChoices_finishes host s a.candidates)
  have hconvert := convertChunk_chat host model hs a.candidates a.reported a.usage
  dsimp only at hconvert
  by_cases hlast : (stops a.candidates && !(s.finishEmitted || finishing a.candidates)) = true
  · have hstops : stops a.candidates = true := (Bool.and_eq_true_iff.mp hlast).1
    have hif : (stops a.candidates && !(afterChunk host s a.candidates a.usage).finishEmitted) = true := hlast
    rw [if_pos hif] at hconvert
    refine ⟨_, _, hconvert, ?_⟩
    constructor
    · exact hcomplete
    · simp [hstops]
    · rfl
    · exact hnumbering
    · exact huuids
    · intro k
      simp [deltasOf_append, (terminalChunk_voice k model (afterChunk host s a.candidates a.usage)).1]
    · intro k
      simp [deltasOf_append, (terminalChunk_voice k model (afterChunk host s a.candidates a.usage)).2]
    · simp [callsIn, terminalChunk]
    · intro k
      rw [if_pos hlast]
      exact congrArg₂ (fun x y => [x, y]) (hfinishes k) (terminalChunk_finishes k model _)
  · have hif : ¬(stops a.candidates && !(afterChunk host s a.candidates a.usage).finishEmitted) = true := hlast
    rw [if_neg hif] at hconvert
    refine ⟨_, _, hconvert, ?_⟩
    constructor
    · exact hcomplete
    · show (s.finishEmitted || finishing a.candidates) = _
      cases hstops : stops a.candidates with
      | false => simp
      | true =>
        rw [hstops, Bool.true_and, Bool.not_eq_true', Bool.not_eq_false] at hlast
        rw [hlast]
        rfl
    · rfl
    · exact hnumbering
    · exact huuids
    · intro k
      simp
    · intro k
      simp
    · simp
    · intro k
      rw [if_neg hlast]
      exact congrArg (fun x => [x]) (hfinishes k)

theorem finalize_sends (model : String) (hs : s.partialToolByCandidate = ∅) :
    ∃ s' chunks, finalize host model s = .ok (s', chunks) ∧ Sends host s [] [chunks] := by
  have hkeys : s.partialToolByCandidate.keys.min? = none := by rw [hs]; rfl
  unfold finalize
  rw [hkeys]
  cases he : s.finishEmitted with
  | true =>
    refine ⟨s, [], rfl, fun k => rfl, fun k => rfl, rfl, fun k => ?_⟩
    show [[]] = [if s.finishEmitted then [] else [lastFinish k s.sawToolCall]]
    rw [he]
    rfl
  | false =>
    refine ⟨_, [terminalChunk model s], rfl, fun k => ?_, fun k => ?_, rfl, fun k => ?_⟩
    · simpa [choicesIn, candidateIn] using congrArg letters (terminalChunk_voice k model s).1
    · simpa [choicesIn, candidateIn] using congrArg letters (terminalChunk_voice k model s).2
    · show [[finishesOf k (terminalChunk model s).choices]] = [if s.finishEmitted then [] else [lastFinish k s.sawToolCall]]
      rw [terminalChunk_finishes, he]
      rfl

/-- A run of complete candidates: each response adds what it says. -/
theorem stream_sends (model : String) (hs : s.partialToolByCandidate = ∅) (arrivals : List (Arrival U)) :
    ∃ outs, stream host model s (arrivals.map Arrival.chat) = .ok outs ∧ Sends host s arrivals outs := by
  induction arrivals generalizing s with
  | nil =>
    obtain ⟨s', chunks, hfinal, hsends⟩ := finalize_sends host model hs
    refine ⟨[chunks], ?_, hsends⟩
    show (finalize host model s).map _ = _
    rw [hfinal]
    rfl
  | cons a arrivals ih =>
    obtain ⟨s', chunks, hchunk, hone⟩ := convertChunk_sends host model hs a
    obtain ⟨outs, houts, hrest⟩ := ih hone.complete
    refine ⟨chunks :: outs, ?_, ?_⟩
    · rw [List.map_cons, stream, hchunk]
      dsimp only
      rw [houts]
      rfl
    · constructor
      · intro k
        rw [choicesIn_cons, deltasOf_append, readText_append, letters_append, hone.text,
          (chunkChoices_texts host s a.candidates k).1, hrest.text]
        exact List.flatMap_append.symm
      · intro k
        rw [choicesIn_cons, deltasOf_append, readReasoning_append, letters_append, hone.reasoning,
          (chunkChoices_texts host s a.candidates k).2, hrest.reasoning]
        exact List.flatMap_append.symm
      · have hall : calledInAll (a :: arrivals) = calledIn a.candidates ++ calledInAll arrivals := rfl
        rw [choicesIn_cons, callsIn_append, hone.calls, (chunkChoices_calls host s a.candidates a.usage).1, hrest.calls,
          hone.numbering, hone.uuids, hall, sentTagged_append, Numbering.placeAll_append]
      · intro k
        rw [List.map_cons, hone.finishes, hrest.finishes, hone.emitted, hone.saw]
        rfl

/-! ## Texts -/

theorem length_flatMap_le {α : Type} {f g : α → List Char} {l : List α} (h : ∀ a ∈ l, (f a).length ≤ (g a).length) :
    (l.flatMap f).length ≤ (l.flatMap g).length := by
  induction l with
  | nil => exact le_rfl
  | cons a l ih =>
    have ha := h a (List.mem_cons_self ..)
    have hl := ih fun a ha => h a (List.mem_cons_of_mem _ ha)
    simp only [List.flatMap_cons, List.length_append]
    omega

theorem length_eq_of_flatMap {α : Type} {f g : α → List Char} {l : List α} (h : ∀ a ∈ l, (f a).length ≤ (g a).length)
    (heq : (l.flatMap f).length = (l.flatMap g).length) : ∀ a ∈ l, (f a).length = (g a).length := by
  induction l with
  | nil => exact fun a ha => absurd ha List.not_mem_nil
  | cons a l ih =>
    have ha := h a (List.mem_cons_self ..)
    have hl := length_flatMap_le fun a ha => h a (List.mem_cons_of_mem _ ha)
    simp only [List.flatMap_cons, List.length_append] at heq
    intro b hb
    rcases List.mem_cons.mp hb with rfl | hb
    · omega
    · exact ih (fun a ha => h a (List.mem_cons_of_mem _ ha)) (by omega) b hb

/-- The texts of a candidate reach their places just when nothing is shown beside a thought. -/
theorem texts_iff (cs : List Candidate) :
    (cs.flatMap (fun c => if c.thoughts = [] then [] else c.written) = (cs.flatMap (·.thoughts)).flatMap letters ∧
      cs.flatMap (fun c => if c.thoughts = [] then c.written else []) = (cs.flatMap (·.shown)).flatMap letters) ↔
      ∀ c ∈ cs, c.thoughts ≠ [] → Blank c.shown := by
  rw [List.flatMap_assoc, List.flatMap_assoc]
  constructor
  · rintro ⟨-, hshown⟩ c hc hthoughts
    have hle : ∀ c ∈ cs, (if c.thoughts = [] then c.written else []).length ≤ (c.shown.flatMap letters).length := by
      intro c _
      by_cases h : c.thoughts = []
      · rw [if_pos h, written_of_no_thoughts h]
      · rw [if_neg h]
        exact Nat.zero_le _
    have hlength := length_eq_of_flatMap hle (congrArg List.length hshown) c hc
    rw [if_neg hthoughts] at hlength
    exact blank_iff.mpr (List.eq_nil_of_length_eq_zero hlength.symm)
  · intro h
    constructor
    · refine List.flatMap_congr fun c hc => ?_
      by_cases hc' : c.thoughts = []
      · rw [if_pos hc', hc']
        rfl
      · rw [if_neg hc', written_of_blank (h c hc hc')]
    · refine List.flatMap_congr fun c hc => ?_
      by_cases hc' : c.thoughts = []
      · rw [if_pos hc', written_of_no_thoughts hc']
      · rw [if_neg hc']
        exact (blank_iff.mp (h c hc hc')).symm

/-! ## Finish reasons -/

/-- The finish reason of calls is cleared in a chunk as it is in the chunk with their candidate alone. -/
def ClearsAlike (cs : List Candidate) : Prop :=
  ∀ c ∈ cs, c.calls ≠ [] → quiet cs = quiet (cs.filter (·.index = c.index))

theorem sentFinish_eq_iff (q q' : Bool) (c : Candidate) : c.sentFinish q = c.sentFinish q' ↔ (c.calls ≠ [] → q = q') := by
  unfold Candidate.sentFinish
  by_cases hc : c.calls = []
  · simp [hc]
  · cases q <;> cases q' <;> simp [hc]

theorem clearsAlike_iff (cs : List Candidate) : (∀ k, (cs.filter (·.index = k)).map (·.sentFinish (quiet cs)) =
        (cs.filter (·.index = k)).map (·.sentFinish (quiet (cs.filter (·.index = k))))) ↔ ClearsAlike cs := by
  constructor
  · intro h c hc
    have hmem : c ∈ cs.filter (·.index = c.index) := List.mem_filter.mpr ⟨hc, by simp⟩
    exact (sentFinish_eq_iff _ _ c).mp (List.map_inj_left.mp (h c.index) c hmem)
  · intro h k
    refine List.map_congr_left fun c hc => ?_
    obtain ⟨hmem, hk⟩ := List.mem_filter.mp hc
    obtain rfl : c.index = k := by simpa using hk
    exact (sentFinish_eq_iff _ _ c).mpr (h c hmem)

/-- The last chunk as it stands in the trace of the first choice. -/
def lastAt (emitted saw : Bool) : List (List Candidate) → ℕ → List (Option String)
  | [], 0 => if emitted then [] else lastFinish 0 saw
  | [], _ + 1 => []
  | cs :: _, 0 =>
    if stops cs && !(emitted || finishing cs) then lastFinish 0 (saw || callsFirst cs) else []
  | cs :: rest, i + 1 => lastAt (emitted || finishing cs || stops cs) (saw || callsFirst cs) rest i

theorem lastAt_emitted (saw : Bool) (chunks : List (List Candidate)) (i : ℕ) : lastAt true saw chunks i = [] := by
  induction chunks generalizing saw i with
  | nil => cases i <;> rfl
  | cons cs rest ih =>
    cases i with
    | zero => simp [lastAt]
    | succ i => exact ih _ i

/-- The last chunk where it is sent. -/
def placedAt (i : ℕ) : Option (ℕ × Bool) → List (Option String)
  | some (n, saw) => if n = i then lastFinish 0 saw else []
  | none => []

theorem lastAt_eq (saw : Bool) (chunks : List (List Candidate)) (i : ℕ) :
    lastAt false saw chunks i = placedAt i (lastChunk saw chunks) := by
  induction chunks generalizing saw i with
  | nil =>
    cases i with
    | zero => rfl
    | succ i => rfl
  | cons cs rest ih =>
    cases hfinish : finishing cs with
    | true =>
      cases i with
      | zero => simp [lastAt, lastChunk, placedAt, hfinish]
      | succ i => simp [lastAt, lastChunk, placedAt, hfinish, lastAt_emitted]
    | false =>
      cases hstop : stops cs with
      | true =>
        cases i with
        | zero => simp [lastAt, lastChunk, placedAt, hfinish, hstop]
        | succ i => simp [lastAt, lastChunk, placedAt, hfinish, hstop, lastAt_emitted]
      | false =>
        cases i with
        | zero =>
          cases h : lastChunk (saw || callsFirst cs) rest with
          | none => simp [lastAt, lastChunk, placedAt, hfinish, hstop, h]
          | some r => simp [lastAt, lastChunk, placedAt, hfinish, hstop, h]
        | succ i =>
          show lastAt (false || finishing cs || stops cs) (saw || callsFirst cs) rest i = _
          rw [hfinish, hstop]
          refine (ih _ i).trans ?_
          cases h : lastChunk (saw || callsFirst cs) rest with
          | none => simp [lastChunk, placedAt, hfinish, hstop, h]
          | some r => simp [lastChunk, placedAt, hfinish, hstop, h]

theorem placedAt_inj {o o' : Option (ℕ × Bool)} (h : ∀ i, placedAt i o = placedAt i o') : o = o' := by
  have hsome : ∀ {o o' : Option (ℕ × Bool)} {r : ℕ × Bool}, (∀ i, placedAt i o = placedAt i o') → o = some r →
      o' = some r := by
    rintro o o' ⟨n, saw⟩ h rfl
    have hn := h n
    cases o' with
    | none => cases saw <;> simp [placedAt, lastFinish] at hn
    | some r' =>
      obtain ⟨n', saw'⟩ := r'
      by_cases hne : n' = n
      · subst hne
        cases saw <;> cases saw' <;> simp [placedAt, lastFinish] at hn ⊢
      · cases saw <;> simp [placedAt, lastFinish, hne] at hn
  cases o with
  | some r => exact (hsome h rfl).symm
  | none =>
    cases o' with
    | none => rfl
    | some r => exact hsome (fun i => (h i).symm) rfl

/-- The finish reasons at a place of the trace. -/
def traceAt (k : ℤ) (emitted saw : Bool) (chunks : List (List Candidate)) (i j : ℕ) : List (Option String) :=
  ((((finishTrace k emitted saw chunks)[i]?).getD [])[j]?).getD []

/-- The chunk without the other candidates. -/
def onlyOf (k : ℤ) (cs : List Candidate) : List Candidate := cs.filter (·.index = k)

theorem onlyOf_onlyOf (cs : List Candidate) : onlyOf k (onlyOf k cs) = onlyOf k cs := by
  simp [onlyOf, List.filter_filter]

theorem lastFinish_ne {k : ℤ} (hk : k ≠ 0) (saw : Bool) : lastFinish k saw = [] := if_neg hk

theorem traceAt_nil (emitted saw : Bool) :
    ∀ i j, traceAt k emitted saw [] i j = if i = 0 ∧ j = 0 then (if emitted then [] else lastFinish k saw) else []
  | 0, 0 => by cases emitted <;> rfl
  | 0, j + 1 => by cases emitted <;> rfl
  | i + 1, j => rfl

theorem traceAt_cons_zero (emitted saw : Bool) (cs : List Candidate) (rest : List (List Candidate)) :
    ∀ j, traceAt k emitted saw (cs :: rest) 0 j =
      match j with
      | 0 => (onlyOf k cs).map (·.sentFinish (quiet cs))
      | 1 => if stops cs && !(emitted || finishing cs) then lastFinish k (saw || callsFirst cs) else []
      | _ => []
  | 0 => rfl
  | 1 => by
    show ((if stops cs && !(emitted || finishing cs) then [lastFinish k (saw || callsFirst cs)] else [])[0]?).getD [] = _
    split <;> rfl
  | j + 2 => by
    show ((if stops cs && !(emitted || finishing cs) then [lastFinish k (saw || callsFirst cs)] else [])[j + 1]?).getD [] = _
    split <;> rfl

/-- Traces are the same if the chunks finish alike, and for the first choice the last chunk is the same too. -/
theorem traceAt_eq_iff (emitted emitted' saw saw' : Bool) (chunks : List (List Candidate)) :
    (∀ i j, traceAt k emitted saw chunks i j = traceAt k emitted' saw' (chunks.map (onlyOf k)) i j) ↔
      (∀ cs ∈ chunks, (onlyOf k cs).map (·.sentFinish (quiet cs)) = (onlyOf k cs).map (·.sentFinish (quiet (onlyOf k cs)))) ∧
        (k = 0 → ∀ i, lastAt emitted saw chunks i = lastAt emitted' saw' (chunks.map (onlyOf k)) i) := by
  induction chunks generalizing emitted emitted' saw saw' with
  | nil =>
    constructor
    · refine fun h => ⟨fun cs hcs => absurd hcs List.not_mem_nil, ?_⟩
      rintro rfl i
      cases i with
      | zero => simpa [traceAt_nil, lastAt] using h 0 0
      | succ i => rfl
    · rintro ⟨-, h⟩ i j
      rw [List.map_nil, traceAt_nil, traceAt_nil]
      by_cases hk : k = 0
      · subst hk
        split
        · exact h rfl 0
        · rfl
      · simp [lastFinish_ne hk]
  | cons cs rest ih =>
    rw [List.map_cons, List.forall_mem_cons]
    have htail := ih (emitted || finishing cs || stops cs) (emitted' || finishing (onlyOf k cs) || stops (onlyOf k cs))
      (saw || callsFirst cs) (saw' || callsFirst (onlyOf k cs))
    constructor
    · intro h
      obtain ⟨hrest, hlast⟩ := htail.mp fun i j => h (i + 1) j
      refine ⟨⟨?_, hrest⟩, ?_⟩
      · have h0 := h 0 0
        rw [traceAt_cons_zero, traceAt_cons_zero, onlyOf_onlyOf] at h0
        exact h0
      · rintro rfl i
        cases i with
        | zero =>
          have h1 := h 0 1
          rw [traceAt_cons_zero, traceAt_cons_zero] at h1
          exact h1
        | succ i => exact hlast rfl i
    · rintro ⟨⟨hone, hrest⟩, hlast⟩ i j
      cases i with
      | zero =>
        rw [traceAt_cons_zero, traceAt_cons_zero, onlyOf_onlyOf]
        match j with
        | 0 => exact hone
        | 1 =>
          by_cases hk : k = 0
          · subst hk
            exact hlast rfl 0
          · simp [lastFinish_ne hk]
        | j + 2 => rfl
      | succ i => exact htail.mpr ⟨hrest, fun hk i => hlast hk (i + 1)⟩ i j

/-! ## What is kept -/

/-- For each candidate of a stream, the client reads its thoughts, what it shows and its calls, and the finish reasons
that it reads when the other candidates are left out. -/
def StreamFaithful (model : String) (s : GeminiToChatStreamState U) (arrivals : List (Arrival U)) : Prop :=
  ∃ outs, stream host model s (arrivals.map Arrival.chat) = .ok outs ∧ ∀ k,
    MadeOf ((candidateIn k arrivals).flatMap (·.thoughts)) (readReasoning (deltasOf k (choicesIn outs))) ∧
      MadeOf ((candidateIn k arrivals).flatMap (·.shown)) (readText (deltasOf k (choicesIn outs))) ∧
      ReadsCalls host ((candidateIn k arrivals).flatMap (·.calls)) (readCalls (deltasOf k (choicesIn outs))) ∧
      ∃ alone, stream host model s (arrivals.map fun a => (a.only k).chat) = .ok alone ∧
        ∀ i j, finishAt k outs i j = finishAt k alone i j

/-- The condition on a whole answer: all thoughts of a candidate but the last are blank, and no candidate without calls
comes after one with calls. -/
structure WholeKeeps (candidates : List Candidate) : Prop where
  thoughts : ∀ c ∈ candidates, Blank c.thoughts.dropLast
  calls : candidates.Pairwise fun c c' => c.calls ≠ [] → c'.calls ≠ []

/-- The condition on a stream of which `n` ids were given before. -/
structure StreamKeeps (n : ℕ) (arrivals : List (Arrival U)) : Prop where
  /-- In a response, a candidate with a thought shows nothing. -/
  texts : ∀ a ∈ arrivals, ∀ c ∈ a.candidates, c.thoughts ≠ [] → Blank c.shown
  /-- Different calls of a candidate have different ids. -/
  ids : (idsIn (sentTagged host n (calledInAll arrivals)).1).Nodup
  clears : ∀ a ∈ arrivals, ClearsAlike a.candidates
  /-- The last chunk comes where it comes for the first candidate alone. -/
  last : lastChunk false (arrivals.map (·.candidates)) = lastChunk false (arrivals.map fun a => onlyOf 0 a.candidates)

theorem calledBy_calledInAll (arrivals : List (Arrival U)) :
    calledBy k (calledInAll arrivals) = (candidateIn k arrivals).flatMap (·.calls) := by
  have hone : ∀ cs : List Candidate, calledBy k (calledIn cs) = (cs.filter (·.index = k)).flatMap (·.calls) := by
    intro cs
    unfold calledBy calledIn
    induction cs with
    | nil => rfl
    | cons c cs ih =>
      rw [List.flatMap_cons, List.filter_append, List.map_append, ih, List.filter_map]
      by_cases hk : c.index = k
      · simp [hk, Function.comp_def]
      · simp [hk, Function.comp_def]
  unfold calledInAll candidateIn
  induction arrivals with
  | nil => rfl
  | cons a arrivals ih =>
    have happend : ∀ calls calls', calledBy k (calls ++ calls') = calledBy k calls ++ calledBy k calls' := by
      intro calls calls'
      simp [calledBy]
    rw [List.flatMap_cons, List.flatMap_cons, List.flatMap_append, happend, ih, hone]

theorem readCalls_deltasOf (choices : List SentChoice) :
    readCalls (deltasOf k choices) = (callsOf k (callsIn choices)).foldl addFragment [] := by
  unfold readCalls
  congr 1
  unfold deltasOf choicesOf callsOf callsIn
  induction choices with
  | nil => rfl
  | cons choice choices ih =>
    rw [List.flatMap_cons, List.filter_append, List.map_append, ← ih, List.filter_map]
    by_cases hk : choice.index = k
    · simp [hk, Function.comp_def]
    · simp [hk, Function.comp_def]

theorem new_numbering (timestamp : ℤ) (id : String) (created : ℤ) :
    let s : GeminiToChatStreamState U := newGeminiToChatStreamState host timestamp id created
    numbering s = ⟨∅, ∅⟩ ∧ s.partialToolByCandidate = ∅ ∧ s.finishEmitted = false ∧ s.sawToolCall = false := by
  unfold newGeminiToChatStreamState
  by_cases h : trimSpace id = ""
  · simp [h, numbering]
  · simp [h, numbering]

theorem mem_candidateIn {k : ℤ} {arrivals : List (Arrival U)} {c : Candidate} :
    c ∈ candidateIn k arrivals ↔ ∃ a ∈ arrivals, c ∈ a.candidates ∧ c.index = k := by
  simp [candidateIn]

/-- The finish reasons of all choices are those of their candidates alone. -/
theorem traces_alone_iff (chunks : List (List Candidate)) :
    (∀ k i j, traceAt k false false chunks i j = traceAt k false false (chunks.map (onlyOf k)) i j) ↔
      (∀ cs ∈ chunks, ClearsAlike cs) ∧ lastChunk false chunks = lastChunk false (chunks.map (onlyOf 0)) := by
  simp only [traceAt_eq_iff]
  constructor
  · intro h
    refine ⟨fun cs hcs => (clearsAlike_iff cs).mp fun k => (h k).1 cs hcs, placedAt_inj fun i => ?_⟩
    rw [← lastAt_eq, ← lastAt_eq]
    exact (h 0).2 rfl i
  · rintro ⟨hclears, hlast⟩ k
    refine ⟨fun cs hcs => (clearsAlike_iff cs).mpr (hclears cs hcs) k, ?_⟩
    rintro rfl i
    rw [lastAt_eq, lastAt_eq, hlast]

section Stream

variable (model : String) (timestamp : ℤ) (id : String) (created : ℤ)

theorem finishAlone_iff {arrivals : List (Arrival U)} {outs : List (List (SentChunk U))}
    (hsends : Sends host (newGeminiToChatStreamState host timestamp id created) arrivals outs) (k : ℤ) :
    (∃ alone, stream host model (newGeminiToChatStreamState host timestamp id created)
          (arrivals.map fun a => (a.only k).chat) = .ok alone ∧ ∀ i j, finishAt k outs i j = finishAt k alone i j) ↔
      ∀ i j, traceAt k false false (arrivals.map (·.candidates)) i j =
        traceAt k false false ((arrivals.map (·.candidates)).map (onlyOf k)) i j := by
  obtain ⟨-, hcomplete, hemitted, hsaw⟩ := new_numbering (U := U) host timestamp id created
  obtain ⟨alone, halone, hsends'⟩ := stream_sends host model hcomplete (arrivals.map (Arrival.only k))
  rw [List.map_map] at halone
  have hchunks : (arrivals.map (Arrival.only k)).map (·.candidates) = (arrivals.map (·.candidates)).map (onlyOf k) := by
    rw [List.map_map, List.map_map]
    rfl
  have hfull : ∀ i j, finishAt k outs i j = traceAt k false false (arrivals.map (·.candidates)) i j := by
    intro i j
    unfold finishAt traceAt
    rw [hsends.finishes, hemitted, hsaw]
  have hpart : ∀ i j, finishAt k alone i j = traceAt k false false ((arrivals.map (·.candidates)).map (onlyOf k)) i j := by
    intro i j
    unfold finishAt traceAt
    rw [hsends'.finishes, hemitted, hsaw, hchunks]
  simp only [← hfull, ← hpart]
  constructor
  · rintro ⟨alone', halone', h⟩
    obtain rfl := Except.ok.inj (halone.symm.trans halone')
    exact h
  · exact fun h => ⟨alone, halone, h⟩

theorem streamFaithful_iff (arrivals : List (Arrival U)) :
    StreamFaithful host model (newGeminiToChatStreamState host timestamp id created) arrivals ↔
      StreamKeeps host (newGeminiToChatStreamState (U := U) host timestamp id created).uuids arrivals := by
  obtain ⟨hnumbering, hcomplete, -, -⟩ := new_numbering (U := U) host timestamp id created
  obtain ⟨outs, houts, hsends⟩ := stream_sends host model hcomplete arrivals
  have htexts : ∀ k, (MadeOf ((candidateIn k arrivals).flatMap (·.thoughts)) (readReasoning (deltasOf k (choicesIn outs))) ∧
      MadeOf ((candidateIn k arrivals).flatMap (·.shown)) (readText (deltasOf k (choicesIn outs)))) ↔
        ∀ c ∈ candidateIn k arrivals, c.thoughts ≠ [] → Blank c.shown := by
    intro k
    rw [← texts_iff, ← hsends.text, ← hsends.reasoning]
    rfl
  have hcalls := readsCalls_iff host (newGeminiToChatStreamState (U := U) host timestamp id created).uuids
    (calledInAll arrivals)
  rw [← hnumbering, ← hsends.calls] at hcalls
  simp only [← readCalls_deltasOf, calledBy_calledInAll] at hcalls
  have hfinishes := traces_alone_iff (arrivals.map (·.candidates))
  rw [List.map_map] at hfinishes
  constructor
  · rintro ⟨outs', houts', h⟩
    obtain rfl := Except.ok.inj (houts.symm.trans houts')
    obtain ⟨hclears, hlast⟩ := hfinishes.mp fun k =>
      (finishAlone_iff host model timestamp id created hsends k).mp (h k).2.2.2
    refine ⟨fun a ha c hc => ?_, hcalls.mp fun k => (h k).2.2.1, fun a ha => hclears _ (List.mem_map_of_mem ha), hlast⟩
    exact (htexts c.index).mp ⟨(h c.index).1, (h c.index).2.1⟩ c (mem_candidateIn.mpr ⟨a, ha, hc, rfl⟩)
  · intro h
    refine ⟨outs, houts, fun k => ?_⟩
    have htext := (htexts k).mpr fun c hc => by
      obtain ⟨a, ha, hc, -⟩ := mem_candidateIn.mp hc
      exact h.texts a ha c hc
    refine ⟨htext.1, htext.2, hcalls.mpr h.ids k, (finishAlone_iff host model timestamp id created hsends k).mpr ?_⟩
    refine hfinishes.mpr ⟨fun cs hcs => ?_, h.last⟩ k
    obtain ⟨a, ha, rfl⟩ := List.mem_map.mp hcs
    exact h.clears a ha

end Stream

/-! ## An answer that is not kept -/

def bareHost : Host where
  quoted := id
  unmarshal := .ok
  marshal _ := "{}"
  uuid n := toString n

/-- Two thoughts and a text, as one response brings them. -/
def thoughtfulAnswer : Candidate := { parts := [.thought "First.", .thought "Then.", .text "Done."] }

end Vancine.Streams.Gemini
