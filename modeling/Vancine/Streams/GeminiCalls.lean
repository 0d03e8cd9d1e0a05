import Vancine.Streams.GeminiStreams

/-!
# The calls of a Gemini stream

Each call of a stream has an index, and calls of a candidate with the same id have the same one. A client reads every
call once if the ids are different.
-/

namespace Vancine.Streams.Gemini

open Lib

variable {U : Type} (host : Host)

/-! ## Indices -/

/-- How many indices each candidate has, and the indices of ids. -/
structure Numbering where
  next : AList fun _ : ℤ => ℕ
  byID : AList fun _ : ℤ × String => ℕ

def numbering (s : GeminiToChatStreamState U) : Numbering := ⟨s.nextToolIndexByCandidate, s.toolIndexByCandidateID⟩

/-- The calls of candidates, each with the index of its candidate. -/
abbrev TaggedCalls := List (ℤ × ToolCallResponse)

namespace Numbering

def nextOf (m : Numbering) (k : ℤ) : ℕ := (m.next.lookup k).getD 0

def known (m : Numbering) (k : ℤ) (id : String) : Option ℕ := if id = "" then none else m.byID.lookup (k, id)

/-- The next index of the candidate is taken. -/
def take (m : Numbering) (k : ℤ) (id : String) : Numbering where
  next := m.next.insert k (m.nextOf k + 1)
  byID := if id = "" then m.byID else m.byID.insert (k, id) (m.nextOf k)

def place (m : Numbering) (k : ℤ) (id : String) : ℕ × Numbering :=
  match m.known k id with
  | some i => (i, m)
  | none => (m.nextOf k, m.take k id)

def placeAll (m : Numbering) : TaggedCalls → TaggedCalls × Numbering
  | [] => ([], m)
  | (k, toolCall) :: calls =>
    let (i, m) := m.place k (trimSpace toolCall.id)
    let (calls, m) := placeAll m calls
    ((k, { toolCall with index := some i }) :: calls, m)

theorem placeAll_cons (m : Numbering) (k : ℤ) (toolCall : ToolCallResponse) (calls : TaggedCalls) :
    m.placeAll ((k, toolCall) :: calls) =
      ((k, { toolCall with index := some ((m.place k (trimSpace toolCall.id)).1 : ℤ) }) ::
        ((m.place k (trimSpace toolCall.id)).2.placeAll calls).1,
        ((m.place k (trimSpace toolCall.id)).2.placeAll calls).2) := rfl

theorem placeAll_append (m : Numbering) (calls calls' : TaggedCalls) : m.placeAll (calls ++ calls') =
      ((m.placeAll calls).1 ++ ((m.placeAll calls).2.placeAll calls').1, ((m.placeAll calls).2.placeAll calls').2) := by
  induction calls generalizing m with
  | nil => rfl
  | cons c calls ih =>
    obtain ⟨k, toolCall⟩ := c
    rw [List.cons_append, placeAll_cons, placeAll_cons, ih]
    rfl

theorem placeAll_unplaced (m : Numbering) (calls : TaggedCalls) :
    m.placeAll (calls.map fun c => (c.1, unplaced c.2)) = m.placeAll calls := by
  induction calls generalizing m with
  | nil => rfl
  | cons c calls ih =>
    obtain ⟨k, toolCall⟩ := c
    rw [List.map_cons, placeAll_cons, placeAll_cons, ih]
    rfl

end Numbering

variable (s : GeminiToChatStreamState U) (n : ℕ)

theorem stableIndex_eq (k : ℤ) (id : String) : (s.stableIndex k id).1 = ((numbering s).place k id).1 ∧
      numbering (s.stableIndex k id).2 = ((numbering s).place k id).2 := by
  unfold GeminiToChatStreamState.stableIndex Numbering.place
  cases h : (if id = "" then none else s.toolIndexByCandidateID.lookup (k, id)) with
  | none =>
    have hknown : (numbering s).known k id = none := h
    rw [hknown]
    exact ⟨rfl, rfl⟩
  | some i =>
    have hknown : (numbering s).known k id = some i := h
    rw [hknown]
    exact ⟨rfl, rfl⟩

/-- The calls of choices, each with the index of its choice. -/
def callsIn (choices : List SentChoice) : TaggedCalls :=
  choices.flatMap fun choice => choice.delta.toolCalls.map fun toolCall => (choice.index, toolCall)

theorem numberCalls_placeAll (k : ℤ) (s : GeminiToChatStreamState U) (toolCalls : List ToolCallResponse) :
    (s.numberCalls k toolCalls).1.map (fun t => (k, t)) = ((numbering s).placeAll (toolCalls.map fun t => (k, t))).1 ∧
      numbering (s.numberCalls k toolCalls).2 = ((numbering s).placeAll (toolCalls.map fun t => (k, t))).2 := by
  induction toolCalls generalizing s with
  | nil => exact ⟨rfl, rfl⟩
  | cons t ts ih =>
    obtain ⟨hindex, hstate⟩ := stableIndex_eq s k (trimSpace t.id)
    obtain ⟨hcalls, hafter⟩ := ih (s.stableIndex k (trimSpace t.id)).2
    rw [hstate] at hcalls hafter
    rw [List.map_cons, Numbering.placeAll_cons, ← hindex]
    exact ⟨congrArg (_ :: ·) hcalls, hafter⟩

theorem numberChoices_placeAll (choices : List SentChoice) :
    callsIn (s.numberChoices choices).1 = ((numbering s).placeAll (callsIn choices)).1 ∧
      numbering (s.numberChoices choices).2 = ((numbering s).placeAll (callsIn choices)).2 := by
  induction choices generalizing s with
  | nil => exact ⟨rfl, rfl⟩
  | cons choice choices ih =>
    obtain ⟨hcalls, hstate⟩ := numberCalls_placeAll choice.index s choice.delta.toolCalls
    obtain ⟨hrest, hafter⟩ := ih (s.numberCalls choice.index choice.delta.toolCalls).2
    rw [hstate] at hrest hafter
    have hcons : callsIn (choice :: choices) =
        (choice.delta.toolCalls.map fun t => (choice.index, t)) ++ callsIn choices := rfl
    rw [hcons, Numbering.placeAll_append]
    exact ⟨congrArg₂ (· ++ ·) hcalls hrest, hafter⟩

theorem callsIn_clear (choices : List SentChoice) : callsIn (choices.map clearToolCallsFinish) = callsIn choices := by
  unfold callsIn
  rw [List.flatMap_map]
  refine List.flatMap_congr fun choice _ => ?_
  unfold clearToolCallsFinish
  split <;> rfl

/-! ## The calls of a chunk -/

/-- The calls of candidates, in their order. -/
def calledIn (cs : List Candidate) : List (ℤ × FunctionCall) := cs.flatMap fun c => c.calls.map fun call => (c.index, call)

/-- The calls that are sent, and how many ids are given after them. -/
def sentTagged (n : ℕ) : List (ℤ × FunctionCall) → TaggedCalls × ℕ
  | [] => ([], n)
  | (k, call) :: calls =>
    let (toolCall, n) := geminiResponseToolCall host n call
    let (toolCalls, n) := sentTagged n calls
    ((k, toolCall) :: toolCalls, n)

theorem sentTagged_cons (k : ℤ) (call : FunctionCall) (calls : List (ℤ × FunctionCall)) :
    sentTagged host n ((k, call) :: calls) =
      ((k, (geminiResponseToolCall host n call).1) :: (sentTagged host (geminiResponseToolCall host n call).2 calls).1,
        (sentTagged host (geminiResponseToolCall host n call).2 calls).2) := rfl

theorem sentTagged_append (calls calls' : List (ℤ × FunctionCall)) : sentTagged host n (calls ++ calls') =
      ((sentTagged host n calls).1 ++ (sentTagged host (sentTagged host n calls).2 calls').1,
        (sentTagged host (sentTagged host n calls).2 calls').2) := by
  induction calls generalizing n with
  | nil => rfl
  | cons c calls ih =>
    obtain ⟨k, call⟩ := c
    rw [List.cons_append, sentTagged_cons, sentTagged_cons, ih]
    rfl

theorem sentTagged_calls (k : ℤ) (calls : List FunctionCall) : sentTagged host n (calls.map fun call => (k, call)) =
      ((sentCalls host n calls).1.map fun t => (k, t), (sentCalls host n calls).2) := by
  induction calls generalizing n with
  | nil => rfl
  | cons call calls ih =>
    rw [List.map_cons, sentTagged_cons, ih]
    rfl

theorem streamChoices_calls (cs : List Candidate) :
    (callsIn (streamChoices host n (cs.map Candidate.chat)).1).map (fun c => (c.1, unplaced c.2)) =
        (sentTagged host n (calledIn cs)).1 ∧
      (streamChoices host n (cs.map Candidate.chat)).2 = (sentTagged host n (calledIn cs)).2 := by
  induction cs generalizing n with
  | nil => exact ⟨rfl, rfl⟩
  | cons c cs ih =>
    obtain ⟨-, -, -, hcalls, huuids⟩ := streamCandidate_chat host n c
    obtain ⟨hrest, hafter⟩ := ih (streamCandidate host n c.chat).uuids
    have hdelta : (streamCandidate host n c.chat).delta.toolCalls = (streamCandidate host n c.chat).toolCalls := by
      unfold ChunkChoice.delta
      split <;> rfl
    have hcons : calledIn (c :: cs) = (c.calls.map fun call => (c.index, call)) ++ calledIn cs := rfl
    have hchoices : callsIn (streamChoices host n ((c :: cs).map Candidate.chat)).1 =
        ((streamCandidate host n c.chat).delta.toolCalls.map fun t => (c.index, t)) ++
          callsIn (streamChoices host (streamCandidate host n c.chat).uuids (cs.map Candidate.chat)).1 := rfl
    rw [huuids] at hrest hafter hchoices
    rw [hcons, sentTagged_append, sentTagged_calls, hchoices, hdelta, List.map_append, hrest, ← hcalls, List.map_map,
      List.map_map]
    refine ⟨rfl, ?_⟩
    show (streamChoices host (streamCandidate host n c.chat).uuids (cs.map Candidate.chat)).2 = _
    rw [huuids]
    exact hafter

theorem chunkChoices_calls (cs : List Candidate) (usage : Option U) :
    callsIn (chunkChoices host s cs) = ((numbering s).placeAll (sentTagged host s.uuids (calledIn cs)).1).1 ∧
      numbering (afterChunk host s cs usage) = ((numbering s).placeAll (sentTagged host s.uuids (calledIn cs)).1).2 ∧
      (afterChunk host s cs usage).uuids = (sentTagged host s.uuids (calledIn cs)).2 := by
  obtain ⟨hcalls, huuids⟩ := streamChoices_calls host s.uuids cs
  obtain ⟨hnumbered, hstate⟩ := numberChoices_placeAll
    ({ s with uuids := (streamChoices host s.uuids (cs.map Candidate.chat)).2 } : GeminiToChatStreamState U)
    (streamChoices host s.uuids (cs.map Candidate.chat)).1
  rw [← Numbering.placeAll_unplaced, hcalls] at hnumbered hstate
  obtain ⟨next, byID, hframe⟩ : ∃ next byID, (numberedChoices host s cs).2 =
      { s with
        uuids := (streamChoices host s.uuids (cs.map Candidate.chat)).2
        nextToolIndexByCandidate := next
        toolIndexByCandidateID := byID } := numberChoices_frame _ _
  have hsent : callsIn (chunkChoices host s cs) = callsIn (numberedChoices host s cs).1 := by
    unfold chunkChoices
    split
    · exact callsIn_clear _
    · rfl
  refine ⟨hsent.trans hnumbered, hstate, ?_⟩
  show (numberedChoices host s cs).2.uuids = _
  rw [hframe]
  exact huuids

/-! ## Different ids -/

/-- The ids of the calls with their candidates. A call without an id is like no other. -/
def idsIn (calls : TaggedCalls) : List (ℤ × String) :=
  (calls.map fun c => (c.1, trimSpace c.2.id)).filter fun p => p.2 ≠ ""

/-- The calls of a candidate. -/
def callsOf (k : ℤ) (calls : TaggedCalls) : List ToolCallResponse := (calls.filter fun c => c.1 = k).map Prod.snd

/-- Calls with the indices from `n` on. -/
def indexedFrom (n : ℕ) : List ToolCallResponse → List ToolCallResponse
  | [] => []
  | t :: ts => { t with index := some n } :: indexedFrom (n + 1) ts

theorem callsOf_cons_self (k : ℤ) (t : ToolCallResponse) (calls : TaggedCalls) :
    callsOf k ((k, t) :: calls) = t :: callsOf k calls := by simp [callsOf]

theorem callsOf_cons_ne {k k' : ℤ} (h : k' ≠ k) (t : ToolCallResponse) (calls : TaggedCalls) :
    callsOf k ((k', t) :: calls) = callsOf k calls := by simp [callsOf, h]

variable {t : ToolCallResponse}

theorem idsIn_cons_blank (k : ℤ) (h : trimSpace t.id = "") (calls : TaggedCalls) :
    idsIn ((k, t) :: calls) = idsIn calls := by simp [idsIn, h]

theorem idsIn_cons_id (k : ℤ) (h : trimSpace t.id ≠ "") (calls : TaggedCalls) :
    idsIn ((k, t) :: calls) = (k, trimSpace t.id) :: idsIn calls := by simp [idsIn, h]

namespace Numbering

variable {m : Numbering}

variable {id : String} {calls : TaggedCalls}

theorem place_of_known {k : ℤ} {i : ℕ} (h : m.known k id = some i) : m.place k id = (i, m) := by
  unfold place
  rw [h]

theorem place_of_unknown {k : ℤ} (h : m.known k id = none) : m.place k id = (m.nextOf k, m.take k id) := by
  unfold place
  rw [h]

theorem nextOf_take_self (m : Numbering) (k : ℤ) (id : String) : (m.take k id).nextOf k = m.nextOf k + 1 := by
  simp [nextOf, take]

theorem nextOf_take_ne (m : Numbering) {k k' : ℤ} (h : k ≠ k') (id : String) : (m.take k' id).nextOf k = m.nextOf k := by
  simp [nextOf, take, AList.lookup_insert_ne h]

theorem byID_take_of_ne (m : Numbering) {k : ℤ} {p : ℤ × String} (h : p ≠ (k, id)) :
    (m.take k id).byID.lookup p = m.byID.lookup p := by
  unfold take
  dsimp only
  split
  · rfl
  · exact AList.lookup_insert_ne h

/-- Calls with different ids have the indices one after the other. -/
theorem placeAll_of_nodup (hnodup : (idsIn calls).Nodup) (hfresh : ∀ p ∈ idsIn calls, m.byID.lookup p = none) (k : ℤ) :
    callsOf k (m.placeAll calls).1 = indexedFrom (m.nextOf k) (callsOf k calls) := by
  induction calls generalizing m with
  | nil => rfl
  | cons c calls ih =>
    obtain ⟨k', t⟩ := c
    have hunknown : m.known k' (trimSpace t.id) = none := by
      unfold known
      by_cases hid : trimSpace t.id = ""
      · rw [if_pos hid]
      · rw [if_neg hid]
        exact hfresh _ (by rw [idsIn_cons_id k' hid]; exact List.mem_cons_self ..)
    have hrest : (idsIn calls).Nodup ∧ ∀ p ∈ idsIn calls, (m.take k' (trimSpace t.id)).byID.lookup p = none := by
      by_cases hid : trimSpace t.id = ""
      · rw [idsIn_cons_blank k' hid] at hnodup hfresh
        refine ⟨hnodup, fun p hp => ?_⟩
        show (if trimSpace t.id = "" then m.byID else _).lookup p = none
        rw [if_pos hid]
        exact hfresh p hp
      · rw [idsIn_cons_id k' hid] at hnodup hfresh
        obtain ⟨hnew, hnodup⟩ := List.nodup_cons.mp hnodup
        refine ⟨hnodup, fun p hp => ?_⟩
        rw [byID_take_of_ne m fun h => hnew (h ▸ hp)]
        exact hfresh p (List.mem_cons_of_mem _ hp)
    rw [placeAll_cons, place_of_unknown hunknown]
    by_cases hk : k' = k
    · subst hk
      rw [callsOf_cons_self, callsOf_cons_self, ih hrest.1 hrest.2, nextOf_take_self]
      rfl
    · rw [callsOf_cons_ne hk, callsOf_cons_ne hk, ih hrest.1 hrest.2, nextOf_take_ne m fun h => hk h.symm]

/-- Where all indices of each candidate are different, the ids are. `used` are the indices before. -/
theorem nodup_of_indices {used : ℤ → List (Option ℤ)}
    (hused : ∀ k id i, m.byID.lookup (k, id) = some i → some (i : ℤ) ∈ used k)
    (hnodup : ∀ k, (used k ++ (callsOf k (m.placeAll calls).1).map (·.index)).Nodup) :
    (idsIn calls).Nodup ∧ ∀ p ∈ idsIn calls, m.byID.lookup p = none := by
  induction calls generalizing m used with
  | nil => exact ⟨List.nodup_nil, fun p hp => absurd hp List.not_mem_nil⟩
  | cons c calls ih =>
    obtain ⟨k, t⟩ := c
    rw [placeAll_cons] at hnodup
    have hunknown : m.known k (trimSpace t.id) = none := by
      by_contra hknown
      obtain ⟨i, hi⟩ := Option.ne_none_iff_exists'.mp hknown
      have hmem : some (i : ℤ) ∈ used k := by
        unfold known at hi
        split_ifs at hi
        exact hused k _ i hi
      have hk := hnodup k
      rw [place_of_known hi, callsOf_cons_self, List.map_cons] at hk
      exact (List.disjoint_of_nodup_append hk) hmem (List.mem_cons_self ..)
    rw [place_of_unknown hunknown] at hnodup
    have htaken : trimSpace t.id ≠ "" → (m.take k (trimSpace t.id)).byID.lookup (k, trimSpace t.id) = some (m.nextOf k) := by
      intro hid
      show (if trimSpace t.id = "" then m.byID else _).lookup _ = _
      rw [if_neg hid]
      exact AList.lookup_insert _
    have hused' : ∀ k' id i, (m.take k (trimSpace t.id)).byID.lookup (k', id) = some i →
        some (i : ℤ) ∈ Function.update used k (used k ++ [some (m.nextOf k : ℤ)]) k' := by
      intro k' id i hi
      by_cases hid : (k', id) = (k, trimSpace t.id) ∧ trimSpace t.id ≠ ""
      · obtain ⟨heq, hid⟩ := hid
        obtain ⟨rfl, rfl⟩ := Prod.mk.inj heq
        rw [htaken hid] at hi
        obtain rfl := Option.some.inj hi
        simp
      · have hold : m.byID.lookup (k', id) = some i := by
          rw [← hi]
          show _ = (if trimSpace t.id = "" then m.byID else _).lookup _
          split
          · rfl
          · next hne => exact (AList.lookup_insert_ne fun h => hid ⟨h, hne⟩).symm
        by_cases hk : k' = k
        · subst hk
          rw [Function.update_self]
          exact List.mem_append_left _ (hused k' id i hold)
        · rw [Function.update_of_ne hk]
          exact hused k' id i hold
    have hnodup' : ∀ k', (Function.update used k (used k ++ [some (m.nextOf k : ℤ)]) k' ++
        (callsOf k' ((m.take k (trimSpace t.id)).placeAll calls).1).map (·.index)).Nodup := by
      intro k'
      by_cases hk : k' = k
      · subst hk
        have h := hnodup k'
        rw [callsOf_cons_self] at h
        rw [Function.update_self, List.append_assoc]
        exact h
      · have h := hnodup k'
        rw [callsOf_cons_ne fun h => hk h.symm] at h
        rw [Function.update_of_ne hk]
        exact h
    obtain ⟨hrest, hfresh⟩ := ih hused' hnodup'
    by_cases hid : trimSpace t.id = ""
    · rw [idsIn_cons_blank k hid]
      refine ⟨hrest, fun p hp => ?_⟩
      have h : (if trimSpace t.id = "" then m.byID else _).lookup p = none := hfresh p hp
      rwa [if_pos hid] at h
    · have hnew : (k, trimSpace t.id) ∉ idsIn calls := by
        intro hmem
        exact absurd ((htaken hid).symm.trans (hfresh _ hmem)) nofun
      rw [idsIn_cons_id k hid]
      refine ⟨List.nodup_cons.mpr ⟨hnew, hrest⟩, fun p hp => ?_⟩
      rcases List.mem_cons.mp hp with rfl | hp
      · unfold known at hunknown
        rwa [if_neg hid] at hunknown
      · rw [← byID_take_of_ne m fun h => hnew (h ▸ hp)]
        exact hfresh p hp

theorem map_getD_placeAll (m : Numbering) (calls : TaggedCalls) (k : ℤ) :
    (callsOf k (m.placeAll calls).1).map (·.index) =
      ((callsOf k (m.placeAll calls).1).map fun t => t.index.getD 0).map some := by
  induction calls generalizing m with
  | nil => rfl
  | cons c calls ih =>
    obtain ⟨k', t⟩ := c
    rw [placeAll_cons]
    by_cases hk : k' = k
    · subst hk
      rw [callsOf_cons_self]
      exact congrArg (_ :: ·) (ih _)
    · rw [callsOf_cons_ne hk]
      exact ih _

theorem length_callsOf_placeAll (m : Numbering) (calls : TaggedCalls) (k : ℤ) :
    (callsOf k (m.placeAll calls).1).length = (callsOf k calls).length := by
  induction calls generalizing m with
  | nil => rfl
  | cons c calls ih =>
    obtain ⟨k', t⟩ := c
    rw [placeAll_cons]
    by_cases hk : k' = k
    · subst hk
      rw [callsOf_cons_self, callsOf_cons_self]
      exact congrArg Nat.succ (ih _)
    · rw [callsOf_cons_ne hk, callsOf_cons_ne hk]
      exact ih _

end Numbering

/-! ## What a client reads -/

/-- The function calls of a candidate among those of all candidates. -/
def calledBy (k : ℤ) (calls : List (ℤ × FunctionCall)) : List FunctionCall := (calls.filter fun c => c.1 = k).map Prod.snd

/-- A client reads every call once, in their order, with the indices from zero on. -/
def ReadsCalls (calls : List FunctionCall) (read : ClientCalls) : Prop :=
  read.map Prod.fst = (List.range calls.length).map Int.ofNat ∧
    List.Forall₂ (fun call (c : ClientCall) => Calls host call c.id c.name c.arguments) calls (read.map Prod.snd)

theorem foldl_indexedFrom {calls : ClientCalls} {n : ℕ} (h : ∀ i ∈ calls.map Prod.fst, i < n)
    (toolCalls : List ToolCallResponse) :
    (indexedFrom n toolCalls).foldl addFragment calls = calls ++ numbered n (toolCalls.map ClientCall.first) := by
  induction toolCalls generalizing calls n with
  | nil => exact (List.append_nil calls).symm
  | cons t ts ih =>
    have hnew : (n : ℤ) ∉ calls.map Prod.fst := fun hmem => lt_irrefl (n : ℤ) (h n hmem)
    have hnext : ∀ i ∈ (calls ++ [((n : ℤ), ClientCall.first t)]).map Prod.fst, i < ((n + 1 : ℕ) : ℤ) := by
      intro i hi
      rw [List.map_append, List.mem_append] at hi
      rcases hi with hi | hi
      · have := h i hi
        omega
      · simp at hi
        omega
    show (indexedFrom (n + 1) ts).foldl addFragment (addFragment calls { t with index := some (n : ℤ) }) = _
    rw [addFragment_new rfl hnew]
    exact (ih hnext).trans (List.append_assoc _ _ _)

theorem calls_sentTagged (calls : List (ℤ × FunctionCall)) (k : ℤ) :
    List.Forall₂ (fun call (t : ToolCallResponse) => Calls host call t.id t.function.name t.function.arguments)
      (calledBy k calls) (callsOf k (sentTagged host n calls).1) := by
  induction calls generalizing n with
  | nil => exact .nil
  | cons c calls ih =>
    obtain ⟨k', call⟩ := c
    rw [sentTagged_cons]
    by_cases hk : k' = k
    · subst hk
      have hcons : calledBy k' ((k', call) :: calls) = call :: calledBy k' calls := by simp [calledBy]
      rw [hcons, callsOf_cons_self]
      exact .cons (calls_geminiResponseToolCall host n call) (ih _)
    · have hcons : calledBy k ((k', call) :: calls) = calledBy k calls := by simp [calledBy, hk]
      rw [hcons, callsOf_cons_ne hk]
      exact ih _

/-- A client reads every call of every candidate if and only if different calls of a candidate have different ids. -/
theorem readsCalls_iff (calls : List (ℤ × FunctionCall)) : (∀ k, ReadsCalls host (calledBy k calls)
        ((callsOf k ((⟨∅, ∅⟩ : Numbering).placeAll (sentTagged host n calls).1).1).foldl addFragment [])) ↔
      (idsIn (sentTagged host n calls).1).Nodup := by
  have hempty : ∀ k id i, (⟨∅, ∅⟩ : Numbering).byID.lookup (k, id) = some i →
      some (i : ℤ) ∈ (fun _ : ℤ => ([] : List (Option ℤ))) k := fun k id i h =>
    absurd ((AList.lookup_empty (k, id)).symm.trans h) nofun
  constructor
  · intro h
    refine (Numbering.nodup_of_indices hempty fun k => ?_).1
    have hlength : ((callsOf k ((⟨∅, ∅⟩ : Numbering).placeAll (sentTagged host n calls).1).1).foldl addFragment []).length =
        ([] : ClientCalls).length + (callsOf k ((⟨∅, ∅⟩ : Numbering).placeAll (sentTagged host n calls).1).1).length := by
      have hkeys := congrArg List.length (h k).1
      rw [List.length_map, List.length_map, List.length_range] at hkeys
      rw [hkeys, Numbering.length_callsOf_placeAll, (calls_sentTagged host n calls k).length_eq]
      exact (Nat.zero_add _).symm
    have hnodup := nodup_of_length_foldl (by exact List.nodup_nil) hlength
    rw [Numbering.map_getD_placeAll]
    exact (List.nodup_map_iff (Option.some_injective ℤ)).mpr hnodup
  · intro h k
    have hread := Numbering.placeAll_of_nodup (m := ⟨∅, ∅⟩) h (fun p _ => AList.lookup_empty p) k
    have hcalls := calls_sentTagged host n calls k
    rw [hread, foldl_indexedFrom fun i hi => absurd hi List.not_mem_nil, List.nil_append]
    constructor
    · rw [numbered_indices, List.length_map, ← hcalls.length_eq, List.range_eq_range']
      rfl
    · rw [numbered_calls, List.forall₂_map_right_iff]
      exact hcalls

end Vancine.Streams.Gemini
