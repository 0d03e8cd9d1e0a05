import Vancine.ChatRequests.FromGemini

/-!
# Which call a result answers

The history of calls gives an id to every call and every result. A result without an id takes that of the first call of
its name that no result before it has; `PairedBefore` says when that is the call it is meant for.
-/

namespace Vancine.ChatRequests

open Lib

/-! ## The ids that are given -/

/-- A part with the id it is given. -/
abbrev Given := GeminiPart × String

namespace GeminiFunctionCallHistory

def give (h : GeminiFunctionCallHistory) : GeminiPart → String × GeminiFunctionCallHistory
  | .functionCall id name _ => h.add id name
  | .functionResponse id name _ => h.answer id name
  | .text _ _ | .inlineData _ _ | .fileData _ _ => ("", h)

end GeminiFunctionCallHistory

def giveStep (state : GeminiFunctionCallHistory × List Given) (part : GeminiPart) :
    GeminiFunctionCallHistory × List Given :=
  ((state.1.give part).2, state.2 ++ [(part, (state.1.give part).1)])

/-- The history and the ids after some of the parts. -/
def givenAfter (requestIDs : List String) (parts : List GeminiPart) : GeminiFunctionCallHistory × List Given :=
  parts.foldl giveStep ({ reservedIDs := requestIDs, pending := [], nextID := 1 }, [])

theorem givenAfter_concat (requestIDs : List String) (parts : List GeminiPart) (part : GeminiPart) :
    givenAfter requestIDs (parts ++ [part]) = giveStep (givenAfter requestIDs parts) part :=
  List.foldl_concat _ _ _ _

/-! ## Calls and results -/

/-- The id and the name of a call. -/
def GeminiPart.call? : GeminiPart → Option (String × String)
  | .functionCall id name _ => some (id, name)
  | _ => none

def GeminiPart.response? : GeminiPart → Option (String × String)
  | .functionResponse id name _ => some (id, name)
  | _ => none

/-- The calls with the ids they are given. -/
def calledPairs (given : List Given) : List (String × String) :=
  given.filterMap fun e => e.1.call?.map fun call => (e.2, call.2)

def calledIDs (given : List Given) : List String := (calledPairs given).map Prod.fst

def answeredIDs (given : List Given) : List String := given.filterMap fun e => e.1.response?.map fun _ => e.2

/-- The ids of the calls of a name that have none of their own. -/
def idlessCalls (name : String) (given : List Given) : List String :=
  given.filterMap fun e => if e.1.call? = some ("", name) then some e.2 else none

def idlessAnswers (name : String) (given : List Given) : List String :=
  given.filterMap fun e => if e.1.response? = some ("", name) then some e.2 else none

section Append

variable (given : List Given) (part : GeminiPart) (id : String)

theorem calledPairs_concat :
    calledPairs (given ++ [(part, id)]) = calledPairs given ++ (part.call?.map fun call => (id, call.2)).toList := by
  rw [calledPairs, List.filterMap_append]
  cases part <;> rfl

theorem calledIDs_concat :
    calledIDs (given ++ [(part, id)]) = calledIDs given ++ (part.call?.map fun _ => id).toList := by
  rw [calledIDs, calledPairs_concat, List.map_append]
  cases part <;> rfl

theorem answeredIDs_concat :
    answeredIDs (given ++ [(part, id)]) = answeredIDs given ++ (part.response?.map fun _ => id).toList := by
  rw [answeredIDs, List.filterMap_append]
  cases part <;> rfl

end Append

/-! ## What the history keeps -/

/-- What is known of the history and the ids given so far. -/
structure Tracked (requestIDs : List String) (h : GeminiFunctionCallHistory) (given : List Given) : Prop where
  request : ∀ id ∈ requestIDs, id ∈ h.reservedIDs
  called : ∀ id ∈ calledIDs given, id ∈ h.reservedIDs
  answered : ∀ id ∈ answeredIDs given, id ∈ h.reservedIDs
  nodup : (calledIDs given).Nodup
  kept : ∀ e ∈ given, e.1.id ≠ "" → e.2 = e.1.id
  fresh : ∀ e ∈ given, ∀ name, e.1.call? = some ("", name) → e.2 ∉ requestIDs
  madeUp : ∀ id ∈ answeredIDs given, id ∈ calledIDs given ∨ id ∉ requestIDs
  pending : h.pending = (calledPairs given).filter fun call => call.1 ∉ answeredIDs given

theorem tracked_nil (requestIDs : List String) :
    Tracked requestIDs { reservedIDs := requestIDs, pending := [], nextID := 1 } [] where
  request _ h := h
  called _ h := absurd h List.not_mem_nil
  answered _ h := absurd h List.not_mem_nil
  nodup := List.nodup_nil
  kept _ h := absurd h List.not_mem_nil
  fresh _ h := absurd h List.not_mem_nil
  madeUp _ h := absurd h List.not_mem_nil
  pending := rfl

section Steps

variable {requestIDs : List String} {h : GeminiFunctionCallHistory} {given : List Given}

variable {h' : GeminiFunctionCallHistory}

theorem Tracked.concat (ht : Tracked requestIDs h given) {part : GeminiPart} {id : String}
    (hreserved : ∀ i ∈ h.reservedIDs, i ∈ h'.reservedIDs)
    (hid : part.call?.isSome ∨ part.response?.isSome → id ∈ h'.reservedIDs)
    (hnew : part.call?.isSome → id ∉ calledIDs given) (hkept : part.id ≠ "" → id = part.id)
    (hfresh : ∀ name, part.call? = some ("", name) → id ∉ requestIDs)
    (hmadeUp : part.response?.isSome → id ∈ calledIDs given ∨ id ∉ requestIDs)
    (hpending : h'.pending =
      (calledPairs (given ++ [(part, id)])).filter fun call => call.1 ∉ answeredIDs (given ++ [(part, id)])) :
    Tracked requestIDs h' (given ++ [(part, id)]) := by
  constructor
  case request => exact fun i hi => hreserved i (ht.request i hi)
  case called =>
    intro i hi
    rw [calledIDs_concat] at hi
    rcases List.mem_append.mp hi with hi | hi
    · exact hreserved i (ht.called i hi)
    · cases hcall : part.call? with
      | none => simp [hcall] at hi
      | some call =>
        rw [hcall] at hi
        exact List.mem_singleton.mp hi ▸ hid (.inl (by rw [hcall]; rfl))
  case answered =>
    intro i hi
    rw [answeredIDs_concat] at hi
    rcases List.mem_append.mp hi with hi | hi
    · exact hreserved i (ht.answered i hi)
    · cases hresponse : part.response? with
      | none => simp [hresponse] at hi
      | some response =>
        rw [hresponse] at hi
        exact List.mem_singleton.mp hi ▸ hid (.inr (by rw [hresponse]; rfl))
  case nodup =>
    rw [calledIDs_concat]
    cases hcall : part.call? with
    | none => simpa using ht.nodup
    | some call =>
      have hfree := hnew (by rw [hcall]; rfl)
      exact List.nodup_append'.mpr ⟨ht.nodup, List.nodup_singleton _, List.disjoint_singleton.mpr hfree⟩
  case kept =>
    intro e he hne
    rcases List.mem_append.mp he with he | he
    · exact ht.kept e he hne
    · rw [List.mem_singleton.mp he] at hne ⊢
      exact hkept hne
  case fresh =>
    intro e he name hcall
    rcases List.mem_append.mp he with he | he
    · exact ht.fresh e he name hcall
    · rw [List.mem_singleton.mp he] at hcall ⊢
      exact hfresh name hcall
  case madeUp =>
    intro i hi
    rw [answeredIDs_concat] at hi
    rw [calledIDs_concat]
    refine Or.imp_left (List.mem_append_left _) ?_
    rcases List.mem_append.mp hi with hi | hi
    · exact ht.madeUp i hi
    · cases hresponse : part.response? with
      | none => simp [hresponse] at hi
      | some response =>
        rw [hresponse] at hi
        exact List.mem_singleton.mp hi ▸ hmadeUp (by rw [hresponse]; rfl)
  case pending => exact hpending

variable {own id name : String}

theorem Tracked.call (ht : Tracked requestIDs h given) {arguments : Json} (hnew : id ∉ calledIDs given)
    (hanswered : id ∉ answeredIDs given) (hkept : own ≠ "" → id = own) (hfresh : own = "" → id ∉ requestIDs)
    (hreserved : ∀ i, i ∈ h.reservedIDs ∨ i = id → i ∈ h'.reservedIDs)
    (hpending : h'.pending = h.pending ++ [(id, name)]) :
    Tracked requestIDs h' (given ++ [(.functionCall own name arguments, id)]) := by
  refine ht.concat (fun i hi => hreserved i (.inl hi)) (fun _ => hreserved id (.inr rfl)) (fun _ => hnew) hkept
    (fun n hcall => hfresh (congrArg Prod.fst (Option.some.inj hcall))) nofun ?_
  rw [calledPairs_concat, answeredIDs_concat, hpending, ht.pending]
  simp [GeminiPart.call?, GeminiPart.response?, List.filter_append, hanswered]

/-- A result is given an id, and no call with that id stays open. -/
theorem Tracked.answer (ht : Tracked requestIDs h given) {response : Json} (hkept : own ≠ "" → id = own)
    (hmadeUp : id ∈ calledIDs given ∨ id ∉ requestIDs)
    (hreserved : ∀ i, i ∈ h.reservedIDs ∨ i = id → i ∈ h'.reservedIDs)
    (hpending : h'.pending = h.pending.filter fun call => call.1 ≠ id) :
    Tracked requestIDs h' (given ++ [(.functionResponse own name response, id)]) := by
  refine ht.concat (fun i hi => hreserved i (.inl hi)) (fun _ => hreserved id (.inr rfl)) nofun hkept nofun
    (fun _ => hmadeUp) ?_
  rw [calledPairs_concat, answeredIDs_concat, hpending, ht.pending, List.filter_filter]
  simp [GeminiPart.call?, GeminiPart.response?, and_comm]

theorem Tracked.other (ht : Tracked requestIDs h given) {part : GeminiPart} {id : String} (hcall : part.call? = none)
    (hresponse : part.response? = none) (hid : part.id = "") : Tracked requestIDs h (given ++ [(part, id)]) := by
  refine ht.concat (fun _ hi => hi) ?_ ?_ (fun hne => absurd hid hne) ?_ ?_ ?_
  · simp [hcall, hresponse]
  · simp [hcall]
  · simp [hcall]
  · simp [hresponse]
  · rw [calledPairs_concat, answeredIDs_concat, hcall, hresponse, ht.pending]
    simp

theorem Tracked.nodup_pending (ht : Tracked requestIDs h given) : (h.pending.map Prod.fst).Nodup := by
  rw [ht.pending]
  exact ht.nodup.sublist (List.filter_sublist.map Prod.fst)

/-- Among calls whose ids differ, taking the first of an id out takes them all out. -/
theorem eraseP_eq_filter {calls : List (String × String)} (hnodup : (calls.map Prod.fst).Nodup)
    {p : String × String → Bool} {call : String × String} (hfind : calls.find? p = some call) :
    calls.eraseP p = calls.filter fun c => c.1 ≠ call.1 := by
  induction calls with
  | nil => cases hfind
  | cons head rest ih =>
    rw [List.map_cons, List.nodup_cons] at hnodup
    by_cases hp : p head = true
    · rw [List.find?_cons_of_pos hp] at hfind
      cases hfind
      rw [List.eraseP_cons_of_pos hp, List.filter_cons_of_neg (by simp)]
      symm
      apply List.filter_eq_self.mpr
      intro c hc
      have : c.1 ≠ call.1 := fun heq => hnodup.1 (heq ▸ List.mem_map_of_mem hc)
      simpa using this
    · rw [List.find?_cons_of_neg hp] at hfind
      have hne : head.1 ≠ call.1 := fun heq =>
        hnodup.1 (heq ▸ List.mem_map_of_mem (List.mem_of_find?_eq_some hfind))
      rw [List.eraseP_cons_of_neg hp, List.filter_cons_of_pos (by simpa using hne), ih hnodup.2 hfind]

end Steps

/-! ## Histories -/

/-- Every place of a list, with what is before it. -/
def Everywhere {α : Type*} (Q : List α → α → Prop) (l : List α) : Prop :=
  ∀ before x after, l = before ++ x :: after → Q before x

variable {α : Type*} {id : String}

theorem everywhere_nil (Q : List α → α → Prop) : Everywhere Q [] := by
  intro before x after h
  cases before <;> cases h

theorem everywhere_concat {Q : List α → α → Prop} {l : List α} {last : α} :
    Everywhere Q (l ++ [last]) ↔ Everywhere Q l ∧ Q l last := by
  constructor
  · intro h
    refine ⟨fun before x after hl => h before x (after ++ [last]) (by rw [hl]; simp), h l last [] rfl⟩
  · rintro ⟨h, hlast⟩ before x after hl
    rcases List.eq_nil_or_concat after with rfl | ⟨after, y, rfl⟩
    · obtain ⟨rfl, hx⟩ := List.append_inj' hl rfl
      cases hx
      exact hlast
    · rw [List.concat_eq_append, ← List.cons_append, ← List.append_assoc] at hl
      exact h before x after (List.append_inj' hl rfl).1

def countCalls (name : String) (parts : List GeminiPart) : ℕ := parts.countP fun p => p.call? = some ("", name)

def countResponses (name : String) (parts : List GeminiPart) : ℕ := parts.countP fun p => p.response? = some ("", name)

/-- The ids of the calls that have their own. -/
def ownCallIDs (parts : List GeminiPart) : List String :=
  (parts.filterMap fun p => p.call?.map Prod.fst).filter (· ≠ "")

/-- The ids of calls differ, a result with an id answers a call before it, and of the results of a name without an id
there are no more than calls without one. -/
structure PairedHistory (parts : List GeminiPart) : Prop where
  distinct : (ownCallIDs parts).Nodup
  answersEarlier : Everywhere (fun before x => ∀ id name, x.response? = some (id, name) → id ≠ "" →
    ∃ p ∈ before, ∃ n, p.call? = some (id, n)) parts
  idless : Everywhere (fun before x => ∀ name, x.response? = some ("", name) →
    name ≠ "" ∧ countResponses name before < countCalls name before) parts

theorem ownCallIDs_concat (parts : List GeminiPart) (part : GeminiPart) :
    ownCallIDs (parts ++ [part]) = ownCallIDs parts ++ ownCallIDs [part] := by
  rw [ownCallIDs, List.filterMap_append, List.filter_append]
  rfl

variable {parts : List GeminiPart} {given : List Given}

theorem PairedHistory.init {last : GeminiPart} (h : PairedHistory (parts ++ [last])) : PairedHistory parts where
  distinct := by
    have := h.distinct
    rw [ownCallIDs_concat] at this
    exact this.of_append_left
  answersEarlier := (everywhere_concat.mp h.answersEarlier).1
  idless := (everywhere_concat.mp h.idless).1

/-- A call that was given an id, and one with an id of its own. -/
theorem mem_calledIDs : id ∈ calledIDs given ↔ ∃ e ∈ given, e.1.call?.isSome ∧ e.2 = id := by
  rw [calledIDs, calledPairs, List.mem_map]
  constructor
  · rintro ⟨call, hcall, rfl⟩
    obtain ⟨e, he, hmap⟩ := List.mem_filterMap.mp hcall
    obtain ⟨c, hc, rfl⟩ := Option.map_eq_some_iff.mp hmap
    exact ⟨e, he, by rw [hc]; rfl, rfl⟩
  · rintro ⟨e, he, hsome, rfl⟩
    obtain ⟨c, hc⟩ := Option.isSome_iff_exists.mp hsome
    exact ⟨(e.2, c.2), List.mem_filterMap.mpr ⟨e, he, by rw [hc]; rfl⟩, rfl⟩

theorem mem_answeredIDs : id ∈ answeredIDs given ↔ ∃ e ∈ given, e.1.response?.isSome ∧ e.2 = id := by
  rw [answeredIDs, List.mem_filterMap]
  refine exists_congr fun e => and_congr_right fun _ => ?_
  cases e.1.response? <;> simp

theorem id_of_call? {part : GeminiPart} {id name : String} (h : part.call? = some (id, name)) : part.id = id := by
  cases part <;> cases h
  rfl

theorem id_of_response? {part : GeminiPart} {id name : String} (h : part.response? = some (id, name)) :
    part.id = id := by
  cases part <;> cases h
  rfl

theorem mem_ownCallIDs : id ∈ ownCallIDs parts ↔ id ≠ "" ∧ ∃ p ∈ parts, ∃ name, p.call? = some (id, name) := by
  rw [ownCallIDs, List.mem_filter, List.mem_filterMap, and_comm]
  refine and_congr (by simp) (exists_congr fun p => and_congr_right fun _ => ?_)
  cases p.call? with
  | none => simp
  | some call =>
    obtain ⟨i, name⟩ := call
    simp

section Runs

variable {requestIDs : List String} {parts : List GeminiPart}

variable {h : GeminiFunctionCallHistory}

theorem Tracked.not_called {given : List Given} (ht : Tracked requestIDs h given)
    (hparts : given.map Prod.fst = parts) {id : String} (hid : id ∈ requestIDs) (hnew : id ∉ ownCallIDs parts) :
    id ∉ calledIDs given := by
  intro hmem
  obtain ⟨e, he, hsome, rfl⟩ := mem_calledIDs.mp hmem
  obtain ⟨⟨own, name⟩, hcall⟩ := Option.isSome_iff_exists.mp hsome
  by_cases hown : own = ""
  · exact ht.fresh e he name (hown ▸ hcall) hid
  · have hkept := ht.kept e he (by rwa [id_of_call? hcall])
    rw [id_of_call? hcall] at hkept
    rw [hkept] at hnew
    exact hnew (mem_ownCallIDs.mpr ⟨hown, e.1, hparts ▸ List.mem_map_of_mem he, name, hcall⟩)

theorem Tracked.give {given : List Given} (ht : Tracked requestIDs h given) (hparts : given.map Prod.fst = parts)
    {part : GeminiPart} (hhistory : PairedHistory (parts ++ [part])) (hrequest : part.id ≠ "" → part.id ∈ requestIDs) :
    Tracked requestIDs (h.give part).2 (given ++ [(part, (h.give part).1)]) := by
  have hreserved : ∀ i, i ∈ h.reservedIDs ∨ i = h.newFallbackID.1 → i ∈ h.newFallbackID.2.reservedIDs := by
    rintro i (hi | rfl)
    · exact List.mem_cons_of_mem _ hi
    · exact List.mem_cons_self
  have hfree := h.newFallbackID_free
  cases part with
  | text | inlineData | fileData => exact ht.other rfl rfl rfl
  | functionCall id name arguments =>
    show Tracked requestIDs (h.add id name).2 (given ++ [(_, (h.add id name).1)])
    unfold GeminiFunctionCallHistory.add
    by_cases hid : id = ""
    · rw [if_pos hid]
      exact ht.call (fun hmem => hfree (ht.called _ hmem)) (fun hmem => hfree (ht.answered _ hmem))
        (fun hne => absurd hid hne) (fun _ hmem => hfree (ht.request _ hmem)) hreserved rfl
    · rw [if_neg hid]
      have hnew : id ∉ calledIDs given := by
        apply ht.not_called hparts (hrequest hid)
        have hdistinct := hhistory.distinct
        rw [ownCallIDs_concat] at hdistinct
        have hself : id ∈ ownCallIDs [GeminiPart.functionCall id name arguments] :=
          mem_ownCallIDs.mpr ⟨hid, _, List.mem_singleton_self _, name, rfl⟩
        exact fun hmem => (List.nodup_append'.mp hdistinct).2.2 hmem hself
      refine ht.call hnew (fun hmem => (ht.madeUp id hmem).elim hnew fun hno => hno (hrequest hid)) (fun _ => rfl)
        (fun hempty => absurd hempty hid) ?_ rfl
      rintro i (hi | rfl)
      · exact hi
      · exact ht.request i (hrequest hid)
  | functionResponse id name response =>
    show Tracked requestIDs (h.answer id name).2 (given ++ [(_, (h.answer id name).1)])
    unfold GeminiFunctionCallHistory.answer
    by_cases hid : id = ""
    · rw [if_neg (not_not.mpr hid)]
      cases hfind : h.pending.find? fun call => name = "" ∨ call.2 = name with
      | some call =>
        have hmem : call.1 ∈ calledIDs given := by
          have hcall := List.mem_of_find?_eq_some hfind
          rw [ht.pending] at hcall
          exact List.mem_map_of_mem (List.mem_filter.mp hcall).1
        refine ht.answer (fun hne => absurd hid hne) (.inl hmem) ?_ (eraseP_eq_filter ht.nodup_pending hfind)
        rintro i (hi | rfl)
        · exact hi
        · exact ht.called _ hmem
      | none =>
        refine ht.answer (fun hne => absurd hid hne) (.inr fun hmem => hfree (ht.request _ hmem)) hreserved ?_
        symm
        apply List.filter_eq_self.mpr
        intro call hcall
        rw [ht.pending] at hcall
        have hmem := ht.called call.1 (List.mem_map_of_mem (List.mem_filter.mp hcall).1)
        have hne : call.1 ≠ h.newFallbackID.1 := fun heq => hfree (heq ▸ hmem)
        simpa using hne
    · rw [if_pos hid]
      obtain ⟨p, hp, n, hcall⟩ := (everywhere_concat.mp hhistory.answersEarlier).2 id name rfl hid
      have hmem : id ∈ calledIDs given := by
        rw [← hparts] at hp
        obtain ⟨e, he, rfl⟩ := List.mem_map.mp hp
        have hkept := ht.kept e he (by rwa [id_of_call? hcall])
        exact mem_calledIDs.mpr ⟨e, he, by rw [hcall]; rfl, by rw [hkept, id_of_call? hcall]⟩
      refine ht.answer (fun _ => rfl) (.inl hmem) ?_ ?_
      · rintro i (hi | rfl)
        · exact hi
        · exact ht.called _ hmem
      · show h.pending.eraseP (fun call => call.1 = id) = _
        cases hfind : h.pending.find? fun call => call.1 = id with
        | some call =>
          rw [eraseP_eq_filter ht.nodup_pending hfind]
          have : call.1 = id := by simpa using List.find?_some hfind
          rw [this]
        | none =>
          have hnone := List.find?_eq_none.mp hfind
          rw [List.eraseP_of_forall_not fun call hcall => by simpa using hnone call hcall]
          symm
          exact List.filter_eq_self.mpr fun call hcall => by simpa using hnone call hcall

theorem tracked_givenAfter (hhistory : PairedHistory parts) (hrequest : ∀ p ∈ parts, p.id ≠ "" → p.id ∈ requestIDs) :
    (givenAfter requestIDs parts).2.map Prod.fst = parts ∧
      Tracked requestIDs (givenAfter requestIDs parts).1 (givenAfter requestIDs parts).2 := by
  induction parts using List.reverseRecOn with
  | nil => exact ⟨rfl, tracked_nil requestIDs⟩
  | append_singleton parts part ih =>
    obtain ⟨hparts, ht⟩ := ih hhistory.init fun p hp => hrequest p (List.mem_append_left _ hp)
    rw [givenAfter_concat]
    refine ⟨?_, ht.give hparts hhistory (hrequest part (List.mem_append_right _ (List.mem_singleton_self _)))⟩
    show ((givenAfter requestIDs parts).2 ++ [_]).map Prod.fst = _
    rw [List.map_append, hparts]
    rfl

end Runs

/-! ## Results in the order of the calls -/

/-- The call without an id that is next in turn: every call of the name before it that has its own id was answered. -/
def PairedAt (before : List GeminiPart) (name : String) : Prop :=
  ∀ first call second, before = first ++ call :: second → call.call? = some ("", name) →
    countCalls name first = countResponses name before →
    ∀ p ∈ first, ∀ id, p.call? = some (id, name) → id ≠ "" → ∃ q ∈ before, ∃ n, q.response? = some (id, n)

def PairedBefore (parts : List GeminiPart) : Prop :=
  Everywhere (fun before x => ∀ name, x.response? = some ("", name) → PairedAt before name) parts

/-- The results without an id have the ids of the calls without one, in their order. -/
def InOrder (given : List Given) : Prop := ∀ name, idlessAnswers name given <+: idlessCalls name given

variable (name : String)

theorem idlessCalls_append (a b : List Given) :
    idlessCalls name (a ++ b) = idlessCalls name a ++ idlessCalls name b := List.filterMap_append

theorem idlessAnswers_append (a b : List Given) :
    idlessAnswers name (a ++ b) = idlessAnswers name a ++ idlessAnswers name b := List.filterMap_append

theorem length_idlessCalls (given : List Given) :
    (idlessCalls name given).length = countCalls name (given.map Prod.fst) := by
  rw [countCalls, List.countP_map]
  induction given with
  | nil => rfl
  | cons e rest ih =>
    rw [List.countP_cons, ← ih]
    unfold idlessCalls
    rw [List.filterMap_cons]
    by_cases h : e.1.call? = some ("", name) <;> simp [h]

theorem length_idlessAnswers (given : List Given) :
    (idlessAnswers name given).length = countResponses name (given.map Prod.fst) := by
  rw [countResponses, List.countP_map]
  induction given with
  | nil => rfl
  | cons e rest ih =>
    rw [List.countP_cons, ← ih]
    unfold idlessAnswers
    rw [List.filterMap_cons]
    by_cases h : e.1.response? = some ("", name) <;> simp [h]

theorem mem_idlessCalls {name id : String} :
    id ∈ idlessCalls name given ↔ ∃ e ∈ given, e.1.call? = some ("", name) ∧ e.2 = id := by
  rw [idlessCalls, List.mem_filterMap]
  refine exists_congr fun e => and_congr_right fun _ => ?_
  by_cases h : e.1.call? = some ("", name) <;> simp [h]

theorem mem_idlessAnswers {name id : String} :
    id ∈ idlessAnswers name given ↔ ∃ e ∈ given, e.1.response? = some ("", name) ∧ e.2 = id := by
  rw [idlessAnswers, List.mem_filterMap]
  refine exists_congr fun e => and_congr_right fun _ => ?_
  by_cases h : e.1.response? = some ("", name) <;> simp [h]

theorem mem_calledPairs {call : String × String} :
    call ∈ calledPairs given ↔ ∃ e ∈ given, ∃ own, e.1.call? = some (own, call.2) ∧ e.2 = call.1 := by
  rw [calledPairs, List.mem_filterMap]
  refine exists_congr fun e => and_congr_right fun _ => ?_
  rw [Option.map_eq_some_iff]
  constructor
  · rintro ⟨⟨own, name⟩, hcall, rfl⟩
    exact ⟨own, hcall, rfl⟩
  · rintro ⟨own, hcall, hid⟩
    exact ⟨(own, call.2), hcall, by rw [hid]⟩

theorem exists_split {p : α → Bool} {l : List α} {k : ℕ} (hk : k < l.countP p) :
    ∃ first x second, l = first ++ x :: second ∧ p x = true ∧ first.countP p = k := by
  induction l generalizing k with
  | nil => simp at hk
  | cons a l ih =>
    by_cases ha : p a = true
    · cases k with
      | zero => exact ⟨[], a, l, rfl, ha, rfl⟩
      | succ k =>
        rw [List.countP_cons_of_pos ha] at hk
        obtain ⟨first, x, second, rfl, hx, hcount⟩ := ih (Nat.lt_of_succ_lt_succ hk)
        exact ⟨a :: first, x, second, rfl, hx, by rw [List.countP_cons_of_pos ha, hcount]⟩
    · rw [List.countP_cons_of_neg ha] at hk
      obtain ⟨first, x, second, rfl, hx, hcount⟩ := ih hk
      exact ⟨a :: first, x, second, rfl, hx, by rw [List.countP_cons_of_neg ha, hcount]⟩

section Order

variable {requestIDs : List String} {parts : List GeminiPart} {h : GeminiFunctionCallHistory} {given : List Given}
  {name : String}

variable {id : String}

/-- An id of the request is answered by the results that have it. -/
theorem Tracked.answered_iff (ht : Tracked requestIDs h given) (hparts : given.map Prod.fst = parts)
    (horder : InOrder given) (hid : id ≠ "") (hrequest : id ∈ requestIDs) :
    id ∈ answeredIDs given ↔ ∃ q ∈ parts, ∃ n, q.response? = some (id, n) := by
  rw [mem_answeredIDs]
  constructor
  · rintro ⟨e, he, hsome, rfl⟩
    obtain ⟨⟨own, n⟩, hq⟩ := Option.isSome_iff_exists.mp hsome
    by_cases hown : own = ""
    · -- a result without an id has that of a call without one
      have hmem := (horder n).mem (mem_idlessAnswers.mpr ⟨e, he, hown ▸ hq, rfl⟩)
      obtain ⟨c, hc, hcall, heq⟩ := mem_idlessCalls.mp hmem
      exact absurd (heq ▸ hrequest) (ht.fresh c hc n hcall)
    · have hkept := ht.kept e he (by rwa [id_of_response? hq])
      rw [id_of_response? hq] at hkept
      exact ⟨e.1, hparts ▸ List.mem_map_of_mem he, n, by rw [hq, hkept]⟩
  · rintro ⟨q, hq, n, hresp⟩
    rw [← hparts] at hq
    obtain ⟨e, he, rfl⟩ := List.mem_map.mp hq
    have hkept := ht.kept e he (by rwa [id_of_response? hresp])
    exact ⟨e, he, by rw [hresp]; rfl, by rw [hkept, id_of_response? hresp]⟩

theorem Tracked.name_unique (ht : Tracked requestIDs h given) {id m n : String} (hm : id ∈ idlessCalls m given)
    (hn : id ∈ idlessCalls n given) : m = n := by
  obtain ⟨c, hc, hcalled, hid⟩ := mem_idlessCalls.mp hm
  obtain ⟨d, hd, hcalled', hid'⟩ := mem_idlessCalls.mp hn
  have hpair : (id, m) = (id, n) :=
    List.inj_on_of_nodup_map ht.nodup (mem_calledPairs.mpr ⟨c, hc, "", hcalled, hid⟩)
      (mem_calledPairs.mpr ⟨d, hd, "", hcalled', hid'⟩) rfl
  exact congrArg Prod.snd hpair

theorem idlessCalls_sublist (name : String) (given : List Given) :
    (idlessCalls name given).Sublist (calledIDs given) := by
  unfold calledIDs calledPairs idlessCalls
  rw [List.map_filterMap]
  induction given with
  | nil => exact List.Sublist.refl _
  | cons e rest ih =>
    rw [List.filterMap_cons, List.filterMap_cons]
    by_cases hcall : e.1.call? = some ("", name)
    · rw [if_pos hcall, hcall]
      exact ih.cons_cons _
    · rw [if_neg hcall]
      cases e.1.call? with
      | none => exact ih
      | some call => exact ih.cons _

theorem Tracked.nodup_idlessCalls (ht : Tracked requestIDs h given) (name : String) :
    (idlessCalls name given).Nodup := List.Nodup.sublist (idlessCalls_sublist name given) ht.nodup

variable {first second : List Given}

theorem Tracked.not_mem_first (ht : Tracked requestIDs h given) {call : GeminiPart} {id own : String}
    (hgiven : given = first ++ (call, id) :: second) (hcall : call.call? = some (own, name)) :
    id ∉ calledIDs first := by
  have hnodup := ht.nodup
  rw [hgiven, calledIDs, calledPairs, List.filterMap_append, List.map_append] at hnodup
  have hself : id ∈ calledIDs ((call, id) :: second) :=
    mem_calledIDs.mpr ⟨(call, id), List.mem_cons_self, by rw [hcall]; rfl, rfl⟩
  exact fun hmem => (List.nodup_append'.mp hnodup).2.2 hmem hself

/-- The id of the next call in turn was not given to a result. -/
theorem Tracked.next_open (ht : Tracked requestIDs h given)
    (hrequest : ∀ e ∈ given, e.1.id ≠ "" → e.1.id ∈ requestIDs) (horder : InOrder given) {call : GeminiPart}
    (hgiven : given = first ++ (call, id) :: second) (hcall : call.call? = some ("", name))
    (hfirst : idlessCalls name first = idlessAnswers name given) : id ∉ answeredIDs given := by
  have hmem : (call, id) ∈ given := hgiven ▸ List.mem_append_right _ List.mem_cons_self
  intro hanswered
  obtain ⟨e, he, hsome, hid⟩ := mem_answeredIDs.mp hanswered
  obtain ⟨⟨own, n⟩, hq⟩ := Option.isSome_iff_exists.mp hsome
  by_cases hown : own = ""
  · have hanswer : id ∈ idlessAnswers n given := mem_idlessAnswers.mpr ⟨e, he, hown ▸ hq, hid⟩
    have hn : n = name :=
      ht.name_unique ((horder n).mem hanswer) (mem_idlessCalls.mpr ⟨(call, id), hmem, hcall, rfl⟩)
    rw [hn, ← hfirst] at hanswer
    obtain ⟨c, hc, hcalled, heq⟩ := mem_idlessCalls.mp hanswer
    exact ht.not_mem_first hgiven hcall (mem_calledIDs.mpr ⟨c, hc, by rw [hcalled]; rfl, heq⟩)
  · have hresponse : e.1.id = own := id_of_response? hq
    have hkept := ht.kept e he (by rwa [hresponse])
    apply ht.fresh (call, id) hmem name hcall
    show id ∈ requestIDs
    rw [← hid, hkept]
    exact hrequest e he (by rwa [hresponse])

/-- A result without an id is given that of the next call in turn, exactly when the calls before it that have their own
were answered. -/
theorem Tracked.answer_eq_iff (ht : Tracked requestIDs h given)
    (hrequest : ∀ e ∈ given, e.1.id ≠ "" → e.1.id ∈ requestIDs) (horder : InOrder given) (hname : name ≠ "")
    {call : GeminiPart} (hgiven : given = first ++ (call, id) :: second) (hcall : call.call? = some ("", name))
    (hfirst : idlessCalls name first = idlessAnswers name given) : (h.answer "" name).1 = id ↔
      ∀ e ∈ first, ∀ own, e.1.call? = some (own, name) → own ≠ "" → own ∈ answeredIDs given := by
  have hopen := ht.next_open hrequest horder hgiven hcall hfirst
  let isOpen : String × String → Bool := fun c => c.1 ∉ answeredIDs given && c.2 = name
  have hfind : h.pending.find? (fun c => name = "" ∨ c.2 = name) =
      ((calledPairs first).find? isOpen).or (some (id, name)) := by
    have hnext : isOpen (id, name) = true := by simp [isOpen, hopen]
    have hpairs : calledPairs given = calledPairs first ++ (id, name) :: calledPairs second := by
      rw [hgiven, calledPairs, List.filterMap_append, List.filterMap_cons_some (b := (id, name)) (by rw [hcall]; rfl)]
      rfl
    rw [ht.pending, hpairs, List.find?_filter, List.find?_append]
    congr 1
    · congr 1
      funext c
      simp [isOpen, hname]
    · rw [List.find?_cons_of_pos]
      simpa [isOpen] using hnext
  have hanswer : (h.answer "" name).1 = (((calledPairs first).find? isOpen).getD (id, name)).1 := by
    rw [GeminiFunctionCallHistory.answer, if_neg (not_not.mpr rfl), hfind]
    cases (calledPairs first).find? isOpen <;> rfl
  rw [hanswer]
  constructor
  · intro heq e he own hown hne
    by_contra hno
    have hkept := ht.kept e (hgiven ▸ List.mem_append_left _ he) (by rwa [id_of_call? hown])
    rw [id_of_call? hown] at hkept
    have hmem : (own, name) ∈ calledPairs first := mem_calledPairs.mpr ⟨e, he, own, hown, hkept⟩
    cases hfound : (calledPairs first).find? isOpen with
    | none => exact absurd (List.find?_eq_none.mp hfound _ hmem) (by simp [isOpen, hno])
    | some other =>
      rw [hfound, Option.getD_some] at heq
      apply ht.not_mem_first hgiven hcall
      rw [← heq]
      exact List.mem_map_of_mem (List.mem_of_find?_eq_some hfound)
  · intro hall
    have hnone : (calledPairs first).find? isOpen = none := by
      rw [List.find?_eq_none]
      intro c hc hopen'
      obtain ⟨hno, hcname⟩ : c.1 ∉ answeredIDs given ∧ c.2 = name := by simpa [isOpen] using hopen'
      obtain ⟨e, he, own, hown, hid⟩ := mem_calledPairs.mp hc
      rw [hcname] at hown
      by_cases hempty : own = ""
      · have hin : c.1 ∈ idlessCalls name first := mem_idlessCalls.mpr ⟨e, he, hempty ▸ hown, hid⟩
        rw [hfirst] at hin
        obtain ⟨r, hr, hresp, hrid⟩ := mem_idlessAnswers.mp hin
        exact hno (mem_answeredIDs.mpr ⟨r, hr, by rw [hresp]; rfl, hrid⟩)
      · have hkept := ht.kept e (hgiven ▸ List.mem_append_left _ he) (by rwa [id_of_call? hown])
        rw [id_of_call? hown] at hkept
        exact hno (by rw [← hid, hkept]; exact hall e he own hown hempty)
    rw [hnone]
    rfl

/-- The results so far and one more are in order exactly when it is the turn of a call without an id. -/
theorem Tracked.response_iff (ht : Tracked requestIDs h given)
    (hrequest : ∀ e ∈ given, e.1.id ≠ "" → e.1.id ∈ requestIDs) (hparts : given.map Prod.fst = parts)
    (horder : InOrder given) (hname : name ≠ "") (hcount : countResponses name parts < countCalls name parts) :
    idlessAnswers name given ++ [(h.answer "" name).1] <+: idlessCalls name given ↔ PairedAt parts name := by
  -- at every place where the next call in turn can stand
  have hat : ∀ first call second, parts = first ++ call :: second → call.call? = some ("", name) →
      countCalls name first = countResponses name parts →
      (idlessAnswers name given ++ [(h.answer "" name).1] <+: idlessCalls name given ↔
        ∀ p ∈ first, ∀ id, p.call? = some (id, name) → id ≠ "" → ∃ q ∈ parts, ∃ n, q.response? = some (id, n)) := by
    intro first call second hsplit hcall hfirst
    obtain ⟨g₁, rest, hgiven, rfl, hrest⟩ := List.map_eq_append_iff.mp (hparts.trans hsplit)
    obtain ⟨⟨p, c⟩, g₂, rfl, rfl, rfl⟩ := List.map_eq_cons_iff.mp hrest
    have hcalls : idlessCalls name given = idlessCalls name g₁ ++ c :: idlessCalls name g₂ := by
      rw [hgiven, idlessCalls_append]
      congr 1
      rw [idlessCalls, List.filterMap_cons, if_pos hcall]
      rfl
    have hturn : idlessCalls name g₁ = idlessAnswers name given := by
      have hlength : (idlessAnswers name given).length = (idlessCalls name g₁).length := by
        rw [length_idlessAnswers, length_idlessCalls, hparts, hfirst]
      have hinits := List.prefix_of_prefix_length_le (horder name) (hcalls ▸ List.prefix_append _ _) hlength.le
      exact (hinits.eq_of_length hlength).symm
    rw [hcalls, hturn, List.prefix_append_right_inj, List.cons_prefix_cons, and_iff_left List.nil_prefix,
      ht.answer_eq_iff hrequest horder hname hgiven hcall hturn]
    constructor
    · intro hall p hp id hown hne
      obtain ⟨e, he, rfl⟩ := List.mem_map.mp hp
      have hid : id ∈ requestIDs := by
        have := hrequest e (hgiven ▸ List.mem_append_left _ he) (by rwa [id_of_call? hown])
        rwa [id_of_call? hown] at this
      exact (ht.answered_iff hparts horder hne hid).mp (hall e he id hown hne)
    · intro hall e he own hown hne
      have hid : own ∈ requestIDs := by
        have := hrequest e (hgiven ▸ List.mem_append_left _ he) (by rwa [id_of_call? hown])
        rwa [id_of_call? hown] at this
      exact (ht.answered_iff hparts horder hne hid).mpr (hall e.1 (List.mem_map_of_mem he) own hown hne)
  constructor
  · intro hinits first call second hsplit hcall hfirst
    exact (hat first call second hsplit hcall hfirst).mp hinits
  · intro hpaired
    obtain ⟨first, call, second, hsplit, hcall, hfirst⟩ := exists_split hcount
    have hcall' : call.call? = some ("", name) := by simpa using hcall
    exact (hat first call second hsplit hcall' hfirst).mpr (hpaired first call second hsplit hcall' hfirst)

end Order

theorem PairedHistory.count_le (h : PairedHistory parts) (name : String) :
    countResponses name parts ≤ countCalls name parts := by
  induction parts using List.reverseRecOn with
  | nil => exact Nat.le_refl _
  | append_singleton parts part ih =>
    have hrest := ih h.init
    have hlast := (everywhere_concat.mp h.idless).2 name
    rw [countResponses, countCalls, List.countP_append, List.countP_append, List.countP_singleton,
      List.countP_singleton]
    by_cases hresp : part.response? = some ("", name)
    · have := (hlast hresp).2
      rw [if_pos (by simpa using hresp)]
      unfold countResponses countCalls at this
      omega
    · rw [if_neg (by simpa using hresp)]
      unfold countResponses countCalls at hrest
      omega

/-- The results without an id are given the ids of the calls without one, in their order, exactly when each comes at its
turn. -/
theorem inOrder_iff {requestIDs : List String} (hhistory : PairedHistory parts)
    (hrequest : ∀ p ∈ parts, p.id ≠ "" → p.id ∈ requestIDs) :
    InOrder (givenAfter requestIDs parts).2 ↔ PairedBefore parts := by
  induction parts using List.reverseRecOn with
  | nil => exact iff_of_true (fun name => List.nil_prefix) (everywhere_nil _)
  | append_singleton parts part ih =>
    have hinit := hhistory.init
    have hrequest' : ∀ p ∈ parts, p.id ≠ "" → p.id ∈ requestIDs := fun p hp => hrequest p (List.mem_append_left _ hp)
    obtain ⟨hparts, ht⟩ := tracked_givenAfter hinit hrequest'
    have hgivenRequest : ∀ e ∈ (givenAfter requestIDs parts).2, e.1.id ≠ "" → e.1.id ∈ requestIDs := fun e he =>
      hrequest' e.1 (hparts ▸ List.mem_map_of_mem he)
    rw [PairedBefore, everywhere_concat, ← PairedBefore, ← ih hinit hrequest', givenAfter_concat]
    generalize givenAfter requestIDs parts = state at hparts ht hgivenRequest
    obtain ⟨h, given⟩ := state
    dsimp only at hparts ht hgivenRequest
    show InOrder (given ++ [(part, (h.give part).1)]) ↔ _
    have hcalls (n : String) : idlessCalls n given <+: idlessCalls n (given ++ [(part, (h.give part).1)]) := by
      rw [idlessCalls_append]
      exact List.prefix_append _ _
    have hlength (n : String) : (idlessAnswers n given).length ≤ (idlessCalls n given).length := by
      rw [length_idlessAnswers, length_idlessCalls, hparts]
      exact hinit.count_le n
    by_cases hresp : ∃ name, part.response? = some ("", name)
    · obtain ⟨name, hname⟩ := hresp
      obtain ⟨hne, hcount⟩ := (everywhere_concat.mp hhistory.idless).2 name hname
      have hgive : (h.give part).1 = (h.answer "" name).1 := by
        cases part <;> cases hname
        rfl
      have hsame (n : String) : idlessCalls n (given ++ [(part, (h.give part).1)]) = idlessCalls n given := by
        have hno : part.call? = none := by
          cases part <;> cases hname
          rfl
        rw [idlessCalls_append, idlessCalls, idlessCalls, List.filterMap_cons, if_neg (by simp [hno])]
        exact List.append_nil _
      have hown : idlessAnswers name (given ++ [(part, (h.give part).1)]) =
          idlessAnswers name given ++ [(h.answer "" name).1] := by
        rw [idlessAnswers_append, ← hgive]
        congr 1
        rw [idlessAnswers, List.filterMap_cons, if_pos hname]
        rfl
      have hothers {n : String} (hn : n ≠ name) :
          idlessAnswers n (given ++ [(part, (h.give part).1)]) = idlessAnswers n given := by
        have hno : part.response? ≠ some ("", n) := by
          rw [hname]
          simpa using hn.symm
        rw [idlessAnswers_append, idlessAnswers, idlessAnswers, List.filterMap_cons, if_neg hno]
        exact List.append_nil _
      constructor
      · intro hnew
        have hold : InOrder given := fun n => by
          have hpre := hnew n
          rw [hsame] at hpre
          by_cases hn : n = name
          · subst hn
            rw [hown] at hpre
            exact (List.prefix_append _ _).trans hpre
          · rwa [hothers hn] at hpre
        refine ⟨hold, fun name' heq => ?_⟩
        have hpre := hnew name
        rw [hsame, hown, ht.response_iff hgivenRequest hparts hold hne hcount] at hpre
        rw [hname] at heq
        cases heq
        exact hpre
      · rintro ⟨hold, hat⟩ n
        rw [hsame]
        by_cases hn : n = name
        · subst hn
          rw [hown]
          exact (ht.response_iff hgivenRequest hparts hold hne hcount).mpr (hat n hname)
        · rw [hothers hn]
          exact hold n
    · -- no result is added, and calls are added behind those there are
      have hanswers (n : String) :
          idlessAnswers n (given ++ [(part, (h.give part).1)]) = idlessAnswers n given := by
        have hno : part.response? ≠ some ("", n) := fun heq => hresp ⟨n, heq⟩
        rw [idlessAnswers_append, idlessAnswers, idlessAnswers, List.filterMap_cons, if_neg hno]
        exact List.append_nil _
      rw [and_iff_left fun name heq => absurd ⟨name, heq⟩ hresp]
      refine forall_congr' fun n => ?_
      rw [hanswers]
      exact ⟨fun hpre => List.prefix_of_prefix_length_le hpre (hcalls n) (hlength n), fun hpre => hpre.trans (hcalls n)⟩

end Vancine.ChatRequests
