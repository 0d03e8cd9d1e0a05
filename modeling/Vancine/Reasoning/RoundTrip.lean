import Vancine.Reasoning.Intent

/-!
# Reasoning controls over a pivot

An intent that is written to an empty request is read back from it. The chat request keeps all of it. The Responses
request asks for a summary of its own where nothing is said of the thoughts, and that is read as a wish to see them.
-/

namespace Vancine.Reasoning

open Lib

/-! ## Normal intents -/

/-- What `normalizeIntent` makes of an intent. -/
structure Normal (i : Intent) : Prop where
  effort : i.effort = "" ∨ i.effort ∈ efforts
  mode : i.mode ∈ modes
  budget : ∀ b, i.budgetTokens = some b → -1 ≤ b ∧
    if b = 0 then i.mode = "disabled" ∧ i.effort = "none"
    else i.mode ≠ "disabled" ∧ i.mode ≠ "" ∧ i.effort ≠ "none"
  none : i.effort = "none" → i.mode = "disabled"

variable {lowerRune : Char → Char} {i j : Intent}

theorem disabled_mem : "disabled" ∈ modes := by decide

theorem enabled_mem : "enabled" ∈ modes := by decide

theorem none_mem : "none" ∈ efforts := by decide

theorem enabled_ne_disabled : "enabled" ≠ "disabled" := by decide

theorem enabled_ne_unset : "enabled" ≠ "" := by decide

theorem parseEffort_self {e : String} (he : e = "" ∨ e ∈ efforts) : parseEffort lowerRune e = .ok e := by
  have hletters : ("" :: efforts).all fun e =>
      e.toList.all fun c => !isSpace c && decide (c.toNat < 128) && c.toLower == c := by decide
  have hthis : ∀ c ∈ e.toList, (isSpace c = false ∧ c.toNat < 128) ∧ c.toLower = c := by
    simpa using List.all_eq_true.mp (List.all_eq_true.mp hletters e (List.mem_cons.mpr he))
  have htrim : trimSpace e = e := trimSpace_of_no_space fun c hc => (hthis c hc).1.1
  have hlower : toLower lowerRune e = e :=
    toLower_of_lower lowerRune fun c hc => ⟨(hthis c hc).1.2, (hthis c hc).2⟩
  rw [parseEffort, htrim, hlower, if_pos he]

theorem parseEffort_ok {value e : String} (h : parseEffort lowerRune value = .ok e) : e = "" ∨ e ∈ efforts := by
  simp only [parseEffort] at h
  split at h
  · next he =>
    cases h
    exact he
  · cases h

theorem Normal.normalizeBudget (h : Normal i) : normalizeBudget i = .ok i := by
  unfold Reasoning.normalizeBudget
  split
  · rfl
  · next b hb =>
    obtain ⟨hlow, hrest⟩ := h.budget b hb
    rw [if_neg (by omega)]
    by_cases hzero : b = 0
    · rw [if_pos hzero] at hrest ⊢
      obtain ⟨hmode, heffort⟩ := hrest
      rw [hmode, heffort, if_neg (by decide)]
      cases i
      cases hmode
      cases heffort
      rfl
    · rw [if_neg hzero] at hrest ⊢
      rw [if_neg (not_or.mpr ⟨hrest.1, hrest.2.2⟩), if_neg hrest.2.1]

theorem Normal.normalizeIntent (h : Normal i) : normalizeIntent lowerRune i = .ok i := by
  unfold Reasoning.normalizeIntent
  rw [parseEffort_self h.effort]
  show (if i.mode ∉ modes then _ else _) = _
  rw [if_neg (not_not.mpr h.mode)]
  show (Reasoning.normalizeBudget i).bind _ = _
  rw [h.normalizeBudget]
  show (if i.effort = "none" then _ else _) = _
  split
  · next heffort =>
    have hmode := h.none heffort
    rw [hmode, if_neg (by decide)]
    cases i
    cases hmode
    rfl
  · rfl

theorem normalizeBudget_ok (heffort : i.effort = "" ∨ i.effort ∈ efforts) (hmode : i.mode ∈ modes)
    (h : normalizeBudget i = .ok j) :
    j.includeThoughts = i.includeThoughts ∧ j.mode ∈ modes ∧ (j.effort = "" ∨ j.effort ∈ efforts) ∧
      ∀ b, j.budgetTokens = some b → -1 ≤ b ∧ if b = 0 then j.mode = "disabled" ∧ j.effort = "none"
        else j.mode ≠ "disabled" ∧ j.mode ≠ "" ∧ j.effort ≠ "none" := by
  unfold normalizeBudget at h
  split at h
  · next hnone =>
    cases h
    exact ⟨rfl, hmode, heffort, fun b hb => by rw [hnone] at hb; cases hb⟩
  · next budget hbudget =>
    have hb' : ∀ b, i.budgetTokens = some b → b = budget := fun b hb => Option.some.inj (hb.symm.trans hbudget)
    split at h
    · cases h
    · next hlow =>
      split at h
      · next hzero =>
        split at h
        · cases h
        · cases h
          refine ⟨rfl, disabled_mem, Or.inr none_mem, fun b hb => ?_⟩
          obtain rfl := hb' b hb
          rw [if_pos hzero]
          exact ⟨by omega, rfl, rfl⟩
      · next hzero =>
        split at h
        · cases h
        · next hon =>
          rw [not_or] at hon
          split at h
          · cases h
            refine ⟨rfl, enabled_mem, heffort, fun b hb => ?_⟩
            obtain rfl := hb' b hb
            rw [if_neg hzero]
            exact ⟨by omega, enabled_ne_disabled, enabled_ne_unset, hon.2⟩
          · next hset =>
            cases h
            refine ⟨rfl, hmode, heffort, fun b hb => ?_⟩
            obtain rfl := hb' b hb
            rw [if_neg hzero]
            exact ⟨by omega, hon.1, hset, hon.2⟩

theorem normalizeIntent_normal (h : normalizeIntent lowerRune i = .ok j) :
    Normal j ∧ j.includeThoughts = i.includeThoughts := by
  unfold normalizeIntent at h
  cases heffort : parseEffort lowerRune i.effort with
  | error e =>
    rw [heffort] at h
    cases h
  | ok effort =>
    rw [heffort] at h
    replace h : (if i.mode ∉ modes then _ else _) = Except.ok j := h
    split at h
    · cases h
    · next hmode =>
      rw [not_not] at hmode
      cases hbudget : normalizeBudget { i with effort } with
      | error e =>
        rw [hbudget] at h
        cases h
      | ok k =>
        obtain ⟨hinclude, hmode', heffort', hb⟩ :=
          normalizeBudget_ok (i := { i with effort }) (parseEffort_ok heffort) hmode hbudget
        rw [hbudget] at h
        replace h : (if k.effort = "none" then _ else _) = Except.ok j := h
        split at h
        · next hnone =>
          split at h
          · cases h
          · cases h
            refine ⟨⟨heffort', disabled_mem, fun b hsome => ⟨(hb b hsome).1, ?_⟩, fun _ => rfl⟩, hinclude⟩
            have hrest := (hb b hsome).2
            by_cases hzero : b = 0
            · rw [if_pos hzero]
              exact ⟨rfl, hnone⟩
            · -- no budget but zero goes with this effort
              rw [if_neg hzero] at hrest
              exact absurd hnone hrest.2.2
        · next hnone =>
          cases h
          exact ⟨⟨heffort', hmode', hb, fun h => absurd h hnone⟩, hinclude⟩

/-! ## The effort that stands for an intent -/

theorem Normal.of_controls (h : Normal i) (hmode : j.mode = i.mode) (heffort : j.effort = i.effort)
    (hbudget : j.budgetTokens = i.budgetTokens) : Normal j :=
  ⟨heffort ▸ h.effort, hmode ▸ h.mode, fun b hb => by rw [hmode, heffort]; exact h.budget b (hbudget ▸ hb),
    fun hnone => hmode ▸ h.none (heffort ▸ hnone)⟩

theorem effectiveEffort_mem (lowerRune : Char → Char) (i : Intent) :
    effectiveEffort lowerRune i = "" ∨ effectiveEffort lowerRune i ∈ efforts := by
  unfold effectiveEffort
  split
  · exact Or.inl rfl
  · next j hj =>
    split
    · exact Or.inr (by decide)
    · split
      · exact (normalizeIntent_normal hj).1.effort
      · split
        · unfold effortFromBudget
          split_ifs <;> exact Or.inr (by decide)
        · split
          · exact Or.inr (by decide)
          · exact Or.inl rfl

theorem Normal.effectiveEffort_eq (hi : Normal i) (hj : Normal j) (hmode : j.mode = i.mode)
    (heffort : j.effort = i.effort) (hbudget : j.budgetTokens = i.budgetTokens) :
    effectiveEffort lowerRune j = effectiveEffort lowerRune i := by
  unfold effectiveEffort
  rw [hi.normalizeIntent, hj.normalizeIntent]
  simp only [hmode, heffort, hbudget]

/-! ## Merging with what says nothing -/

/-- The same controls, wherever they come from. -/
structure SameControls (i j : Intent) : Prop where
  mode : i.mode = j.mode
  effort : i.effort = j.effort
  budgetTokens : i.budgetTokens = j.budgetTokens
  includeThoughts : i.includeThoughts = j.includeThoughts

/-- An intent that says at most whether to show the thoughts. -/
def onlyThoughts (includeThoughts : Option Bool) : Intent := { Intent.zero with source := .explicit, includeThoughts }

theorem normal_of_unset (heffort : i.effort = "") (hbudget : i.budgetTokens = none) (hmode : i.mode ∈ modes) :
    Normal i where
  effort := Or.inl heffort
  mode := hmode
  budget b hb := (Option.some_ne_none b (hb.symm.trans hbudget)).elim
  none h := absurd (heffort.symm.trans h) (by decide)

theorem normal_onlyThoughts (includeThoughts : Option Bool) : Normal (onlyThoughts includeThoughts) :=
  normal_of_unset rfl rfl List.mem_cons_self

theorem normal_zero : Normal Intent.zero := normal_of_unset rfl rfl List.mem_cons_self

theorem isEmpty_iff : i.isEmpty = true ↔ SameControls i Intent.zero := by
  simp only [Intent.isEmpty, Intent.hasStrength, Bool.and_eq_true, Bool.not_eq_true', Bool.or_eq_false_iff,
    decide_eq_false_iff_not, not_not, Option.isSome_eq_false_iff, Option.isNone_iff_eq_none]
  exact ⟨fun h => ⟨h.1.1.1, h.1.1.2, h.1.2, h.2⟩, fun h => ⟨⟨⟨h.mode, h.effort⟩, h.budgetTokens⟩, h.includeThoughts⟩⟩

theorem mergeExplicit_nothing (hi : Normal i) (hempty : i.isEmpty = true) (hj : Normal j) (model : String) :
    mergeExplicit lowerRune i j model = .ok j := by
  unfold mergeExplicit
  rw [hi.normalizeIntent, hj.normalizeIntent]
  show (if i.isEmpty = true then _ else _) = _
  rw [if_pos hempty]

theorem mergeExplicit_thoughts (hj : Normal j) (hne : j.isEmpty = false) (b : Bool) (model : String) :
    mergeExplicit lowerRune (onlyThoughts (some b)) j model = .ok { j with includeThoughts := some b } := by
  have hmerged : merged (onlyThoughts (some b)) j = { j with includeThoughts := some b } := rfl
  have hnormal : normalizeIntent lowerRune { j with includeThoughts := some b } = .ok _ :=
    Normal.normalizeIntent (hj.of_controls rfl rfl rfl)
  unfold mergeExplicit
  rw [(normal_onlyThoughts (some b)).normalizeIntent, hj.normalizeIntent]
  show (if j.isEmpty = true then _ else _) = _
  rw [hne, if_neg Bool.false_ne_true, ← hnormal, ← hmerged]
  rfl

/-! ## Chat -/

theorem normal_pivot (hj : Normal j) : Normal (pivot (pivotState j)) := hj.of_controls rfl rfl rfl

theorem effectiveEffort_pivot (hj : Normal j) :
    effectiveEffort lowerRune (pivot (pivotState j)) = effectiveEffort lowerRune j :=
  hj.effectiveEffort_eq (normal_pivot hj) rfl rfl rfl

/-- An intent without controls has no effort to stand for it. -/
theorem effectiveEffort_of_isEmpty (hj : Normal j) (h : j.isEmpty = true) : effectiveEffort lowerRune j = "" := by
  obtain ⟨hmode, heffort, hbudget, -⟩ := isEmpty_iff.mp h
  unfold effectiveEffort
  rw [hj.normalizeIntent]
  simp [hmode, heffort, hbudget, Intent.zero]

def carried (j : Intent) : Option ReasoningConversionState := if j.isEmpty then none else some (pivotState j)

theorem applyToOpenAIChat_empty (hj : normalizeIntent lowerRune i = .ok j) (model : String) :
    applyToOpenAIChat lowerRune ⟨model, "", none, none⟩ i =
      .ok ⟨model, effectiveEffort lowerRune j, none, carried j⟩ := by
  simp only [applyToOpenAIChat, hj, bind, Except.bind, pure, Except.pure, carried]
  by_cases heffort : effectiveEffort lowerRune j = "" <;> by_cases hempty : j.isEmpty = true <;>
    simp [heffort, hempty]

/-- The effort in the request is taken for the one that the state stands for. -/
theorem fromOpenAIChat_carried (hj : Normal j) (model : String) :
    ∃ back, fromOpenAIChat lowerRune ⟨model, effectiveEffort lowerRune j, none, carried j⟩ = .ok back ∧
      SameControls back j := by
  by_cases hempty : j.isEmpty = true
  · obtain ⟨hmode, heffort, hbudget, hinclude⟩ := isEmpty_iff.mp hempty
    rw [effectiveEffort_of_isEmpty hj hempty, carried, if_pos hempty]
    simp only [fromOpenAIChat, if_true, bind, Except.bind, pure, Except.pure]
    exact ⟨onlyThoughts none, (normal_onlyThoughts none).normalizeIntent, hmode.symm, heffort.symm, hbudget.symm,
      hinclude.symm⟩
  · refine ⟨pivot (pivotState j), ?_, rfl, rfl, rfl, rfl⟩
    rw [carried, if_neg hempty]
    by_cases heffort : effectiveEffort lowerRune j = ""
    · rw [heffort]
      simp only [fromOpenAIChat, if_true, bind, Except.bind, pure, Except.pure, ne_eq, not_true_eq_false, false_and,
        if_false]
      exact mergeExplicit_nothing (normal_onlyThoughts none) rfl (normal_pivot hj) model
    · simp only [fromOpenAIChat, if_neg heffort, parseEffort_self (effectiveEffort_mem lowerRune j), bind, Except.bind,
        pure, Except.pure, effectiveEffort_pivot hj]
      rw [if_pos ⟨heffort, trivial⟩]
      exact mergeExplicit_nothing (normal_onlyThoughts none) rfl (normal_pivot hj) model

/-! ## Responses -/

def summaryOf (lowerRune : Char → Char) (j : Intent) : String :=
  if effectiveEffort lowerRune j = "none" ∨ j.includeThoughts = some false then "" else "detailed"

theorem applyToOpenAIResponses_empty (hj : normalizeIntent lowerRune i = .ok j) (model : String) :
    applyToOpenAIResponses lowerRune ⟨model, none, none⟩ i = .ok ⟨model,
      if effectiveEffort lowerRune j = "" then none else some ⟨effectiveEffort lowerRune j, summaryOf lowerRune j⟩,
      carried j⟩ := by
  simp only [applyToOpenAIResponses, hj, bind, Except.bind, pure, Except.pure, carried, summaryOf]
  by_cases heffort : effectiveEffort lowerRune j = "" <;> by_cases hempty : j.isEmpty = true <;>
    simp [heffort, hempty]

/-- The thoughts that are read back. -/
def thoughtsBack (lowerRune : Char → Char) (j : Intent) : Option Bool :=
  if effectiveEffort lowerRune j = "" ∨ effectiveEffort lowerRune j = "none" ∨ j.includeThoughts = some false then
    j.includeThoughts
  else some true

/-- What the request itself says comes down to the thoughts when its effort is the one of the state. -/
theorem fromOpenAIResponses_pivot {state : ReasoningConversionState} {e : String} (he : e = "" ∨ e ∈ efforts)
    (hne : e ≠ "") (hpivot : e = effectiveEffort lowerRune (pivot state)) (model summary : String) :
    fromOpenAIResponses lowerRune ⟨model, some ⟨e, summary⟩, some state⟩ =
      mergeExplicit lowerRune (onlyThoughts (if summary ≠ "" then some true else none)) (pivot state) model := by
  have hintent : responsesIntent lowerRune (some ⟨e, summary⟩) = .ok
      { onlyThoughts (if summary ≠ "" then some true else none) with
        effort := e, mode := if e = "none" then "disabled" else "enabled" } := by
    unfold responsesIntent
    simp only [if_neg hne, parseEffort_self he, bind, Except.bind, pure, Except.pure]
    rfl
  unfold fromOpenAIResponses
  rw [hintent]
  show mergeExplicit lowerRune (if e ≠ "" ∧ e = effectiveEffort lowerRune (pivot state) then _ else _) _ _ = _
  rw [if_pos ⟨hne, hpivot⟩]
  rfl

theorem fromOpenAIResponses_carried (hj : Normal j) (model : String) : ∃ back, fromOpenAIResponses lowerRune ⟨model,
        if effectiveEffort lowerRune j = "" then none else some ⟨effectiveEffort lowerRune j, summaryOf lowerRune j⟩,
        carried j⟩ = .ok back ∧ SameControls back { j with includeThoughts := thoughtsBack lowerRune j } := by
  by_cases heffort : effectiveEffort lowerRune j = ""
  · rw [if_pos heffort, thoughtsBack, if_pos (Or.inl heffort), carried]
    by_cases hempty : j.isEmpty = true
    · obtain ⟨hmode, heffort, hbudget, hinclude⟩ := isEmpty_iff.mp hempty
      rw [if_pos hempty]
      exact ⟨Intent.zero, normal_zero.normalizeIntent, hmode.symm, heffort.symm, hbudget.symm, hinclude.symm⟩
    · rw [if_neg hempty]
      exact ⟨pivot (pivotState j), mergeExplicit_nothing normal_zero rfl (normal_pivot hj) model, rfl, rfl, rfl, rfl⟩
  · have hempty : j.isEmpty = false :=
      Bool.eq_false_iff.mpr fun h => heffort (effectiveEffort_of_isEmpty hj h)
    rw [if_neg heffort, carried, hempty, if_neg Bool.false_ne_true, fromOpenAIResponses_pivot
      (effectiveEffort_mem lowerRune j) heffort (effectiveEffort_pivot hj).symm, summaryOf, thoughtsBack]
    by_cases hsummary : effectiveEffort lowerRune j = "none" ∨ j.includeThoughts = some false
    · rw [if_pos hsummary, if_pos (Or.inr hsummary), if_neg (not_not.mpr rfl)]
      exact ⟨pivot (pivotState j), mergeExplicit_nothing (normal_onlyThoughts none) rfl (normal_pivot hj) model, rfl,
        rfl, rfl, rfl⟩
    · rw [if_neg hsummary, if_neg (not_or.mpr ⟨heffort, hsummary⟩), if_pos (by decide)]
      exact ⟨_, mergeExplicit_thoughts (normal_pivot hj) hempty true model, rfl, rfl, rfl, rfl⟩

/-! ## Both ways -/

/-- **Round trip.** The chat request gives the controls back. The Responses request does if and only if something is
said of the thoughts, or the effort that stands for the intent is empty or none. -/
theorem intent_round_trip (hj : normalizeIntent lowerRune i = .ok j) (model : String) :
    (∃ req back, applyToOpenAIChat lowerRune ⟨model, "", none, none⟩ i = .ok req ∧
      fromOpenAIChat lowerRune req = .ok back ∧ SameControls back j) ∧
    ((∃ req back, applyToOpenAIResponses lowerRune ⟨model, none, none⟩ i = .ok req ∧
        fromOpenAIResponses lowerRune req = .ok back ∧ SameControls back j) ↔
      i.includeThoughts ≠ none ∨ effectiveEffort lowerRune i = "" ∨ effectiveEffort lowerRune i = "none") := by
  obtain ⟨hnormal, hinclude⟩ := normalizeIntent_normal hj
  have heffort : effectiveEffort lowerRune i = effectiveEffort lowerRune j := by
    unfold effectiveEffort
    rw [hj, hnormal.normalizeIntent]
  obtain ⟨chatBack, hchat, hchatSame⟩ := @fromOpenAIChat_carried lowerRune j hnormal model
  obtain ⟨back, hback, hsame⟩ := @fromOpenAIResponses_carried lowerRune j hnormal model
  have hbackThoughts : back.includeThoughts = thoughtsBack lowerRune j := hsame.includeThoughts
  refine ⟨⟨_, chatBack, applyToOpenAIChat_empty hj model, hchat, hchatSame⟩, ?_⟩
  have hiff : thoughtsBack lowerRune j = j.includeThoughts ↔
      j.includeThoughts ≠ none ∨ effectiveEffort lowerRune j = "" ∨ effectiveEffort lowerRune j = "none" := by
    unfold thoughtsBack
    cases j.includeThoughts with
    | none => by_cases heffort : effectiveEffort lowerRune j = "" <;> simp [heffort]
    | some b => cases b <;> simp
  rw [heffort, ← hinclude, ← hiff]
  constructor
  · rintro ⟨req, back', happly, hfrom, hsame'⟩
    rw [applyToOpenAIResponses_empty hj model] at happly
    cases happly
    rw [hback] at hfrom
    cases hfrom
    rw [← hbackThoughts]
    exact hsame'.includeThoughts
  · intro hthoughts
    refine ⟨_, back, applyToOpenAIResponses_empty hj model, hback, hsame.mode, hsame.effort, hsame.budgetTokens, ?_⟩
    rw [hbackThoughts]
    exact hthoughts

/-! ## Thoughts that nobody asked for -/

/-- Reasoning without a word on the thoughts. -/
def enabledIntent : Intent := { Intent.zero with mode := "enabled" }

theorem normal_enabledIntent : Normal enabledIntent := normal_of_unset rfl rfl enabled_mem

/-- An intent that is disabled. -/
theorem intent_round_trip_disabled :
    ∃ req back, applyToOpenAIResponses id ⟨"gpt-5", none, none⟩ { Intent.zero with mode := "disabled" } = .ok req ∧
      fromOpenAIResponses id req = .ok back ∧ SameControls back { Intent.zero with mode := "disabled" } := by
  have hnormal : Normal { Intent.zero with mode := "disabled" } := normal_of_unset rfl rfl disabled_mem
  refine (intent_round_trip hnormal.normalizeIntent "gpt-5").2.mpr (Or.inr (Or.inr ?_))
  unfold effectiveEffort
  rw [hnormal.normalizeIntent]
  rfl

/-- The thoughts of an intent that says nothing of them are asked for. -/
theorem thoughts_asked_for :
    normalizeIntent id enabledIntent = .ok enabledIntent ∧ enabledIntent.includeThoughts = none ∧
      ∃ req back, applyToOpenAIResponses id ⟨"gpt-5", none, none⟩ enabledIntent = .ok req ∧
        fromOpenAIResponses id req = .ok back ∧ back.includeThoughts = some true := by
  obtain ⟨back, hback, hsame⟩ := @fromOpenAIResponses_carried id _ normal_enabledIntent "gpt-5"
  refine ⟨normal_enabledIntent.normalizeIntent, rfl, _, back,
    applyToOpenAIResponses_empty normal_enabledIntent.normalizeIntent "gpt-5", hback, ?_⟩
  have heffort : effectiveEffort id enabledIntent = "high" := by
    unfold effectiveEffort
    rw [normal_enabledIntent.normalizeIntent]
    rfl
  rw [hsame.includeThoughts]
  show thoughtsBack id enabledIntent = _
  rw [thoughtsBack, heffort, if_neg (by simp [enabledIntent, Intent.zero])]

end Vancine.Reasoning
