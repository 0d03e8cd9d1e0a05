import Vancine.ModelPricing.Effective

/-!
# The name a request is billed under

A price is looked for under several names, and the request is billed under the first one that has an entry. The search
reads the mode of a name under the name of its family, the price reads it under the name itself.

What the suffixes of a name say is left open: the results are for every reading of names.
-/

namespace Vancine.ModelPricing

open Lib

/-- Whether modifiers stand behind a name, the canonical names of its price, and the name without all suffixes. -/
structure NameReading where
  hasModifiers : String → Bool
  canonicalBillingModelNames : String → List String
  baseModelName : String → String

section Search

variable (builtin : Dict String) (settings : Settings) (names : NameReading)

def hasPriceOrRatioEntry (name : String) : Bool :=
  let formatted := formatMatchingModelName name
  (getModelPrice settings formatted).isSome || hasConfiguredModelRatio settings formatted ||
    getBillingMode builtin settings formatted = .tieredExpr

def billingCandidates (origin : String) : List String :=
  (if names.hasModifiers origin then [] else [origin]) ++ names.canonicalBillingModelNames origin ++
    [names.baseModelName origin]

/-- The candidate at which the search stops. One that was seen has no entry, so it need not be remembered. -/
def matchedCandidate (origin : String) : Option String :=
  (billingCandidates names origin).find? fun name => name ≠ "" && hasPriceOrRatioEntry builtin settings name

def resolveBillingModelName (origin : String) : String :=
  (matchedCandidate builtin settings names origin).getD (names.baseModelName origin)

end Search

/-! ## The price of a request -/

/-- What a request is billed by. -/
inductive FoundPrice
  | tiered (expr : String)
  | price (price : ℚ)
  | ratio (ratio : ℚ)

inductive PriceError
  | noBillingExpression (name : String)
  | priceNotConfigured (name : String)

structure RelayInfo where
  originModelName : String
  billingModelName : String := ""
  acceptUnsetRatioModel : Bool := false

def RelayInfo.getBillingModelName (info : RelayInfo) : String :=
  if info.billingModelName ≠ "" then info.billingModelName else info.originModelName

section Price

variable (builtin : Dict String) (selfUseModeEnabled : Bool) (settings : Settings) (names : NameReading)

/-- The branches of `ModelPriceHelper` under one name. -/
def priceOfName (acceptUnsetRatio : Bool) (name : String) : Except PriceError FoundPrice :=
  if getBillingMode builtin settings name = .tieredExpr then
    match getBillingExpr builtin settings name with
    | none => .error (.noBillingExpression name)
    | some expr => .ok (.tiered expr)
  else
    match getModelPrice settings name with
    | some price => .ok (.price price)
    | none =>
      let (ratio, success, matchName) := getModelRatio selfUseModeEnabled settings name
      if !success && !acceptUnsetRatio then .error (.priceNotConfigured matchName) else .ok (.ratio ratio)

def modelPriceHelper (info : RelayInfo) : Except PriceError FoundPrice :=
  let matched := resolveBillingModelName builtin settings names info.originModelName
  let info :=
    if matched ≠ "" ∧ matched ≠ info.originModelName then { info with billingModelName := matched } else info
  priceOfName builtin selfUseModeEnabled settings info.acceptUnsetRatioModel info.getBillingModelName

end Price

/-! ## When the names agree -/

section Agreement

variable (builtin : Dict String) (settings : Settings) (names : NameReading)

def isPriced (name : String) : Bool := (getModelPrice settings name).isSome || hasConfiguredModelRatio settings name

/-- The name is tiered under itself, with an expression. -/
def isTiered (name : String) : Bool :=
  getBillingMode builtin settings name = .tieredExpr && (getBillingExpr builtin settings name).isSome

/-- An entry of any kind, under the name or under that of its family. -/
def hasAnyEntry (name : String) : Bool :=
  name ≠ "" && (hasPriceOrRatioEntry builtin settings name || isTiered builtin settings name)

/-- The name the request is billed under can be billed, and it does not stand behind one that is tiered itself. -/
structure BillsRight (origin : String) : Prop where
  found : ∀ name, matchedCandidate builtin settings names origin = some name →
    ∃ price, modelPriceHelper builtin false settings names { originModelName := origin } = .ok price
  kept : ∀ before name after, billingCandidates names origin = before ++ name :: after → name ≠ "" →
    isTiered builtin settings name → resolveBillingModelName builtin settings names origin ∈ before ++ [name]

/-- What the first candidate with an entry of any kind has to have. -/
def FirstEntryAgrees (origin : String) : Prop :=
  ∀ before name after, billingCandidates names origin = before ++ name :: after →
    (∀ b ∈ before, hasAnyEntry builtin settings b = false) → hasAnyEntry builtin settings name →
      isPriced settings name ∨ isTiered builtin settings name ∧
          (getBillingMode builtin settings (formatMatchingModelName name) = .tieredExpr ∨
            (∀ c ∈ billingCandidates names origin, c = "" ∨ hasPriceOrRatioEntry builtin settings c = false) ∧
              names.baseModelName origin ∈ before ++ [name])

variable {builtin : Dict String} {settings : Settings} {names : NameReading} {origin name : String}

theorem hasPriceOrRatioEntry_iff : hasPriceOrRatioEntry builtin settings name ↔
    isPriced settings name ∨ getBillingMode builtin settings (formatMatchingModelName name) = .tieredExpr := by
  unfold hasPriceOrRatioEntry isPriced getModelPrice hasConfiguredModelRatio
  simp only [formatMatchingModelName_idem, Bool.or_eq_true, decide_eq_true_eq]

/-- A name is billed exactly when it has a price, a ratio, or a tiered mode of its own. -/
theorem priceOfName_ok_iff
    (hexpr : ∀ name, getBillingMode builtin settings name = .tieredExpr →
      (getBillingExpr builtin settings name).isSome) :
    (∃ price, priceOfName builtin false settings false name = .ok price) ↔
      isPriced settings name ∨ isTiered builtin settings name := by
  unfold priceOfName isPriced isTiered hasConfiguredModelRatio getModelRatio
  by_cases hmode : getBillingMode builtin settings name = .tieredExpr
  · obtain ⟨expr, hsome⟩ := Option.isSome_iff_exists.mp (hexpr name hmode)
    rw [if_pos hmode, hsome]
    exact iff_of_true ⟨_, rfl⟩ (.inr (by simp [hmode]))
  · rw [if_neg hmode]
    cases getModelPrice settings name with
    | some price => exact iff_of_true ⟨_, rfl⟩ (.inl rfl)
    | none =>
      cases settings.modelRatio[formatMatchingModelName name]? with
      | some ratio => exact iff_of_true ⟨_, rfl⟩ (.inl rfl)
      | none => exact iff_of_false (by rintro ⟨_, h⟩; cases h) (by simp [hmode])

theorem matched_iff : matchedCandidate builtin settings names origin = some name ↔
    name ≠ "" ∧ hasPriceOrRatioEntry builtin settings name ∧ ∃ before after,
      billingCandidates names origin = before ++ name :: after ∧
        ∀ b ∈ before, b = "" ∨ hasPriceOrRatioEntry builtin settings b = false := by
  unfold matchedCandidate
  rw [List.find?_eq_some_iff_append]
  simp [and_assoc, or_iff_not_imp_left]

/-- The request is billed as the name at which the search stops. -/
theorem modelPriceHelper_matched (h : matchedCandidate builtin settings names origin = some name) :
    modelPriceHelper builtin false settings names { originModelName := origin } =
      priceOfName builtin false settings false name := by
  have hname := (matched_iff.mp h).1
  unfold modelPriceHelper resolveBillingModelName
  rw [h, Option.getD_some]
  dsimp only
  by_cases horigin : name = origin
  · rw [if_neg fun hne => hne.2 horigin, ← horigin]
    rfl
  · rw [if_pos ⟨hname, horigin⟩, RelayInfo.getBillingModelName, if_pos hname]

theorem exists_first {before after : List String} (h : billingCandidates names origin = before ++ name :: after)
    (hentry : hasAnyEntry builtin settings name) :
    ∃ first b rest, billingCandidates names origin = first ++ b :: rest ∧ hasAnyEntry builtin settings b ∧
      (∀ c ∈ first, hasAnyEntry builtin settings c = false) ∧ first ++ [b] <+: before ++ [name] := by
  cases hfind : (before ++ [name]).find? (hasAnyEntry builtin settings) with
  | none =>
    exact absurd hentry (List.find?_eq_none.mp hfind name (List.mem_append_right _ (List.mem_singleton_self _)))
  | some b =>
    obtain ⟨hb, first, rest, hsplit, hfirst⟩ := List.find?_eq_some_iff_append.mp hfind
    refine ⟨first, b, rest ++ after, ?_, hb, fun c hc => by simpa using hfirst c hc, ⟨rest, by simpa using hsplit.symm⟩⟩
    rw [h, ← List.singleton_append, ← List.append_assoc, hsplit]
    simp

theorem hasAnyEntry_eq_false : hasAnyEntry builtin settings name = false ↔
    name = "" ∨ hasPriceOrRatioEntry builtin settings name = false ∧ isTiered builtin settings name = false := by
  unfold hasAnyEntry
  simp [or_iff_not_imp_left]

/-- The family of the custom GPTs is tiered, and none of its members has an entry. -/
def gizmoSettings : Settings where
  audioCompletionRatio := ∅
  audioRatio := ∅
  cacheRatio := ∅
  completionRatio := ∅
  createCacheRatio := ∅
  imageRatio := ∅
  modelPrice := ∅
  modelRatio := ∅
  billingExpr := (∅ : Dict String).insert "gpt-4-gizmo-*" "tier(p)"
  billingMode := (∅ : Dict BillingMode).insert "gpt-4-gizmo-*" .tieredExpr
  pluginBillingExpr := ∅

/-- Names without suffixes. -/
def plainNames : NameReading := ⟨fun _ => false, fun _ => [], id⟩

theorem gizmo_mode (name : String) :
    getBillingMode ∅ gizmoSettings name = if name = "gpt-4-gizmo-*" then .tieredExpr else .ratio := by
  have hmode : gizmoSettings.billingMode[name]? = if "gpt-4-gizmo-*" = name then some .tieredExpr else none := by
    simp [gizmoSettings, Std.ExtTreeMap.getElem?_insert]
  unfold getBillingMode
  rw [hmode]
  by_cases hname : "gpt-4-gizmo-*" = name
  · rw [if_pos hname, if_pos hname.symm]
  · have hne : name ≠ "gpt-4-gizmo-*" := Ne.symm hname
    rw [if_neg hname, if_neg hne]
    simp

theorem gizmo_expr (name : String) (h : getBillingMode ∅ gizmoSettings name = .tieredExpr) :
    (getBillingExpr ∅ gizmoSettings name).isSome := by
  rw [gizmo_mode] at h
  split at h
  next hname => simp [getBillingExpr, gizmoSettings, hname]
  next => cases h

/-- A member of the family has an entry, and is not billed by it. -/
theorem gizmo_member_unpriced : ¬ BillsRight ∅ gizmoSettings plainNames "gpt-4-gizmo-abc" := by
  have hformat : formatMatchingModelName "gpt-4-gizmo-abc" = "gpt-4-gizmo-*" := by
    simp [formatMatchingModelName, geminiThinkingName, gizmoName, gizmo4oName, hasPrefix]
  have hentry : hasPriceOrRatioEntry ∅ gizmoSettings "gpt-4-gizmo-abc" = true := by
    rw [hasPriceOrRatioEntry_iff, hformat, gizmo_mode]
    exact .inr rfl
  have hmatched : matchedCandidate ∅ gizmoSettings plainNames "gpt-4-gizmo-abc" = some "gpt-4-gizmo-abc" := by
    exact List.find?_cons_of_pos (by rw [hentry]; decide)
  intro h
  have hok := h.found _ hmatched
  rw [modelPriceHelper_matched hmatched, priceOfName_ok_iff gizmo_expr] at hok
  rcases hok with hpriced | htiered
  · simp [isPriced, getModelPrice, hasConfiguredModelRatio, gizmoSettings] at hpriced
  · rw [isTiered, gizmo_mode] at htiered
    simp at htiered

end Agreement

end Vancine.ModelPricing
