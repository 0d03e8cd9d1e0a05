import Vancine.ModelPricing.Names
import Vancine.ModelPricing.Values

/-!
# The effective price

The editor resolves the price of a model from the stored options, the relay from the maps in memory. Both know the
built-in expressions and the self-use mode.
-/

namespace Vancine.ModelPricing

open Lib Std

inductive BillingMode
  | ratio
  | tieredExpr
  deriving DecidableEq

def BillingMode.text : BillingMode → String
  | .ratio => "ratio"
  | .tieredExpr => "tiered_expr"

/-- What the pricing options say, with the types that the relay loads. -/
structure Settings where
  audioCompletionRatio : Dict ℚ
  audioRatio : Dict ℚ
  cacheRatio : Dict ℚ
  completionRatio : Dict ℚ
  createCacheRatio : Dict ℚ
  imageRatio : Dict ℚ
  modelPrice : Dict ℚ
  modelRatio : Dict ℚ
  billingExpr : Dict String
  billingMode : Dict BillingMode
  pluginBillingExpr : Dict String

def numbers (d : Dict ℚ) : Entries := d.map fun _ x => .number x

def texts (d : Dict String) : Entries := d.map fun _ s => .text s

/-- The stored options, as they are decoded. -/
def Settings.stored (settings : Settings) : PricingMaps
  | .of .audioCompletionRatio => numbers settings.audioCompletionRatio
  | .of .audioRatio => numbers settings.audioRatio
  | .of .cacheRatio => numbers settings.cacheRatio
  | .of .completionRatio => numbers settings.completionRatio
  | .of .createCacheRatio => numbers settings.createCacheRatio
  | .of .imageRatio => numbers settings.imageRatio
  | .of .modelPrice => numbers settings.modelPrice
  | .of .modelRatio => numbers settings.modelRatio
  | .of .billingExpr => texts settings.billingExpr
  | .of .billingMode => settings.billingMode.map fun _ mode => .text mode.text
  | .pluginBillingExpr => texts settings.pluginBillingExpr

/-! ## The relay -/

section Relay

variable (builtin : Dict String) (selfUseModeEnabled : Bool) (settings : Settings) (name : String)

def getModelPrice : Option ℚ := settings.modelPrice[formatMatchingModelName name]?

/-- The ratio, whether there is one, and the name that was looked up. -/
def getModelRatio : ℚ × Bool × String :=
  match settings.modelRatio[formatMatchingModelName name]? with
  | none => (37.5, selfUseModeEnabled, formatMatchingModelName name)
  | some ratio => (ratio, true, formatMatchingModelName name)

def hasConfiguredModelRatio : Bool := settings.modelRatio[formatMatchingModelName name]?.isSome

def getCompletionRatioInfo : CompletionRatioInfo :=
  resolveCompletionRatio (formatMatchingModelName name) settings.completionRatio[formatMatchingModelName name]?

def getCompletionRatio : ℚ := (getCompletionRatioInfo settings name).ratio

def defaultCacheRatio : ℚ := 1

def defaultCreateCacheRatio : ℚ := 1.25

def defaultImageRatio : ℚ := 1

def getCacheRatio : ℚ := settings.cacheRatio[name]?.getD defaultCacheRatio

def getCreateCacheRatio : ℚ := settings.createCacheRatio[name]?.getD defaultCreateCacheRatio

def getImageRatio : ℚ := settings.imageRatio[name]?.getD defaultImageRatio

def getBillingMode : BillingMode :=
  match settings.billingMode[name]? with
  | some mode => mode
  | none =>
    if builtin[name]?.isSome then
      if hasConfiguredModelRatio settings name then .ratio
      else if (getModelPrice settings name).isSome then .ratio
      else .tieredExpr
    else .ratio

def getBillingExpr : Option String :=
  match settings.billingExpr[name]? with
  | some expr => some expr
  | none => if getBillingMode builtin settings name = .tieredExpr then builtin[name]? else none

end Relay

/-! ## The editor -/

/-- A field of the prices is written. -/
def PricingValues.set (result : PricingValues) (option : PricingOption) (value : Option PricingValue) : PricingValues :=
  { result with option := Function.update result.option option value }

/-- The options that are looked up under the name of the family. -/
def aliasedOptions : List PricingOption :=
  [.modelPrice, .modelRatio, .completionRatio, .audioRatio, .audioCompletionRatio]

def withAlias (values : PricingMaps) (name : String) : PricingValues :=
  let result := modelPricingValues values name
  { result with option := fun option =>
      if option ∈ aliasedOptions then (values (.of option))[formatMatchingModelName name]? else result.option option }

def textOf : Option PricingValue → String
  | some (.text s) => s
  | _ => ""

def numberOf : Option PricingValue → Option ℚ
  | some (.number x) => some x
  | _ => none

/-- A field that is missing gets a fallback. -/
def PricingValues.orElse (result : PricingValues) (option : PricingOption) (fallback : Option PricingValue) :
    PricingValues :=
  result.set option ((result.option option).or fallback)

def effectiveMode (builtin : Dict String) (name : String) (result : PricingValues) : String :=
  let mode := textOf (result.option .billingMode)
  if mode = "" ∧ builtin[name]?.isSome ∧ (result.option .modelPrice).isNone ∧ (result.option .modelRatio).isNone then
    "tiered_expr"
  else mode

def effectiveModelPricing (builtin : Dict String) (selfUseModeEnabled : Bool) (values : PricingMaps) (name : String) :
    PricingValues :=
  let result := withAlias values name
  if effectiveMode builtin name result = "tiered_expr" then
    (result.set .billingMode (some (.text "tiered_expr"))).orElse .billingExpr (builtin[name]?.map .text)
  else if (result.option .modelPrice).isSome then result
  else
    let result := result.orElse .modelRatio (if selfUseModeEnabled then some (.number 37.5) else none)
    let configuredCompletion := numberOf (result.option .completionRatio)
    let result := result.set .completionRatio (some (.number (resolveCompletionRatio name configuredCompletion).ratio))
    ((result.orElse .cacheRatio (some (.number defaultCacheRatio))).orElse .createCacheRatio
      (some (.number defaultCreateCacheRatio))).orElse .imageRatio (some (.number defaultImageRatio))

/-! ## Agreement -/

section Agreement

variable {builtin : Dict String} {selfUseModeEnabled : Bool} {settings : Settings} {name : String}

theorem get_numbers (d : Dict ℚ) (key : String) : (numbers d)[key]? = d[key]?.map .number := ExtTreeMap.getElem?_map

theorem get_texts (d : Dict String) (key : String) : (texts d)[key]? = d[key]?.map .text := ExtTreeMap.getElem?_map

theorem billingMode_stored : (withAlias settings.stored name).option .billingMode =
      settings.billingMode[name]?.map fun mode => .text mode.text :=
  ExtTreeMap.getElem?_map

theorem billingExpr_stored :
    (withAlias settings.stored name).option .billingExpr = settings.billingExpr[name]?.map .text :=
  get_texts _ _

theorem modelPrice_stored :
    (withAlias settings.stored name).option .modelPrice = (getModelPrice settings name).map .number :=
  get_numbers _ _

theorem modelRatio_stored : (withAlias settings.stored name).option .modelRatio =
    settings.modelRatio[formatMatchingModelName name]?.map .number :=
  get_numbers _ _

theorem completionRatio_stored : (withAlias settings.stored name).option .completionRatio =
    settings.completionRatio[formatMatchingModelName name]?.map .number :=
  get_numbers _ _

@[simp] theorem numberOf_map (x : Option ℚ) : numberOf (x.map .number) = x := by cases x <;> rfl

@[simp] theorem set_self (result : PricingValues) (option : PricingOption) (value : Option PricingValue) :
    (result.set option value).option option = value := Function.update_self ..

variable {result : PricingValues} {option option' : PricingOption}

theorem set_of_ne {value : Option PricingValue} (h : option' ≠ option) :
    (result.set option value).option option' = result.option option' :=
  Function.update_of_ne h ..

@[simp] theorem orElse_self (result : PricingValues) (option : PricingOption) (fallback : Option PricingValue) :
    (result.orElse option fallback).option option = (result.option option).or fallback := Function.update_self ..

theorem orElse_of_ne {fallback : Option PricingValue} (h : option' ≠ option) :
    (result.orElse option fallback).option option' = result.option option' :=
  Function.update_of_ne h ..

theorem map_or_number (x : Option ℚ) (fallback : ℚ) :
    ((x.map PricingValue.number).or (some (.number fallback))) = some (.number (x.getD fallback)) := by
  cases x <;> rfl

theorem effectiveMode_eq : effectiveMode builtin name (withAlias settings.stored name) = "tiered_expr" ↔
    getBillingMode builtin settings name = .tieredExpr := by
  unfold effectiveMode getBillingMode
  rw [billingMode_stored, modelPrice_stored, modelRatio_stored]
  cases settings.billingMode[name]? with
  | some mode => cases mode <;> simp [textOf, BillingMode.text]
  | none =>
    unfold hasConfiguredModelRatio
    cases builtin[name]? <;> cases getModelPrice settings name <;>
      cases settings.modelRatio[formatMatchingModelName name]? <;> simp [textOf]

/-- What the prices of the editor have to say, next to what the relay looks up. -/
structure Agrees (builtin : Dict String) (selfUseModeEnabled : Bool) (settings : Settings) (name : String)
    (result : PricingValues) : Prop where
  mode : result.option .billingMode = some (.text "tiered_expr") ↔ getBillingMode builtin settings name = .tieredExpr
  expr : getBillingMode builtin settings name = .tieredExpr →
    result.option .billingExpr = (getBillingExpr builtin settings name).map .text
  price : getBillingMode builtin settings name ≠ .tieredExpr →
    result.option .modelPrice = (getModelPrice settings name).map .number
  ratio : getBillingMode builtin settings name ≠ .tieredExpr → getModelPrice settings name = none →
    result.option .modelRatio =
      if (getModelRatio selfUseModeEnabled settings name).2.1 then
        some (.number (getModelRatio selfUseModeEnabled settings name).1)
      else none
  completionRatio : getBillingMode builtin settings name ≠ .tieredExpr → getModelPrice settings name = none →
    result.option .completionRatio = some (.number (getCompletionRatio settings name))
  cacheRatio : getBillingMode builtin settings name ≠ .tieredExpr → getModelPrice settings name = none →
    result.option .cacheRatio = some (.number (getCacheRatio settings name))
  createCacheRatio : getBillingMode builtin settings name ≠ .tieredExpr → getModelPrice settings name = none →
    result.option .createCacheRatio = some (.number (getCreateCacheRatio settings name))
  imageRatio : getBillingMode builtin settings name ≠ .tieredExpr → getModelPrice settings name = none →
    result.option .imageRatio = some (.number (getImageRatio settings name))

theorem billingExpr_agrees (h : getBillingMode builtin settings name = .tieredExpr) :
    ((withAlias settings.stored name).option .billingExpr).or (builtin[name]?.map .text) =
      (getBillingExpr builtin settings name).map .text := by
  rw [billingExpr_stored, getBillingExpr]
  cases settings.billingExpr[name]? with
  | some expr => rfl
  | none => exact (congrArg (Option.map PricingValue.text) (if_pos h)).symm

theorem billingMode_of_stored (h : (withAlias settings.stored name).option .billingMode = some (.text "tiered_expr")) :
    getBillingMode builtin settings name = .tieredExpr := by
  rw [billingMode_stored] at h
  obtain ⟨mode, hmode, htext⟩ := Option.map_eq_some_iff.mp h
  rw [getBillingMode, hmode]
  cases mode with
  | ratio => exact absurd (PricingValue.text.inj htext) (by decide)
  | tieredExpr => rfl

theorem modelRatio_agrees : ((withAlias settings.stored name).option .modelRatio).or
        (if selfUseModeEnabled then some (.number 37.5) else none) =
      if (getModelRatio selfUseModeEnabled settings name).2.1 then
        some (.number (getModelRatio selfUseModeEnabled settings name).1) else none := by
  rw [modelRatio_stored, getModelRatio]
  cases settings.modelRatio[formatMatchingModelName name]? with
  | some ratio => rfl
  | none => rfl

theorem cacheRatio_stored :
    (withAlias settings.stored name).option .cacheRatio = settings.cacheRatio[name]?.map .number :=
  get_numbers _ _

theorem createCacheRatio_stored :
    (withAlias settings.stored name).option .createCacheRatio = settings.createCacheRatio[name]?.map .number :=
  get_numbers _ _

theorem imageRatio_stored :
    (withAlias settings.stored name).option .imageRatio = settings.imageRatio[name]?.map .number :=
  get_numbers _ _

theorem completionRatio_agrees :
    (resolveCompletionRatio name (numberOf ((withAlias settings.stored name).option .completionRatio))).ratio =
      getCompletionRatio settings name := by
  rw [completionRatio_stored, numberOf_map, getCompletionRatio, getCompletionRatioInfo, resolveCompletionRatio_format]

/-- **The displayed price.** For every content of the options, what the editor shows is what the relay looks up. -/
theorem effectiveModelPricing_agrees (builtin : Dict String) (selfUseModeEnabled : Bool) (settings : Settings)
    (name : String) :
    Agrees builtin selfUseModeEnabled settings name
      (effectiveModelPricing builtin selfUseModeEnabled settings.stored name) := by
  unfold effectiveModelPricing
  dsimp only
  by_cases hmode : getBillingMode builtin settings name = .tieredExpr
  · rw [if_pos (effectiveMode_eq.mpr hmode)]
    constructor
    case mode => exact iff_of_true ((orElse_of_ne (by decide)).trans (set_self ..)) hmode
    case expr =>
      intro _
      rw [orElse_self, set_of_ne (by decide)]
      exact billingExpr_agrees hmode
    all_goals exact fun h => absurd hmode h
  · rw [if_neg fun h => hmode (effectiveMode_eq.mp h)]
    by_cases hprice : ((withAlias settings.stored name).option .modelPrice).isSome = true
    · rw [if_pos hprice]
      rw [modelPrice_stored, Option.isSome_map] at hprice
      constructor
      case mode => exact iff_of_false (fun h => hmode (billingMode_of_stored h)) hmode
      case expr => exact fun h => absurd h hmode
      case price => exact fun _ => modelPrice_stored
      all_goals exact fun _ hnone => absurd hprice (by rw [hnone]; decide)
    · rw [if_neg hprice]
      constructor
      case mode =>
        refine iff_of_false (fun h => hmode (billingMode_of_stored ?_)) hmode
        rw [orElse_of_ne (by decide), orElse_of_ne (by decide), orElse_of_ne (by decide), set_of_ne (by decide),
          orElse_of_ne (by decide)] at h
        exact h
      case expr => exact fun h => absurd h hmode
      case price =>
        intro _
        rw [orElse_of_ne (by decide), orElse_of_ne (by decide), orElse_of_ne (by decide), set_of_ne (by decide),
          orElse_of_ne (by decide)]
        exact modelPrice_stored
      case ratio =>
        intro _ _
        rw [orElse_of_ne (by decide), orElse_of_ne (by decide), orElse_of_ne (by decide), set_of_ne (by decide),
          orElse_self]
        exact modelRatio_agrees
      case completionRatio =>
        intro _ _
        rw [orElse_of_ne (by decide), orElse_of_ne (by decide), orElse_of_ne (by decide), set_self,
          orElse_of_ne (by decide), completionRatio_agrees]
      case cacheRatio =>
        intro _ _
        rw [orElse_of_ne (by decide), orElse_of_ne (by decide), orElse_self, set_of_ne (by decide),
          orElse_of_ne (by decide), cacheRatio_stored]
        exact map_or_number ..
      case createCacheRatio =>
        intro _ _
        rw [orElse_of_ne (by decide), orElse_self, orElse_of_ne (by decide), set_of_ne (by decide),
          orElse_of_ne (by decide), createCacheRatio_stored]
        exact map_or_number ..
      case imageRatio =>
        intro _ _
        rw [orElse_self, orElse_of_ne (by decide), orElse_of_ne (by decide), set_of_ne (by decide),
          orElse_of_ne (by decide), imageRatio_stored]
        exact map_or_number ..

end Agreement

end Vancine.ModelPricing
