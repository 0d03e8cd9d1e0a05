import Vancine.Lib.Dict
import Vancine.Lib.Text
import Mathlib.Data.Rat.Defs
import Mathlib.Data.Fintype.Pi

/-!
# Prices of models

Eleven options hold the prices: ten of them by the name of a model, one by a plugin and a model. The prices of one model
are read out of the options, and a draft is written back into them.
-/

namespace Vancine.ModelPricing

open Lib Std

/-- The options that are keyed by the name of a model. -/
inductive PricingOption
  | audioCompletionRatio | audioRatio | cacheRatio | completionRatio | createCacheRatio | imageRatio | modelPrice
  | modelRatio | billingExpr | billingMode
  deriving DecidableEq

inductive OptionKey
  | of (option : PricingOption)
  | pluginBillingExpr
  deriving DecidableEq

def pricingOptions : List PricingOption :=
  [.audioCompletionRatio, .audioRatio, .cacheRatio, .completionRatio, .createCacheRatio, .imageRatio, .modelPrice,
    .modelRatio, .billingExpr, .billingMode]

/-- `modelPricingOptionKeys`, in the order of the locks. -/
def modelPricingOptionKeys : List OptionKey := pricingOptions.map .of ++ [.pluginBillingExpr]

theorem mem_pricingOptions (option : PricingOption) : option ∈ pricingOptions := by cases option <;> decide

theorem mem_modelPricingOptionKeys (key : OptionKey) : key ∈ modelPricingOptionKeys := by
  cases key with
  | of option => exact List.mem_append_left _ (List.mem_map_of_mem (mem_pricingOptions option))
  | pluginBillingExpr => exact List.mem_append_right _ List.mem_cons_self

instance : Fintype PricingOption := ⟨⟨pricingOptions, by decide⟩, mem_pricingOptions⟩

/-- A value of JSON; what is neither a number nor a text is kept as it is encoded. -/
inductive PricingValue
  | number (x : ℚ)
  | text (s : String)
  | other (encoded : String)
  deriving DecidableEq

abbrev Entries := Dict PricingValue

/-- The options, decoded. -/
abbrev PricingMaps := OptionKey → Entries

/-- `PricingValues` of one model: its value in each option, and its expression for each plugin. -/
@[ext]
structure PricingValues where
  option : PricingOption → Option PricingValue
  variants : Entries
  deriving DecidableEq

/-! ## Plugin keys -/

/-- `ValidPluginKey`. -/
def validPluginKey (key : String) : Bool :=
  match key.toList with
  | [] => false
  | c :: rest =>
    decide (key.utf8ByteSize ≤ 30) && (c.isLower || c.isDigit) &&
      rest.all fun c => c.isLower || c.isDigit || c = '_' || c = '-'

/-- `PluginBillingExprKey`. -/
def pluginBillingExprKey (pluginKey model : String) : String :=
  String.ofList (pluginKey.toList ++ [':', ':'] ++ model.toList)

/-- `SplitPluginBillingExprKey`. -/
def splitPluginBillingExprKey (key : String) : Option (String × String) :=
  match cut [':', ':'] key.toList with
  | none => none
  | some (plugin, model) =>
    if validPluginKey (String.ofList plugin) ∧ trimSpace (String.ofList model) ≠ "" then
      some (String.ofList plugin, String.ofList model)
    else none

theorem colon_not_mem {plugin : String} (h : validPluginKey plugin = true) : ':' ∉ plugin.toList := by
  intro hmem
  unfold validPluginKey at h
  cases hplugin : plugin.toList with
  | nil => rw [hplugin] at hmem; cases hmem
  | cons c rest =>
    rw [hplugin] at h hmem
    simp only [Bool.and_eq_true, List.all_eq_true] at h
    rcases List.mem_cons.mp hmem with rfl | hmem
    · exact absurd h.1.2 (by decide)
    · exact absurd (h.2 _ hmem) (by decide)

/-- A key comes apart into its plugin and its model, and only so. -/
theorem splitPluginBillingExprKey_eq_some {key plugin model : String} :
    splitPluginBillingExprKey key = some (plugin, model) ↔
      key = pluginBillingExprKey plugin model ∧ validPluginKey plugin = true ∧ trimSpace model ≠ "" := by
  unfold splitPluginBillingExprKey
  constructor
  · intro h
    split at h
    · cases h
    · next plugin' model' hcut =>
      split at h
      · next hvalid =>
        obtain ⟨rfl, rfl⟩ := Prod.mk.inj (Option.some.inj h)
        refine ⟨?_, hvalid⟩
        rw [pluginBillingExprKey, String.toList_ofList (l := plugin'), String.toList_ofList (l := model'),
          ← eq_of_cut hcut, String.ofList_toList]
      · cases h
  · rintro ⟨rfl, hvalid, hmodel⟩
    have hcut : cut [':', ':'] (pluginBillingExprKey plugin model).toList = some (plugin.toList, model.toList) := by
      rw [pluginBillingExprKey, String.toList_ofList (l := _)]
      exact cut_append (colon_not_mem hvalid) model.toList
    rw [hcut]
    simp [hvalid, hmodel]

theorem pluginBillingExprKey_inj {plugin plugin' model model' : String} (hvalid : validPluginKey plugin = true)
    (hmodel : trimSpace model ≠ "") (hvalid' : validPluginKey plugin' = true) (hmodel' : trimSpace model' ≠ "")
    (h : pluginBillingExprKey plugin model = pluginBillingExprKey plugin' model') :
    plugin = plugin' ∧ model = model' := by
  have hsplit := splitPluginBillingExprKey_eq_some.mpr ⟨rfl, hvalid, hmodel⟩
  rw [h, splitPluginBillingExprKey_eq_some.mpr ⟨rfl, hvalid', hmodel'⟩] at hsplit
  exact Prod.mk.inj (Option.some.inj hsplit.symm)

/-! ## The prices of one model -/

/-- The expressions of a model, by plugin. -/
def modelVariants (entries : Entries) (name : String) : Entries :=
  Dict.insertAll (entries.toList.filterMap fun (variant, expression) =>
    match splitPluginBillingExprKey variant with
    | some (plugin, model) => if model = name then some (plugin, expression) else none
    | none => none) ∅

def modelPricingValues (values : PricingMaps) (name : String) : PricingValues where
  option option := (values (.of option))[name]?
  variants := modelVariants (values .pluginBillingExpr) name

/-- `replaceModelPricing`. -/
def replaceModelPricing (values : PricingMaps) (name : String) (draft : PricingValues) : PricingMaps
  | .of option =>
    match draft.option option with
    | some value => ((values (.of option)).erase name).insert name value
    | none => (values (.of option)).erase name
  | .pluginBillingExpr =>
    Dict.insertAll (draft.variants.toList.map fun (plugin, expr) => (pluginBillingExprKey plugin name, expr))
      (Dict.restrict (fun variant => !(splitPluginBillingExprKey variant).any fun key => key.2 = name)
        (values .pluginBillingExpr))

theorem get_modelVariants (entries : Entries) (name plugin : String) : (modelVariants entries name)[plugin]? =
      if validPluginKey plugin = true ∧ trimSpace name ≠ "" then entries[pluginBillingExprKey plugin name]?
      else none := by
  have hmem : ∀ p e, (p, e) ∈ entries.toList.filterMap (fun (variant, expression) =>
      match splitPluginBillingExprKey variant with
      | some (plugin, model) => if model = name then some (plugin, expression) else none
      | none => none) ↔
      (validPluginKey p = true ∧ trimSpace name ≠ "") ∧ entries[pluginBillingExprKey p name]? = some e := by
    intro p e
    rw [List.mem_filterMap]
    constructor
    · rintro ⟨⟨variant, expression⟩, hentry, hsome⟩
      dsimp only at hsome
      split at hsome
      · next plugin model hsplit =>
        split at hsome
        · next hmodel =>
          obtain ⟨rfl, rfl⟩ := Prod.mk.inj (Option.some.inj hsome)
          subst hmodel
          obtain ⟨rfl, hvalid⟩ := splitPluginBillingExprKey_eq_some.mp hsplit
          exact ⟨hvalid, Dict.mem_toList.mp hentry⟩
        · cases hsome
      · cases hsome
    · rintro ⟨hvalid, hentry⟩
      refine ⟨(pluginBillingExprKey p name, e), Dict.mem_toList.mpr hentry, ?_⟩
      dsimp only
      rw [splitPluginBillingExprKey_eq_some.mpr ⟨rfl, hvalid⟩]
      exact if_pos rfl
  by_cases hvalid : validPluginKey plugin = true ∧ trimSpace name ≠ ""
  · rw [if_pos hvalid]
    cases he : entries[pluginBillingExprKey plugin name]? with
    | none =>
      refine (Dict.get_insertAll_of_not_mem fun e hmem' => ?_).trans ExtTreeMap.getElem?_empty
      rw [((hmem plugin e).mp hmem').2] at he
      cases he
    | some e =>
      refine Dict.get_insertAll_of_mem ((hmem plugin e).mpr ⟨hvalid, he⟩) fun e' he' => ?_
      rw [((hmem plugin e').mp he').2] at he
      exact Option.some.inj he
  · rw [if_neg hvalid]
    exact (Dict.get_insertAll_of_not_mem fun e hmem' => hvalid ((hmem plugin e).mp hmem').1).trans
      ExtTreeMap.getElem?_empty

/-- A draft that can be written: a name, and plugins that have the form of one. -/
structure Writable (name : String) (draft : PricingValues) : Prop where
  name : trimSpace name ≠ ""
  plugins : ∀ plugin e, draft.variants[plugin]? = some e → validPluginKey plugin = true

section Replace

variable {values : PricingMaps} {name name' : String} {draft : PricingValues}

theorem get_replace_of (option : PricingOption) : (replaceModelPricing values name draft (.of option))[name']? =
      if name' = name then draft.option option else (values (.of option))[name']? := by
  dsimp only [replaceModelPricing]
  cases draft.option option with
  | none =>
    dsimp only
    rw [Dict.get_erase]
    simp only [eq_comm]
  | some value =>
    dsimp only
    rw [Dict.get_insert, Dict.get_erase]
    by_cases hn : name = name'
    · rw [if_pos hn, if_pos hn.symm]
    · rw [if_neg hn, if_neg hn, if_neg (Ne.symm hn)]

theorem get_replace_variant (h : Writable name draft) {plugin : String} (hvalid : validPluginKey plugin = true)
    (hname : trimSpace name' ≠ "") :
    (replaceModelPricing values name draft .pluginBillingExpr)[pluginBillingExprKey plugin name']? =
      if name' = name then draft.variants[plugin]?
      else (values .pluginBillingExpr)[pluginBillingExprKey plugin name']? := by
  have hmem : ∀ e, (pluginBillingExprKey plugin name', e) ∈
      draft.variants.toList.map (fun (plugin, expr) => (pluginBillingExprKey plugin name, expr)) ↔
        name' = name ∧ draft.variants[plugin]? = some e := by
    intro e
    rw [List.mem_map]
    constructor
    · rintro ⟨⟨plugin', e'⟩, hentry, he⟩
      obtain ⟨hkey, rfl⟩ := Prod.mk.inj he
      have hget := Dict.mem_toList.mp hentry
      obtain ⟨rfl, rfl⟩ := pluginBillingExprKey_inj (h.plugins plugin' e' hget) h.name hvalid hname hkey
      exact ⟨rfl, hget⟩
    · rintro ⟨rfl, hget⟩
      exact ⟨(plugin, e), Dict.mem_toList.mpr hget, rfl⟩
  have hold : (Dict.restrict (fun variant => !(splitPluginBillingExprKey variant).any fun key => key.2 = name)
      (values .pluginBillingExpr))[pluginBillingExprKey plugin name']? =
        if name' = name then none else (values .pluginBillingExpr)[pluginBillingExprKey plugin name']? := by
    rw [Dict.get_restrict, splitPluginBillingExprKey_eq_some.mpr ⟨rfl, hvalid, hname⟩]
    by_cases hn : name' = name <;> simp [hn]
  unfold replaceModelPricing
  by_cases hn : name' = name
  · rw [if_pos hn] at hold ⊢
    cases hget : draft.variants[plugin]? with
    | none =>
      refine (Dict.get_insertAll_of_not_mem fun e he => ?_).trans hold
      rw [((hmem e).mp he).2] at hget
      cases hget
    | some e =>
      refine Dict.get_insertAll_of_mem ((hmem e).mpr ⟨hn, hget⟩) fun e' he' => ?_
      rw [((hmem e').mp he').2] at hget
      exact Option.some.inj hget
  · rw [if_neg hn] at hold ⊢
    exact (Dict.get_insertAll_of_not_mem fun e he => hn ((hmem e).mp he).1).trans hold

theorem modelPricingValues_replace (h : Writable name draft) :
    modelPricingValues (replaceModelPricing values name draft) name = draft := by
  refine PricingValues.ext (funext fun option => ?_) (Dict.ext fun plugin => ?_)
  · exact (get_replace_of option).trans (if_pos rfl)
  · refine (get_modelVariants _ name plugin).trans ?_
    by_cases hvalid : validPluginKey plugin = true
    · rw [if_pos ⟨hvalid, h.name⟩, get_replace_variant h hvalid h.name, if_pos rfl]
    · rw [if_neg fun hboth => hvalid hboth.1]
      cases hget : draft.variants[plugin]? with
      | none => rfl
      | some e => exact absurd (h.plugins plugin e hget) hvalid

theorem modelPricingValues_replace_of_ne (h : Writable name draft) (hne : name' ≠ name) :
    modelPricingValues (replaceModelPricing values name draft) name' = modelPricingValues values name' := by
  refine PricingValues.ext (funext fun option => ?_) (Dict.ext fun plugin => ?_)
  · exact (get_replace_of option).trans (if_neg hne)
  · refine (get_modelVariants _ name' plugin).trans (Eq.trans ?_ (get_modelVariants _ name' plugin).symm)
    by_cases hvalid : validPluginKey plugin = true ∧ trimSpace name' ≠ ""
    · rw [if_pos hvalid, if_pos hvalid, get_replace_variant h hvalid.1 hvalid.2, if_neg hne]
    · rw [if_neg hvalid, if_neg hvalid]

end Replace

end Vancine.ModelPricing
