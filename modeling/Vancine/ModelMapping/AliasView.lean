import Vancine.Channels.Store
import Vancine.ModelMapping.Agreement

/-!
# The view of task aliases

Every name that an enabled channel offers and maps to a declared task model, with the model it is pinned to.
-/

namespace Vancine.ModelMapping

open Lib

/-! ## The routing generation -/

/-- `byModel` gives the key of the plugin that owns a declared model. A missing generation has no entries. -/
structure RoutingGeneration where
  byModel : Text → Option Text
  canonicalModelByFold : Text → Option Text

def asciiFold (name : Text) : Text := name.map Char.toLower

namespace RoutingGeneration

variable (g : RoutingGeneration)

def getByModel (model : Text) : Option Text := if model = [] then none else g.byModel model

def canonicalModel (model : Text) : Option Text :=
  if model = [] then none
  else if (g.byModel model).isSome then some model
  else g.canonicalModelByFold (asciiFold model)

end RoutingGeneration

/-! ## The view -/

def channelStatusEnabled : ℤ := 1

structure Channel where
  status : ℤ
  models : Text
  modelMapping : Option Text

namespace Channel

def getModels (channel : Channel) : List Text :=
  if channel.models = [] then [] else (Channels.Channel.trimCommas channel.models).splitOn ','

def getModelMapping (channel : Channel) : Text := channel.modelMapping.getD []

end Channel

structure TaskAliasDraft where
  spellings : List Text := []
  /-- The declared models of each plugin. -/
  byPlugin : AList fun _ : Text => List Text := ∅

def TaskAliasDraft.add (draft : TaskAliasDraft) (aliasName pluginKey declared : Text) : TaskAliasDraft where
  spellings := draft.spellings ++ [aliasName]
  byPlugin := draft.byPlugin.insert pluginKey (((draft.byPlugin.lookup pluginKey).getD []).insert declared)

structure TaskAliasTarget where
  aliasName : Text
  declared : Text
  pluginKey : Text

abbrev Drafts := AList fun _ : Text => TaskAliasDraft

section View

variable (decoder : MappingDecoder) (generation : RoutingGeneration)

local instance lawfulModels : LawfulBEq (List Char) := inferInstance

def addAlias (modelMap : ModelMap) (inModels : List Text) (drafts : Drafts) (aliasName mapped : Text) : Drafts :=
  if mapped = [] ∨ aliasName ∉ inModels ∨ (generation.canonicalModel aliasName).isSome then drafts
  else
    match followChannelModelMapping modelMap aliasName with
    | .cycle => drafts
    | .tail tail =>
      match generation.canonicalModel tail with
      | none => drafts
      | some declared =>
        match generation.getByModel declared with
        | none => drafts
        | some pluginKey =>
          let fold := asciiFold aliasName
          drafts.insert fold (((drafts.lookup fold).getD {}).add aliasName pluginKey declared)

def addChannel (drafts : Drafts) (channel : Channel) : Drafts :=
  let mappingJSON := channel.getModelMapping
  if mappingJSON = [] ∨ mappingJSON = "\x7b\x7d".toList then drafts
  else
    match decoder.unmarshal mappingJSON with
    | none => drafts
    | some modelMap =>
      modelMap.entries.foldl (fun drafts entry => addAlias generation modelMap channel.getModels drafts entry.1 entry.2)
        drafts

/-- The least of the spellings. -/
def leastSpelling (first : Text) (rest : List Text) : Text :=
  rest.foldl (fun aliasName spelling => if spelling < aliasName then spelling else aliasName) first

/-- A draft that maps to one plugin; the model is left out when it is not the only one. -/
def TaskAliasDraft.target (draft : TaskAliasDraft) : Option TaskAliasTarget :=
  match draft.spellings, draft.byPlugin.entries with
  | first :: rest, [⟨pluginKey, declareds⟩] =>
    some
      { aliasName := leastSpelling first rest
        declared := match declareds with
          | [name] => name
          | _ => []
        pluginKey }
  | _, _ => none

def draftsOf (channels : List Channel) : Drafts :=
  (channels.filter (·.status = channelStatusEnabled)).foldl (addChannel decoder generation) ∅

abbrev AliasView := AList fun _ : Text => TaskAliasTarget

def addTarget (byFold : AliasView) (draft : TaskAliasDraft) : AliasView :=
  match draft.target with
  | none => byFold
  | some target => byFold.insert (asciiFold target.aliasName) target

/-- `byFold` of the view. -/
def buildTaskAliasView (channels : List Channel) : AliasView :=
  (draftsOf decoder generation channels).entries.foldl (fun byFold entry => addTarget byFold entry.2) ∅

end View

/-! ## Where the drafts come from -/

section Drafts

variable (decoder : MappingDecoder) (generation : RoutingGeneration)

/-- An enabled channel offers the name, and its entries lead from there to a name with this declared model. -/
def LeadsTo (channels : List Channel) (aliasName declared : Text) : Prop :=
  ∃ channel ∈ channels, channel.status = channelStatusEnabled ∧ aliasName ∈ channel.getModels ∧
    ∃ modelMap tail, decoder.unmarshal channel.getModelMapping = some modelMap ∧
      followChannelModelMapping modelMap aliasName = .tail tail ∧ generation.canonicalModel tail = some declared

/-- Every spelling of a draft is mapped to one of its declared models. -/
def TaskAliasDraft.Backed (channels : List Channel) (draft : TaskAliasDraft) : Prop :=
  ∀ spelling ∈ draft.spellings, ∃ pluginKey declareds declared,
    draft.byPlugin.lookup pluginKey = some declareds ∧ declared ∈ declareds ∧
      LeadsTo decoder generation channels spelling declared

variable {decoder generation} {channels : List Channel}

variable {draft : TaskAliasDraft} {drafts : Drafts}

theorem TaskAliasDraft.Backed.add (h : draft.Backed decoder generation channels) {aliasName pluginKey declared : Text}
    (hleads : LeadsTo decoder generation channels aliasName declared) :
    (draft.add aliasName pluginKey declared).Backed decoder generation channels := by
  intro spelling hspelling
  rcases List.mem_append.mp hspelling with hold | hnew
  · obtain ⟨key, declareds, d, hlookup, hmem, hd⟩ := h spelling hold
    by_cases hkey : key = pluginKey
    · subst hkey
      refine ⟨key, declareds.insert declared, d, ?_, List.mem_insert_of_mem hmem, hd⟩
      rw [TaskAliasDraft.add, AList.lookup_insert, hlookup]
      rfl
    · exact ⟨key, declareds, d, by rw [TaskAliasDraft.add, AList.lookup_insert_ne hkey, hlookup], hmem, hd⟩
  · rw [List.mem_singleton.mp hnew]
    exact ⟨pluginKey, _, declared, AList.lookup_insert _, List.mem_insert_self, hleads⟩

/-- Every draft is backed. -/
def Backed (decoder : MappingDecoder) (generation : RoutingGeneration) (channels : List Channel) (drafts : Drafts) :
    Prop :=
  ∀ fold draft, drafts.lookup fold = some draft → draft.Backed decoder generation channels

theorem Backed.insert (h : Backed decoder generation channels drafts) {fold : Text}
    (hdraft : draft.Backed decoder generation channels) :
    Backed decoder generation channels (drafts.insert fold draft) := by
  intro fold' draft' hlookup
  by_cases hfold : fold' = fold
  · rw [hfold, AList.lookup_insert] at hlookup
    cases hlookup
    exact hdraft
  · rw [AList.lookup_insert_ne hfold] at hlookup
    exact h fold' draft' hlookup

theorem Backed.addAlias (h : Backed decoder generation channels drafts) {channel : Channel}
    (hchannel : channel ∈ channels) (henabled : channel.status = channelStatusEnabled) {modelMap : ModelMap}
    (hmap : decoder.unmarshal channel.getModelMapping = some modelMap) (aliasName mapped : Text) :
    Backed decoder generation channels (addAlias generation modelMap channel.getModels drafts aliasName mapped) := by
  unfold ModelMapping.addAlias
  split
  · exact h
  next hguard =>
    split
    · exact h
    next tail htail =>
      split
      · exact h
      next declared hdeclared =>
        split
        · exact h
        next pluginKey _ =>
          have hmem : aliasName ∈ channel.getModels := by
            by_contra hno
            exact hguard (.inr (.inl hno))
          have hold : ((drafts.lookup (asciiFold aliasName)).getD {}).Backed decoder generation channels := by
            cases hlookup : drafts.lookup (asciiFold aliasName) with
            | none => intro spelling hspelling; cases hspelling
            | some draft => exact h _ _ hlookup
          exact h.insert (hold.add ⟨channel, hchannel, henabled, hmem, modelMap, tail, hmap, htail, hdeclared⟩)

theorem Backed.addChannel (h : Backed decoder generation channels drafts) {channel : Channel}
    (hchannel : channel ∈ channels) (henabled : channel.status = channelStatusEnabled) :
    Backed decoder generation channels (addChannel decoder generation drafts channel) := by
  unfold ModelMapping.addChannel
  dsimp only
  split
  · exact h
  · split
    · exact h
    next modelMap hmap =>
      induction modelMap.entries generalizing drafts with
      | nil => exact h
      | cons entry rest ih => exact ih (h.addAlias hchannel henabled hmap entry.1 entry.2)

theorem Backed.foldl (h : Backed decoder generation channels drafts) {enabled : List Channel}
    (henabled : ∀ c ∈ enabled, c ∈ channels ∧ c.status = channelStatusEnabled) :
    Backed decoder generation channels (enabled.foldl (ModelMapping.addChannel decoder generation) drafts) := by
  induction enabled generalizing drafts with
  | nil => exact h
  | cons channel rest ih =>
    obtain ⟨hmem, hstatus⟩ := henabled channel List.mem_cons_self
    exact ih (h.addChannel hmem hstatus) fun c hc => henabled c (List.mem_cons_of_mem _ hc)

theorem backed_draftsOf : Backed decoder generation channels (draftsOf decoder generation channels) := by
  have hempty : Backed decoder generation channels ∅ := fun fold draft hlookup => by cases hlookup
  exact hempty.foldl fun c hc => by simpa using List.mem_filter.mp hc

theorem mem_leastSpelling (first : Text) (rest : List Text) : leastSpelling first rest ∈ first :: rest := by
  unfold leastSpelling
  induction rest generalizing first with
  | nil => exact List.mem_singleton_self first
  | cons spelling rest ih =>
    rw [List.foldl_cons]
    split
    · exact List.mem_cons_of_mem _ (ih spelling)
    · rcases List.mem_cons.mp (ih first) with heq | hmem
      · rw [heq]
        exact List.mem_cons_self
      · exact List.mem_cons_of_mem _ (List.mem_cons_of_mem _ hmem)

theorem TaskAliasDraft.Backed.target (h : draft.Backed decoder generation channels) {target : TaskAliasTarget}
    (htarget : draft.target = some target) (hpinned : target.declared ≠ []) :
    LeadsTo decoder generation channels target.aliasName target.declared := by
  unfold TaskAliasDraft.target at htarget
  split at htarget
  next first rest pluginKey declareds hspellings hentries =>
    cases htarget
    dsimp only at hpinned ⊢
    have hmem : leastSpelling first rest ∈ draft.spellings := hspellings ▸ mem_leastSpelling first rest
    obtain ⟨key, names, declared, hlookup, hdeclared, hleads⟩ := h _ hmem
    have hnames : names = declareds := by
      have := AList.mem_lookup_iff.mp hlookup
      rw [hentries, List.mem_singleton] at this
      cases this
      rfl
    subst hnames
    split at hpinned
    next name =>
      rw [List.mem_singleton.mp hdeclared] at hleads
      exact hleads
    · exact absurd rfl hpinned
  · cases htarget

/-- What the view pins is led to. -/
def AliasView.Backed (decoder : MappingDecoder) (generation : RoutingGeneration) (channels : List Channel)
    (byFold : AliasView) : Prop :=
  ∀ fold target, byFold.lookup fold = some target → target.declared ≠ [] →
    LeadsTo decoder generation channels target.aliasName target.declared

theorem AliasView.Backed.addTarget {byFold : AliasView} (h : byFold.Backed decoder generation channels)
    (hdraft : draft.Backed decoder generation channels) :
    (addTarget byFold draft).Backed decoder generation channels := by
  unfold ModelMapping.addTarget
  split
  · exact h
  next new hnew =>
    intro fold target hlookup hpinned
    by_cases hkey : fold = asciiFold new.aliasName
    · rw [hkey, AList.lookup_insert] at hlookup
      cases hlookup
      exact hdraft.target hnew hpinned
    · rw [AList.lookup_insert_ne hkey] at hlookup
      exact h fold target hlookup hpinned

theorem backed_view : (buildTaskAliasView decoder generation channels).Backed decoder generation channels := by
  have hrun (entries : List (Sigma fun _ : Text => TaskAliasDraft)) (byFold : AliasView)
      (hentries : ∀ e ∈ entries, e.2.Backed decoder generation channels)
      (h : byFold.Backed decoder generation channels) : AliasView.Backed decoder generation channels
        (entries.foldl (fun byFold entry => ModelMapping.addTarget byFold entry.2) byFold) := by
    induction entries generalizing byFold with
    | nil => exact h
    | cons entry rest ih =>
      exact ih _ (fun e he => hentries e (List.mem_cons_of_mem _ he)) (h.addTarget (hentries entry List.mem_cons_self))
  apply hrun
  · intro e he
    exact backed_draftsOf e.1 e.2 (AList.mem_lookup_iff.mpr he)
  · intro fold target hlookup
    cases hlookup

end Drafts

/-! ## The three walks -/

/-- The preview ends where the relay does; the aliases do exactly where no base name is behind their end, and then what
is pinned is what is sent. -/
theorem walks_agree {baseModelName : Text → Text}
    (hbase : ∀ name, baseModelName (baseModelName name) = baseModelName name) (decoder : MappingDecoder)
    {modelMapping : Text} {modelMap : ModelMap} (hmap : decoder.unmarshal modelMapping = some modelMap)
    (start : Text) (request : Option Text) :
    report (previewModelMapping baseModelName modelMap start) =
        upstreamOf (modelMappedHelper decoder baseModelName modelMapping (initChannelMeta start) request) ∧
      (report (followChannelModelMapping modelMap start) =
          upstreamOf (modelMappedHelper decoder baseModelName modelMapping (initChannelMeta start) request) ↔
        NoBaseBehind baseModelName modelMap start) ∧
      ∀ (generation : RoutingGeneration) (channels : List Channel) (fold : Text) (target : TaskAliasTarget),
        (buildTaskAliasView decoder generation channels).lookup fold = some target → target.declared ≠ [] →
        (∀ channel ∈ channels, channel.status = channelStatusEnabled → target.aliasName ∈ channel.getModels →
          channel.getModelMapping = modelMapping) →
        NoBaseBehind baseModelName modelMap target.aliasName →
          ∃ upstream,
            upstreamOf
                (modelMappedHelper decoder baseModelName modelMapping (initChannelMeta target.aliasName) request) =
              .ok upstream ∧
              generation.canonicalModel upstream = some target.declared := by
  have hreport {a b : End Text} : report a = report b ↔ a = b := by
    constructor
    · intro h
      cases a <;> cases b <;> cases h <;> rfl
    · exact congrArg report
  refine ⟨?_, ?_, ?_⟩
  · rw [modelMappedHelper_eq decoder hmap, previewModelMapping_eq hbase]
  · rw [modelMappedHelper_eq decoder hmap, hreport, followChannelModelMapping_eq_iff]
  · intro generation channels fold target hview hpinned hsingle hbehind
    obtain ⟨channel, hmem, hstatus, hoffered, read, tail, hread, htail, hdeclared⟩ :=
      backed_view fold target hview hpinned
    rw [hsingle channel hmem hstatus hoffered, hmap] at hread
    cases hread
    refine ⟨tail, ?_, hdeclared⟩
    rw [modelMappedHelper_eq decoder hmap, ← (followChannelModelMapping_eq_iff target.aliasName).mpr hbehind, htail]
    rfl

/-- A name and the base name it has. -/
def videoMap : ModelMap :=
  ((∅ : ModelMap).insert "fast".toList "video-1@thinking:on".toList).insert "video-1".toList "video-2".toList

def videoBase (name : Text) : Text := if name = "video-1@thinking:on".toList then "video-1".toList else name

def videoDecoder : MappingDecoder where
  unmarshal text := if text = [] then none else if text = "\x7b\x7d".toList then some ∅ else some videoMap
  unmarshal_nil := rfl
  unmarshal_empty := rfl

theorem videoBase_videoBase (name : Text) : videoBase (videoBase name) = videoBase name := by
  unfold videoBase
  split <;> rfl

theorem walks_agree_video :
    report (previewModelMapping videoBase videoMap "fast".toList) =
      upstreamOf (modelMappedHelper videoDecoder videoBase "mapping".toList (initChannelMeta "fast".toList) none) :=
  (walks_agree videoBase_videoBase videoDecoder rfl "fast".toList none).1

/-- The relay goes on from a name without an entry to what its base name is mapped to; the aliases stop there. -/
theorem base_behind_alias :
    followChannelModelMapping videoMap "fast".toList = .tail "video-1@thinking:on".toList ∧
      upstreamOf (modelMappedHelper videoDecoder videoBase "mapping".toList (initChannelMeta "fast".toList) none) =
        .ok "video-2".toList := by
  constructor
  · have hfast : (ownHops videoMap).hop "fast".toList = some "video-1@thinking:on".toList := by decide
    rw [followChannelModelMapping_eq, Hops.walk_some hfast, if_neg (by decide), Hops.walk_none (by decide)]
  · have hmap : videoDecoder.unmarshal "mapping".toList = some videoMap := rfl
    have hfast : (relayHops videoBase videoMap).hop "fast".toList = some "video-1@thinking:on".toList := by decide
    have hbase : (relayHops videoBase videoMap).hop "video-1@thinking:on".toList = some "video-2".toList := by decide
    rw [modelMappedHelper_eq videoDecoder hmap, Hops.walk_some hfast, if_neg (by decide), Hops.walk_some hbase,
      if_neg (by decide), Hops.walk_none (by decide)]
    rfl

end Vancine.ModelMapping
