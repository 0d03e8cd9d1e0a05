import Vancine.Lib.Walk
import Mathlib.Data.List.AList

/-!
# Model mappings

A channel maps model names to others, and what they map to may be mapped again. The relay follows the mapping when it
sends a request; the pricing preview and the view of task aliases follow it beforehand.
-/

namespace Vancine.ModelMapping

open Lib

abbrev Text := List Char

/-- A JSON object of texts, in the order in which `range` happens to visit it. -/
abbrev ModelMap := AList fun _ : Text => Text

/-- What reading a mapping does, as far as the code relies on it. -/
structure MappingDecoder where
  unmarshal : Text → Option ModelMap
  unmarshal_nil : unmarshal [] = none
  unmarshal_empty : unmarshal "\x7b\x7d".toList = some ∅

section Maps

variable (modelMap : ModelMap)

def targets : List Text := modelMap.entries.map Sigma.snd

/-- An entry that is not empty. -/
def own (name : Text) : Option Text := (modelMap.lookup name).filter (· ≠ [])

variable {modelMap}

theorem mem_targets_of_lookup {name mapped : Text} (h : modelMap.lookup name = some mapped) :
    mapped ∈ targets modelMap :=
  List.mem_map.mpr ⟨⟨name, mapped⟩, AList.mem_lookup_iff.mp h, rfl⟩

theorem own_eq_some {name mapped : Text} :
    own modelMap name = some mapped ↔ modelMap.lookup name = some mapped ∧ mapped ≠ [] := by
  rw [own, Option.filter_eq_some_iff]
  simp

theorem own_eq_none {name : Text} : own modelMap name = none ↔ (modelMap.lookup name).getD [] = [] := by
  rw [own]
  cases modelMap.lookup name with
  | none => simp
  | some mapped => simp [Option.filter]

end Maps

/-! ## The relay -/

structure RelayInfo where
  originModelName : Text
  upstreamModelName : Text
  isModelMapped : Bool

inductive MappingError
  | unmarshalModelMappingFailed
  | modelMappingContainsCycle

/-- How the loop is left. -/
inductive LoopEnd
  /-- `return nil` -/
  | returns
  | breaks (currentModel : Text) (isModelMapped : Bool)

/-- What the relay finds at a name: its own entry, or that of its base name. -/
def mappedAt (baseModelName : Text → Text) (modelMap : ModelMap) (currentModel : Text) : Option Text :=
  let mappedModel := modelMap.lookup currentModel
  let baseModel := baseModelName currentModel
  if mappedModel.getD [] = [] ∧ baseModel ≠ currentModel then modelMap.lookup baseModel else mappedModel

theorem mem_targets_of_mappedAt {baseModelName : Text → Text} {modelMap : ModelMap} {currentModel mapped : Text}
    (h : mappedAt baseModelName modelMap currentModel = some mapped) : mapped ∈ targets modelMap := by
  unfold mappedAt at h
  dsimp only at h
  split at h <;> exact mem_targets_of_lookup h

/-- The loop over the hops, from the names visited and the one it stands on. -/
def modelMappedLoop (baseModelName : Text → Text) (modelMap : ModelMap) (originModelName : Text)
    (visitedModels : List Text) (currentModel : Text) (isModelMapped : Bool) : Except MappingError LoopEnd :=
  match _hmapped : mappedAt baseModelName modelMap currentModel with
  | none => .ok (.breaks currentModel isModelMapped)
  | some mappedModel =>
    if mappedModel = [] then .ok (.breaks currentModel isModelMapped)
    else if _hvisited : mappedModel ∈ visitedModels then
      if mappedModel = currentModel then
        if currentModel = originModelName then .ok .returns else .ok (.breaks currentModel true)
      else .error .modelMappingContainsCycle
    else
      modelMappedLoop baseModelName modelMap originModelName (mappedModel :: visitedModels) mappedModel true
termination_by unseen (targets modelMap) visitedModels
decreasing_by exact unseen_lt (mem_targets_of_mappedAt _hmapped) _hvisited

/-- `request` is the model name the request has, if there is a request. -/
def modelMappedHelper (decoder : MappingDecoder) (baseModelName : Text → Text) (modelMapping : Text) (info : RelayInfo)
    (request : Option Text) : Except MappingError (RelayInfo × Option Text) :=
  let setModelName (info : RelayInfo) : RelayInfo × Option Text := (info, request.map fun _ => info.upstreamModelName)
  if modelMapping ≠ [] ∧ modelMapping ≠ "\x7b\x7d".toList then
    match decoder.unmarshal modelMapping with
    | none => .error .unmarshalModelMappingFailed
    | some modelMap => do
      let currentModel := info.originModelName
      match ← modelMappedLoop baseModelName modelMap info.originModelName [currentModel] currentModel
          info.isModelMapped with
      | .returns => .ok ({ info with isModelMapped := false }, request)
      | .breaks currentModel true =>
        .ok (setModelName { info with isModelMapped := true, upstreamModelName := currentModel })
      | .breaks _ false => .ok (setModelName info)
  else .ok (setModelName info)

/-- What a request starts with: `InitChannelMeta` takes the model asked for. -/
def initChannelMeta (originModelName : Text) : RelayInfo where
  originModelName
  upstreamModelName := originModelName
  isModelMapped := false

/-! ## The other walks -/

def followLoop (modelMap : ModelMap) (visited : List Text) (current : Text) : End Text :=
  match _hmapped : modelMap.lookup current with
  | none => .tail current
  | some mapped =>
    if mapped = [] then .tail current
    else if _hvisited : mapped ∈ visited then if mapped = current then .tail current else .cycle
    else followLoop modelMap (mapped :: visited) mapped
termination_by unseen (targets modelMap) visited
decreasing_by exact unseen_lt (mem_targets_of_lookup _hmapped) _hvisited

def followChannelModelMapping (modelMap : ModelMap) (start : Text) : End Text := followLoop modelMap [start] start

/-- The preview gives a name without an entry that of its base name. -/
def fillIn (baseModelName : Text → Text) (mapping : ModelMap) (candidate : Text) : ModelMap :=
  if (mapping.lookup candidate).getD [] = [] then
    mapping.insert candidate ((mapping.lookup (baseModelName candidate)).getD [])
  else mapping

/-- The names the preview fills in: the one asked for, and what any name is mapped to. -/
def candidates (mapping : ModelMap) (name : Text) : List Text := name :: targets mapping

/-- The walk of `PreviewModelPricingConversion`. -/
def previewModelMapping (baseModelName : Text → Text) (mapping : ModelMap) (name : Text) : End Text :=
  followChannelModelMapping ((candidates mapping name).foldl (fillIn baseModelName) mapping) name

end Vancine.ModelMapping
