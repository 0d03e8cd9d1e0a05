import Mathlib
import Vancine.Lib.Table
import Vancine.Lib.Run

/-!
# Channels, abilities and the channel cache

`model/channel.go`, `model/ability.go` and `model/channel_cache.go`. A channel is a row that lists models and
groups; an ability is a row for one group, one model and one channel. With the memory cache on, requests
are served from `group2model2channels`, the ids of enabled channels for each group and model, and from
`channelsIDM`, the channels by their ids. With the cache off they are served from the abilities.

What other packages decide about a request (model names for routing, image models, custom paths) is a
parameter.
-/

namespace Vancine.Channels

open Lib

abbrev Text := List Char

inductive ChannelStatus
  | unknown
  | enabled
  | manuallyDisabled
  | autoDisabled
  deriving DecidableEq

inductive MultiKeyMode
  | random
  | polling
  | other
  deriving DecidableEq

/-- The maps of the source are functions of the index of a key. -/
structure ChannelInfo where
  isMultiKey : Bool := false
  multiKeyStatusList : ℕ → Option ChannelStatus := fun _ => none
  multiKeyDisabledReason : ℕ → Option Text := fun _ => none
  multiKeyDisabledTime : ℕ → Option ℤ := fun _ => none
  multiKeyPollingIndex : ℤ := 0
  multiKeyMode : MultiKeyMode := .random

/-- The entries of `other_info` that a change of status writes. -/
structure OtherInfo where
  statusReason : Option Text := none
  statusTime : Option ℤ := none

structure Channel where
  id : ℤ
  type : ℤ := 1
  key : Text := []
  status : ChannelStatus := .enabled
  weight : Option ℕ := none
  models : Text := []
  group : Text := []
  priority : Option ℤ := none
  otherInfo : OtherInfo := {}
  /-- The settings that a filter reads. -/
  taskPluginKey : Text := []
  responsesWebSocketEnabled : Bool := false
  advancedCustom : Option Text := none
  channelInfo : ChannelInfo := {}

structure Ability where
  group : Text
  model : Text
  channelId : ℤ
  enabled : Bool
  priority : Option ℤ
  weight : ℕ
  deriving DecidableEq

namespace Channel

def getPriority (channel : Channel) : ℤ := channel.priority.getD 0

def getWeight (channel : Channel) : ℕ := channel.weight.getD 0

/-- `strings.Trim(text, ",")`. -/
def trimCommas (text : Text) : Text := (text.dropWhile (· = ',')).rdropWhile (· = ',')

def getModels (channel : Channel) : List Text :=
  if channel.models = [] then [] else (trimCommas channel.models).splitOn ','

/-- `strings.SplitSeq(channel.Group, ",")`. -/
def splitGroups (channel : Channel) : List Text := channel.group.splitOn ','

end Channel

/-! ## Filters -/

inductive ChannelFilterKind
  | requestPath
  | taskPluginIdentity
  | responsesWebSocket
  deriving DecidableEq

structure ChannelFilter where
  kind : ChannelFilterKind
  requestPath : Text := []
  taskPluginKey : Text := []
  taskPluginKeys : List Text := []
  taskPluginChannelTypes : List ℤ := []

/-- What other packages decide. -/
structure Routing where
  /-- `ratio_setting.RoutingMatchModelName`. -/
  routingMatchModelName : Text → Text
  /-- `playground.IsImageWorkspacePath`. -/
  isImageWorkspacePath : Text → Bool
  /-- `playground.RequiredChannelType`. -/
  requiredChannelType : Text → Option ℤ
  /-- `AdvancedCustomConfig.SupportsPathForModel`. -/
  supportsPathForModel : Text → Text → Text → Bool

def channelTypeOpenAI : ℤ := 1

def channelTypeVLLM : ℤ := 62

def channelTypeSGLang : ℤ := 63

def channelTypeCodex : ℤ := 57

def channelTypeAdvancedCustom : ℤ := 58

def channelTypeTaskPlugin : ℤ := 61

def isAdvancedCustomChannel (channelType : ℤ) : Bool :=
  channelType ∈ [channelTypeAdvancedCustom, channelTypeVLLM, channelTypeSGLang]

/-- An image model of the workspace is served by one type of channel only. -/
def Routing.refusesImage (routing : Routing) (path model : Text) (channelType : ℤ) : Bool :=
  routing.isImageWorkspacePath path &&
    match routing.requiredChannelType model with
    | some required => channelType ≠ required
    | none => false

local instance lawfulKeys : LawfulBEq (List Char) := inferInstance

def channelMatchesFilter (routing : Routing) (channel : Channel) (modelName : Text)
    (filter : ChannelFilter) : Bool :=
  match filter.kind with
  | .requestPath =>
    if filter.requestPath = [] then true
    else if routing.refusesImage filter.requestPath modelName channel.type then false
    else if ¬isAdvancedCustomChannel channel.type then true
    else match channel.advancedCustom with
      | some config => routing.supportsPathForModel config filter.requestPath modelName
      | none => false
  | .taskPluginIdentity =>
    if channel.type = channelTypeTaskPlugin then
      filter.taskPluginKey ≠ [] &&
        (channel.taskPluginKey = filter.taskPluginKey || channel.taskPluginKey ∈ filter.taskPluginKeys)
    else filter.taskPluginKey = [] || channel.type ∈ filter.taskPluginChannelTypes
  | .responsesWebSocket =>
    (channel.type = channelTypeOpenAI || channel.type = channelTypeCodex) && channel.responsesWebSocketEnabled

def filterEvalOrder : List ChannelFilterKind := [.requestPath, .taskPluginIdentity, .responsesWebSocket]

def channelSatisfiesFilters (routing : Routing) (channel : Option Channel) (modelName : Text)
    (filters : List ChannelFilter) : Bool :=
  match channel with
  | none => false
  | some channel => filterEvalOrder.all fun kind =>
      filters.all fun filter => filter.kind ≠ kind || channelMatchesFilter routing channel modelName filter

def filtersByKind (filters : List ChannelFilter) (kind : ChannelFilterKind) : List ChannelFilter :=
  filters.filter fun filter => filter.kind = kind

def candidatePassesKindFilters (routing : Routing) (channel : Option Channel) (modelName : Text)
    (kind : ChannelFilterKind) (filters : List ChannelFilter) : Bool :=
  match channel with
  | none => kind = .requestPath
  | some channel => filters.all fun filter => channelMatchesFilter routing channel modelName filter

/-! ## The cache -/

structure Cache where
  group2model2channels : Text → Text → List ℤ
  channelsIDM : List Channel

namespace Cache

def channel (cache : Cache) (id : ℤ) : Option Channel := Table.find Channel.id id cache.channelsIDM

/-- One round of `filterCandidateIDs`. -/
def filterKind (routing : Routing) (cache : Cache) (modelName : Text) (filters : List ChannelFilter)
    (kept : List ℤ) (kind : ChannelFilterKind) : List ℤ :=
  if filtersByKind filters kind = [] then kept
  else kept.filter fun id =>
    candidatePassesKindFilters routing (cache.channel id) modelName kind (filtersByKind filters kind)

/-- A round that leaves nothing ends the loop, and later rounds would leave nothing too. -/
def filterCandidateIDs (routing : Routing) (cache : Cache) (modelName : Text) (filters : List ChannelFilter)
    (ids : List ℤ) : List ℤ :=
  filterEvalOrder.foldl (cache.filterKind routing modelName filters) ids

end Cache

/-- The database; the primary keys are unique. -/
structure Db where
  channels : List Channel
  abilities : List Ability
  nodup_ids : (channels.map Channel.id).Nodup := by decide
  nodup_abilities : (abilities.map fun ability => (ability.group, ability.model, ability.channelId)).Nodup := by decide

/-- The ids for a group and a model, once for each way that a channel lists them. -/
def listedIds (channels : List Channel) (group model : Text) : List ℤ :=
  channels.flatMap fun channel =>
    if channel.status = .enabled then
      channel.splitGroups.flatMap fun g =>
        channel.getModels.flatMap fun m => if g = group ∧ m = model then [channel.id] else []
    else []

/-- Writing to the group of a channel panics when no ability has that group. -/
def Db.groupsKnown (db : Db) : Bool :=
  db.channels.all fun channel =>
    channel.status ≠ .enabled || channel.getModels = [] ||
      channel.splitGroups.all fun group => db.abilities.any fun ability => ability.group = group

/-- Highest priority first. -/
def sortByPriority (channels : List Channel) (ids : List ℤ) : List ℤ :=
  let priority (id : ℤ) : ℤ := ((Table.find Channel.id id channels).map Channel.getPriority).getD 0
  ids.insertionSort fun a b => priority b ≤ priority a

/-- The polling cursor of a channel survives when the cache is built again. -/
def keepPollingIndex (old : Option Channel) (channel : Channel) : Channel :=
  match old with
  | none => channel
  | some old =>
    if channel.channelInfo.isMultiKey ∧ channel.channelInfo.multiKeyMode = .polling ∧
        old.channelInfo.isMultiKey ∧ old.channelInfo.multiKeyMode = .polling then
      { channel with channelInfo :=
        { channel.channelInfo with multiKeyPollingIndex := old.channelInfo.multiKeyPollingIndex } }
    else channel

/-- None when it panics. -/
def initChannelCache (db : Db) (old : List Channel) : Option Cache :=
  if db.groupsKnown then
    some {
      group2model2channels := fun group model => sortByPriority db.channels (listedIds db.channels group model)
      channelsIDM := db.channels.map fun channel =>
        keepPollingIndex (Table.find Channel.id channel.id old) channel }
  else none

/-- Of each list, the first place where the channel stands is removed. -/
def cacheUpdateChannelStatus (id : ℤ) (status : ChannelStatus) (cache : Cache) : Cache where
  channelsIDM := Table.updateWhere (fun channel => channel.id = id) (fun channel => { channel with status })
    cache.channelsIDM
  group2model2channels := fun group model =>
    if status ≠ .enabled then (cache.group2model2channels group model).erase id
    else cache.group2model2channels group model

/-- The lists of ids stay as they are. -/
def cacheUpdateChannel (channel : Channel) (cache : Cache) : Cache :=
  { cache with
    channelsIDM :=
      if (cache.channel channel.id).isSome then Table.save Channel.id channel cache.channelsIDM
      else cache.channelsIDM ++ [channel] }

/-! ## Selection -/

inductive SelectError
  /-- A listed id without a channel. -/
  | inconsistent (id : ℤ)
  | notFound

/-- The distinct values, highest first. -/
def descending (priorities : List ℤ) : List ℤ := priorities.dedup.insertionSort fun a b => b ≤ a

/-- The priority of a retry: beyond the last one it stays there. -/
def targetPriority (priorities : List ℤ) (retry : ℕ) : ℤ :=
  let sorted := descending priorities
  sorted.getD (min retry (sorted.length - 1)) 0

/-- The first of the candidates at which the draw, less the weights so far, is negative. -/
def pick {β : Type} (weight : β → ℕ) : ℕ → List β → Option β
  | _, [] => none
  | draw, candidate :: rest => if draw < weight candidate then some candidate else pick weight (draw - weight candidate) rest

/-- The weight of a channel in the draw: all the same when none has a weight, and scaled up when they are
small. -/
def effectiveWeight (channels : List Channel) (channel : Channel) : ℕ :=
  let sumWeight := (channels.map Channel.getWeight).sum
  if sumWeight = 0 then channel.getWeight + 100
  else if sumWeight / channels.length < 10 then channel.getWeight * 100
  else channel.getWeight

/-- A number below the total weight is drawn. -/
def drawChannel (draw : ℕ) (channels : List Channel) : Except SelectError (Option Channel) :=
  let total := (channels.map (effectiveWeight channels)).sum
  match pick (effectiveWeight channels) (draw % total) channels with
  | some channel => .ok (some channel)
  | none => .error .notFound

/-- The channels of the ids; an id without a channel is an error. -/
def Cache.resolve (cache : Cache) : List ℤ → Except SelectError (List Channel)
  | [] => .ok []
  | id :: ids =>
    match cache.channel id with
    | some channel => (cache.resolve ids).map (channel :: ·)
    | none => .error (.inconsistent id)

/-- Candidates under the model's own name, or else under the name for routing. -/
def Cache.candidates (routing : Routing) (cache : Cache) (group model : Text) (filters : List ChannelFilter) :
    List ℤ :=
  let channels := cache.filterCandidateIDs routing model filters (cache.group2model2channels group model)
  if channels = [] then
    cache.filterCandidateIDs routing model filters
      (cache.group2model2channels group (routing.routingMatchModelName model))
  else channels

/-- `GetRandomSatisfiedChannel` with the memory cache on. -/
def getRandomSatisfiedChannel (routing : Routing) (cache : Cache) (group model : Text) (retry : ℕ)
    (filters : List ChannelFilter) (draw : ℕ) : Except SelectError (Option Channel) :=
  match cache.candidates routing group model filters with
  | [] => .ok none
  | [id] =>
    match cache.channel id with
    | some channel => .ok (some channel)
    | none => .error (.inconsistent id)
  | ids => do
    let channels ← cache.resolve ids
    let target := targetPriority (channels.map Channel.getPriority) retry
    drawChannel draw (channels.filter fun channel => channel.getPriority = target)

/-- `GetChannel`: the same from the abilities, without a name for routing; each weight counts ten more. The
first ability at which the draw less the weights is at most zero is taken. -/
def pickAbility : ℕ → List Ability → Option Ability
  | _, [] => none
  | draw, ability :: rest =>
    if draw ≤ ability.weight + 10 then some ability else pickAbility (draw - (ability.weight + 10)) rest

def Ability.getPriority (ability : Ability) : ℤ := ability.priority.getD 0

def Db.channel (db : Db) (id : ℤ) : Option Channel := Table.find Channel.id id db.channels

/-- The enabled abilities for a group and a model that pass the filters. -/
def Db.candidates (routing : Routing) (db : Db) (group model : Text) (filters : List ChannelFilter) :
    List Ability :=
  db.abilities.filter fun ability =>
    ability.group = group && ability.model = model && ability.enabled &&
      channelSatisfiesFilters routing (db.channel ability.channelId) model filters

def getChannel (routing : Routing) (db : Db) (group model : Text) (retry : ℕ) (filters : List ChannelFilter)
    (draw : ℕ) : Except SelectError (Option Channel) :=
  match db.candidates routing group model filters with
  | [] => .ok none
  | abilities =>
    let target := targetPriority (abilities.map Ability.getPriority) retry
    let abilities := abilities.filter fun ability => ability.getPriority = target
    let total := (abilities.map fun ability => ability.weight + 10).sum
    match pickAbility (draw % total) abilities with
    | some ability =>
      match db.channel ability.channelId with
      | some channel => .ok (some channel)
      | none => .error (.inconsistent ability.channelId)
    | none => .error .notFound

end Vancine.Channels
