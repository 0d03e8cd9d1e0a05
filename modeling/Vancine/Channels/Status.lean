import Vancine.Channels.Store
import Vancine.Lib.Text

/-!
# The status of a channel and of its keys

`UpdateChannelStatus` changes the status of a channel, or of one key of a channel with several keys. It
changes the cached channel first and then the row. The row is left alone when the channel already has the
status, also when the call is about a key.

`json` stands for the decoder that splits a key that is written as a JSON array.
-/

namespace Vancine.Channels

open Lib

/-! ## Keys -/

/-- `strings.Trim(text, "\n")`. -/
def trimLines (text : Text) : Text := (text.dropWhile (· = '\n')).rdropWhile (· = '\n')

section

variable (json : Text → Option (List Text))

namespace Channel

def getKeys (channel : Channel) : List Text :=
  if channel.key = [] then []
  else
    let trimmed := trimBy isSpace channel.key
    let lines := (trimLines channel.key).splitOn '\n'
    if trimmed.head? = some '[' then (json trimmed).getD lines else lines

/-- The key at an index is in the status list, and not as enabled. -/
def keyDisabled (channel : Channel) (index : ℕ) : Bool :=
  match channel.channelInfo.multiKeyStatusList index with
  | some status => status ≠ .enabled
  | none => false

def hasEnabledMultiKey (channel : Channel) : Bool :=
  (List.range (channel.getKeys json).length).any fun index => !channel.keyDisabled index

/-- The first index of a key. -/
def keyIndex (channel : Channel) (usingKey : Text) : Option ℕ :=
  (channel.getKeys json).findIdx? fun key => key = usingKey

end Channel

def allKeysDisabled : Text := "All keys are disabled".toList

/-- The status of one key: an enabled key has no entry. -/
def ChannelInfo.setKey (info : ChannelInfo) (index : ℕ) (status : ChannelStatus) (reason : Text) (now : ℤ) :
    ChannelInfo :=
  if status = .enabled then
    { info with multiKeyStatusList := Function.update info.multiKeyStatusList index none }
  else
    { info with
      multiKeyStatusList := Function.update info.multiKeyStatusList index (some status)
      multiKeyDisabledReason := Function.update info.multiKeyDisabledReason index (some reason)
      multiKeyDisabledTime := Function.update info.multiKeyDisabledTime index (some now) }

def handlerMultiKeyUpdate (now : ℤ) (usingKey : Text) (status : ChannelStatus) (reason : Text)
    (channel : Channel) : Channel :=
  if channel.getKeys json = [] then { channel with status }
  else
    match channel.keyIndex json usingKey with
    | none =>
      if usingKey ≠ [] then channel
      else { channel with status, otherInfo := ⟨some reason, some now⟩ }
    | some index =>
      let channel := { channel with channelInfo := channel.channelInfo.setKey index status reason now }
      if ¬channel.hasEnabledMultiKey json then
        { channel with status := .autoDisabled, otherInfo := ⟨some allKeysDisabled, some now⟩ }
      else if status = .enabled then { channel with status := .enabled }
      else channel

/-! ## The store -/

structure ChannelStore where
  memoryCacheEnabled : Bool
  db : Db
  cache : Cache

/-- Which statement fails. -/
structure StatusFaults where
  read : Bool := false
  save : Bool := false
  abilities : Bool := false

namespace ChannelStore

/-- `saveStatusState` of a row that was just read. -/
def saveChannel (row : Channel) (s : ChannelStore) : ChannelStore :=
  { s with
    db :=
      { s.db with
        channels := Table.save Channel.id row s.db.channels
        nodup_ids := by
          rw [Table.map_key_save]
          exact s.db.nodup_ids } }

def updateAbilityStatus (id : ℤ) (enabled : Bool) (s : ChannelStore) : ChannelStore :=
  { s with
    db :=
      { s.db with
        abilities := Table.updateWhere (fun ability => ability.channelId = id)
          (fun ability => { ability with enabled }) s.db.abilities
        nodup_abilities := by
          rw [Table.map_updateWhere]
          · exact s.db.nodup_abilities
          · intro ability
            rfl } }

/-- The cached channel with the change of a key; a new status takes it out of the lists. -/
def updateCachedKey (now : ℤ) (id : ℤ) (usingKey : Text) (status : ChannelStatus) (reason : Text)
    (cached : Channel) (cache : Cache) : Cache :=
  let channel := handlerMultiKeyUpdate json now usingKey status reason cached
  let cache := { cache with channelsIDM := Table.save Channel.id channel cache.channelsIDM }
  if cached.status ≠ channel.status then cacheUpdateChannelStatus id channel.status cache else cache

/-- A manual operation replaces the reason that all keys are disabled. -/
def overridesKeyExhaustion (row : Channel) (usingKey : Text) (status : ChannelStatus) (reason : Text) : Bool :=
  row.channelInfo.isMultiKey && usingKey = [] && status = .manuallyDisabled && reason ≠ allKeysDisabled &&
    row.otherInfo.statusReason = some allKeysDisabled

/-- The row after the change. -/
def updatedRow (now : ℤ) (usingKey : Text) (status : ChannelStatus) (reason : Text) (row : Channel) : Channel :=
  if row.channelInfo.isMultiKey then handlerMultiKeyUpdate json now usingKey status reason row
  else { row with status, otherInfo := ⟨some reason, some now⟩ }

/-- The second half of `UpdateChannelStatus`. The abilities are changed when the function returns, also after
a failed save. -/
def updateStoredStatus (faults : StatusFaults) (now : ℤ) (id : ℤ) (usingKey : Text) (status : ChannelStatus)
    (reason : Text) (s : ChannelStore) : ChannelStore × Bool :=
  match if faults.read then none else s.db.channel id with
  | none => (s, false)
  | some row =>
    if row.status = status ∧ ¬overridesKeyExhaustion row usingKey status reason then (s, false)
    else
      let updated := updatedRow json now usingKey status reason row
      let shouldUpdateAbilities := !row.channelInfo.isMultiKey || row.status ≠ updated.status
      let saved := !faults.save && row.id ≠ 0
      let s := if saved then s.saveChannel updated else s
      (if shouldUpdateAbilities ∧ ¬faults.abilities then s.updateAbilityStatus id (status = .enabled) else s, saved)

def updateChannelStatus (faults : StatusFaults) (now : ℤ) (id : ℤ) (usingKey : Text) (status : ChannelStatus)
    (reason : Text) (s : ChannelStore) : ChannelStore × Bool :=
  if s.memoryCacheEnabled then
    match s.cache.channel id with
    | none => (s, false)
    | some cached =>
      if cached.channelInfo.isMultiKey then
        updateStoredStatus json faults now id usingKey status reason
          { s with cache := updateCachedKey json now id usingKey status reason cached s.cache }
      else if cached.status = status then (s, false)
      else
        updateStoredStatus json faults now id usingKey status reason
          { s with cache := cacheUpdateChannelStatus id status s.cache }
  else updateStoredStatus json faults now id usingKey status reason s

end ChannelStore

end

end Vancine.Channels
