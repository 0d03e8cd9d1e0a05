import Vancine.Channels.Agreement

/-!
# The next key of a channel with several keys

`GetNextEnabledKey` takes a key that is not disabled in the channel that its caller holds. With the memory cache on
the callers hold the cached channel itself; with the cache off each holds a copy of the row from when it was
loaded, and in polling mode the call writes the whole `channel_info` of that copy back, so as to save the polling
cursor. The status of the keys is in the same column: a copy that was loaded before a key was disabled enables it
again.

The lock of the channel makes `GetNextEnabledKey` and `UpdateChannelStatus` single steps.
-/

namespace Vancine.Channels

open Lib

variable (json : Text → Option (List Text))

inductive KeyError
  | noKeysAvailable
  | noEnabledKeys
  | getChannelFailed

namespace Channel

def enabledIdx (channel : Channel) : List ℕ :=
  (List.range (channel.getKeys json).length).filter fun index => !channel.keyDisabled index

/-- The key at an index. -/
def keyAt (channel : Channel) (index : ℕ) : Text × ℕ := ((channel.getKeys json).getD index [], index)

/-- The first enabled key from the cursor on, in the order of the list and around its end. -/
def nextFrom (channel : Channel) (cursor : ℤ) : Option ℕ :=
  let length := (channel.getKeys json).length
  let start := if cursor < 0 ∨ length ≤ cursor then 0 else cursor.toNat
  ((List.range length).map fun i => (start + i) % length).find? fun index => !channel.keyDisabled index

end Channel

/-- What a call returns, the channel after it, and whether its `channel_info` is saved when the cache is off. -/
structure NextKey where
  result : Except KeyError (Text × ℕ)
  channel : Channel
  saves : Bool

/-- `stored` is what `CacheGetChannelInfo` returns, and `draw` the random number. -/
def getNextEnabledKey (stored : Option ChannelInfo) (draw : ℕ) (channel : Channel) : NextKey :=
  if channel.channelInfo.isMultiKey = false then ⟨.ok (channel.key, 0), channel, false⟩
  else if channel.getKeys json = [] then ⟨.error .noKeysAvailable, channel, false⟩
  else
    match channel.enabledIdx json with
    | [] => ⟨.error .noEnabledKeys, channel, false⟩
    | first :: rest =>
      match channel.channelInfo.multiKeyMode with
      | .random => ⟨.ok (channel.keyAt json ((first :: rest).getD (draw % (rest.length + 1)) first)), channel, false⟩
      | .polling =>
        match stored with
        | none => ⟨.error .getChannelFailed, channel, false⟩
        | some info =>
          match channel.nextFrom json info.multiKeyPollingIndex with
          | some index =>
            let cursor := (index + 1) % (channel.getKeys json).length
            ⟨.ok (channel.keyAt json index),
              { channel with channelInfo := { channel.channelInfo with multiKeyPollingIndex := cursor } }, true⟩
          | none => ⟨.ok (channel.keyAt json first), channel, true⟩
      | .other => ⟨.ok (channel.keyAt json first), channel, false⟩

namespace ChannelStore

/-- `CacheGetChannelInfo`. -/
def cacheGetChannelInfo (s : ChannelStore) (id : ℤ) (readFails : Bool) : Option ChannelInfo :=
  if s.memoryCacheEnabled then (s.cache.channel id).map Channel.channelInfo
  else if readFails then none
  else (s.db.channel id).map Channel.channelInfo

/-- The whole column is written. -/
def saveChannelInfo (channel : Channel) (s : ChannelStore) : ChannelStore :=
  { s with
    db :=
      { s.db with
        channels := Table.updateWhere (fun row => row.id = channel.id)
          (fun row => { row with channelInfo := channel.channelInfo }) s.db.channels
        nodup_ids := by
          rw [Table.map_updateWhere]
          · exact s.db.nodup_ids
          · intro row
            rfl } }

end ChannelStore

/-! ## Callers and their channels -/

/-- The channel that a caller holds: the cached one, or an object of its own. -/
inductive Held
  | cached
  | own (channel : Channel)

structure KeyState where
  store : ChannelStore
  held : List Held

inductive KeyAction
  | load
  | poll (holder draw : ℕ) (readFails saveFails : Bool)
  | update (faults : StatusFaults) (now : ℤ) (usingKey : Text) (status : ChannelStatus) (reason : Text)

section Steps

variable (id : ℤ)

namespace KeyState

/-- `CacheGetChannel`. -/
def load (s : KeyState) : KeyState :=
  if s.store.memoryCacheEnabled then
    match s.store.cache.channel id with
    | some _ => { s with held := s.held ++ [.cached] }
    | none => s
  else
    match s.store.db.channel id with
    | some row => { s with held := s.held ++ [.own row] }
    | none => s

def channelOf (s : KeyState) : Held → Option Channel
  | .cached => s.store.cache.channel id
  | .own channel => some channel

/-- The call on a channel that is held. -/
def nextKey (s : KeyState) (channel : Channel) (draw : ℕ) (readFails : Bool) : NextKey :=
  getNextEnabledKey json (s.store.cacheGetChannelInfo channel.id readFails) draw channel

/-- The object that is held changes in place. -/
def replace (s : KeyState) (holder : ℕ) (channel : Channel) : Held → KeyState
  | .cached =>
    { s with
      store := { s.store with
        cache := { s.store.cache with channelsIDM := Table.save Channel.id channel s.store.cache.channelsIDM } } }
  | .own _ => { s with held := s.held.set holder (.own channel) }

def poll (s : KeyState) (holder draw : ℕ) (readFails saveFails : Bool) : KeyState :=
  match s.held[holder]? with
  | none => s
  | some held =>
    match s.channelOf id held with
    | none => s
    | some channel =>
      let next := s.nextKey json channel draw readFails
      let s := s.replace holder next.channel held
      if next.saves ∧ s.store.memoryCacheEnabled = false ∧ saveFails = false then
        { s with store := s.store.saveChannelInfo next.channel }
      else s

end KeyState

def keyStep (s : KeyState) : KeyAction → KeyState
  | .load => s.load id
  | .poll holder draw readFails saveFails => s.poll json id holder draw readFails saveFails
  | .update faults now usingKey status reason =>
    { s with store := (s.store.updateChannelStatus json faults now id usingKey status reason).1 }

end Steps

/-! ## A key that is shut -/

section Shut

variable {json : Text → Option (List Text)} {channel : Channel} {key : Text}

variable (json) in
/-- The key is disabled wherever it stands in the list. -/
def Channel.Shuts (channel : Channel) (key : Text) : Prop :=
  ∀ index, (channel.getKeys json)[index]? = some key → channel.keyDisabled index = true

variable {index : ℕ}

theorem mem_enabledIdx (h : index ∈ channel.enabledIdx json) :
    index < (channel.getKeys json).length ∧ channel.keyDisabled index = false := by
  obtain ⟨hrange, henabled⟩ := List.mem_filter.mp h
  exact ⟨List.mem_range.mp hrange, by simpa using henabled⟩

theorem nextFrom_some {cursor : ℤ} (h : channel.nextFrom json cursor = some index) :
    index < (channel.getKeys json).length ∧ channel.keyDisabled index = false := by
  unfold Channel.nextFrom at h
  refine ⟨?_, by simpa using List.find?_some h⟩
  obtain ⟨i, hi, rfl⟩ := List.mem_map.mp (List.mem_of_find?_eq_some h)
  exact Nat.mod_lt _ (Nat.zero_lt_of_lt (List.mem_range.mp hi))

/-- The channel with another polling cursor. -/
def Channel.withCursor (channel : Channel) (cursor : ℤ) : Channel :=
  { channel with channelInfo := { channel.channelInfo with multiKeyPollingIndex := cursor } }

/-- A call fails and changes nothing, or returns a key at an enabled index and moves at most the cursor. -/
theorem getNextEnabledKey_cases (json : Text → Option (List Text)) (stored : Option ChannelInfo) (draw : ℕ)
    (hmulti : channel.channelInfo.isMultiKey = true) :
    (∃ error, getNextEnabledKey json stored draw channel = ⟨.error error, channel, false⟩) ∨
      ∃ index cursor saves, (index < (channel.getKeys json).length ∧ channel.keyDisabled index = false) ∧
        getNextEnabledKey json stored draw channel =
          ⟨.ok (channel.keyAt json index), channel.withCursor cursor, saves⟩ := by
  unfold getNextEnabledKey
  rw [if_neg (by simp [hmulti])]
  by_cases hkeys : channel.getKeys json = []
  · left
    rw [if_pos hkeys]
    exact ⟨_, rfl⟩
  · rw [if_neg hkeys]
    cases henabled : channel.enabledIdx json with
    | nil =>
      left
      exact ⟨_, rfl⟩
    | cons first rest =>
      have hmem : ∀ i ∈ first :: rest, i < (channel.getKeys json).length ∧ channel.keyDisabled i = false := by
        rw [← henabled]
        exact fun i => mem_enabledIdx
      have hfirst := hmem first List.mem_cons_self
      cases hmode : channel.channelInfo.multiKeyMode with
      | random =>
        right
        refine ⟨_, channel.channelInfo.multiKeyPollingIndex, false, hmem _ ?_, rfl⟩
        have hdraw : draw % (rest.length + 1) < (first :: rest).length := Nat.mod_lt _ (Nat.succ_pos _)
        rw [List.getD_eq_getElem?_getD, List.getElem?_eq_getElem hdraw]
        exact List.getElem_mem hdraw
      | polling =>
        cases stored with
        | none =>
          left
          exact ⟨_, rfl⟩
        | some info =>
          right
          dsimp only
          cases hnext : channel.nextFrom json info.multiKeyPollingIndex with
          | some index => exact ⟨index, _, true, nextFrom_some hnext, rfl⟩
          | none => exact ⟨first, channel.channelInfo.multiKeyPollingIndex, true, hfirst, rfl⟩
      | other =>
        right
        exact ⟨first, channel.channelInfo.multiKeyPollingIndex, false, hfirst, rfl⟩

theorem keyAt_ne (hshut : channel.Shuts json key)
    (h : index < (channel.getKeys json).length ∧ channel.keyDisabled index = false) :
    (channel.keyAt json index).1 ≠ key := by
  intro heq
  have hget : (channel.getKeys json)[index]? = some key := by
    rw [← heq, Channel.keyAt, List.getD_eq_getElem?_getD, List.getElem?_eq_getElem h.1]
    rfl
  rw [hshut index hget] at h
  cases h.2

/-- A call returns no key that is shut in the channel that it is made on. -/
theorem getNextEnabledKey_ne (hmulti : channel.channelInfo.isMultiKey = true) (hshut : channel.Shuts json key)
    (stored : Option ChannelInfo) (draw index : ℕ) :
    (getNextEnabledKey json stored draw channel).result ≠ .ok (key, index) := by
  intro hresult
  rcases getNextEnabledKey_cases json stored draw hmulti with ⟨error, h⟩ | ⟨i, _, _, hi, h⟩
  · rw [h] at hresult
    cases hresult
  · rw [h] at hresult
    exact keyAt_ne hshut hi (congrArg Prod.fst (Except.ok.inj hresult))

@[simp] theorem shuts_withCursor (cursor : ℤ) : (channel.withCursor cursor).Shuts json key ↔ channel.Shuts json key :=
  Iff.rfl

theorem getNextEnabledKey_channel (json : Text → Option (List Text)) (stored : Option ChannelInfo) (draw : ℕ)
    (channel : Channel) :
    ∃ cursor, (getNextEnabledKey json stored draw channel).channel = channel.withCursor cursor := by
  by_cases hmulti : channel.channelInfo.isMultiKey = true
  · rcases getNextEnabledKey_cases json stored draw hmulti with ⟨error, h⟩ | ⟨_, cursor, _, _, h⟩
    · rw [h]
      exact ⟨channel.channelInfo.multiKeyPollingIndex, rfl⟩
    · rw [h]
      exact ⟨cursor, rfl⟩
  · unfold getNextEnabledKey
    rw [if_pos (Bool.eq_false_iff.mpr hmulti)]
    exact ⟨channel.channelInfo.multiKeyPollingIndex, rfl⟩

theorem isMultiKey_of_saves {stored : Option ChannelInfo} {draw : ℕ}
    (h : (getNextEnabledKey json stored draw channel).saves = true) : channel.channelInfo.isMultiKey = true := by
  by_contra hmulti
  unfold getNextEnabledKey at h
  rw [if_pos (Bool.eq_false_iff.mpr hmulti)] at h
  cases h

/-! ## A change of status and a key that is shut -/

variable {now : ℤ} {usingKey reason : Text} {status : ChannelStatus}

theorem keyIndex_get (h : channel.keyIndex json usingKey = some index) :
    (channel.getKeys json)[index]? = some usingKey := by
  obtain ⟨hlt, hkey, -⟩ := List.findIdx?_eq_some_iff_getElem.mp h
  rw [List.getElem?_eq_getElem hlt]
  simpa using hkey

theorem handlerMultiKeyUpdate_isMultiKey (json : Text → Option (List Text)) (now : ℤ) (usingKey : Text)
    (status : ChannelStatus) (reason : Text) (channel : Channel) :
    (handlerMultiKeyUpdate json now usingKey status reason channel).channelInfo.isMultiKey =
      channel.channelInfo.isMultiKey := by
  obtain ⟨_, ⟨-, h⟩ | ⟨_, -, h⟩⟩ := handlerMultiKeyUpdate_cases json now usingKey status reason channel
  · rw [h]
  · rw [h]
    unfold Channel.withKey ChannelInfo.setKey
    dsimp only
    split_ifs <;> rfl

theorem handlerMultiKeyUpdate_shuts (hkeep : usingKey = key → status ≠ .enabled) (hshut : channel.Shuts json key) :
    (handlerMultiKeyUpdate json now usingKey status reason channel).Shuts json key := by
  obtain ⟨_, ⟨-, h⟩ | ⟨index, hindex, h⟩⟩ := handlerMultiKeyUpdate_cases json now usingKey status reason channel
  · rw [h]
    exact hshut
  · rw [h]
    intro i hi
    refine (keyDisabled_withKey index i).trans ?_
    split_ifs with heq
    · have hkey : usingKey = key := by
        rw [heq] at hi
        exact Option.some.inj ((keyIndex_get hindex).symm.trans hi)
      simpa using hkeep hkey
    · exact hshut i hi

theorem getElem?_inj_of_count_le_one {keys : List Text} (honce : keys.count key ≤ 1) {i j : ℕ}
    (hi : keys[i]? = some key) (hj : keys[j]? = some key) : i = j := by
  obtain ⟨hilt, hikey⟩ := List.getElem?_eq_some_iff.mp hi
  obtain ⟨hjlt, hjkey⟩ := List.getElem?_eq_some_iff.mp hj
  by_contra hne
  have htwice : ∃ (n m : Fin keys.length) (_ : n < m), key = keys.get n ∧ key = keys.get m := by
    rcases Nat.lt_or_gt_of_ne hne with hlt | hlt
    · exact ⟨⟨i, hilt⟩, ⟨j, hjlt⟩, hlt, hikey.symm, hjkey.symm⟩
    · exact ⟨⟨j, hjlt⟩, ⟨i, hilt⟩, hlt, hjkey.symm, hikey.symm⟩
  have hcount : 2 ≤ keys.count key := by
    convert List.duplicate_iff_two_le_count.mp (List.duplicate_iff_exists_distinct_get.mpr htwice)
  omega

theorem handlerMultiKeyUpdate_shuts_self (hstatus : status ≠ .enabled) (honce : (channel.getKeys json).count key ≤ 1) :
    (handlerMultiKeyUpdate json now key status reason channel).Shuts json key := by
  obtain ⟨_, ⟨hnone, h⟩ | ⟨index, hindex, h⟩⟩ := handlerMultiKeyUpdate_cases json now key status reason channel
  · rw [h]
    intro i hi
    have hnot := List.findIdx?_eq_none_iff.mp hnone key (List.mem_of_getElem? hi)
    simp at hnot
  · rw [h]
    intro i hi
    refine (keyDisabled_withKey index i).trans ?_
    have heq : i = index := getElem?_inj_of_count_le_one honce hi (keyIndex_get hindex)
    rw [if_pos heq]
    simpa using hstatus

end Shut

/-! ## The store and a key that is shut -/

namespace ChannelStore

variable {json : Text → Option (List Text)} {s : ChannelStore} {id now : ℤ} {key usingKey reason : Text}
  {status : ChannelStatus} {faults : StatusFaults} {row cached : Channel}

variable (json) in
/-- The key is shut in the row and, with the cache on, in the cached channel. -/
structure ShutsKey (s : ChannelStore) (id : ℤ) (key : Text) : Prop where
  inDb : ∃ row, s.db.channel id = some row ∧ row.channelInfo.isMultiKey = true ∧ row.Shuts json key
  inCache : s.memoryCacheEnabled = true →
    ∃ cached, s.cache.channel id = some cached ∧ cached.channelInfo.isMultiKey = true ∧ cached.Shuts json key

/-- The second half of a change of status: the row is the one before or the changed one, and the changed one when
the call returns true. -/
theorem updateStoredStatus_cases (json : Text → Option (List Text)) (faults : StatusFaults) (now : ℤ)
    (usingKey : Text) (status : ChannelStatus) (reason : Text) (hrow : s.db.channel id = some row) :
    (updateStoredStatus json faults now id usingKey status reason s).1.cache = s.cache ∧
      (updateStoredStatus json faults now id usingKey status reason s).1.memoryCacheEnabled = s.memoryCacheEnabled ∧
      ((updateStoredStatus json faults now id usingKey status reason s).1.db.channel id =
          some (updatedRow json now usingKey status reason row) ∨
        (updateStoredStatus json faults now id usingKey status reason s).1.db.channel id = some row ∧
          (updateStoredStatus json faults now id usingKey status reason s).2 = false) := by
  have hsaved := channel_saveChannel hrow (updatedRow_id json now usingKey status reason row)
  unfold updateStoredStatus
  by_cases hread : faults.read = true
  · simp only [hread, if_true]
    exact ⟨trivial, trivial, .inr ⟨hrow, trivial⟩⟩
  · simp only [hread, Bool.false_eq_true, if_false, hrow]
    by_cases hskip : row.status = status ∧ ¬overridesKeyExhaustion row usingKey status reason = true
    · simp only [if_pos hskip]
      exact ⟨trivial, trivial, .inr ⟨hrow, trivial⟩⟩
    · simp only [if_neg hskip]
      by_cases hsave : (!faults.save && decide (row.id ≠ 0)) = true
      · simp only [if_pos hsave]
        split_ifs
        · exact ⟨rfl, rfl, .inl hsaved⟩
        · exact ⟨rfl, rfl, .inl hsaved⟩
      · simp only [if_neg hsave]
        split_ifs
        · exact ⟨rfl, rfl, .inr ⟨hrow, Bool.eq_false_iff.mpr hsave⟩⟩
        · exact ⟨rfl, rfl, .inr ⟨hrow, Bool.eq_false_iff.mpr hsave⟩⟩

/-- A change of status on a channel with several keys, in the row and in the cached channel. -/
theorem updateChannelStatus_cases (json : Text → Option (List Text)) (faults : StatusFaults) (now : ℤ)
    (usingKey : Text) (status : ChannelStatus) (reason : Text) (hrow : s.db.channel id = some row)
    (hmulti : row.channelInfo.isMultiKey = true) (hcached : s.memoryCacheEnabled = true →
      ∃ cached, s.cache.channel id = some cached ∧ cached.channelInfo.isMultiKey = true) :
    (updateChannelStatus json faults now id usingKey status reason s).1.memoryCacheEnabled = s.memoryCacheEnabled ∧
      (s.memoryCacheEnabled = true → ∀ cached, s.cache.channel id = some cached →
        (updateChannelStatus json faults now id usingKey status reason s).1.cache.channel id =
          some (handlerMultiKeyUpdate json now usingKey status reason cached)) ∧
      ((updateChannelStatus json faults now id usingKey status reason s).1.db.channel id =
          some (handlerMultiKeyUpdate json now usingKey status reason row) ∨
        (updateChannelStatus json faults now id usingKey status reason s).1.db.channel id = some row ∧
          (updateChannelStatus json faults now id usingKey status reason s).2 = false) := by
  have hupdated : updatedRow json now usingKey status reason row =
      handlerMultiKeyUpdate json now usingKey status reason row := if_pos hmulti
  unfold updateChannelStatus
  by_cases hon : s.memoryCacheEnabled = true
  · obtain ⟨cached, hcached, hcachedMulti⟩ := hcached hon
    rw [if_pos hon, hcached]
    dsimp only
    rw [if_pos hcachedMulti]
    let s' : ChannelStore := { s with cache := updateCachedKey json now id usingKey status reason cached s.cache }
    obtain ⟨hcache, henabled, hdb⟩ := updateStoredStatus_cases json faults now usingKey status reason
      (s := s') hrow
    rw [hupdated] at hdb
    refine ⟨henabled, fun _ other hother => ?_, hdb⟩
    cases hother
    rw [hcache]
    exact channel_updateCachedKey json now usingKey status reason hcached
  · rw [if_neg hon]
    obtain ⟨-, henabled, hdb⟩ := updateStoredStatus_cases json faults now usingKey status reason hrow
    rw [hupdated] at hdb
    exact ⟨henabled, fun h => absurd h hon, hdb⟩

theorem ShutsKey.updateChannelStatus_memoryCacheEnabled (h : s.ShutsKey json id key) :
    (ChannelStore.updateChannelStatus json faults now id usingKey status reason s).1.memoryCacheEnabled =
      s.memoryCacheEnabled := by
  obtain ⟨row, hrow, hmulti, -⟩ := h.inDb
  exact (updateChannelStatus_cases json faults now usingKey status reason hrow hmulti
    fun hon => (h.inCache hon).imp fun _ hcached => ⟨hcached.1, hcached.2.1⟩).1

theorem ShutsKey.updateChannelStatus (h : s.ShutsKey json id key) (hkeep : usingKey = key → status ≠ .enabled) :
    (updateChannelStatus json faults now id usingKey status reason s).1.ShutsKey json id key := by
  obtain ⟨row, hrow, hmulti, hshut⟩ := h.inDb
  obtain ⟨henabled, hcache, hdb⟩ := updateChannelStatus_cases json faults now usingKey status reason hrow hmulti
    fun hon => (h.inCache hon).imp fun _ hcached => ⟨hcached.1, hcached.2.1⟩
  constructor
  · rcases hdb with hdb | ⟨hdb, -⟩
    · refine ⟨_, hdb, ?_, handlerMultiKeyUpdate_shuts hkeep hshut⟩
      rw [handlerMultiKeyUpdate_isMultiKey, hmulti]
    · exact ⟨row, hdb, hmulti, hshut⟩
  · intro hon
    rw [henabled] at hon
    obtain ⟨cached, hcached, hcachedMulti, hcachedShut⟩ := h.inCache hon
    refine ⟨_, hcache hon cached hcached, ?_, handlerMultiKeyUpdate_shuts hkeep hcachedShut⟩
    rw [handlerMultiKeyUpdate_isMultiKey, hcachedMulti]

theorem exists_row_of_updated (h : (updateStoredStatus json faults now id usingKey status reason s).2 = true) :
    ∃ row, s.db.channel id = some row := by
  cases hrow : s.db.channel id with
  | none =>
    unfold updateStoredStatus at h
    rw [hrow, ite_self] at h
    cases h
  | some row => exact ⟨row, rfl⟩

variable (json) in
/-- The channel has several keys, and among them this one at most once. -/
structure HasKeyOnce (s : ChannelStore) (id : ℤ) (key : Text) : Prop where
  inDb : ∀ row, s.db.channel id = some row → row.channelInfo.isMultiKey = true ∧ (row.getKeys json).count key ≤ 1
  inCache : ∀ cached, s.cache.channel id = some cached →
    cached.channelInfo.isMultiKey = true ∧ (cached.getKeys json).count key ≤ 1

theorem shutsKey_of_updated (honce : s.HasKeyOnce json id key) (hstatus : status ≠ .enabled)
    (h : (updateChannelStatus json faults now id key status reason s).2 = true) :
    (updateChannelStatus json faults now id key status reason s).1.ShutsKey json id key := by
  have hcached : s.memoryCacheEnabled = true →
      ∃ cached, s.cache.channel id = some cached ∧ cached.channelInfo.isMultiKey = true := by
    intro hon
    cases hc : s.cache.channel id with
    | none =>
      unfold updateChannelStatus at h
      rw [if_pos hon, hc] at h
      cases h
    | some cached => exact ⟨cached, rfl, (honce.inCache cached hc).1⟩
  have hrow : ∃ row, s.db.channel id = some row := by
    unfold updateChannelStatus at h
    split_ifs at h with hon
    · obtain ⟨cached, hc, hmulti⟩ := hcached hon
      rw [hc] at h
      dsimp only at h
      rw [if_pos hmulti] at h
      obtain ⟨row, hrow⟩ := exists_row_of_updated h
      exact ⟨row, hrow⟩
    · exact exists_row_of_updated h
  obtain ⟨row, hrow⟩ := hrow
  obtain ⟨hmulti, hcount⟩ := honce.inDb row hrow
  obtain ⟨henabled, hcache, hdb⟩ := updateChannelStatus_cases json faults now key status reason hrow hmulti hcached
  constructor
  · rcases hdb with hdb | ⟨-, hfalse⟩
    · refine ⟨_, hdb, ?_, handlerMultiKeyUpdate_shuts_self hstatus hcount⟩
      rw [handlerMultiKeyUpdate_isMultiKey, hmulti]
    · rw [hfalse] at h
      cases h
  · intro hon
    rw [henabled] at hon
    obtain ⟨cached, hc, hcachedMulti⟩ := hcached hon
    refine ⟨_, hcache hon cached hc, ?_, handlerMultiKeyUpdate_shuts_self hstatus (honce.inCache cached hc).2⟩
    rw [handlerMultiKeyUpdate_isMultiKey, hcachedMulti]

end ChannelStore

/-! ## Runs -/

section Runs

variable {json : Text → Option (List Text)} {id : ℤ} {key : Text} {s : KeyState}

/-- The key is not enabled again. -/
def NotEnabled (key : Text) : KeyAction → Prop
  | .update _ _ usingKey status _ => usingKey = key → status ≠ .enabled
  | _ => True

variable (json id) in
/-- A call that saves its channel disables in it every key that the row disables: it was not loaded before a key
was disabled. -/
def SavesFresh (s : KeyState) : KeyAction → Prop
  | .poll holder draw readFails _ =>
    ∀ held channel row, s.held[holder]? = some held → s.channelOf id held = some channel →
      s.store.memoryCacheEnabled = false → (s.nextKey json channel draw readFails).saves = true →
      s.store.db.channel channel.id = some row →
      ∀ index, row.keyDisabled index = true → channel.keyDisabled index = true
  | _ => True

variable (json) in
/-- A channel that is held and in which the key is shut. -/
def KeyState.HeldShuts (s : KeyState) (key : Text) : Held → Prop
  | .cached => s.store.memoryCacheEnabled = true
  | .own channel => channel.channelInfo.isMultiKey = true ∧ channel.Shuts json key

variable (json id) in
/-- The key is shut in the store and in the channels that were loaded later. -/
structure KeyState.Shut (s : KeyState) (key : Text) (earlier : ℕ) : Prop where
  store : s.store.ShutsKey json id key
  length : earlier ≤ s.held.length
  held : ∀ holder held, earlier ≤ holder → s.held[holder]? = some held → s.HeldShuts json key held

variable {earlier : ℕ}

theorem KeyState.Shut.load (h : s.Shut json id key earlier) : (s.load id).Shut json id key earlier := by
  -- What is loaded is shut.
  have hpush : ∀ new, s.HeldShuts json key new →
      KeyState.Shut json id { s with held := s.held ++ [new] } key earlier := by
    intro new hnew
    refine ⟨h.store, ?_, fun holder held hlater hheld => ?_⟩
    · rw [List.length_append]
      exact h.length.trans (Nat.le_add_right _ _)
    · rcases Nat.lt_or_ge holder s.held.length with hlt | hge
      · rw [List.getElem?_append_left hlt] at hheld
        exact h.held holder held hlater hheld
      · rw [List.getElem?_append_right hge] at hheld
        rw [List.mem_singleton.mp (List.mem_of_getElem? hheld)]
        exact hnew
  unfold KeyState.load
  by_cases hon : s.store.memoryCacheEnabled = true
  · obtain ⟨cached, hcached, -⟩ := h.store.inCache hon
    rw [if_pos hon, hcached]
    exact hpush .cached hon
  · obtain ⟨row, hrow, hmulti, hshut⟩ := h.store.inDb
    rw [if_neg hon, hrow]
    exact hpush (.own row) ⟨hmulti, hshut⟩

variable {channel : Channel}

theorem channelOf_shuts (h : s.Shut json id key earlier) {holder : ℕ} {held : Held} (hlater : earlier ≤ holder)
    (hheld : s.held[holder]? = some held) (hchannel : s.channelOf id held = some channel) :
    channel.channelInfo.isMultiKey = true ∧ channel.Shuts json key := by
  have hshut := h.held holder held hlater hheld
  cases held with
  | cached =>
    obtain ⟨cached, hcached, hcachedShut⟩ := h.store.inCache hshut
    cases hcached.symm.trans hchannel
    exact hcachedShut
  | own own =>
    cases hchannel
    exact hshut

theorem KeyState.Shut.replace (h : s.Shut json id key earlier) {holder : ℕ} {held : Held}
    (hheld : s.held[holder]? = some held) (hchannel : s.channelOf id held = some channel) (cursor : ℤ) :
    (s.replace holder (channel.withCursor cursor) held).Shut json id key earlier := by
  cases held with
  | cached =>
    refine ⟨⟨h.store.inDb, fun hon => ?_⟩, h.length, h.held⟩
    obtain ⟨cached, hcached, hmulti, hshut⟩ := h.store.inCache hon
    cases hcached.symm.trans hchannel
    refine ⟨channel.withCursor cursor, Table.find_save_self hcached ?_, hmulti, hshut⟩
    show channel.id = id
    exact Table.find_key hcached
  | own own =>
    cases hchannel
    refine ⟨h.store, ?_, fun other held hlater hother => ?_⟩
    · rw [KeyState.replace, List.length_set]
      exact h.length
    · rw [KeyState.replace, List.getElem?_set] at hother
      split_ifs at hother with heq hlt
      · subst heq
        cases hother
        exact h.held holder _ hlater hheld
      · exact h.held other held hlater hother

theorem ChannelStore.ShutsKey.saveChannelInfo {store : ChannelStore} (h : store.ShutsKey json id key)
    (hmulti : channel.channelInfo.isMultiKey = true)
    (hfresh : ∀ row, store.db.channel channel.id = some row → ∀ index, row.keyDisabled index = true →
      channel.keyDisabled index = true) :
    (store.saveChannelInfo channel).ShutsKey json id key := by
  refine ⟨?_, h.inCache⟩
  obtain ⟨row, hrow, hrowMulti, hshut⟩ := h.inDb
  have hfind : (store.saveChannelInfo channel).db.channel id =
      some (if row.id = channel.id then { row with channelInfo := channel.channelInfo } else row) := by
    refine (Table.find_map fun other _ => ?_).trans ?_
    · split_ifs <;> rfl
    · rw [show Table.find Channel.id id store.db.channels = some row from hrow]
      simp
  refine ⟨_, hfind, ?_⟩
  by_cases hid : row.id = channel.id
  · rw [if_pos hid]
    refine ⟨hmulti, fun index hindex => ?_⟩
    have hstored : store.db.channel channel.id = some row := by
      rw [← hid, show row.id = id from Table.find_key hrow, hrow]
    exact hfresh row hstored index (hshut index hindex)
  · rw [if_neg hid]
    exact ⟨hrowMulti, hshut⟩

@[simp] theorem replace_memoryCacheEnabled (holder : ℕ) (channel : Channel) (held : Held) :
    (s.replace holder channel held).store.memoryCacheEnabled = s.store.memoryCacheEnabled := by
  cases held <;> rfl

@[simp] theorem replace_db (holder : ℕ) (channel : Channel) (held : Held) :
    (s.replace holder channel held).store.db = s.store.db := by
  cases held <;> rfl

theorem KeyState.Shut.poll (h : s.Shut json id key earlier) {holder draw : ℕ} {readFails saveFails : Bool}
    (hfresh : SavesFresh json id s (.poll holder draw readFails saveFails)) :
    (s.poll json id holder draw readFails saveFails).Shut json id key earlier := by
  unfold KeyState.poll
  cases hheld : s.held[holder]? with
  | none => exact h
  | some held =>
    dsimp only
    cases hchannel : s.channelOf id held with
    | none => exact h
    | some channel =>
      dsimp only
      obtain ⟨cursor, hnext⟩ : ∃ cursor, (s.nextKey json channel draw readFails).channel = channel.withCursor cursor :=
        getNextEnabledKey_channel json _ draw channel
      have hreplaced := h.replace hheld hchannel cursor
      rw [hnext]
      by_cases hsave : (s.nextKey json channel draw readFails).saves = true ∧
          (s.replace holder (channel.withCursor cursor) held).store.memoryCacheEnabled = false ∧ saveFails = false
      · rw [if_pos hsave]
        rw [replace_memoryCacheEnabled] at hsave
        have hmulti : channel.channelInfo.isMultiKey = true := isMultiKey_of_saves hsave.1
        refine ⟨hreplaced.store.saveChannelInfo hmulti fun row hrow => ?_, hreplaced.length, hreplaced.held⟩
        rw [replace_db] at hrow
        exact hfresh held channel row hheld hchannel hsave.2.1 hsave.1 hrow
      · rw [if_neg hsave]
        exact hreplaced

theorem KeyState.Shut.step {action : KeyAction} (h : s.Shut json id key earlier)
    (haction : NotEnabled key action ∧ SavesFresh json id s action) :
    (keyStep json id s action).Shut json id key earlier := by
  cases action with
  | load => exact h.load
  | poll holder draw readFails saveFails => exact h.poll haction.2
  | update faults now usingKey status reason =>
    refine ⟨h.store.updateChannelStatus haction.1, h.length, fun holder held hlater hheld => ?_⟩
    have hshut := h.held holder held hlater hheld
    cases held with
    | cached => exact (h.store.updateChannelStatus_memoryCacheEnabled).trans hshut
    | own channel => exact hshut

/-- After a call that disables a key and returns true, in every run in which the key is not enabled again and
nothing older than a disabling is saved, the key stays disabled in the row, and no channel that was loaded later
gives it. -/
theorem disabled_key_stays_disabled (json : Text → Option (List Text)) (id now : ℤ) (key reason : Text)
    (status : ChannelStatus) (faults : StatusFaults) (s : KeyState) (actions : List KeyAction)
    (honce : s.store.HasKeyOnce json id key) (hstatus : status ≠ .enabled)
    (hupdated : (s.store.updateChannelStatus json faults now id key status reason).2 = true)
    (hrun : Along (keyStep json id) (fun s action => NotEnabled key action ∧ SavesFresh json id s action)
      (keyStep json id s (.update faults now key status reason)) actions) :
    (∃ row, (run (keyStep json id) s (.update faults now key status reason :: actions)).store.db.channel id = some row ∧
      ∀ index, (row.getKeys json)[index]? = some key → row.keyDisabled index = true) ∧
    ∀ holder held channel, s.held.length ≤ holder →
      (run (keyStep json id) s (.update faults now key status reason :: actions)).held[holder]? = some held →
      (run (keyStep json id) s (.update faults now key status reason :: actions)).channelOf id held = some channel →
      ∀ draw readFails index,
        ((run (keyStep json id) s (.update faults now key status reason :: actions)).nextKey json channel draw
          readFails).result ≠ .ok (key, index) := by
  have hstart : (keyStep json id s (.update faults now key status reason)).Shut json id key s.held.length := by
    refine ⟨ChannelStore.shutsKey_of_updated honce hstatus hupdated, le_rfl, fun holder held hlater hheld => ?_⟩
    have hnone : s.held[holder]? = none := List.getElem?_eq_none hlater
    cases hnone.symm.trans hheld
  have hend := run_invariant_along (I := fun s' : KeyState => s'.Shut json id key s.held.length)
    (fun s' action h haction => h.step haction) hstart hrun
  rw [run_cons]
  constructor
  · obtain ⟨row, hrow, -, hshut⟩ := hend.store.inDb
    exact ⟨row, hrow, hshut⟩
  · intro holder held channel hlater hheld hchannel draw readFails index
    obtain ⟨hmulti, hshut⟩ := channelOf_shuts hend hlater hheld hchannel
    exact getNextEnabledKey_ne hmulti hshut _ draw index

theorem keyedStore_hasKeyOnce : ChannelStore.keyedStore.HasKeyOnce (fun _ => none) 1 "k2".toList where
  inDb := by
    intro row hrow
    cases hrow
    exact ⟨rfl, by decide⟩
  inCache := by
    intro cached hcached
    cases hcached
    exact ⟨rfl, by decide⟩

/-- The second key is disabled with the cache on; then the channel is loaded and a key asked for. -/
theorem second_key_stays_disabled :
    ∃ row, (run (keyStep (fun _ => none) 1) ⟨ChannelStore.keyedStore, []⟩
      [.update {} 0 "k2".toList .autoDisabled [], .load, .poll 0 0 false false]).store.db.channel 1 = some row ∧
      ∀ index, (row.getKeys fun _ => none)[index]? = some "k2".toList → row.keyDisabled index = true :=
  (disabled_key_stays_disabled (fun _ => none) 1 0 "k2".toList [] .autoDisabled {} ⟨ChannelStore.keyedStore, []⟩
    [.load, .poll 0 0 false false] keyedStore_hasKeyOnce (by decide) (by decide)
    ⟨⟨trivial, trivial⟩, ⟨trivial, fun _ _ _ _ _ hoff => absurd hoff (by decide)⟩, trivial⟩).1

/-- A channel with two keys that are taken in turn. -/
def pollingChannel : Channel where
  id := 1
  key := "k1\nk2".toList
  channelInfo := { isMultiKey := true, multiKeyMode := .polling }

/-- The cache is off, and a caller has loaded the channel. -/
def pollingState : KeyState where
  store :=
    { memoryCacheEnabled := false
      db := { channels := [pollingChannel], abilities := [] }
      cache := { group2model2channels := fun _ _ => [], channelsIDM := [] } }
  held := [.own pollingChannel]

/-- The caller asks for a key after the first key was disabled, and so enables it again. -/
theorem stale_poll_enables_key :
    (pollingState.store.updateChannelStatus (fun _ => none) {} 0 1 "k1".toList .autoDisabled []).2 = true ∧
      ((run (keyStep (fun _ => none) 1) pollingState
        [.update {} 0 "k1".toList .autoDisabled []]).store.db.channel 1).map (·.keyDisabled 0) = some true ∧
      ((run (keyStep (fun _ => none) 1) pollingState
        [.update {} 0 "k1".toList .autoDisabled [], .poll 0 0 false false]).store.db.channel 1).map
          (·.keyDisabled 0) = some false := by
  decide

end Runs

end Vancine.Channels
