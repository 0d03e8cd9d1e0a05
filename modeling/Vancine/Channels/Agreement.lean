import Vancine.Channels.Status

/-!
# The cached channel and the row

A change of status is made twice, to the cached channel and to the row, by the same function. The cached channel
is changed first; the row only when its status is not the wanted one yet. A call about one key of a channel that
has the wanted status already therefore changes the cached channel only.
-/

namespace Vancine.Channels

open Lib

variable {json : Text → Option (List Text)}

/-! ## The same keys in two copies of a channel -/

/-- The channel with the status of one key changed. -/
def Channel.withKey (channel : Channel) (index : ℕ) (status : ChannelStatus) (reason : Text) (now : ℤ) : Channel :=
  { channel with channelInfo := channel.channelInfo.setKey index status reason now }

/-- Two copies of a channel that a change of status treats alike. -/
structure Channel.Agrees (a b : Channel) : Prop where
  status : a.status = b.status
  key : a.key = b.key
  isMultiKey : a.channelInfo.isMultiKey = b.channelInfo.isMultiKey
  statusList : a.channelInfo.multiKeyStatusList = b.channelInfo.multiKeyStatusList

namespace Channel.Agrees

variable {a b : Channel}

theorem getKeys (h : a.Agrees b) : a.getKeys json = b.getKeys json := by
  unfold Channel.getKeys
  rw [h.key]

theorem keyIndex (h : a.Agrees b) (usingKey : Text) : a.keyIndex json usingKey = b.keyIndex json usingKey := by
  unfold Channel.keyIndex
  rw [h.getKeys]

theorem keyDisabled (h : a.Agrees b) (index : ℕ) : a.keyDisabled index = b.keyDisabled index := by
  unfold Channel.keyDisabled
  rw [h.statusList]

theorem hasEnabledMultiKey (h : a.Agrees b) : a.hasEnabledMultiKey json = b.hasEnabledMultiKey json := by
  unfold Channel.hasEnabledMultiKey
  rw [h.getKeys]
  simp only [h.keyDisabled]

theorem withKey (h : a.Agrees b) (index : ℕ) (status : ChannelStatus) (reason : Text) (now : ℤ) :
    (a.withKey index status reason now).Agrees (b.withKey index status reason now) := by
  unfold Channel.withKey ChannelInfo.setKey
  split_ifs
  · exact ⟨h.status, h.key, h.isMultiKey, by simp only [h.statusList]⟩
  · exact ⟨h.status, h.key, h.isMultiKey, by simp only [h.statusList]⟩

end Channel.Agrees

/-! ## What a change of a key does -/

section Handler

variable {now : ℤ} {usingKey : Text} {status : ChannelStatus} {reason : Text} {channel : Channel}

theorem keyDisabled_withKey (index i : ℕ) : (channel.withKey index status reason now).keyDisabled i =
      if i = index then decide (status ≠ .enabled) else channel.keyDisabled i := by
  unfold Channel.withKey ChannelInfo.setKey Channel.keyDisabled
  by_cases hi : i = index
  · subst hi
    by_cases hs : status = .enabled
    · simp [hs]
    · simp [hs]
  · by_cases hs : status = .enabled
    · simp [hs, hi]
    · simp [hs, hi]

theorem keyIndex_lt {index : ℕ} (h : channel.keyIndex json usingKey = some index) :
    index < (channel.getKeys json).length := by
  unfold Channel.keyIndex at h
  exact (List.findIdx?_eq_some_iff_getElem.mp h).1

theorem hasEnabledMultiKey_of_enabled {index : ℕ} (h : channel.keyIndex json usingKey = some index) :
    (channel.withKey index .enabled reason now).hasEnabledMultiKey json = true := by
  unfold Channel.hasEnabledMultiKey
  rw [List.any_eq_true]
  refine ⟨index, List.mem_range.mpr (keyIndex_lt h), ?_⟩
  rw [keyDisabled_withKey]
  simp

/-- Without the key, the channel stays or gets the wanted status; with it, the key gets that status and the channel
is disabled when no key is left. -/
theorem handlerMultiKeyUpdate_cases (json : Text → Option (List Text)) (now : ℤ) (usingKey : Text)
    (status : ChannelStatus) (reason : Text) (channel : Channel) : ∃ otherInfo, (channel.keyIndex json usingKey = none ∧
        handlerMultiKeyUpdate json now usingKey status reason channel = { channel with
            status := if channel.getKeys json = [] ∨ usingKey = [] then status else channel.status
            otherInfo }) ∨ ∃ index, channel.keyIndex json usingKey = some index ∧
        handlerMultiKeyUpdate json now usingKey status reason channel =
          { channel.withKey index status reason now with
            status :=
              if (channel.withKey index status reason now).hasEnabledMultiKey json then
                if status = .enabled then .enabled else channel.status
              else .autoDisabled
            otherInfo } := by
  unfold handlerMultiKeyUpdate
  by_cases hkeys : channel.getKeys json = []
  · refine ⟨channel.otherInfo, .inl ⟨?_, ?_⟩⟩
    · unfold Channel.keyIndex
      rw [hkeys]
      rfl
    · rw [if_pos hkeys, if_pos (.inl hkeys)]
  · rw [if_neg hkeys]
    cases hindex : channel.keyIndex json usingKey with
    | none =>
      by_cases hkey : usingKey = []
      · refine ⟨⟨some reason, some now⟩, .inl ⟨rfl, ?_⟩⟩
        have hor : channel.getKeys json = [] ∨ usingKey = [] := .inr hkey
        rw [if_pos hor]
        exact if_neg (not_not.mpr hkey)
      · refine ⟨channel.otherInfo, .inl ⟨rfl, ?_⟩⟩
        have hor : ¬(channel.getKeys json = [] ∨ usingKey = []) := not_or.mpr ⟨hkeys, hkey⟩
        rw [if_neg hor]
        exact if_pos hkey
    | some index =>
      by_cases hsome : (channel.withKey index status reason now).hasEnabledMultiKey json
      · refine ⟨channel.otherInfo, .inr ⟨index, rfl, ?_⟩⟩
        rw [if_pos hsome]
        refine (if_neg (not_not.mpr hsome)).trans ?_
        by_cases hs : status = .enabled
        · rw [if_pos hs, if_pos hs]
          rfl
        · rw [if_neg hs, if_neg hs]
          rfl
      · refine ⟨⟨some allKeysDisabled, some now⟩, .inr ⟨index, rfl, ?_⟩⟩
        rw [if_neg hsome]
        exact if_pos hsome

@[simp] theorem handlerMultiKeyUpdate_id :
    (handlerMultiKeyUpdate json now usingKey status reason channel).id = channel.id := by
  obtain ⟨_, ⟨-, h⟩ | ⟨_, -, h⟩⟩ := handlerMultiKeyUpdate_cases json now usingKey status reason channel
  · rw [h]
  · rw [h]
    rfl

/-- A new status of the channel is enabled just when the wanted one is. -/
theorem handlerMultiKeyUpdate_status :
    (handlerMultiKeyUpdate json now usingKey status reason channel).status = channel.status ∨
      ((handlerMultiKeyUpdate json now usingKey status reason channel).status = .enabled ↔ status = .enabled) := by
  obtain ⟨_, ⟨-, h⟩ | ⟨index, hindex, h⟩⟩ := handlerMultiKeyUpdate_cases json now usingKey status reason channel
  · rw [h]
    dsimp only
    split_ifs
    · right
      rfl
    · left
      rfl
  · rw [h]
    dsimp only
    by_cases hs : status = .enabled
    · right
      subst hs
      rw [if_pos (hasEnabledMultiKey_of_enabled hindex), if_pos rfl]
    · rw [if_neg hs]
      split_ifs
      · left
        rfl
      · right
        exact iff_of_false (by decide) hs

theorem Channel.Agrees.handlerMultiKeyUpdate {a b : Channel} (h : a.Agrees b) (json : Text → Option (List Text))
    (now : ℤ) (usingKey : Text) (status : ChannelStatus) (reason : Text) :
    (handlerMultiKeyUpdate json now usingKey status reason a).Agrees
      (handlerMultiKeyUpdate json now usingKey status reason b) := by
  obtain ⟨_, ⟨ha, hea⟩ | ⟨i, ha, hea⟩⟩ := handlerMultiKeyUpdate_cases json now usingKey status reason a
  · obtain ⟨_, ⟨-, heb⟩ | ⟨_, hb, -⟩⟩ := handlerMultiKeyUpdate_cases json now usingKey status reason b
    · rw [hea, heb, h.getKeys, h.status]
      exact ⟨rfl, h.key, h.isMultiKey, h.statusList⟩
    · rw [h.keyIndex, hb] at ha
      cases ha
  · obtain ⟨_, ⟨hb, -⟩ | ⟨j, hb, heb⟩⟩ := handlerMultiKeyUpdate_cases json now usingKey status reason b
    · rw [h.keyIndex, hb] at ha
      cases ha
    · rw [h.keyIndex, hb] at ha
      cases ha
      have hset := h.withKey i status reason now
      rw [hea, heb, hset.hasEnabledMultiKey, h.status]
      exact ⟨rfl, hset.key, hset.isMultiKey, hset.statusList⟩

end Handler

/-! ## The store -/

section Store

variable {id : ℤ} {s : ChannelStore} {cached row : Channel}

theorem channel_id_of_cached {cache : Cache} (h : cache.channel id = some cached) : cached.id = id :=
  Table.find_key h

@[simp] theorem channel_cacheUpdateChannelStatus (status : ChannelStatus) (cache : Cache) :
    (cacheUpdateChannelStatus id status cache).channel id =
      (cache.channel id).map fun channel => { channel with status } := by
  unfold Cache.channel cacheUpdateChannelStatus Table.updateWhere
  dsimp only
  rw [Table.find_map]
  · cases h : Table.find Channel.id id cache.channelsIDM with
    | none => rfl
    | some channel =>
      simp only [Option.map_some]
      rw [if_pos (by simpa using Table.find_key h)]
  · intro channel _
    split_ifs <;> rfl

theorem channel_updateCachedKey (json : Text → Option (List Text)) (now : ℤ) (usingKey : Text)
    (status : ChannelStatus) (reason : Text) {cache : Cache} (h : cache.channel id = some cached) :
    (ChannelStore.updateCachedKey json now id usingKey status reason cached cache).channel id =
      some (handlerMultiKeyUpdate json now usingKey status reason cached) := by
  have hsave : Cache.channel { cache with
      channelsIDM := Table.save Channel.id (handlerMultiKeyUpdate json now usingKey status reason cached)
        cache.channelsIDM } id = some (handlerMultiKeyUpdate json now usingKey status reason cached) :=
    Table.find_save_self h (by rw [handlerMultiKeyUpdate_id, channel_id_of_cached h])
  unfold ChannelStore.updateCachedKey
  dsimp only
  split_ifs
  · rw [channel_cacheUpdateChannelStatus, hsave]
    rfl
  · exact hsave

theorem channel_saveChannel (h : s.db.channel id = some row) {updated : Channel} (hid : updated.id = row.id) :
    (s.saveChannel updated).db.channel id = some updated :=
  Table.find_save_self h (hid.trans (Table.find_key h))

/-- The abilities of a channel are enabled just when the channel is. -/
def Db.AbilitiesFollow (db : Db) (row : Channel) : Prop :=
  ∀ ability ∈ db.abilities, ability.channelId = row.id → (ability.enabled = true ↔ row.status = .enabled)

theorem abilitiesFollow_updateAbilityStatus {updated : Channel} {status : ChannelStatus} (hid : updated.id = id)
    (h : updated.status = .enabled ↔ status = .enabled) :
    (s.updateAbilityStatus id (status = .enabled)).db.AbilitiesFollow updated := by
  intro ability hability hchannel
  rcases Table.mem_updateWhere.mp hability with ⟨old, -, -, rfl⟩ | ⟨-, hother⟩
  · rw [h]
    simp
  · rw [hid] at hchannel
    simp [hchannel] at hother

end Store

/-! ## Agreement after a change -/

namespace ChannelStore

/-- The cached channel and the row agree, and the abilities with them. -/
structure InSync (s : ChannelStore) (id : ℤ) (cached row : Channel) : Prop where
  cacheOn : s.memoryCacheEnabled = true
  inCache : s.cache.channel id = some cached
  inDb : s.db.channel id = some row
  agrees : cached.Agrees row
  abilities : s.db.AbilitiesFollow row

/-- The same status and the same disabled keys in both places, and the abilities enabled just when the row is. -/
def Consistent (s : ChannelStore) (id : ℤ) : Prop :=
  ∃ cached row, s.cache.channel id = some cached ∧ s.db.channel id = some row ∧ cached.status = row.status ∧
    (∀ index, cached.keyDisabled index = row.keyDisabled index) ∧ s.db.AbilitiesFollow row

/-- The call is about one key of a channel that has the wanted status already, so the row is left alone, and the
key does not have that status, or it is the last one and the channel would be disabled for it. -/
def SkipsKey (json : Text → Option (List Text)) (row : Channel) (usingKey : Text) (status : ChannelStatus)
    (reason : Text) : Prop :=
  row.channelInfo.isMultiKey = true ∧ row.status = status ∧
    overridesKeyExhaustion row usingKey status reason = false ∧
    ∃ index, row.keyIndex json usingKey = some index ∧
      ¬(row.keyDisabled index = decide (status ≠ .enabled) ∧
        (row.hasEnabledMultiKey json = true ∨ status = .autoDisabled))

variable {s : ChannelStore} {id : ℤ} {cached row : Channel} {now : ℤ} {usingKey : Text} {status : ChannelStatus}
  {reason : Text}

theorem InSync.consistent (h : s.InSync id cached row) : s.Consistent id :=
  ⟨cached, row, h.inCache, h.inDb, h.agrees.status, h.agrees.keyDisabled, h.abilities⟩

theorem updatedRow_id (json : Text → Option (List Text)) (now : ℤ) (usingKey : Text) (status : ChannelStatus)
    (reason : Text) (row : Channel) : (updatedRow json now usingKey status reason row).id = row.id := by
  unfold updatedRow
  split_ifs
  · exact handlerMultiKeyUpdate_id
  · rfl

/-- A new status of the row is enabled just when the wanted one is. -/
theorem updatedRow_status (json : Text → Option (List Text)) (now : ℤ) (usingKey : Text) (status : ChannelStatus)
    (reason : Text) (row : Channel) :
    (updatedRow json now usingKey status reason row).status = row.status ∧ row.channelInfo.isMultiKey = true ∨
      ((updatedRow json now usingKey status reason row).status = .enabled ↔ status = .enabled) := by
  unfold updatedRow
  by_cases hmulti : row.channelInfo.isMultiKey = true
  · rw [if_pos hmulti]
    exact handlerMultiKeyUpdate_status.imp_left fun h => ⟨h, hmulti⟩
  · rw [if_neg hmulti]
    right
    rfl

theorem updateStoredStatus_row (json : Text → Option (List Text)) (now : ℤ) (hid : id ≠ 0) (hrow : s.db.channel id = some row)
    (habilities : s.db.AbilitiesFollow row)
    (hgo : ¬(row.status = status ∧ ¬overridesKeyExhaustion row usingKey status reason = true)) :
    (updateStoredStatus json {} now id usingKey status reason s).1.cache = s.cache ∧
      (updateStoredStatus json {} now id usingKey status reason s).1.db.channel id =
        some (updatedRow json now usingKey status reason row) ∧
      (updateStoredStatus json {} now id usingKey status reason s).1.db.AbilitiesFollow
        (updatedRow json now usingKey status reason row) := by
  have hrowid : row.id = id := Table.find_key hrow
  have hupdated := updatedRow_id json now usingKey status reason row
  have hsaved := channel_saveChannel hrow hupdated
  unfold updateStoredStatus
  simp only [Bool.false_eq_true, if_false, hrow, if_neg hgo, Bool.not_false, Bool.true_and, hrowid]
  simp only [ne_eq, hid, not_false_eq_true, decide_true, if_true, and_true]
  split_ifs with hchanged
  · refine ⟨rfl, hsaved, abilitiesFollow_updateAbilityStatus (hupdated.trans hrowid) ?_⟩
    rcases updatedRow_status json now usingKey status reason row with ⟨hsame, hmulti⟩ | h
    · simp [hsame, hmulti] at hchanged
    · exact h
  · simp only [Bool.or_eq_true, Bool.not_eq_true', decide_eq_true_eq, not_or, Bool.not_eq_false, not_not] at hchanged
    refine ⟨rfl, hsaved, fun ability hability hchannel => ?_⟩
    rw [← hchanged.2]
    exact habilities ability hability (hchannel.trans hupdated)

theorem updateStoredStatus_skip (hrow : s.db.channel id = some row)
    (hskip : row.status = status ∧ ¬overridesKeyExhaustion row usingKey status reason = true) :
    (updateStoredStatus json {} now id usingKey status reason s).1 = s := by
  unfold updateStoredStatus
  simp only [Bool.false_eq_true, if_false, hrow, if_pos hskip]

end ChannelStore

variable {status : ChannelStatus}

/-- A key that has the wanted status already changes nothing when it is written again. -/
theorem hasEnabledMultiKey_withKey {channel : Channel} {index : ℕ} {reason : Text} {now : ℤ}
    (h : channel.keyDisabled index = decide (status ≠ .enabled)) :
    (channel.withKey index status reason now).hasEnabledMultiKey json = channel.hasEnabledMultiKey json := by
  have hsame : ∀ i, (channel.withKey index status reason now).keyDisabled i = channel.keyDisabled i := by
    intro i
    rw [keyDisabled_withKey]
    split_ifs with hi
    · rw [hi, h]
    · rfl
  unfold Channel.hasEnabledMultiKey
  simp only [hsame]
  rfl

/-- The change is none, up to reasons, for a channel that has the wanted status already. -/
theorem handlerMultiKeyUpdate_same {channel : Channel} {now : ℤ} {usingKey : Text} {reason : Text}
    (hstatus : channel.status = status) :
    ((handlerMultiKeyUpdate json now usingKey status reason channel).status = channel.status ∧
      ∀ index, (handlerMultiKeyUpdate json now usingKey status reason channel).keyDisabled index =
        channel.keyDisabled index) ↔ ∀ index, channel.keyIndex json usingKey = some index →
      channel.keyDisabled index = decide (status ≠ .enabled) ∧
        (channel.hasEnabledMultiKey json = true ∨ status = .autoDisabled) := by
  obtain ⟨_, ⟨hnone, h⟩ | ⟨index, hindex, h⟩⟩ := handlerMultiKeyUpdate_cases json now usingKey status reason channel
  · rw [h]
    refine iff_of_true ⟨?_, fun index => rfl⟩ ?_
    · dsimp only
      rw [hstatus, ite_self]
    · intro index hindex
      rw [hnone] at hindex
      cases hindex
  · have hkeys : ∀ i, (handlerMultiKeyUpdate json now usingKey status reason channel).keyDisabled i =
        if i = index then decide (status ≠ .enabled) else channel.keyDisabled i := by
      intro i
      rw [h]
      exact keyDisabled_withKey index i
    have hafter : (handlerMultiKeyUpdate json now usingKey status reason channel).status =
        if (channel.withKey index status reason now).hasEnabledMultiKey json then status else .autoDisabled := by
      rw [h, hstatus]
      dsimp only
      by_cases hs : status = .enabled
      · rw [if_pos hs, hs]
      · rw [if_neg hs]
    rw [hafter, hstatus]
    constructor
    · rintro ⟨hchannel, hsame⟩ i hi
      cases hi.symm.trans hindex
      have hdisabled : channel.keyDisabled index = decide (status ≠ .enabled) := by
        rw [← hsame index, hkeys, if_pos rfl]
      refine ⟨hdisabled, ?_⟩
      rw [hasEnabledMultiKey_withKey hdisabled] at hchannel
      split_ifs at hchannel with hsome
      · exact .inl hsome
      · exact .inr hchannel.symm
    · intro hkey
      obtain ⟨hdisabled, hsome⟩ := hkey index hindex
      refine ⟨?_, fun i => ?_⟩
      · rw [hasEnabledMultiKey_withKey hdisabled]
        rcases hsome with hsome | hauto
        · rw [if_pos hsome]
        · rw [hauto, ite_self]
      · rw [hkeys]
        split_ifs with hi
        · rw [hi, hdisabled]
        · rfl

namespace ChannelStore

variable {s : ChannelStore} {id : ℤ} {cached row : Channel} {now : ℤ} {usingKey : Text} {status : ChannelStatus}
  {reason : Text}

theorem not_skipsKey_iff (hmulti : row.channelInfo.isMultiKey = true) (hstatus : row.status = status)
    (hoverride : overridesKeyExhaustion row usingKey status reason = false) :
    ¬SkipsKey json row usingKey status reason ↔ ∀ index, row.keyIndex json usingKey = some index →
        row.keyDisabled index = decide (status ≠ .enabled) ∧
          (row.hasEnabledMultiKey json = true ∨ status = .autoDisabled) := by
  unfold SkipsKey
  push Not
  constructor
  · intro h index hindex
    exact h hmulti hstatus hoverride index hindex
  · intro h _ _ _ index hindex
    exact h index hindex

/-- The cached channel `cached` has been changed and the row follows. -/
theorem updateStoredStatus_consistent (hid : id ≠ 0) (hcached : s.cache.channel id = some cached)
    (hrow : s.db.channel id = some row) (habilities : s.db.AbilitiesFollow row)
    (hgo : ¬(row.status = status ∧ ¬overridesKeyExhaustion row usingKey status reason = true))
    (hstatus : cached.status = (updatedRow json now usingKey status reason row).status)
    (hkeys : ∀ index, cached.keyDisabled index = (updatedRow json now usingKey status reason row).keyDisabled index) :
    (updateStoredStatus json {} now id usingKey status reason s).1.Consistent id := by
  obtain ⟨hcache, hupdated, hfollow⟩ := updateStoredStatus_row json now hid hrow habilities hgo
  refine ⟨cached, _, ?_, hupdated, hstatus, hkeys, hfollow⟩
  rw [hcache, hcached]

/-- The cached channel `cached` has been changed and the row has not. -/
theorem consistent_iff_of_skip (hcached : s.cache.channel id = some cached) (hrow : s.db.channel id = some row)
    (habilities : s.db.AbilitiesFollow row)
    (hskip : row.status = status ∧ ¬overridesKeyExhaustion row usingKey status reason = true) :
    (updateStoredStatus json {} now id usingKey status reason s).1.Consistent id ↔
      cached.status = row.status ∧ ∀ index, cached.keyDisabled index = row.keyDisabled index := by
  rw [updateStoredStatus_skip hrow hskip]
  constructor
  · rintro ⟨cached', row', hcached', hrow', hstatus, hkeys, -⟩
    cases hcached'.symm.trans hcached
    cases hrow'.symm.trans hrow
    exact ⟨hstatus, hkeys⟩
  · rintro ⟨hstatus, hkeys⟩
    exact ⟨cached, row, hcached, hrow, hstatus, hkeys, habilities⟩

theorem multiKey_consistent_iff (hid : id ≠ 0) (h : s.InSync id cached row)
    (hmulti : row.channelInfo.isMultiKey = true) : (updateStoredStatus json {} now id usingKey status reason
        { s with cache := updateCachedKey json now id usingKey status reason cached s.cache }).1.Consistent id ↔
      ¬SkipsKey json row usingKey status reason := by
  let s' : ChannelStore := { s with cache := updateCachedKey json now id usingKey status reason cached s.cache }
  have hcache : s'.cache.channel id = _ := channel_updateCachedKey json now usingKey status reason h.inCache
  have hboth := h.agrees.handlerMultiKeyUpdate json now usingKey status reason
  by_cases hskip : row.status = status ∧ ¬overridesKeyExhaustion row usingKey status reason = true
  · refine (consistent_iff_of_skip hcache h.inDb h.abilities hskip).trans ?_
    rw [hboth.status, not_skipsKey_iff hmulti hskip.1 (Bool.eq_false_iff.mpr hskip.2)]
    simp only [hboth.keyDisabled]
    exact handlerMultiKeyUpdate_same hskip.1
  · have hupdated : updatedRow json now usingKey status reason row =
        handlerMultiKeyUpdate json now usingKey status reason row := if_pos hmulti
    refine iff_of_true (updateStoredStatus_consistent hid hcache h.inDb h.abilities hskip ?_ ?_) ?_
    · rw [hupdated, hboth.status]
    · rw [hupdated]
      exact hboth.keyDisabled
    · rintro ⟨-, hstatus, hoverride, -⟩
      exact hskip ⟨hstatus, by simp [hoverride]⟩

/-- A channel with one key: the row has the wanted status just when the cached channel has. -/
theorem singleKey_consistent (hid : id ≠ 0) (h : s.InSync id cached row)
    (hmulti : ¬row.channelInfo.isMultiKey = true) (hstatus : ¬cached.status = status) :
    (updateStoredStatus json {} now id usingKey status reason
      { s with cache := cacheUpdateChannelStatus id status s.cache }).1.Consistent id := by
  have hcache : (cacheUpdateChannelStatus id status s.cache).channel id = some { cached with status } := by
    rw [channel_cacheUpdateChannelStatus, h.inCache]
    rfl
  have hupdated : updatedRow json now usingKey status reason row =
      { row with status, otherInfo := ⟨some reason, some now⟩ } := if_neg hmulti
  refine updateStoredStatus_consistent hid hcache h.inDb h.abilities ?_ ?_ ?_
  · rintro ⟨hrow, -⟩
    exact hstatus (h.agrees.status.trans hrow)
  · rw [hupdated]
  · rw [hupdated]
    exact h.agrees.keyDisabled

/-- After a change of status the cached channel and the row agree again just when the call is not about a key of
a channel that has the wanted status already, while the key, or the channel for want of keys, has not. -/
theorem updateChannelStatus_consistent_iff (json : Text → Option (List Text)) (s : ChannelStore) (id now : ℤ)
    (cached row : Channel) (usingKey : Text) (status : ChannelStatus) (reason : Text) (hid : id ≠ 0)
    (h : s.InSync id cached row) :
    (updateChannelStatus json {} now id usingKey status reason s).1.Consistent id ↔
      ¬SkipsKey json row usingKey status reason := by
  unfold updateChannelStatus
  rw [if_pos h.cacheOn, h.inCache]
  dsimp only
  rw [h.agrees.isMultiKey]
  by_cases hmulti : row.channelInfo.isMultiKey = true
  · rw [if_pos hmulti]
    exact multiKey_consistent_iff hid h hmulti
  · rw [if_neg hmulti]
    have hkeys : ¬SkipsKey json row usingKey status reason := fun hskips => hmulti hskips.1
    refine iff_of_true ?_ hkeys
    by_cases hstatus : cached.status = status
    · rw [if_pos hstatus]
      exact h.consistent
    · rw [if_neg hstatus]
      exact singleKey_consistent hid h hmulti hstatus

/-- A channel with two keys, the first of them disabled. -/
def keyedChannel : Channel where
  id := 1
  key := "k1\nk2".toList
  models := "gpt-4".toList
  group := "default".toList
  channelInfo :=
    { isMultiKey := true
      multiKeyStatusList := fun index => if index = 0 then some .autoDisabled else none }

def keyedStore : ChannelStore where
  memoryCacheEnabled := true
  db :=
    { channels := [keyedChannel]
      abilities := [⟨"default".toList, "gpt-4".toList, 1, true, none, 0⟩] }
  cache :=
    { group2model2channels := fun group model => if group = "default".toList ∧ model = "gpt-4".toList then [1] else []
      channelsIDM := [keyedChannel] }

theorem keyedStore_inSync : keyedStore.InSync 1 keyedChannel keyedChannel where
  cacheOn := rfl
  inCache := rfl
  inDb := rfl
  agrees := ⟨rfl, rfl, rfl, rfl⟩
  abilities := by
    intro ability hability _
    rw [List.mem_singleton.mp hability]
    exact iff_of_true rfl rfl

/-- Disabling the second key disables the channel in both places. -/
theorem last_key_consistent :
    (updateChannelStatus (fun _ => none) {} 0 1 "k2".toList .autoDisabled [] keyedStore).1.Consistent 1 :=
  (updateChannelStatus_consistent_iff (fun _ => none) keyedStore 1 0 keyedChannel keyedChannel "k2".toList
    .autoDisabled [] (by decide) keyedStore_inSync).mpr fun h => absurd h.2.1 (by decide)

/-- Enabling the first key of the enabled channel changes the cached channel only. -/
theorem enabled_key_inconsistent :
    keyedStore.InSync 1 keyedChannel keyedChannel ∧
      ¬(updateChannelStatus (fun _ => none) {} 0 1 "k1".toList .enabled [] keyedStore).1.Consistent 1 := by
  refine ⟨keyedStore_inSync, ?_⟩
  rintro ⟨cached, row, hcached, hrow, -, hkeys, -⟩
  have hcache : ((updateChannelStatus (fun _ => none) {} 0 1 "k1".toList .enabled [] keyedStore).1.cache.channel
      1).map (·.keyDisabled 0) = some false := by decide
  have hdb : ((updateChannelStatus (fun _ => none) {} 0 1 "k1".toList .enabled [] keyedStore).1.db.channel
      1).map (·.keyDisabled 0) = some true := by decide
  rw [hcached] at hcache
  rw [hrow] at hdb
  have h : false = true := (Option.some.inj hcache).symm.trans ((hkeys 0).trans (Option.some.inj hdb))
  cases h

end ChannelStore

end Vancine.Channels
