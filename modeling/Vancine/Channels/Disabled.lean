import Vancine.Channels.Store

/-!
# Disabled channels are not selected

A run of the cache: it is built from the database, the status of a channel changes, or a channel is replaced.
Selection returns a channel only when its id stands in the list for the group and the model. Disabling takes
one place out of each list, so the channel is gone when it stood at one place at most: when it lists no group
and no model twice.
-/

namespace Vancine.Channels

open Lib

/-! ## Runs of the cache -/

inductive CacheAction
  | initChannelCache (db : Db)
  | updateChannelStatus (id : ℤ) (status : ChannelStatus)
  | updateChannel (channel : Channel)

/-- A panic of `InitChannelCache` leaves the cache as it is. -/
def cacheStep (cache : Cache) : CacheAction → Cache
  | .initChannelCache db => (initChannelCache db cache.channelsIDM).getD cache
  | .updateChannelStatus id status => cacheUpdateChannelStatus id status cache
  | .updateChannel channel => cacheUpdateChannel channel cache

def emptyCache : Cache where
  group2model2channels := fun _ _ => []
  channelsIDM := []

/-- No group and no model is listed twice. -/
def Channel.ListsOnce (channel : Channel) : Prop := channel.splitGroups.Nodup ∧ channel.getModels.Nodup

instance (channel : Channel) : Decidable channel.ListsOnce :=
  inferInstanceAs (Decidable (channel.splitGroups.Nodup ∧ channel.getModels.Nodup))

/-- In every database that the cache is built from, the channel lists no group and no model twice while it is
enabled. -/
def BuiltOnce (id : ℤ) : CacheAction → Prop
  | .initChannelCache db =>
    ∀ channel ∈ db.channels, channel.id = id → channel.status = .enabled → channel.ListsOnce
  | _ => True

/-- The channel stays disabled: it is not enabled, and the cache is not built from a database where it is. -/
def StaysDisabled (id : ℤ) : CacheAction → Prop
  | .initChannelCache db => ∀ channel ∈ db.channels, channel.id = id → channel.status ≠ .enabled
  | .updateChannelStatus id' status => id' = id → status ≠ .enabled
  | .updateChannel _ => True

/-! ## Places in the lists -/

section

variable {id : ℤ} {group model : Text}

theorem listed_models (models : List Text) (p : Prop) [Decidable p] :
    (models.flatMap fun m => if p ∧ m = model then [id] else []) =
      List.replicate (if p then models.count model else 0) id := by
  induction models with
  | nil => split_ifs <;> rfl
  | cons m models ih =>
    rw [List.flatMap_cons, ih]
    by_cases hp : p
    · by_cases hm : m = model
      · simp [hp, hm, List.replicate_succ]
      · simp [hp, hm]
    · simp [hp]

/-- A channel stands in a list as often as it lists the group times as often as it lists the model. -/
theorem listed_channel (groups models : List Text) :
    (groups.flatMap fun g => models.flatMap fun m => if g = group ∧ m = model then [id] else []) =
      List.replicate (groups.count group * models.count model) id := by
  induction groups with
  | nil => simp
  | cons g groups ih =>
    rw [List.flatMap_cons, ih, listed_models models (g = group)]
    by_cases hg : g = group
    · simp only [if_pos hg, List.replicate_append_replicate, List.count_cons, beq_iff_eq]
      congr 1
      rw [Nat.add_mul, Nat.one_mul, Nat.add_comm]
    · simp only [if_neg hg, List.replicate_zero, List.nil_append, List.count_cons, beq_iff_eq, Nat.add_zero]

variable {channels : List Channel}

theorem count_listedIds_of_notMem (h : ∀ channel ∈ channels, channel.id = id → channel.status ≠ .enabled) :
    (listedIds channels group model).count id = 0 := by
  rw [List.count_eq_zero]
  unfold listedIds
  rw [List.mem_flatMap]
  rintro ⟨channel, hmem, hid⟩
  split_ifs at hid with hstatus
  · rw [listed_channel, List.mem_replicate] at hid
    exact h channel hmem hid.2.symm hstatus
  · cases hid

theorem count_listedIds (hnodup : (channels.map Channel.id).Nodup)
    (h : ∀ channel ∈ channels, channel.id = id → channel.status = .enabled → channel.ListsOnce) :
    (listedIds channels group model).count id ≤ 1 := by
  induction channels with
  | nil => exact Nat.zero_le 1
  | cons channel channels ih =>
    rw [List.map_cons, List.nodup_cons] at hnodup
    rw [List.forall_mem_cons] at h
    unfold listedIds
    rw [List.flatMap_cons, List.count_append]
    by_cases hid : channel.id = id
    · -- The others have other ids.
      have hrest : (listedIds channels group model).count id = 0 := by
        refine count_listedIds_of_notMem fun other hother heq => ?_
        exact absurd (List.mem_map.mpr ⟨other, hother, heq.trans hid.symm⟩) hnodup.1
      have hfirst : (if channel.status = .enabled then channel.splitGroups.flatMap fun g =>
          channel.getModels.flatMap fun m => if g = group ∧ m = model then [channel.id] else []
          else []).count id ≤ 1 := by
        split_ifs with hstatus
        · obtain ⟨hgroups, hmodels⟩ := h.1 hid hstatus
          rw [listed_channel, List.count_replicate]
          have hle : channel.splitGroups.count group * channel.getModels.count model ≤ 1 * 1 :=
            Nat.mul_le_mul (List.nodup_iff_count_le_one.mp hgroups group)
              (List.nodup_iff_count_le_one.mp hmodels model)
          split_ifs
          · exact hle
          · exact Nat.zero_le 1
        · exact Nat.zero_le 1
      exact (Nat.add_le_add hfirst hrest.le).trans le_rfl
    · have hfirst : (if channel.status = .enabled then channel.splitGroups.flatMap fun g =>
          channel.getModels.flatMap fun m => if g = group ∧ m = model then [channel.id] else []
          else []).count id = 0 := by
        split_ifs
        · rw [listed_channel, List.count_replicate, if_neg (by simpa using hid)]
        · rfl
      rw [hfirst, Nat.zero_add]
      exact ih hnodup.2 h.2

theorem count_sortByPriority (channels : List Channel) (ids : List ℤ) :
    (sortByPriority channels ids).count id = ids.count id := (List.perm_insertionSort _ ids).count_eq id

end

/-! ## Steps -/

section

variable {id : ℤ} {cache : Cache} {action : CacheAction}

/-- The channel stands at one place of each list at most. -/
def Cache.ListedOnce (id : ℤ) (cache : Cache) : Prop :=
  ∀ group model, (cache.group2model2channels group model).count id ≤ 1

def Cache.Unlisted (id : ℤ) (cache : Cache) : Prop := ∀ group model, id ∉ cache.group2model2channels group model

theorem initChannelCache_lists {db : Db} {old : List Channel} {cache : Cache}
    (h : initChannelCache db old = some cache) (group model : Text) :
    cache.group2model2channels group model = sortByPriority db.channels (listedIds db.channels group model) := by
  unfold initChannelCache at h
  split_ifs at h
  cases h
  rfl

theorem cacheStep_listedOnce (h : cache.ListedOnce id) (hbuilt : BuiltOnce id action) :
    (cacheStep cache action).ListedOnce id := by
  intro group model
  cases action with
  | initChannelCache db =>
    cases hinit : initChannelCache db cache.channelsIDM with
    | none =>
      simp only [cacheStep, hinit, Option.getD_none]
      exact h group model
    | some built =>
      simp only [cacheStep, hinit, Option.getD_some]
      rw [initChannelCache_lists hinit, count_sortByPriority]
      exact count_listedIds db.nodup_ids hbuilt
  | updateChannelStatus id' status =>
    simp only [cacheStep, cacheUpdateChannelStatus]
    split_ifs
    · exact (List.erase_sublist.count_le id).trans (h group model)
    · exact h group model
  | updateChannel channel => exact h group model

theorem cacheStep_unlisted (h : cache.Unlisted id) (hstays : StaysDisabled id action) :
    (cacheStep cache action).Unlisted id := by
  intro group model
  cases action with
  | initChannelCache db =>
    cases hinit : initChannelCache db cache.channelsIDM with
    | none =>
      simp only [cacheStep, hinit, Option.getD_none]
      exact h group model
    | some built =>
      simp only [cacheStep, hinit, Option.getD_some]
      rw [← List.count_eq_zero, initChannelCache_lists hinit, count_sortByPriority]
      exact count_listedIds_of_notMem hstays
  | updateChannelStatus id' status =>
    simp only [cacheStep, cacheUpdateChannelStatus]
    split_ifs
    · exact fun hmem => h group model (List.mem_of_mem_erase hmem)
    · exact h group model
  | updateChannel channel => exact h group model

theorem disable_unlisted (h : cache.ListedOnce id) {status : ChannelStatus} (hstatus : status ≠ .enabled) :
    (cacheStep cache (.updateChannelStatus id status)).Unlisted id := by
  intro group model
  simp only [cacheStep, cacheUpdateChannelStatus, if_pos hstatus]
  rw [← List.count_eq_zero, List.count_erase_self]
  exact Nat.sub_eq_zero_of_le (h group model)

end

/-! ## Selection -/

section

variable {routing : Routing} {cache : Cache} {group model : Text} {retry draw : ℕ} {filters : List ChannelFilter}
  {channel : Channel}

theorem filterCandidateIDs_sublist (ids : List ℤ) :
    (cache.filterCandidateIDs routing model filters ids).Sublist ids := by
  have hround : ∀ kept kind, (cache.filterKind routing model filters kept kind).Sublist kept := by
    intro kept kind
    unfold Cache.filterKind
    split_ifs
    · exact List.Sublist.refl kept
    · exact List.filter_sublist
  exact (hround _ _).trans ((hround _ _).trans (hround _ _))

/-- A candidate is listed, under the model's name or under its name for routing. -/
theorem mem_candidates {id : ℤ} (h : id ∈ cache.candidates routing group model filters) :
    ∃ name, id ∈ cache.group2model2channels group name := by
  unfold Cache.candidates at h
  dsimp only at h
  split_ifs at h
  · exact ⟨_, (filterCandidateIDs_sublist _).subset h⟩
  · exact ⟨_, (filterCandidateIDs_sublist _).subset h⟩

theorem mem_of_pick {β : Type} {weight : β → ℕ} {candidates : List β} {candidate : β} :
    ∀ {draw : ℕ}, pick weight draw candidates = some candidate → candidate ∈ candidates := by
  induction candidates with
  | nil => exact fun h => nomatch h
  | cons first rest ih =>
    intro draw h
    unfold pick at h
    split_ifs at h
    · cases h
      exact List.mem_cons_self
    · exact List.mem_cons_of_mem _ (ih h)

theorem channel_id {id : ℤ} (h : cache.channel id = some channel) : channel.id = id := Table.find_key h

variable {channels : List Channel}

theorem resolve_ok {ids : List ℤ} (h : cache.resolve ids = .ok channels) :
    List.Forall₂ (fun id channel => cache.channel id = some channel) ids channels := by
  induction ids generalizing channels with
  | nil =>
    cases h
    exact .nil
  | cons id ids ih =>
    unfold Cache.resolve at h
    cases hid : cache.channel id with
    | none =>
      rw [hid] at h
      cases h
    | some channel =>
      rw [hid] at h
      cases hrest : cache.resolve ids with
      | error e =>
        simp only [hrest] at h
        cases h
      | ok rest =>
        simp only [hrest] at h
        cases h
        exact .cons hid (ih hrest)

theorem mem_of_resolve {ids : List ℤ} (h : cache.resolve ids = .ok channels) (hmem : channel ∈ channels) :
    channel.id ∈ ids := by
  have hall := resolve_ok h
  clear h
  induction hall with
  | nil => cases hmem
  | @cons id first ids channels hid hrest ih =>
    rcases List.mem_cons.mp hmem with rfl | hmem
    · rw [channel_id hid]
      exact List.mem_cons_self
    · exact List.mem_cons_of_mem _ (ih hmem)

theorem selected_candidate (h : getRandomSatisfiedChannel routing cache group model retry filters draw = .ok (some channel)) :
    channel.id ∈ cache.candidates routing group model filters := by
  unfold getRandomSatisfiedChannel at h
  split at h
  case h_1 => cases h
  case h_2 id hids =>
    rw [hids, List.mem_singleton]
    split at h
    · cases h
      exact channel_id ‹_›
    · cases h
  case h_3 =>
    cases hresolve : cache.resolve (cache.candidates routing group model filters) with
    | error e =>
      rw [hresolve] at h
      cases h
    | ok channels =>
      rw [hresolve] at h
      dsimp only [bind, Except.bind, drawChannel] at h
      split at h
      case h_1 drawn hpick =>
        cases h
        exact mem_of_resolve hresolve (List.mem_filter.mp (mem_of_pick hpick)).1
      case h_2 => cases h

end

/-! ## The property -/

/-- After a channel is disabled, and while it stays so, no selection returns it, if it lists no group and no
model twice. -/
theorem disabled_channel_not_selected (routing : Routing) (id : ℤ) (status : ChannelStatus)
    (before after : List CacheAction) (hstatus : status ≠ .enabled)
    (hbuilt : ∀ action ∈ before, BuiltOnce id action) (hstays : ∀ action ∈ after, StaysDisabled id action)
    (group model : Text) (retry : ℕ) (filters : List ChannelFilter) (draw : ℕ) (channel : Channel)
    (h : getRandomSatisfiedChannel routing
      (run cacheStep emptyCache (before ++ .updateChannelStatus id status :: after)) group model retry filters draw =
        .ok (some channel)) :
    channel.id ≠ id := by
  have hbefore : (run cacheStep emptyCache before).ListedOnce id :=
    run_invariant_along (fun _ _ hlisted hone => cacheStep_listedOnce hlisted hone) (fun _ _ => Nat.zero_le 1)
      (Along.of_mem hbuilt emptyCache)
  have hafter : (run cacheStep emptyCache (before ++ .updateChannelStatus id status :: after)).Unlisted id := by
    rw [run_append, run_cons]
    exact run_invariant_along (fun _ _ hunlisted hone => cacheStep_unlisted hunlisted hone)
      (disable_unlisted hbefore hstatus) (Along.of_mem hstays _)
  obtain ⟨name, hname⟩ := mem_candidates (selected_candidate h)
  rintro rfl
  exact hafter group name hname

/-- A server without custom paths and image models. -/
def plainRouting : Routing where
  routingMatchModelName := id
  isImageWorkspacePath := fun _ => false
  requiredChannelType := fun _ => none
  supportsPathForModel := fun _ _ _ => false

/-- A channel that serves what it lists for the default group. -/
def listing (id : ℤ) (models : String) : Channel := { id, models := models.toList, group := "default".toList }

def ability (channelId : ℤ) (model : String) : Ability where
  group := "default".toList
  model := model.toList
  channelId := channelId
  enabled := true
  priority := none
  weight := 0

def pairDb : Db where
  channels := [listing 1 "gpt-4", listing 2 "gpt-4"]
  abilities := [ability 1 "gpt-4", ability 2 "gpt-4"]

def pairRun : Cache :=
  run cacheStep emptyCache ([.initChannelCache pairDb] ++ .updateChannelStatus 1 .autoDisabled :: [])

/-- Of two channels one is disabled, and the other is selected. -/
theorem disabled_channel_not_selected_pair :
    ∃ channel, getRandomSatisfiedChannel plainRouting pairRun "default".toList "gpt-4".toList 0 [] 0 =
      .ok (some channel) ∧ channel.id ≠ 1 := by
  have hsome : (getRandomSatisfiedChannel plainRouting pairRun "default".toList "gpt-4".toList 0 []
      0).toOption.join.map Channel.id = some 2 := by
    decide
  cases h : getRandomSatisfiedChannel plainRouting pairRun "default".toList "gpt-4".toList 0 [] 0 with
  | error e =>
    rw [h] at hsome
    cases hsome
  | ok selected =>
    cases selected with
    | none =>
      rw [h] at hsome
      cases hsome
    | some channel =>
      have hlists : ∀ channel ∈ pairDb.channels, channel.ListsOnce := by decide
      have hbuilt : ∀ action ∈ [CacheAction.initChannelCache pairDb], BuiltOnce 1 action := by
        intro action haction
        rw [List.mem_singleton.mp haction]
        exact fun channel hchannel _ _ => hlists channel hchannel
      exact ⟨channel, rfl, disabled_channel_not_selected plainRouting 1 .autoDisabled _ [] (by decide) hbuilt
        (List.forall_mem_nil _) _ _ _ _ _ channel h⟩

def twiceDb : Db where
  channels := [listing 1 "gpt-4,gpt-4"]
  abilities := [ability 1 "gpt-4"]

/-- A channel that lists a model twice is still selected after it is disabled. -/
theorem listed_twice_still_selected :
    (getRandomSatisfiedChannel plainRouting (run cacheStep emptyCache
      [.initChannelCache twiceDb, .updateChannelStatus 1 .autoDisabled])
      "default".toList "gpt-4".toList 0 [] 0).toOption.join.map (fun channel => (channel.id, channel.status)) =
        some (1, .autoDisabled) := by
  decide

end Vancine.Channels
