import Vancine.Channels.Disabled

/-!
# Selection with and without the cache

Both selections take the candidates for a group and a model, keep those of one priority, and draw by weight. The
candidates of the two agree when the abilities are in sync with the channels. The draws do not: without the cache
every weight counts ten more, so every channel of the priority may be drawn; with the cache a channel without a weight
is drawn only when none has one.
-/

namespace Vancine.Channels

open Lib

/-! ## Priorities -/

theorem descending_perm (priorities : List ℤ) : (descending priorities).Perm priorities.dedup :=
  List.perm_insertionSort _ _

theorem descending_sorted (priorities : List ℤ) : (descending priorities).Pairwise fun a b => b ≤ a :=
  List.pairwise_insertionSort _ _

/-- The order of the priorities, and how often one occurs, does not matter. -/
theorem descending_congr {a b : List ℤ} (h : ∀ priority, priority ∈ a ↔ priority ∈ b) : descending a = descending b := by
  have hperm : a.dedup.Perm b.dedup := by
    refine (List.perm_ext_iff_of_nodup a.nodup_dedup b.nodup_dedup).mpr fun priority => ?_
    rw [List.mem_dedup, List.mem_dedup]
    exact h priority
  refine List.Perm.eq_of_pairwise (fun x y _ _ hxy hyx => le_antisymm hyx hxy) (descending_sorted a)
    (descending_sorted b) ?_
  exact ((descending_perm a).trans hperm).trans (descending_perm b).symm

theorem targetPriority_congr {a b : List ℤ} (h : ∀ priority, priority ∈ a ↔ priority ∈ b) (retry : ℕ) :
    targetPriority a retry = targetPriority b retry := by
  unfold targetPriority
  rw [descending_congr h]

theorem targetPriority_mem {priorities : List ℤ} (h : priorities ≠ []) (retry : ℕ) :
    targetPriority priorities retry ∈ priorities := by
  have hperm := descending_perm priorities
  have hpos : 0 < (descending priorities).length := by
    obtain ⟨priority, hpriority⟩ := List.exists_mem_of_ne_nil priorities h
    exact List.length_pos_of_mem (hperm.symm.subset (List.mem_dedup.mpr hpriority))
  have hlt : min retry ((descending priorities).length - 1) < (descending priorities).length := by omega
  unfold targetPriority
  dsimp only
  rw [List.getD_eq_getElem?_getD, List.getElem?_eq_getElem hlt]
  exact List.mem_dedup.mp (hperm.subset (List.getElem_mem hlt))

/-! ## Draws -/

section Draws

variable {β : Type} {weight : β → ℕ} {candidates : List β} {candidate : β}

theorem pick_isSome {draw : ℕ} (h : draw < (candidates.map weight).sum) : (pick weight draw candidates).isSome := by
  induction candidates generalizing draw with
  | nil => exact absurd h (Nat.not_lt_zero draw)
  | cons first rest ih =>
    unfold pick
    rw [List.map_cons, List.sum_cons] at h
    split_ifs with hdraw
    · rfl
    · exact ih (by omega)

theorem pick_eq_some_iff : (∃ draw < (candidates.map weight).sum, pick weight draw candidates = some candidate) ↔
      candidate ∈ candidates ∧ 0 < weight candidate := by
  induction candidates with
  | nil => simp
  | cons first rest ih =>
    rw [List.map_cons, List.sum_cons]
    constructor
    · rintro ⟨draw, hdraw, hpick⟩
      unfold pick at hpick
      split_ifs at hpick with hfirst
      · cases hpick
        exact ⟨List.mem_cons_self, Nat.zero_lt_of_lt hfirst⟩
      · obtain ⟨hmem, hpos⟩ := ih.mp ⟨draw - weight first, by omega, hpick⟩
        exact ⟨List.mem_cons_of_mem _ hmem, hpos⟩
    · rintro ⟨hmem, hpos⟩
      by_cases hfirst : candidate = first
      · subst hfirst
        exact ⟨0, by omega, if_pos hpos⟩
      · obtain ⟨draw, hdraw, hpick⟩ := ih.mpr ⟨(List.mem_cons.mp hmem).resolve_left hfirst, hpos⟩
        refine ⟨weight first + draw, by omega, ?_⟩
        unfold pick
        rw [if_neg (by omega), Nat.add_sub_cancel_left, hpick]

variable {abilities : List Ability}

theorem mem_of_pickAbility {ability : Ability} {draw : ℕ} (h : pickAbility draw abilities = some ability) :
    ability ∈ abilities := by
  induction abilities generalizing draw with
  | nil => cases h
  | cons first rest ih =>
    unfold pickAbility at h
    split_ifs at h
    · cases h
      exact List.mem_cons_self
    · exact List.mem_cons_of_mem _ (ih h)

/-- Every ability may be drawn: the number one above the weights before it takes it. -/
theorem exists_pickAbility {ability : Ability} (h : ability ∈ abilities) :
    ∃ draw, 0 < draw ∧ draw < (abilities.map fun ability => ability.weight + 10).sum ∧
      pickAbility draw abilities = some ability := by
  induction abilities with
  | nil => cases h
  | cons first rest ih =>
    rw [List.map_cons, List.sum_cons]
    by_cases hfirst : ability = first
    · subst hfirst
      exact ⟨1, Nat.one_pos, by omega, if_pos (by omega)⟩
    · obtain ⟨draw, hpos, hdraw, hpick⟩ := ih ((List.mem_cons.mp h).resolve_left hfirst)
      refine ⟨first.weight + 10 + draw, by omega, by omega, ?_⟩
      unfold pickAbility
      rw [if_neg (by omega), Nat.add_sub_cancel_left, hpick]

end Draws

/-! ## Tiers -/

/-- The channels of the priority for a retry. -/
def tier (channels : List Channel) (retry : ℕ) : List Channel :=
  channels.filter fun channel => channel.getPriority = targetPriority (channels.map Channel.getPriority) retry

/-- The channels with a weight, or all when none has one. -/
def weighted (channels : List Channel) : List Channel :=
  channels.filter fun channel => 0 < channel.getWeight ∨ (channels.map Channel.getWeight).sum = 0

theorem tier_ne_nil {channels : List Channel} (h : channels ≠ []) (retry : ℕ) : tier channels retry ≠ [] := by
  have hpriorities : channels.map Channel.getPriority ≠ [] := mt List.map_eq_nil_iff.mp h
  have hmem := targetPriority_mem hpriorities retry
  obtain ⟨channel, hchannel, hpriority⟩ := List.mem_map.mp hmem
  exact List.ne_nil_of_mem (List.mem_filter.mpr ⟨hchannel, by simpa using hpriority⟩)

section Drawing

variable {channels : List Channel} {channel : Channel}

theorem effectiveWeight_pos_iff (hchannel : channel ∈ channels) :
    0 < effectiveWeight channels channel ↔ channel ∈ weighted channels := by
  unfold effectiveWeight weighted
  rw [List.mem_filter]
  dsimp only
  by_cases hsum : (channels.map Channel.getWeight).sum = 0
  · rw [if_pos hsum]
    simp [hsum, hchannel]
  · rw [if_neg hsum]
    split_ifs
    · simp [hsum, hchannel]
    · simp [hsum, hchannel]

theorem weighted_ne_nil (h : channels ≠ []) : weighted channels ≠ [] := by
  by_cases hsum : (channels.map Channel.getWeight).sum = 0
  · obtain ⟨channel, hchannel⟩ := List.exists_mem_of_ne_nil channels h
    exact List.ne_nil_of_mem (List.mem_filter.mpr ⟨hchannel, by simp [hsum]⟩)
  · have hsome : ∃ channel ∈ channels, channel.getWeight ≠ 0 := by
      by_contra hall
      push Not at hall
      exact hsum (List.sum_eq_zero (by simpa using hall))
    obtain ⟨channel, hchannel, hweight⟩ := hsome
    exact List.ne_nil_of_mem (List.mem_filter.mpr ⟨hchannel, by simp [Nat.pos_of_ne_zero hweight]⟩)

theorem total_pos (h : channels ≠ []) : 0 < (channels.map (effectiveWeight channels)).sum := by
  obtain ⟨channel, hweighted⟩ := List.exists_mem_of_ne_nil _ (weighted_ne_nil h)
  have hchannel : channel ∈ channels := (List.mem_filter.mp hweighted).1
  have hpos := (effectiveWeight_pos_iff hchannel).mpr hweighted
  exact hpos.trans_le (List.le_sum_of_mem (List.mem_map_of_mem hchannel))

theorem drawChannel_ok (h : channels ≠ []) (draw : ℕ) :
    ∃ channel ∈ weighted channels, drawChannel draw channels = .ok (some channel) := by
  have hdraw : draw % (channels.map (effectiveWeight channels)).sum < (channels.map (effectiveWeight channels)).sum :=
    Nat.mod_lt _ (total_pos h)
  obtain ⟨channel, hpick⟩ := Option.isSome_iff_exists.mp (pick_isSome hdraw)
  obtain ⟨hmem, hpos⟩ := pick_eq_some_iff.mp ⟨_, hdraw, hpick⟩
  refine ⟨channel, (effectiveWeight_pos_iff hmem).mp hpos, ?_⟩
  unfold drawChannel
  simp only [hpick]

theorem exists_drawChannel (h : channel ∈ weighted channels) : ∃ draw, drawChannel draw channels = .ok (some channel) := by
  have hchannel : channel ∈ channels := (List.mem_filter.mp h).1
  obtain ⟨draw, hdraw, hpick⟩ := pick_eq_some_iff.mpr ⟨hchannel, (effectiveWeight_pos_iff hchannel).mpr h⟩
  refine ⟨draw, ?_⟩
  unfold drawChannel
  simp only [Nat.mod_eq_of_lt hdraw, hpick]

end Drawing

/-! ## With the cache -/

section Cached

variable {routing : Routing} {cache : Cache} {group model : Text} {filters : List ChannelFilter} {channels : List Channel}

theorem getRandomSatisfiedChannel_eq (hne : cache.candidates routing group model filters ≠ [])
    (hresolve : cache.resolve (cache.candidates routing group model filters) = .ok channels) (retry draw : ℕ) :
    getRandomSatisfiedChannel routing cache group model retry filters draw = drawChannel draw (tier channels retry) := by
  unfold getRandomSatisfiedChannel
  split
  case h_1 hnil => exact absurd hnil hne
  case h_2 id hids =>
    rw [hids] at hresolve
    cases hchannel : cache.channel id with
    | none =>
      simp only [Cache.resolve, hchannel] at hresolve
      cases hresolve
    | some channel =>
      simp only [Cache.resolve, hchannel] at hresolve
      cases hresolve
      have htier : tier [channel] retry = [channel] := by
        have hmem := targetPriority_mem (List.cons_ne_nil channel.getPriority []) retry
        simp only [tier, List.map_cons, List.map_nil, List.mem_singleton.mp hmem]
        simp
      rw [htier]
      obtain ⟨drawn, hdrawn, hok⟩ := drawChannel_ok (List.cons_ne_nil channel []) draw
      rw [hok, List.mem_singleton.mp (List.mem_filter.mp hdrawn).1]
  case h_3 =>
    rw [hresolve]
    rfl

theorem mem_filterCandidateIDs {id : ℤ} {channel : Channel} (hchannel : cache.channel id = some channel) (ids : List ℤ) :
    id ∈ cache.filterCandidateIDs routing model filters ids ↔
      id ∈ ids ∧ channelSatisfiesFilters routing (some channel) model filters = true := by
  have hround : ∀ kept kind, id ∈ cache.filterKind routing model filters kept kind ↔
      id ∈ kept ∧ ∀ filter ∈ filters, filter.kind = kind → channelMatchesFilter routing channel model filter = true := by
    intro kept kind
    unfold Cache.filterKind filtersByKind
    split_ifs with hnone
    · rw [List.filter_eq_nil_iff] at hnone
      simp only [iff_self_and]
      intro _ filter hfilter hkind
      exact absurd (by simpa using hkind) (hnone filter hfilter)
    · rw [List.mem_filter, hchannel]
      simp only [candidatePassesKindFilters, List.all_eq_true, List.mem_filter, decide_eq_true_eq, and_imp]
  unfold Cache.filterCandidateIDs channelSatisfiesFilters filterEvalOrder
  simp only [List.foldl_cons, List.foldl_nil, hround, List.all_cons, List.all_nil, Bool.and_true, Bool.and_eq_true,
    List.all_eq_true, Bool.or_eq_true, decide_eq_true_eq, and_assoc]
  simp only [ne_eq, imp_iff_not_or]

theorem resolve_of_forall {ids : List ℤ} (h : ∀ id ∈ ids, ∃ channel, cache.channel id = some channel) :
    ∃ channels, cache.resolve ids = .ok channels := by
  induction ids with
  | nil => exact ⟨[], rfl⟩
  | cons id ids ih =>
    obtain ⟨channel, hchannel⟩ := h id List.mem_cons_self
    obtain ⟨channels, hchannels⟩ := ih fun other hother => h other (List.mem_cons_of_mem _ hother)
    refine ⟨channel :: channels, ?_⟩
    simp only [Cache.resolve, hchannel, hchannels]
    rfl

theorem mem_resolve_iff {ids : List ℤ} {channel : Channel} (h : cache.resolve ids = .ok channels) :
    channel ∈ channels ↔ ∃ id ∈ ids, cache.channel id = some channel := by
  have hall := resolve_ok h
  clear h
  induction hall with
  | nil => simp
  | @cons id first ids channels hid hrest ih =>
    rw [List.mem_cons, List.exists_mem_cons_iff, hid, Option.some.injEq, eq_comm]
    exact or_congr_right ih

end Cached

/-! ## The same candidates -/

local instance lawfulGroups : LawfulBEq (List Char) := inferInstance

/-- The channels that serve a model for a group and pass the filters. -/
def Db.servers (routing : Routing) (db : Db) (group model : Text) (filters : List ChannelFilter) : List Channel :=
  db.channels.filter fun channel =>
    channel.status = .enabled && decide (group ∈ channel.splitGroups) && decide (model ∈ channel.getModels) &&
      channelSatisfiesFilters routing (some channel) model filters

/-- The abilities are those of the channels, as `UpdateAbilities` writes them. -/
structure Db.InSync (db : Db) : Prop where
  sound : ∀ ability ∈ db.abilities, ∃ channel ∈ db.channels, channel.id = ability.channelId ∧
    ability.group ∈ channel.splitGroups ∧ ability.model ∈ channel.getModels ∧
    (ability.enabled = true ↔ channel.status = .enabled) ∧ ability.priority = channel.priority ∧
    ability.weight = channel.getWeight
  complete : ∀ channel ∈ db.channels, ∀ group ∈ channel.splitGroups, ∀ model ∈ channel.getModels,
    ∃ ability ∈ db.abilities, ability.group = group ∧ ability.model = model ∧ ability.channelId = channel.id

section Candidates

variable {routing : Routing} {db : Db} {cache : Cache} {old : List Channel} {group model : Text}
  {filters : List ChannelFilter} {channel : Channel} {id : ℤ}

theorem mem_servers :
    channel ∈ db.servers routing group model filters ↔ channel ∈ db.channels ∧ channel.status = .enabled ∧
      group ∈ channel.splitGroups ∧ model ∈ channel.getModels ∧
      channelSatisfiesFilters routing (some channel) model filters = true := by
  unfold Db.servers
  simp only [List.mem_filter, Bool.and_eq_true, decide_eq_true_eq, and_assoc]

theorem mem_listedIds {channels : List Channel} :
    id ∈ listedIds channels group model ↔ ∃ channel ∈ channels, channel.id = id ∧ channel.status = .enabled ∧
      group ∈ channel.splitGroups ∧ model ∈ channel.getModels := by
  unfold listedIds
  rw [List.mem_flatMap]
  refine exists_congr fun channel => and_congr_right fun _ => ?_
  split_ifs with hstatus
  · rw [listed_channel, List.mem_replicate, ne_eq, Nat.mul_eq_zero, not_or, List.count_eq_zero, List.count_eq_zero,
      not_not, not_not]
    constructor
    · rintro ⟨⟨hgroup, hmodel⟩, rfl⟩
      exact ⟨rfl, hstatus, hgroup, hmodel⟩
    · rintro ⟨rfl, -, hgroup, hmodel⟩
      exact ⟨⟨hgroup, hmodel⟩, rfl⟩
  · exact iff_of_false List.not_mem_nil fun h => hstatus h.2.1

/-- The cached channel differs from the row in its cursor at most. -/
theorem keepPollingIndex_eq (kept : Option Channel) (channel : Channel) :
    ∃ channelInfo, keepPollingIndex kept channel = { channel with channelInfo } := by
  unfold keepPollingIndex
  split
  · exact ⟨channel.channelInfo, rfl⟩
  · split_ifs
    · exact ⟨_, rfl⟩
    · exact ⟨channel.channelInfo, rfl⟩

theorem channel_initChannelCache (h : initChannelCache db old = some cache) (hrow : db.channel id = some channel) :
    ∃ channelInfo, cache.channel id = some { channel with channelInfo } := by
  unfold initChannelCache at h
  split_ifs at h
  cases h
  obtain ⟨channelInfo, hkept⟩ := keepPollingIndex_eq (Table.find Channel.id channel.id old) channel
  refine ⟨channelInfo, ?_⟩
  have hfind : Table.find Channel.id id
      (db.channels.map fun channel => keepPollingIndex (Table.find Channel.id channel.id old) channel) =
        (db.channel id).map fun channel => keepPollingIndex (Table.find Channel.id channel.id old) channel := by
    refine Table.find_map fun other _ => ?_
    obtain ⟨_, hother⟩ := keepPollingIndex_eq (Table.find Channel.id other.id old) other
    rw [hother]
  rw [hrow, Option.map_some, hkept] at hfind
  exact hfind

theorem channel_of_mem (h : channel ∈ db.channels) : db.channel channel.id = some channel :=
  Table.find_of_mem db.nodup_ids h

/-- The ids that the cache has for a group and a model are those of the servers. -/
theorem mem_filtered_iff (h : initChannelCache db old = some cache) :
    id ∈ cache.filterCandidateIDs routing model filters (cache.group2model2channels group model) ↔
      ∃ channel ∈ db.servers routing group model filters, channel.id = id := by
  have hlisted : id ∈ cache.group2model2channels group model ↔ ∃ channel ∈ db.channels, channel.id = id ∧
      channel.status = .enabled ∧ group ∈ channel.splitGroups ∧ model ∈ channel.getModels := by
    rw [initChannelCache_lists h, ← mem_listedIds]
    exact (List.perm_insertionSort _ _).mem_iff
  have hfilter : ∀ channel ∈ db.channels, channel.id = id →
      (id ∈ cache.filterCandidateIDs routing model filters (cache.group2model2channels group model) ↔
        id ∈ cache.group2model2channels group model ∧
          channelSatisfiesFilters routing (some channel) model filters = true) := by
    rintro channel hchannel rfl
    obtain ⟨channelInfo, hcached⟩ := channel_initChannelCache h (channel_of_mem hchannel)
    exact mem_filterCandidateIDs hcached _
  constructor
  · intro hid
    obtain ⟨channel, hchannel, hchannelId, hserves⟩ := hlisted.mp ((filterCandidateIDs_sublist _).subset hid)
    have hpasses := ((hfilter channel hchannel hchannelId).mp hid).2
    exact ⟨channel, mem_servers.mpr ⟨hchannel, hserves.1, hserves.2.1, hserves.2.2, hpasses⟩, hchannelId⟩
  · rintro ⟨channel, hserver, hid⟩
    obtain ⟨hchannel, hstatus, hgroup, hmodel, hpasses⟩ := mem_servers.mp hserver
    exact (hfilter channel hchannel hid).mpr ⟨hlisted.mpr ⟨channel, hchannel, hid, hstatus, hgroup, hmodel⟩, hpasses⟩

end Candidates

/-! ## The same tiers -/

/-- Two copies of a channel that are drawn alike. -/
def Channel.SameDraw (a b : Channel) : Prop :=
  a.id = b.id ∧ a.getPriority = b.getPriority ∧ a.getWeight = b.getWeight

/-- Every channel of one list has a copy in the other. -/
def Covers (a b : List Channel) : Prop := ∀ x ∈ a, ∃ y ∈ b, x.SameDraw y

section Tiers

variable {a b : List Channel}

theorem Covers.ne_nil (h : Covers a b) (ha : a ≠ []) : b ≠ [] := by
  obtain ⟨x, hx⟩ := List.exists_mem_of_ne_nil a ha
  obtain ⟨y, hy, -⟩ := h x hx
  exact List.ne_nil_of_mem hy

theorem mem_priorities_of_covers (h : Covers a b) {priority : ℤ} (hpriority : priority ∈ a.map Channel.getPriority) :
    priority ∈ b.map Channel.getPriority := by
  obtain ⟨x, hx, rfl⟩ := List.mem_map.mp hpriority
  obtain ⟨y, hy, hsame⟩ := h x hx
  exact List.mem_map.mpr ⟨y, hy, hsame.2.1.symm⟩

theorem Covers.tier (hab : Covers a b) (hba : Covers b a) (retry : ℕ) : Covers (tier a retry) (tier b retry) := by
  have htarget : targetPriority (a.map Channel.getPriority) retry = targetPriority (b.map Channel.getPriority) retry :=
    targetPriority_congr (fun _ => ⟨mem_priorities_of_covers hab, mem_priorities_of_covers hba⟩) retry
  intro x hx
  obtain ⟨hxa, hpriority⟩ := List.mem_filter.mp hx
  obtain ⟨y, hy, hsame⟩ := hab x hxa
  refine ⟨y, List.mem_filter.mpr ⟨hy, ?_⟩, hsame⟩
  rw [← hsame.2.1, ← htarget]
  exact hpriority

theorem sum_weights_eq_zero_of_covers (h : Covers b a) (hsum : (a.map Channel.getWeight).sum = 0) :
    (b.map Channel.getWeight).sum = 0 := by
  rw [List.sum_eq_zero_iff_forall_eq_nat] at hsum ⊢
  intro weight hweight
  obtain ⟨y, hy, rfl⟩ := List.mem_map.mp hweight
  obtain ⟨x, hx, hsame⟩ := h y hy
  rw [hsame.2.2]
  exact hsum _ (List.mem_map_of_mem hx)

theorem Covers.weighted (hab : Covers a b) (hba : Covers b a) : Covers (weighted a) (weighted b) := by
  intro x hx
  obtain ⟨hxa, hdrawn⟩ := List.mem_filter.mp hx
  obtain ⟨y, hy, hsame⟩ := hab x hxa
  refine ⟨y, List.mem_filter.mpr ⟨hy, ?_⟩, hsame⟩
  rw [decide_eq_true_eq] at hdrawn ⊢
  rw [← hsame.2.2]
  exact hdrawn.imp_right (sum_weights_eq_zero_of_covers hba)

end Tiers

/-! ## What may be selected -/

/-- The ids of channels. -/
def idsOf (channels : List Channel) : Set ℤ := {id | ∃ channel ∈ channels, channel.id = id}

/-- The channels that may be returned with the cache, over all draws. -/
def cachedIds (routing : Routing) (cache : Cache) (group model : Text) (retry : ℕ) (filters : List ChannelFilter) :
    Set ℤ :=
  {id | ∃ draw channel,
    getRandomSatisfiedChannel routing cache group model retry filters draw = .ok (some channel) ∧ channel.id = id}

/-- The channels that may be returned without the cache. -/
def storedIds (routing : Routing) (db : Db) (group model : Text) (retry : ℕ) (filters : List ChannelFilter) : Set ℤ :=
  {id | ∃ draw channel, getChannel routing db group model retry filters draw = .ok (some channel) ∧ channel.id = id}

/-- The name for routing adds nothing: the model's own name has candidates, or the other name has none either. -/
def Cache.NoFallback (routing : Routing) (cache : Cache) (group model : Text) (filters : List ChannelFilter) : Prop :=
  cache.filterCandidateIDs routing model filters (cache.group2model2channels group model) ≠ [] ∨
    cache.filterCandidateIDs routing model filters
      (cache.group2model2channels group (routing.routingMatchModelName model)) = []

section Sets

variable {routing : Routing} {db : Db} {cache : Cache} {old : List Channel} {group model : Text} {retry : ℕ}
  {filters : List ChannelFilter}

theorem mem_candidates_iff (hbuilt : initChannelCache db old = some cache)
    (hname : cache.NoFallback routing group model filters) {id : ℤ} :
    id ∈ cache.candidates routing group model filters ↔ id ∈ idsOf (db.servers routing group model filters) := by
  have heq : cache.candidates routing group model filters =
      cache.filterCandidateIDs routing model filters (cache.group2model2channels group model) := by
    unfold Cache.candidates
    dsimp only
    split_ifs with hnil
    · rw [hnil]
      exact hname.resolve_left fun hne => hne hnil
    · rfl
  rw [heq]
  exact mem_filtered_iff hbuilt

theorem resolve_servers (hbuilt : initChannelCache db old = some cache)
    (hname : cache.NoFallback routing group model filters) :
    ∃ channels, cache.resolve (cache.candidates routing group model filters) = .ok channels ∧
      Covers channels (db.servers routing group model filters) ∧
      Covers (db.servers routing group model filters) channels := by
  have hcached : ∀ server ∈ db.servers routing group model filters,
      ∃ channelInfo, cache.channel server.id = some { server with channelInfo } := by
    intro server hserver
    exact channel_initChannelCache hbuilt (channel_of_mem (mem_servers.mp hserver).1)
  have hall : ∀ id ∈ cache.candidates routing group model filters, ∃ channel, cache.channel id = some channel := by
    intro id hid
    obtain ⟨server, hserver, rfl⟩ := (mem_candidates_iff hbuilt hname).mp hid
    obtain ⟨channelInfo, h⟩ := hcached server hserver
    exact ⟨_, h⟩
  obtain ⟨channels, hresolve⟩ := resolve_of_forall hall
  refine ⟨channels, hresolve, fun channel hchannel => ?_, fun server hserver => ?_⟩
  · obtain ⟨id, hid, hfound⟩ := (mem_resolve_iff hresolve).mp hchannel
    obtain ⟨server, hserver, rfl⟩ := (mem_candidates_iff hbuilt hname).mp hid
    obtain ⟨channelInfo, h⟩ := hcached server hserver
    cases hfound.symm.trans h
    exact ⟨server, hserver, rfl, rfl, rfl⟩
  · obtain ⟨channelInfo, h⟩ := hcached server hserver
    have hid : server.id ∈ cache.candidates routing group model filters :=
      (mem_candidates_iff hbuilt hname).mpr ⟨server, hserver, rfl⟩
    exact ⟨_, (mem_resolve_iff hresolve).mpr ⟨_, hid, h⟩, rfl, rfl, rfl⟩

theorem candidates_eq_nil_iff (hbuilt : initChannelCache db old = some cache)
    (hname : cache.NoFallback routing group model filters) :
    cache.candidates routing group model filters = [] ↔ db.servers routing group model filters = [] := by
  simp only [List.eq_nil_iff_forall_not_mem]
  constructor
  · intro h server hserver
    exact h server.id ((mem_candidates_iff hbuilt hname).mpr ⟨server, hserver, rfl⟩)
  · intro h id hid
    obtain ⟨server, hserver, -⟩ := (mem_candidates_iff hbuilt hname).mp hid
    exact h server hserver

theorem cached_none_iff (hbuilt : initChannelCache db old = some cache)
    (hname : cache.NoFallback routing group model filters) (draw : ℕ) :
    getRandomSatisfiedChannel routing cache group model retry filters draw = .ok none ↔
      db.servers routing group model filters = [] := by
  rw [← candidates_eq_nil_iff hbuilt hname]
  constructor
  · intro hnone
    by_contra hne
    obtain ⟨channels, hresolve, -, hcovers⟩ := resolve_servers hbuilt hname
    have hchannels : channels ≠ [] := hcovers.ne_nil fun hnil => hne ((candidates_eq_nil_iff hbuilt hname).mpr hnil)
    rw [getRandomSatisfiedChannel_eq hne hresolve] at hnone
    obtain ⟨channel, -, hsome⟩ := drawChannel_ok (tier_ne_nil hchannels retry) draw
    rw [hsome] at hnone
    cases hnone
  · intro hnil
    unfold getRandomSatisfiedChannel
    rw [hnil]

/-- With the cache: the channels of the priority that have a weight, or all when none has one. -/
theorem cachedIds_eq (hbuilt : initChannelCache db old = some cache)
    (hname : cache.NoFallback routing group model filters) (retry : ℕ) :
    cachedIds routing cache group model retry filters =
      idsOf (weighted (tier (db.servers routing group model filters) retry)) := by
  obtain ⟨channels, hresolve, hto, hfrom⟩ := resolve_servers hbuilt hname
  have htiers := hto.tier hfrom retry
  have htiers' := hfrom.tier hto retry
  ext id
  constructor
  · rintro ⟨draw, channel, hselected, rfl⟩
    have hne : cache.candidates routing group model filters ≠ [] := List.ne_nil_of_mem (selected_candidate hselected)
    have hchannels : channels ≠ [] := hfrom.ne_nil fun hnil => hne ((candidates_eq_nil_iff hbuilt hname).mpr hnil)
    rw [getRandomSatisfiedChannel_eq hne hresolve] at hselected
    obtain ⟨drawn, hdrawn, hok⟩ := drawChannel_ok (tier_ne_nil hchannels retry) draw
    rw [hok] at hselected
    cases hselected
    obtain ⟨server, hserver, hsame⟩ := htiers.weighted htiers' channel hdrawn
    exact ⟨server, hserver, hsame.1.symm⟩
  · rintro ⟨server, hserver, rfl⟩
    obtain ⟨channel, hchannel, hsame⟩ := htiers'.weighted htiers server hserver
    have hserved : server ∈ db.servers routing group model filters :=
      (List.mem_filter.mp (List.mem_filter.mp hserver).1).1
    have hne : cache.candidates routing group model filters ≠ [] :=
      List.ne_nil_of_mem ((mem_candidates_iff hbuilt hname).mpr ⟨server, hserved, rfl⟩)
    obtain ⟨draw, hdraw⟩ := exists_drawChannel hchannel
    refine ⟨draw, channel, ?_, hsame.1.symm⟩
    rw [getRandomSatisfiedChannel_eq hne hresolve, hdraw]

/-! ## Without the cache -/

theorem mem_dbCandidates {ability : Ability} :
    ability ∈ db.candidates routing group model filters ↔ ability ∈ db.abilities ∧ ability.group = group ∧
      ability.model = model ∧ ability.enabled = true ∧
      channelSatisfiesFilters routing (db.channel ability.channelId) model filters = true := by
  unfold Db.candidates
  simp only [List.mem_filter, Bool.and_eq_true, decide_eq_true_eq, and_assoc]

theorem server_of_ability (hsync : db.InSync) {ability : Ability}
    (h : ability ∈ db.candidates routing group model filters) :
    ∃ server ∈ db.servers routing group model filters, server.id = ability.channelId ∧
      server.getPriority = ability.getPriority := by
  obtain ⟨hability, rfl, rfl, henabled, hpasses⟩ := mem_dbCandidates.mp h
  obtain ⟨channel, hchannel, hid, hgroup, hmodel, hstatus, hpriority, -⟩ := hsync.sound ability hability
  rw [← hid, channel_of_mem hchannel] at hpasses
  refine ⟨channel, mem_servers.mpr ⟨hchannel, hstatus.mp henabled, hgroup, hmodel, hpasses⟩, hid, ?_⟩
  unfold Channel.getPriority Ability.getPriority
  rw [hpriority]

theorem ability_of_server (hsync : db.InSync) {server : Channel} (h : server ∈ db.servers routing group model filters) :
    ∃ ability ∈ db.candidates routing group model filters, server.id = ability.channelId ∧
      server.getPriority = ability.getPriority := by
  obtain ⟨hserver, hstatus, hgroup, hmodel, hpasses⟩ := mem_servers.mp h
  obtain ⟨ability, hability, rfl, rfl, hid⟩ := hsync.complete server hserver group hgroup model hmodel
  obtain ⟨channel, hchannel, hchannelId, -, -, henabled, hpriority, -⟩ := hsync.sound ability hability
  have hsame : channel = server := List.inj_on_of_nodup_map db.nodup_ids hchannel hserver (hchannelId.trans hid)
  subst hsame
  refine ⟨ability, mem_dbCandidates.mpr ⟨hability, rfl, rfl, henabled.mpr hstatus, ?_⟩, hid.symm, ?_⟩
  · rw [hid, channel_of_mem hchannel]
    exact hpasses
  · unfold Channel.getPriority Ability.getPriority
    rw [hpriority]

theorem targetPriority_abilities (hsync : db.InSync) (routing : Routing) (group model : Text)
    (filters : List ChannelFilter) (retry : ℕ) :
    targetPriority ((db.candidates routing group model filters).map Ability.getPriority) retry =
      targetPriority ((db.servers routing group model filters).map Channel.getPriority) retry := by
  refine targetPriority_congr (fun priority => ?_) retry
  constructor
  · intro h
    obtain ⟨ability, hability, rfl⟩ := List.mem_map.mp h
    obtain ⟨server, hserver, -, hpriority⟩ := server_of_ability hsync hability
    exact List.mem_map.mpr ⟨server, hserver, hpriority⟩
  · intro h
    obtain ⟨server, hserver, rfl⟩ := List.mem_map.mp h
    obtain ⟨ability, hability, -, hpriority⟩ := ability_of_server hsync hserver
    exact List.mem_map.mpr ⟨ability, hability, hpriority.symm⟩

/-- The abilities of the priority for a retry. -/
def abilityTier (abilities : List Ability) (retry : ℕ) : List Ability :=
  abilities.filter fun ability => ability.getPriority = targetPriority (abilities.map Ability.getPriority) retry

theorem getChannel_eq (hne : db.candidates routing group model filters ≠ []) (draw : ℕ) :
    getChannel routing db group model retry filters draw =
      match pickAbility (draw % ((abilityTier (db.candidates routing group model filters) retry).map fun ability =>
        ability.weight + 10).sum) (abilityTier (db.candidates routing group model filters) retry) with
      | some ability =>
        match db.channel ability.channelId with
        | some channel => .ok (some channel)
        | none => .error (.inconsistent ability.channelId)
      | none => .error .notFound := by
  unfold getChannel
  split
  case h_1 hnil => exact absurd hnil hne
  case h_2 => rfl

theorem dbCandidates_eq_nil_iff (hsync : db.InSync) :
    db.candidates routing group model filters = [] ↔ db.servers routing group model filters = [] := by
  simp only [List.eq_nil_iff_forall_not_mem]
  constructor
  · intro h server hserver
    obtain ⟨ability, hability, -⟩ := ability_of_server hsync hserver
    exact h ability hability
  · intro h ability hability
    obtain ⟨server, hserver, -⟩ := server_of_ability hsync hability
    exact h server hserver

theorem stored_none_iff (hsync : db.InSync) (draw : ℕ) :
    getChannel routing db group model retry filters draw = .ok none ↔ db.servers routing group model filters = [] := by
  rw [← dbCandidates_eq_nil_iff hsync]
  constructor
  · intro hnone
    by_contra hne
    rw [getChannel_eq hne] at hnone
    split at hnone
    · split at hnone <;> cases hnone
    · cases hnone
  · intro hnil
    unfold getChannel
    rw [hnil]

theorem storedIds_eq (hsync : db.InSync) (routing : Routing) (group model : Text) (retry : ℕ)
    (filters : List ChannelFilter) :
    storedIds routing db group model retry filters = idsOf (tier (db.servers routing group model filters) retry) := by
  have htarget := targetPriority_abilities hsync routing group model filters retry
  ext id
  constructor
  · rintro ⟨draw, channel, hselected, rfl⟩
    have hne : db.candidates routing group model filters ≠ [] := by
      intro hnil
      unfold getChannel at hselected
      rw [hnil] at hselected
      cases hselected
    rw [getChannel_eq hne] at hselected
    split at hselected
    case h_2 => cases hselected
    case h_1 ability hpick =>
      split at hselected
      case h_2 => cases hselected
      case h_1 found hfound =>
        cases hselected
        obtain ⟨hability, hpriority⟩ := List.mem_filter.mp (mem_of_pickAbility hpick)
        obtain ⟨server, hserver, hid, hsame⟩ := server_of_ability hsync hability
        refine ⟨server, List.mem_filter.mpr ⟨hserver, ?_⟩, ?_⟩
        · rw [hsame, ← htarget]
          exact hpriority
        · rw [hid]
          exact (Table.find_key hfound).symm
  · rintro ⟨server, hserver, rfl⟩
    obtain ⟨hserved, hpriority⟩ := List.mem_filter.mp hserver
    obtain ⟨ability, hability, hid, hsame⟩ := ability_of_server hsync hserved
    have htier : ability ∈ abilityTier (db.candidates routing group model filters) retry := by
      refine List.mem_filter.mpr ⟨hability, ?_⟩
      rw [htarget, ← hsame]
      exact hpriority
    obtain ⟨draw, -, hdraw, hpick⟩ := exists_pickAbility htier
    refine ⟨draw, server, ?_, rfl⟩
    rw [getChannel_eq (List.ne_nil_of_mem hability), Nat.mod_eq_of_lt hdraw, hpick]
    simp only [← hid, channel_of_mem (mem_servers.mp hserved).1]

theorem weighted_eq_of_idsOf_eq {channels : List Channel} (hnodup : (channels.map Channel.id).Nodup)
    (h : idsOf (weighted channels) = idsOf channels) : weighted channels = channels := by
  refine List.filter_eq_self.mpr fun channel hchannel => ?_
  have hid : channel.id ∈ idsOf (weighted channels) := by
    rw [h]
    exact ⟨channel, hchannel, rfl⟩
  obtain ⟨other, hother, hsame⟩ := hid
  obtain ⟨hmem, hdrawn⟩ := List.mem_filter.mp hother
  rw [← List.inj_on_of_nodup_map hnodup hmem hchannel hsame]
  exact hdrawn

/-- With channels and abilities in sync, and no help from the name for routing: without the cache every channel of
the priority may be selected, with it those that have a weight, or all when none has one. The two agree just when
the priority does not have channels with and without a weight, and none is selected by one just when none is by the
other. -/
theorem selection_with_and_without_cache (routing : Routing) (db : Db) (old : List Channel) (cache : Cache)
    (group model : Text) (retry : ℕ) (filters : List ChannelFilter) (hsync : db.InSync)
    (hbuilt : initChannelCache db old = some cache) (hname : cache.NoFallback routing group model filters) :
    storedIds routing db group model retry filters = idsOf (tier (db.servers routing group model filters) retry) ∧
    cachedIds routing cache group model retry filters =
      idsOf (weighted (tier (db.servers routing group model filters) retry)) ∧
    (cachedIds routing cache group model retry filters = storedIds routing db group model retry filters ↔
      weighted (tier (db.servers routing group model filters) retry) =
        tier (db.servers routing group model filters) retry) ∧
    ∀ draw draw', getRandomSatisfiedChannel routing cache group model retry filters draw = .ok none ↔
      getChannel routing db group model retry filters draw' = .ok none := by
  have hstored := storedIds_eq hsync routing group model retry filters
  have hcached := cachedIds_eq hbuilt hname retry
  have hnodup : ((tier (db.servers routing group model filters) retry).map Channel.id).Nodup :=
    db.nodup_ids.sublist ((List.filter_sublist.trans List.filter_sublist).map Channel.id)
  refine ⟨hstored, hcached, ?_, fun draw draw' => ?_⟩
  · rw [hstored, hcached]
    constructor
    · exact weighted_eq_of_idsOf_eq hnodup
    · intro heq
      rw [heq]
  · rw [cached_none_iff hbuilt hname, stored_none_iff hsync]

end Sets

/-- Two channels of one priority that serve one model, the second with a weight. -/
def weightedDb (weight : ℕ) : Db where
  channels := [listing 1 "gpt-4", { listing 2 "gpt-4" with weight := some weight }]
  abilities := [ability 1 "gpt-4", { ability 2 "gpt-4" with weight }]
  nodup_ids := by
    show [(1 : ℤ), 2].Nodup
    decide
  nodup_abilities := by
    show [("default".toList, "gpt-4".toList, (1 : ℤ)), ("default".toList, "gpt-4".toList, 2)].Nodup
    decide

/-- Without weights both channels may be selected, with and without the cache. -/
theorem selection_without_weights :
    ∃ cache, initChannelCache (weightedDb 0) [] = some cache ∧
      cachedIds plainRouting cache "default".toList "gpt-4".toList 0 [] =
        storedIds plainRouting (weightedDb 0) "default".toList "gpt-4".toList 0 [] := by
  refine ⟨_, rfl, ?_⟩
  refine (selection_with_and_without_cache plainRouting (weightedDb 0) [] _ "default".toList "gpt-4".toList 0 []
    ⟨by decide, by decide⟩ rfl (.inl (by decide))).2.2.1.mpr ?_
  exact List.filter_eq_self.mpr (by decide)

/-- Beside a channel with a weight, the channel without one may be selected without the cache only. -/
theorem selection_beside_weight :
    (weightedDb 100).InSync ∧ ∃ cache, initChannelCache (weightedDb 100) [] = some cache ∧
      cachedIds plainRouting cache "default".toList "gpt-4".toList 0 [] ≠
        storedIds plainRouting (weightedDb 100) "default".toList "gpt-4".toList 0 [] := by
  have hsync : (weightedDb 100).InSync := ⟨by decide, by decide⟩
  refine ⟨hsync, _, rfl, ?_⟩
  have hbuilt : initChannelCache (weightedDb 100) [] = some _ := rfl
  rw [storedIds_eq hsync, cachedIds_eq hbuilt (.inl (by decide))]
  intro heq
  have hstored : (1 : ℤ) ∈ (tier ((weightedDb 100).servers plainRouting "default".toList "gpt-4".toList []) 0).map
      Channel.id := by decide
  have hcached : (1 : ℤ) ∉ (weighted (tier ((weightedDb 100).servers plainRouting "default".toList "gpt-4".toList []) 0)).map
      Channel.id := by decide
  have hmem : (1 : ℤ) ∈ idsOf (weighted (tier ((weightedDb 100).servers plainRouting "default".toList "gpt-4".toList []) 0)) := by
    rw [heq]
    exact List.mem_map.mp hstored
  exact hcached (List.mem_map.mpr hmem)

end Vancine.Channels
