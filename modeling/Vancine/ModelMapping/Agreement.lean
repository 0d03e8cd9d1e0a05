import Vancine.ModelMapping.Walks

/-!
# Where the walks end

Each of the three is a walk over hops: the relay's over the entries and those of the base names, the preview's over the
entries it filled in, and the one of the aliases over the entries alone.
-/

namespace Vancine.ModelMapping

open Lib

section Hops

variable {baseModelName : Text → Text} {modelMap : ModelMap}

def ownHops (modelMap : ModelMap) : Hops Text where
  hop := own modelMap
  targets := targets modelMap
  mem_targets h := mem_targets_of_lookup (own_eq_some.mp h).1

def relayHops (baseModelName : Text → Text) (modelMap : ModelMap) : Hops Text where
  hop name := (own modelMap name).or (own modelMap (baseModelName name))
  targets := targets modelMap
  mem_targets h := by
    rcases Option.or_eq_some_iff.mp h with h | ⟨-, h⟩ <;> exact mem_targets_of_lookup (own_eq_some.mp h).1

theorem relayHops_hop (name : Text) :
    (relayHops baseModelName modelMap).hop name = (mappedAt baseModelName modelMap name).filter (· ≠ []) := by
  show (own modelMap name).or (own modelMap (baseModelName name)) = _
  unfold mappedAt
  dsimp only
  by_cases hown : own modelMap name = none
  · rw [hown, Option.none_or]
    by_cases hbase : baseModelName name = name
    · rw [if_neg (fun h => h.2 hbase), hbase, hown]
      exact hown.symm
    · rw [if_pos ⟨own_eq_none.mp hown, hbase⟩]
      rfl
  · obtain ⟨mapped, hmapped⟩ := Option.ne_none_iff_exists'.mp hown
    rw [if_neg (fun h => hown (own_eq_none.mpr h.1)), hmapped, Option.some_or]
    exact hmapped.symm

/-! ## The relay -/

/-- The name the relay goes on with. -/
def LoopEnd.sent (originModelName : Text) : LoopEnd → Text
  | .breaks currentModel true => currentModel
  | .returns | .breaks _ false => originModelName

/-- A walk as the relay reports it. -/
def report : End Text → Except MappingError Text
  | .tail last => .ok last
  | .cycle => .error .modelMappingContainsCycle

section Loop

variable {originModelName currentModel next : Text} {visitedModels : List Text} {isModelMapped : Bool}

theorem modelMappedLoop_none (hnext : (relayHops baseModelName modelMap).hop currentModel = none) :
    modelMappedLoop baseModelName modelMap originModelName visitedModels currentModel isModelMapped =
      .ok (.breaks currentModel isModelMapped) := by
  rw [relayHops_hop] at hnext
  rw [modelMappedLoop]
  split
  · rfl
  next mapped hmapped =>
    have hempty : mapped = [] := by simpa [hmapped, Option.filter] using hnext
    rw [if_pos hempty]

theorem modelMappedLoop_some (hnext : (relayHops baseModelName modelMap).hop currentModel = some next) :
    modelMappedLoop baseModelName modelMap originModelName visitedModels currentModel isModelMapped =
      if next ∈ visitedModels then
        if next = currentModel then
          if currentModel = originModelName then .ok .returns else .ok (.breaks currentModel true)
        else .error .modelMappingContainsCycle
      else modelMappedLoop baseModelName modelMap originModelName (next :: visitedModels) next true := by
  rw [relayHops_hop] at hnext
  obtain ⟨hlookup, hne⟩ := Option.filter_eq_some_iff.mp hnext
  rw [modelMappedLoop]
  split
  next hnone => rw [hnone] at hlookup; cases hlookup
  next mapped hmapped =>
    rw [hmapped] at hlookup
    cases hlookup
    rw [if_neg (by simpa using hne)]
    split <;> rfl

end Loop

theorem modelMappedLoop_eq {originModelName : Text} (visitedModels : List Text) (currentModel : Text)
    (isModelMapped : Bool) (hmapped : isModelMapped = false → currentModel = originModelName) :
    (modelMappedLoop baseModelName modelMap originModelName visitedModels currentModel isModelMapped).map
        (LoopEnd.sent originModelName) =
      report ((relayHops baseModelName modelMap).walk visitedModels currentModel) := by
  induction visitedModels, currentModel using Hops.walk_induction (h := relayHops baseModelName modelMap)
    generalizing isModelMapped with
  | hnone visited current hnext =>
    rw [modelMappedLoop_none hnext, Hops.walk_none hnext]
    cases isModelMapped with
    | false => exact congrArg Except.ok (hmapped rfl).symm
    | true => rfl
  | hseen visited current next hnext hmem =>
    rw [modelMappedLoop_some hnext, Hops.walk_some hnext, if_pos hmem, if_pos hmem]
    by_cases hself : next = current
    · rw [if_pos hself, if_pos hself]
      by_cases horigin : current = originModelName
      · rw [if_pos horigin]
        exact congrArg Except.ok horigin.symm
      · rw [if_neg horigin]
        rfl
    · rw [if_neg hself, if_neg hself]
      rfl
  | hnew visited current next hnext hmem ih =>
    rw [modelMappedLoop_some hnext, Hops.walk_some hnext, if_neg hmem, if_neg hmem]
    exact ih true (by simp)

/-- The upstream name of a request that is sent. -/
def upstreamOf : Except MappingError (RelayInfo × Option Text) → Except MappingError Text
  | .ok (info, _) => .ok info.upstreamModelName
  | .error e => .error e

/-- The relay sends the name its walk ends at, and fails where it is a cycle. -/
theorem modelMappedHelper_eq (decoder : MappingDecoder) {modelMapping : Text}
    (hmap : decoder.unmarshal modelMapping = some modelMap) (start : Text) (request : Option Text) :
    upstreamOf (modelMappedHelper decoder baseModelName modelMapping (initChannelMeta start) request) =
      report ((relayHops baseModelName modelMap).walk [start] start) := by
  unfold modelMappedHelper
  dsimp only
  split
  next htext =>
    have hloop : (modelMappedLoop baseModelName modelMap start [start] start false).map (LoopEnd.sent start) =
        report ((relayHops baseModelName modelMap).walk [start] start) :=
      modelMappedLoop_eq [start] start false fun _ => rfl
    rw [hmap, ← hloop]
    show upstreamOf (Except.bind (modelMappedLoop baseModelName modelMap start [start] start false) _) = _
    cases modelMappedLoop baseModelName modelMap start [start] start false with
    | error e => rfl
    | ok loopEnd =>
      cases loopEnd with
      | returns => rfl
      | breaks currentModel isMapped => cases isMapped <;> rfl
  next htext =>
    -- an empty object is not read at all
    have hempty : modelMap = ∅ := by
      by_cases hnil : modelMapping = []
      · rw [hnil, decoder.unmarshal_nil] at hmap
        cases hmap
      · have hbraces : modelMapping = "\x7b\x7d".toList := not_not.mp fun hne => htext ⟨hnil, hne⟩
        rw [hbraces, decoder.unmarshal_empty] at hmap
        exact (Option.some.inj hmap).symm
    have hnone : (relayHops baseModelName modelMap).hop start = none := by
      rw [hempty]
      rfl
    rw [Hops.walk_none hnone]
    rfl

/-! ## The aliases -/

theorem followLoop_eq (visited : List Text) (current : Text) :
    followLoop modelMap visited current = (ownHops modelMap).walk visited current := by
  induction visited, current using Hops.walk_induction (h := ownHops modelMap) with
  | hnone visited current hnext =>
    rw [Hops.walk_none hnext, followLoop]
    split
    · rfl
    next mapped hmapped =>
      have hempty : mapped = [] := by simpa [hmapped] using own_eq_none.mp hnext
      rw [if_pos hempty]
  | hseen visited current next hnext hmem =>
    obtain ⟨hlookup, hne⟩ := own_eq_some.mp hnext
    rw [Hops.walk_some hnext, if_pos hmem, followLoop]
    split
    next hnone => rw [hnone] at hlookup; cases hlookup
    next mapped hmapped =>
      rw [hmapped] at hlookup
      cases hlookup
      rw [if_neg hne, dif_pos hmem]
  | hnew visited current next hnext hmem ih =>
    obtain ⟨hlookup, hne⟩ := own_eq_some.mp hnext
    rw [Hops.walk_some hnext, if_neg hmem, followLoop]
    split
    next hnone => rw [hnone] at hlookup; cases hlookup
    next mapped hmapped =>
      rw [hmapped] at hlookup
      cases hlookup
      rw [if_neg hne, dif_neg hmem, ih]

theorem followChannelModelMapping_eq (start : Text) :
    followChannelModelMapping modelMap start = (ownHops modelMap).walk [start] start :=
  followLoop_eq [start] start

/-! ## The preview -/

theorem own_insert (name candidate mapped : Text) : own (modelMap.insert candidate mapped) name =
      if name = candidate then (some mapped).filter (· ≠ []) else own modelMap name := by
  unfold own
  by_cases h : name = candidate
  · rw [if_pos h, h, AList.lookup_insert]
  · rw [if_neg h, AList.lookup_insert_ne h]

theorem own_fillIn (candidate name : Text) : own (fillIn baseModelName modelMap candidate) name =
      if name = candidate then (own modelMap candidate).or (own modelMap (baseModelName candidate))
      else own modelMap name := by
  unfold fillIn
  split
  next hempty =>
    rw [own_insert, own_eq_none.mpr hempty, Option.none_or]
    congr 1
    unfold own
    cases modelMap.lookup (baseModelName candidate) with
    | none => rfl
    | some mapped => rfl
  next hfull =>
    by_cases h : name = candidate
    · obtain ⟨mapped, hmapped⟩ := Option.ne_none_iff_exists'.mp fun hnone => hfull (own_eq_none.mp hnone)
      rw [if_pos h, h, hmapped, Option.some_or]
    · rw [if_neg h]

theorem own_foldl_fillIn (hbase : ∀ name, baseModelName (baseModelName name) = baseModelName name)
    (names : List Text) (name : Text) : own (names.foldl (fillIn baseModelName) modelMap) name =
      if name ∈ names then (own modelMap name).or (own modelMap (baseModelName name)) else own modelMap name := by
  induction names generalizing modelMap with
  | nil => rfl
  | cons first rest ih =>
    rw [List.foldl_cons, ih]
    simp only [own_fillIn, List.mem_cons]
    -- the base of a base name is filled in with what it has
    have hor (o : Option Text) : o.or o = o := by cases o <;> rfl
    by_cases hfirst : name = first
    · subst hfirst
      simp only [true_or, if_true]
      split
      · split
        · rw [hor]
        · rw [Option.or_assoc, hor]
      · rfl
    · rw [if_neg hfirst]
      simp only [hfirst, false_or]
      split
      · split
        next hbasefirst => rw [← hbasefirst, hbase, hor]
        · rfl
      · rfl

theorem mem_targets_of_relayHops {name mapped : Text}
    (h : (relayHops baseModelName modelMap).hop name = some mapped) : mapped ∈ targets modelMap :=
  (relayHops baseModelName modelMap).mem_targets h

theorem previewModelMapping_eq (hbase : ∀ name, baseModelName (baseModelName name) = baseModelName name)
    (start : Text) :
    previewModelMapping baseModelName modelMap start = (relayHops baseModelName modelMap).walk [start] start := by
  unfold previewModelMapping
  rw [followChannelModelMapping_eq]
  have hhop : ∀ name ∈ candidates modelMap start,
      (ownHops ((candidates modelMap start).foldl (fillIn baseModelName) modelMap)).hop name =
        (relayHops baseModelName modelMap).hop name := fun name hname =>
    (own_foldl_fillIn hbase _ name).trans (if_pos hname)
  apply Hops.walk_congr List.mem_cons_self
  intro name hleads
  refine .inl (hhop name ?_)
  -- the walk stays among the candidates
  induction hleads with
  | refl => exact List.mem_cons_self
  | tail _ hnext ih => exact List.mem_cons_of_mem _ (mem_targets_of_relayHops ((hhop _ ih).symm.trans hnext))

/-- No name without an entry, where the entries lead, has a base name that is mapped to another name. -/
def NoBaseBehind (baseModelName : Text → Text) (modelMap : ModelMap) (start : Text) : Prop :=
  ∀ name, Relation.ReflTransGen (fun a b => own modelMap a = some b) start name → own modelMap name = none →
    own modelMap (baseModelName name) = none ∨ own modelMap (baseModelName name) = some name

/-- The walk of the aliases is the relay's exactly where no base name is behind its end. -/
theorem followChannelModelMapping_eq_iff (start : Text) :
    followChannelModelMapping modelMap start = (relayHops baseModelName modelMap).walk [start] start ↔
      NoBaseBehind baseModelName modelMap start := by
  rw [followChannelModelMapping_eq,
    Hops.walk_eq_iff (k := relayHops baseModelName modelMap) fun a b h => by
      show (own modelMap a).or _ = some b
      rw [show own modelMap a = some b from h, Option.some_or]]
  refine forall_congr' fun name => imp_congr_right fun _ => imp_congr_right fun hnone => ?_
  show (own modelMap name).or _ = none ∨ (own modelMap name).or _ = some name ↔ _
  rw [show own modelMap name = none from hnone, Option.none_or]

end Hops

end Vancine.ModelMapping
