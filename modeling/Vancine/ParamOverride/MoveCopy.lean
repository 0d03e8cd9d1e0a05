import Vancine.ParamOverride.Wildcards

/-!
# Moving and copying

A copy writes what it finds at one path to another, and a move deletes it afterwards where it was. Between two paths
of members neither inside the other the value arrives and nothing else changes, except that a move of a value to its
own place deletes it.
-/

namespace Vancine.ParamOverride

open Lib Lib.Json

/-! ## Members -/

/-- The value at the names, one inside the other. -/
def memberAt (keys : List String) : Json → Option Json := getAt (keys.map .key)

/-- What is no object on the way is replaced by one. -/
def setMember (value : Json) : List String → Json → Json
  | [], _ => value
  | k :: keys, .object fields => .object (setField k (setMember value keys ((fields.lookup k).getD .null)) fields)
  | k :: keys, _ => .object [(k, setMember value keys .null)]

def deleteMember : List String → Json → Json
  | [k], .object fields => .object (fields.filter fun f => f.1 ≠ k)
  | k :: keys, .object fields => .object (fields.map fun f => if f.1 = k then (f.1, deleteMember keys f.2) else f)
  | _, v => v

/-- The names lead through objects. A number names a member only of an object that is there: anywhere else `sjson` makes
an array. -/
def ObjectsAlong : List String → Json → Prop
  | [], _ => True
  | _ :: _, .array _ => False
  | k :: keys, .object fields => match fields.lookup k with
    | some next => ObjectsAlong keys next
    | none => ∀ key ∈ keys, digits? key.toList = none
  | keys, _ => ∀ key ∈ keys, digits? key.toList = none

/-- What the documentation of `gjson` and `sjson` says of a path of plain names that leads through objects. -/
structure MemberGrammar (lib : Library) : Prop where
  get : ∀ data keys value, keys ≠ [] → (∀ k ∈ keys, PlainKey k) → memberAt keys data = some value →
    lib.get data (joinPath keys) = some value
  set : ∀ data keys value, keys ≠ [] → (∀ k ∈ keys, PlainKey k) → ObjectsAlong keys data →
    lib.set data (joinPath keys) value = .ok (setMember value keys data)
  delete : ∀ data keys value, keys ≠ [] → (∀ k ∈ keys, PlainKey k) → memberAt keys data = some value →
    lib.delete data (joinPath keys) = .ok (deleteMember keys data)

/-- Neither path leads through the node of the other. -/
def Apart (path path' : List Step) : Prop := ¬path <+: path' ∧ ¬path' <+: path

section Members

variable {path : List Step} {keys : List String} {k : String} {s : Step}

theorem not_apart_nil : ¬Apart path [] := fun h => h.2 List.nil_prefix

theorem Apart.ne_nil (h : Apart path (keys.map .key)) : path ≠ [] := by
  rintro rfl
  exact h.1 List.nil_prefix

theorem Apart.tail {rest : List Step} (h : Apart (.key k :: rest) ((k :: keys).map .key)) :
    Apart rest (keys.map .key) :=
  ⟨fun hp => h.1 (List.cons_prefix_cons.mpr ⟨rfl, hp⟩), fun hp => h.2 (List.cons_prefix_cons.mpr ⟨rfl, hp⟩)⟩

theorem getAt_null (h : path ≠ []) : getAt path .null = none := by
  obtain ⟨s, rest, rfl⟩ := List.exists_cons_of_ne_nil h
  cases s <;> rfl

theorem lookup_setField (value : Json) (fields : Fields) (k k' : String) :
    (setField k value fields).lookup k' = if k' = k then some value else fields.lookup k' := by
  rw [setField]
  split
  · next hsome =>
    have hchild := child?_updChild (fun _ => value) (.key k) (.key k') (.object fields)
    obtain ⟨old, hold⟩ := Option.isSome_iff_exists.mp hsome
    have hmap : (fields.map fun f => if f.1 = k then (k, value) else f) =
        fields.map fun f => if f.1 = k then (f.1, value) else f := by
      refine List.map_congr_left fun f _ => ?_
      split
      · next hk => rw [hk]
      · rfl
    rw [hmap]
    simpa [updChild, child?, hold] using hchild
  · next hnone =>
    rw [List.lookup_append, lookup_cons_if]
    rw [Bool.not_eq_true, Option.isSome_eq_false_iff, Option.isNone_iff_eq_none] at hnone
    by_cases hk : k' = k
    · subst hk
      simp [hnone]
    · simp [hk]

theorem lookup_filter_ne (fields : Fields) (k k' : String) :
    (fields.filter fun f => f.1 ≠ k).lookup k' = if k' = k then none else fields.lookup k' := by
  induction fields with
  | nil => simp
  | cons f fields ih =>
    rw [lookup_cons_if]
    by_cases hf : f.1 = k
    · subst hf
      rw [List.filter_cons_of_neg (by simp), ih]
      by_cases hk : k' = f.1 <;> simp [hk]
    · rw [List.filter_cons_of_pos (by simpa using hf), lookup_cons_if, ih]
      by_cases hk : k' = k
      · subst hk
        simp [Ne.symm hf]
      · simp [hk]

theorem getAt_member {rest : List Step} (hne : rest ≠ []) (k : String) (fields : Fields) :
    getAt (.key k :: rest) (.object fields) = getAt rest ((fields.lookup k).getD .null) := by
  show (fields.lookup k).bind (getAt rest) = _
  cases fields.lookup k with
  | none => exact (getAt_null hne).symm
  | some next => rfl

theorem objectsAlong_null (h : ∀ key ∈ keys, digits? key.toList = none) : ObjectsAlong keys .null := by
  cases keys with
  | nil => trivial
  | cons k keys => exact h

theorem ObjectsAlong.next {fields : Fields} (h : ObjectsAlong (k :: keys) (.object fields)) :
    ObjectsAlong keys ((fields.lookup k).getD .null) := by
  rw [ObjectsAlong] at h
  cases hnext : fields.lookup k with
  | none =>
    rw [hnext] at h
    exact objectsAlong_null h
  | some next =>
    rw [hnext] at h
    exact h

theorem getAt_setMember_self (value : Json) (keys : List String) (v : Json) :
    memberAt keys (setMember value keys v) = some value := by
  induction keys generalizing v with
  | nil => rfl
  | cons k keys ih =>
    cases v with
    | object fields =>
      show ((setField k _ fields).lookup k).bind _ = _
      rw [lookup_setField, if_pos rfl]
      exact ih _
    | _ =>
      show (List.lookup k [(k, _)]).bind _ = _
      rw [lookup_cons_if, if_pos rfl]
      exact ih _

theorem getAt_setMember_apart (value : Json) {keys : List String} {v : Json} (hkeys : ObjectsAlong keys v)
    {path : List Step} (h : Apart path (keys.map .key)) : getAt path (setMember value keys v) = getAt path v := by
  induction keys generalizing path v with
  | nil => exact absurd h not_apart_nil
  | cons k keys ih =>
    obtain ⟨s, rest, rfl⟩ := List.exists_cons_of_ne_nil h.ne_nil
    cases v with
    | array items => exact absurd hkeys id
    | object fields =>
      by_cases hs : s = .key k
      · subst hs
        rw [getAt_member h.tail.ne_nil, ← ih hkeys.next h.tail]
        show ((setField k _ fields).lookup k).bind _ = _
        rw [lookup_setField, if_pos rfl]
        rfl
      · cases s with
        | index i => rfl
        | key k' =>
          show ((setField k _ fields).lookup k').bind _ = _
          rw [lookup_setField, if_neg fun hk => hs (congrArg Step.key hk)]
          rfl
    | _ =>
      -- a scalar has no members, and the object that replaces it has none but the way to the value
      by_cases hs : s = .key k
      · subst hs
        have hnext := ih (objectsAlong_null fun key hkey => hkeys key (List.mem_cons_of_mem _ hkey)) h.tail
        rw [getAt_null h.tail.ne_nil] at hnext
        show (List.lookup k [(k, _)]).bind _ = none
        rw [lookup_cons_if, if_pos rfl]
        exact hnext
      · cases s with
        | index i => rfl
        | key k' =>
          show (List.lookup k' [(k, _)]).bind _ = none
          rw [lookup_cons_if, if_neg fun hk => hs (congrArg Step.key hk)]
          rfl

theorem deleteMember_cons (hne : keys ≠ []) (k : String) (fields : Fields) :
    deleteMember (k :: keys) (.object fields) = updChild (deleteMember keys) (.key k) (.object fields) := by
  obtain ⟨k', rest, rfl⟩ := List.exists_cons_of_ne_nil hne
  rfl

theorem getAt_deleteMember_self {keys : List String} (hne : keys ≠ []) (v : Json) :
    memberAt keys (deleteMember keys v) = none := by
  induction keys generalizing v with
  | nil => exact absurd rfl hne
  | cons k keys ih =>
    cases v with
    | object fields =>
      by_cases hkeys : keys = []
      · subst hkeys
        show ((fields.filter _).lookup k).bind _ = none
        rw [lookup_filter_ne, if_pos rfl]
        rfl
      · show (child? (.key k) (deleteMember (k :: keys) (.object fields))).bind (memberAt keys) = none
        rw [deleteMember_cons hkeys, child?_updChild, if_pos rfl]
        cases child? (.key k) (.object fields) with
        | none => rfl
        | some next => exact ih hkeys next
    | _ => cases keys <;> rfl

theorem getAt_deleteMember_apart {keys : List String} (v : Json) {path : List Step} (h : Apart path (keys.map .key)) :
    getAt path (deleteMember keys v) = getAt path v := by
  induction keys generalizing path v with
  | nil => exact absurd h not_apart_nil
  | cons k keys ih =>
    obtain ⟨s, rest, rfl⟩ := List.exists_cons_of_ne_nil h.ne_nil
    cases v with
    | object fields =>
      by_cases hkeys : keys = []
      · subst hkeys
        have hs : s ≠ .key k := by
          rintro rfl
          exact not_apart_nil h.tail
        cases s with
        | index i => rfl
        | key k' =>
          show ((fields.filter _).lookup k').bind _ = _
          rw [lookup_filter_ne, if_neg fun hk => hs (congrArg Step.key hk)]
          rfl
      · rw [deleteMember_cons hkeys, getAt, getAt, child?_updChild]
        by_cases hs : s = .key k
        · subst hs
          rw [if_pos rfl]
          cases child? (.key k) (.object fields) with
          | none => rfl
          | some next => exact ih next h.tail
        · rw [if_neg hs]
    | _ => cases keys <;> rfl

end Members

/-! ## The operations -/

/-- The paths of an operation with their negative indices resolved: members, neither strictly inside the other. -/
structure TwoMembers (lib : Library) (op : ParamOperation) (data : Json) (source target : List String) : Prop where
  sourcePath : processNegativeIndex lib data op.source = joinPath source
  targetPath : processNegativeIndex lib data op.target = joinPath target
  source_ne_nil : source ≠ []
  target_ne_nil : target ≠ []
  sourcePlain : ∀ k ∈ source, PlainKey k
  targetPlain : ∀ k ∈ target, PlainKey k
  along : ObjectsAlong target data
  notInside : source <+: target ∨ target <+: source → source = target

section Operations

variable {lib : Library} {op : ParamOperation} {data value : Json} {source target : List String} {context : Context}

theorem key_injective : Function.Injective Step.key := fun _ _ h => Step.key.inj h

theorem TwoMembers.apart (h : TwoMembers lib op data source target) (hne : source ≠ target) :
    Apart (target.map .key) (source.map .key) :=
  ⟨fun hp => hne (h.notInside (Or.inr ((List.prefix_map_iff_of_injective key_injective).mp hp))),
    fun hp => hne (h.notInside (Or.inl ((List.prefix_map_iff_of_injective key_injective).mp hp)))⟩

theorem TwoMembers.copyValue (hlib : MemberGrammar lib) (h : TwoMembers lib op data source target)
    (hvalue : memberAt source data = some value) :
    copyValue lib data (processNegativeIndex lib data op.source) (processNegativeIndex lib data op.target) =
      .ok (setMember value target data) := by
  rw [h.sourcePath, h.targetPath, ParamOverride.copyValue, hlib.get _ _ _ h.source_ne_nil h.sourcePlain hvalue]
  exact hlib.set _ _ _ h.target_ne_nil h.targetPlain h.along

theorem TwoMembers.source_setMember (h : TwoMembers lib op data source target)
    (hvalue : memberAt source data = some value) : memberAt source (setMember value target data) = some value := by
  by_cases hst : source = target
  · rw [hst]
    exact getAt_setMember_self value target data
  · have hapart := h.apart hst
    rw [memberAt, getAt_setMember_apart value h.along ⟨hapart.2, hapart.1⟩]
    exact hvalue

theorem TwoMembers.moveValue (hlib : MemberGrammar lib) (h : TwoMembers lib op data source target)
    (hvalue : memberAt source data = some value) :
    moveValue lib data (processNegativeIndex lib data op.source) (processNegativeIndex lib data op.target) =
      .ok (deleteMember source (setMember value target data)) := by
  have hset := hlib.set data target value h.target_ne_nil h.targetPlain h.along
  have hdelete := hlib.delete _ _ _ h.source_ne_nil h.sourcePlain (h.source_setMember hvalue)
  rw [h.sourcePath, h.targetPath, ParamOverride.moveValue, hlib.get _ _ _ h.source_ne_nil h.sourcePlain hvalue]
  show (lib.set data (joinPath target) value).bind _ = _
  rw [hset]
  exact hdelete

theorem applyOperation_move (hmode : op.mode = "move") {result : Json}
    (h : ParamOverride.moveValue lib data (processNegativeIndex lib data op.source)
      (processNegativeIndex lib data op.target) = .ok result) :
    applyOperation lib op data context = .ok (result, context) := by
  rw [applyOperation, hmode, if_neg (by decide), h]
  rfl

theorem applyOperation_copy (hmode : op.mode = "copy") {result : Json}
    (h : ParamOverride.copyValue lib data (processNegativeIndex lib data op.source)
      (processNegativeIndex lib data op.target) = .ok result) {after : Json × Context}
    (happly : applyOperation lib op data context = .ok after) : after = (result, context) := by
  rw [applyOperation, hmode, if_neg (by decide), h] at happly
  replace happly : (if op.source = "" ∨ op.target = "" then Except.error _ else Except.ok (result, context)) =
    Except.ok after := happly
  split at happly
  · cases happly
  · exact (Except.ok.inj happly).symm

/-- The value is at the target, and what is apart from the two paths is as it was. -/
def Moved (value : Json) (source target : List String) (data result : Json) : Prop :=
  memberAt target result = some value ∧
    ∀ path, Apart path (source.map .key) → Apart path (target.map .key) → getAt path result = getAt path data

/-- **Moving and copying.** A copy leaves the value at both paths and all else as it was. So does a move, but for the
source, if and only if the source is not the target. -/
theorem move_keeps_iff (hlib : MemberGrammar lib) (h : TwoMembers lib op data source target)
    (hvalue : memberAt source data = some value) (context : Context) :
    (op.mode = "copy" → ∀ result after, applyOperation lib op data context = .ok (result, after) →
      memberAt target result = some value ∧ memberAt source result = some value ∧
        ∀ path, Apart path (target.map .key) → getAt path result = getAt path data) ∧
    (op.mode = "move" → ((∀ result after, applyOperation lib op data context = .ok (result, after) →
      Moved value source target data result) ↔ source ≠ target)) := by
  refine ⟨fun hmode result after happly => ?_, fun hmode => ?_⟩
  · cases applyOperation_copy hmode (h.copyValue hlib hvalue) happly
    exact ⟨getAt_setMember_self value target data, h.source_setMember hvalue,
      fun path hpath => getAt_setMember_apart value h.along hpath⟩
  · have happly : applyOperation lib op data context = .ok (_, context) :=
      applyOperation_move hmode (h.moveValue hlib hvalue)
    constructor
    · rintro hmoved rfl
      have htarget := (hmoved _ _ happly).1
      rw [getAt_deleteMember_self h.source_ne_nil] at htarget
      cases htarget
    · intro hne result after hok
      rw [happly] at hok
      cases hok
      refine ⟨?_, fun path hsource htarget => ?_⟩
      · rw [memberAt, getAt_deleteMember_apart _ (h.apart hne)]
        exact getAt_setMember_self value target data
      · rw [getAt_deleteMember_apart _ hsource, getAt_setMember_apart value h.along htarget]

end Operations

/-! ## Moving to the same place -/

/-- `gjson` and `sjson` at paths of names. -/
def memberLibrary : Library :=
  { dottedLibrary with
    get := fun data path => memberAt (splitAt '.' path) data
    set := fun data path value => .ok (setMember value (splitAt '.' path) data)
    delete := fun data path => .ok (deleteMember (splitAt '.' path) data) }

theorem memberLibrary_grammar : MemberGrammar memberLibrary where
  get data keys value hne hplain hvalue := by
    show memberAt (splitAt '.' (joinPath keys)) data = _
    rw [splitAt_joinPath hne hplain]
    exact hvalue
  set data keys value hne hplain _ := by
    show Except.ok (setMember value (splitAt '.' (joinPath keys)) data) = _
    rw [splitAt_joinPath hne hplain]
  delete data keys value hne hplain _ := by
    show Except.ok (deleteMember (splitAt '.' (joinPath keys)) data) = _
    rw [splitAt_joinPath hne hplain]

def moveOperation (source target : String) : ParamOperation := ⟨"", "move", .null, false, source, target, [], "OR"⟩

def topP : Json := .object [("top_p", .number 1)]

theorem memberAt_topP : memberAt ["top_p"] topP = some (.number 1) := rfl

theorem plainKey_topP : PlainKey "top_p" := plainKey_of_decide (by decide +kernel) (by decide +kernel)

theorem twoMembers_topP {k : String} (hplain : PlainKey k) (hindex : negativeIndices .start k.toList = []) :
    TwoMembers memberLibrary (moveOperation "top_p" k) topP ["top_p"] [k] where
  sourcePath := processNegativeIndex_of_nil (show negativeIndices .start "top_p".toList = [] by decide)
  targetPath := processNegativeIndex_of_nil hindex
  source_ne_nil := List.cons_ne_nil _ _
  target_ne_nil := List.cons_ne_nil _ _
  sourcePlain := List.forall_mem_singleton.mpr plainKey_topP
  targetPlain := List.forall_mem_singleton.mpr hplain
  along := by
    rw [topP, ObjectsAlong]
    split
    · trivial
    · exact List.forall_mem_nil _
  notInside := by
    rintro (h | h)
    · exact h.eq_of_length rfl
    · exact (h.eq_of_length rfl).symm

/-- A field under a new name. -/
theorem move_keeps_renamed : ∃ result, applyOperation memberLibrary (moveOperation "top_p" "topP") topP noHeaders =
    .ok (result, noHeaders) ∧ Moved (.number 1) ["top_p"] ["topP"] topP result := by
  have hmembers := twoMembers_topP (k := "topP") (plainKey_of_decide (by decide +kernel) (by decide +kernel))
    (by decide)
  have hmove : applyOperation memberLibrary (moveOperation "top_p" "topP") topP noHeaders = .ok (_, noHeaders) :=
    applyOperation_move rfl (hmembers.moveValue memberLibrary_grammar memberAt_topP)
  have hiff := (move_keeps_iff memberLibrary_grammar hmembers memberAt_topP noHeaders).2 rfl
  exact ⟨_, hmove, hiff.mpr (by decide) _ _ hmove⟩

/-- The field is gone. -/
theorem move_to_itself : ∃ result, applyOperation memberLibrary (moveOperation "top_p" "top_p") topP noHeaders =
    .ok (result, noHeaders) ∧ ¬Moved (.number 1) ["top_p"] ["top_p"] topP result := by
  have hmembers := twoMembers_topP plainKey_topP (by decide)
  have hmove := hmembers.moveValue memberLibrary_grammar memberAt_topP
  refine ⟨_, applyOperation_move rfl hmove, fun h => ?_⟩
  have htarget := h.1
  rw [getAt_deleteMember_self (List.cons_ne_nil _ _)] at htarget
  cases htarget

end Vancine.ParamOverride
