import Mathlib
import Vancine.Lib.JsonPrune
import Vancine.ParamOverride.Wildcards

/-!
# Pruning by type

`prune_objects` with a type takes out of a value the objects of that type, but never the value itself. What it leaves
can be of the type only when the type is an array or an object: a `type` like that is pruned as any other value.
-/

namespace Vancine.ParamOverride

open Lib Lib.Json

/-! ## The own type of an object -/

/-- Arrays and objects are the same value when `Marshal` writes them alike. -/
def sameValue (lib : Library) (a b : Json) : Bool :=
  match a, b with
  | .null, .null => true
  | .bool a, .bool b => a = b
  | .number a, .number b => a = b
  | .string a, .string b => a = b
  | a, b => kind a = .json && kind b = .json && lib.raw a = lib.raw b

/-- An object whose own type is `v`. -/
def hasType (lib : Library) (v : Json) : Json → Bool
  | .object fields => (fields.lookup "type").any fun t => sameValue lib t v
  | _ => false

/-- The options of a type. -/
def typeOptions (v : Json) : PruneObjectsOptions := ⟨[fullCondition "type" v], "AND", true⟩

/-- The two ways to write a type as the value of the operation. -/
def TypeFilter (value v : Json) : Prop :=
  (∃ s, value = .string s ∧ v = .string (trimSpace s)) ∨ value = .object [("type", v)]

/-- `gjson` finds the field `type` of an object, and there is none in the context of an override. -/
structure TypeLookup (lib : Library) (context : Json) : Prop where
  own : ∀ fields, lib.get (.object fields) "type" = fields.lookup "type"
  context : lib.get context "type" = none

section Own

variable {lib : Library} {context v : Json}

theorem parse_typeFilter {value : Json} (hvalue : TypeFilter value v) {options : PruneObjectsOptions}
    (hparse : parsePruneObjectsOptions value = .ok options) : options = typeOptions v := by
  rcases hvalue with ⟨s, rfl, rfl⟩ | rfl
  · by_cases hs : trimSpace s = ""
    · simp [parsePruneObjectsOptions, hs] at hparse
    · simpa [parsePruneObjectsOptions, hs, typeOptions] using hparse.symm
  · simpa [parsePruneObjectsOptions, typeOptions, stringField, boolField, List.lookup, pure, Except.pure, bind,
      Except.bind] using hparse.symm

variable {b : Bool}

theorem compareEqual_ok {t : Json} (h : compareEqual lib t v = .ok b) : sameValue lib t v = b := by
  rcases t with _ | (_ | _) | _ | _ | _ | _ <;> rcases v with _ | (_ | _) | _ | _ | _ | _ <;>
    simp_all [compareEqual, sameValue, kind, gjsonText] <;>
    exact (decide_eq_decide.mpr Iff.rfl).trans h

/-- With a scalar an array or an object is compared by its kind only, and is never equal to it. -/
theorem compareEqual_scalar (hv : v.IsScalar) {t t' : Json} (ht : ¬t.IsScalar) (ht' : ¬t'.IsScalar)
    (h : compareEqual lib t v = .ok b) : compareEqual lib t' v = .ok false := by
  have hkind : ∀ {t : Json}, ¬t.IsScalar → kind t = .json := by
    intro t ht
    cases t <;> first | rfl | exact absurd trivial ht
  have hcases : ∀ {t : Json}, ¬t.IsScalar → compareEqual lib t v =
      if kind v = .null then .ok false
      else .error ("compare for different types, got " ++ Kind.json.text ++ " and " ++ (kind v).text) := by
    intro t ht
    have hjson := hkind ht
    rcases t with _ | _ | _ | _ | _ | _ <;> rcases v with _ | (_ | _) | _ | _ | _ | _ <;>
      simp_all [compareEqual, kind, IsScalar]
  rw [hcases ht] at h
  rw [hcases ht']
  split at h
  · next hnull => rw [if_pos hnull]
  · cases h

theorem shouldPruneObject_type (hlookup : TypeLookup lib context) (fields : Fields) (b : Bool) :
    shouldPruneObject lib fields (typeOptions v) context = .ok b ↔ match fields.lookup "type" with
      | none => b = false
      | some t => compareEqual lib t v = .ok b := by
  have hpath : processNegativeIndex lib (.object fields) "type" = "type" :=
    processNegativeIndex_of_nil (by decide)
  have hlower : lib.toLower "full" = "full" := rfl
  have hupper : lib.toUpper "AND" = "AND" := rfl
  have hcheck : checkSingleCondition lib (.object fields) context (fullCondition "type" v) = .ok b ↔
      match fields.lookup "type" with
      | none => b = false
      | some t => compareEqual lib t v = .ok b := by
    rw [checkSingleCondition, fullCondition, hpath, hlower, hlookup.own, hlookup.context]
    cases fields.lookup "type" with
    | none => simp [eq_comm]
    | some t =>
      have hfull : compareGjsonValues lib t v "full" = compareEqual lib t v := rfl
      cases hcompare : compareEqual lib t v <;> simp [hfull, hcompare]
  rw [← hcheck, shouldPruneObject, typeOptions, checkConditions, if_neg (List.cons_ne_nil _ _)]
  cases hsingle : checkSingleCondition lib (.object fields) context (fullCondition "type" v) with
  | error e => simp [List.mapM_cons, bind, Except.bind, hsingle]
  | ok result => simp [List.mapM_cons, bind, Except.bind, pure, Except.pure, hupper, hsingle]

theorem shouldPruneObject_ok (hlookup : TypeLookup lib context) {fields : Fields}
    (h : shouldPruneObject lib fields (typeOptions v) context = .ok b) : b = hasType lib v (.object fields) := by
  rw [shouldPruneObject_type hlookup] at h
  rw [hasType]
  cases hown : fields.lookup "type" with
  | none => simpa [hown] using h
  | some t =>
    rw [hown] at h
    exact (compareEqual_ok h).symm

end Own

/-! ## What is taken out -/

section Exact

variable {lib : Library} {context v : Json}

theorem pruneObjectsNode_object {fields : Fields} {isRoot drop : Bool} {result : Json}
    (h : pruneObjectsNode lib (typeOptions v) context (.object fields) isRoot = .ok (result, drop)) :
    ∃ matched, shouldPruneObject lib fields (typeOptions v) context = .ok matched ∧ drop = (matched && !isRoot) ∧
      (drop = false → ∃ left, pruneFields lib (typeOptions v) context fields = .ok left ∧ result = .object left) := by
  rw [pruneObjectsNode] at h
  cases hmatched : shouldPruneObject lib fields (typeOptions v) context with
  | error e =>
    rw [hmatched] at h
    cases h
  | ok matched =>
    rw [hmatched] at h
    refine ⟨matched, rfl, ?_⟩
    by_cases hdrop : (matched && !isRoot) = true
    · simp only [bind, Except.bind, if_pos hdrop] at h
      cases h
      exact ⟨hdrop.symm, fun hfalse => by cases hfalse⟩
    · simp only [bind, Except.bind, if_neg hdrop, typeOptions, Bool.not_true, Bool.false_eq_true, if_false] at h
      cases hleft : pruneFields lib (typeOptions v) context fields with
      | error e =>
        rw [typeOptions] at hleft
        rw [hleft] at h
        cases h
      | ok left =>
        rw [typeOptions] at hleft
        rw [hleft] at h
        cases h
        exact ⟨by simpa using hdrop, fun _ => ⟨left, rfl, rfl⟩⟩

theorem pruneItems_cons {item : Json} {items result : List Json}
    (h : pruneItems lib (typeOptions v) context (item :: items) = .ok result) :
    ∃ next drop rest, pruneObjectsNode lib (typeOptions v) context item false = .ok (next, drop) ∧
      pruneItems lib (typeOptions v) context items = .ok rest ∧ result = if drop then rest else next :: rest := by
  rw [pruneItems] at h
  cases hitem : pruneObjectsNode lib (typeOptions v) context item false with
  | error e =>
    rw [hitem] at h
    cases h
  | ok next =>
    rw [hitem] at h
    cases hrest : pruneItems lib (typeOptions v) context items with
    | error e =>
      rw [hrest] at h
      cases h
    | ok rest =>
      rw [hrest] at h
      cases h
      exact ⟨next.1, next.2, rest, rfl, rfl, rfl⟩

theorem pruneFields_cons {field : String × Json} {fields result : Fields}
    (h : pruneFields lib (typeOptions v) context (field :: fields) = .ok result) :
    ∃ next drop rest, pruneObjectsNode lib (typeOptions v) context field.2 false = .ok (next, drop) ∧
      pruneFields lib (typeOptions v) context fields = .ok rest ∧
        result = if drop then rest else (field.1, next) :: rest := by
  rw [pruneFields] at h
  cases hfield : pruneObjectsNode lib (typeOptions v) context field.2 false with
  | error e =>
    rw [hfield] at h
    cases h
  | ok next =>
    rw [hfield] at h
    cases hrest : pruneFields lib (typeOptions v) context fields with
    | error e =>
      rw [hrest] at h
      cases h
    | ok rest =>
      rw [hrest] at h
      cases h
      exact ⟨next.1, next.2, rest, rfl, rfl, rfl⟩

mutual

theorem pruneObjectsNode_exact (hlookup : TypeLookup lib context) : ∀ {node result : Json} {isRoot drop : Bool},
    pruneObjectsNode lib (typeOptions v) context node isRoot = .ok (result, drop) →
      drop = (hasType lib v node && !isRoot) ∧ (drop = false → result = node.without (hasType lib v))
  | .array items, result, isRoot, drop, h => by
    rw [pruneObjectsNode] at h
    cases hleft : pruneItems lib (typeOptions v) context items with
    | error e =>
      rw [hleft] at h
      cases h
    | ok left =>
      rw [hleft] at h
      cases h
      exact ⟨rfl, fun _ => by rw [without, pruneItems_exact hlookup hleft]⟩
  | .object fields, result, isRoot, drop, h => by
    obtain ⟨matched, hmatched, rfl, hfields⟩ := pruneObjectsNode_object h
    refine ⟨by rw [shouldPruneObject_ok hlookup hmatched], fun hdrop => ?_⟩
    obtain ⟨left, hleft, rfl⟩ := hfields hdrop
    rw [without, pruneFields_exact hlookup hleft]
  | .null, _, _, _, h | .bool _, _, _, _, h | .number _, _, _, _, h | .string _, _, _, _, h => by
    cases h
    exact ⟨rfl, fun _ => rfl⟩

theorem pruneItems_exact (hlookup : TypeLookup lib context) : ∀ {items left : List Json},
    pruneItems lib (typeOptions v) context items = .ok left → left = withoutItems (hasType lib v) items
  | [], left, h => by
    cases h
    rfl
  | item :: items, left, h => by
    obtain ⟨next, drop, rest, hitem, hrest, rfl⟩ := pruneItems_cons h
    obtain ⟨rfl, hnext⟩ := pruneObjectsNode_exact hlookup hitem
    rw [withoutItems, pruneItems_exact hlookup hrest]
    cases htype : hasType lib v item with
    | true => rfl
    | false => rw [hnext (by rw [htype]; rfl)]; rfl

theorem pruneFields_exact (hlookup : TypeLookup lib context) : ∀ {fields left : Fields},
    pruneFields lib (typeOptions v) context fields = .ok left → left = withoutFields (hasType lib v) fields
  | [], left, h => by
    cases h
    rfl
  | field :: fields, left, h => by
    obtain ⟨next, drop, rest, hfield, hrest, rfl⟩ := pruneFields_cons h
    obtain ⟨rfl, hnext⟩ := pruneObjectsNode_exact hlookup hfield
    rw [withoutFields, pruneFields_exact hlookup hrest]
    cases htype : hasType lib v field.2 with
    | true => rfl
    | false => rw [hnext (by rw [htype]; rfl)]; rfl

end

end Exact

/-! ## Pruning again -/

section Again

variable {lib : Library} {context v : Json}

theorem isScalar_without {p : Json → Bool} {t : Json} : (t.without p).IsScalar ↔ t.IsScalar := by
  cases t <;> simp [without, IsScalar]

theorem without_of_isScalar {p : Json → Bool} {t : Json} (ht : t.IsScalar) : t.without p = t := by
  cases t <;> first | rfl | exact absurd ht id

/-- An object that is left is compared as before: its own type is a scalar and stays, or it is none and stays none. -/
theorem shouldPruneObject_left (hlookup : TypeLookup lib context) (hv : v.IsScalar) {fields left : Fields} {b : Bool}
    (hfields : (fields.map Prod.fst).Nodup) (hleft : left = withoutFields (hasType lib v) fields)
    (h : shouldPruneObject lib fields (typeOptions v) context = .ok b) :
    shouldPruneObject lib left (typeOptions v) context = .ok b := by
  rw [shouldPruneObject_type hlookup] at h ⊢
  rw [hleft, lookup_withoutFields hfields]
  cases hown : fields.lookup "type" with
  | none => simpa [hown] using h
  | some t =>
    rw [hown] at h
    replace h : compareEqual lib t v = .ok b := h
    rw [Option.filter_some]
    by_cases ht : t.IsScalar
    · have hkeep : hasType lib v t = false := by
        cases t <;> first | rfl | exact absurd ht id
      rw [hkeep]
      show compareEqual lib (t.without _) v = .ok b
      rw [without_of_isScalar ht, h]
    · obtain rfl : b = false := Except.ok.inj (h.symm.trans (compareEqual_scalar hv ht ht h))
      cases hasType lib v t with
      | true => rfl
      | false => exact compareEqual_scalar hv ht (mt isScalar_without.mp ht) h

mutual

theorem pruneObjectsNode_again (hlookup : TypeLookup lib context) (hv : v.IsScalar) :
    ∀ {node result : Json} {isRoot : Bool}, node.Distinct →
      pruneObjectsNode lib (typeOptions v) context node isRoot = .ok (result, false) →
        pruneObjectsNode lib (typeOptions v) context result isRoot = .ok (result, false)
  | .array items, result, isRoot, hnode, h => by
    rw [pruneObjectsNode] at h
    cases hleft : pruneItems lib (typeOptions v) context items with
    | error e =>
      rw [hleft] at h
      cases h
    | ok left =>
      rw [hleft] at h
      cases h
      rw [pruneObjectsNode, pruneItems_again hlookup hv hnode hleft]
      rfl
  | .object fields, result, isRoot, hnode, h => by
    obtain ⟨matched, hmatched, hdrop, hfields⟩ := pruneObjectsNode_object h
    obtain ⟨left, hleft, rfl⟩ := hfields rfl
    have hagain := shouldPruneObject_left hlookup hv hnode.1 (pruneFields_exact hlookup hleft) hmatched
    have hrest := pruneFields_again hlookup hv hnode.2 hleft
    rw [pruneObjectsNode, hagain]
    simp only [bind, Except.bind, ← hdrop, Bool.false_eq_true, if_false, hrest]
    rfl
  | .null, _, _, _, h | .bool _, _, _, _, h | .number _, _, _, _, h | .string _, _, _, _, h => by
    cases h
    rfl

theorem pruneItems_again (hlookup : TypeLookup lib context) (hv : v.IsScalar) : ∀ {items left : List Json},
    DistinctItems items → pruneItems lib (typeOptions v) context items = .ok left →
      pruneItems lib (typeOptions v) context left = .ok left
  | [], left, _, h => by
    cases h
    rfl
  | item :: items, left, hitems, h => by
    obtain ⟨next, drop, rest, hitem, hrest, rfl⟩ := pruneItems_cons h
    have hagain := pruneItems_again hlookup hv hitems.2 hrest
    cases drop with
    | true => exact hagain
    | false =>
      show pruneItems lib (typeOptions v) context (next :: rest) = _
      rw [pruneItems, pruneObjectsNode_again hlookup hv hitems.1 hitem, hagain]
      rfl

theorem pruneFields_again (hlookup : TypeLookup lib context) (hv : v.IsScalar) : ∀ {fields left : Fields},
    DistinctFields fields → pruneFields lib (typeOptions v) context fields = .ok left →
      pruneFields lib (typeOptions v) context left = .ok left
  | [], left, _, h => by
    cases h
    rfl
  | field :: fields, left, hfields, h => by
    obtain ⟨next, drop, rest, hfield, hrest, rfl⟩ := pruneFields_cons h
    have hagain := pruneFields_again hlookup hv hfields.2 hrest
    cases drop with
    | true => exact hagain
    | false =>
      show pruneFields lib (typeOptions v) context ((field.1, next) :: rest) = _
      rw [pruneFields, pruneObjectsNode_again hlookup hv hfields.1 hfield, hagain]
      rfl

end

/-- **Pruning by type.** Exactly the objects of the type are taken out, the value itself excepted. When the type is a
scalar, doing it again changes nothing. -/
theorem prune_by_type (hlookup : TypeLookup lib context) {value data cleaned : Json} (hvalue : TypeFilter value v)
    {options : PruneObjectsOptions} (hoptions : parsePruneObjectsOptions value = .ok options) (hdata : data.Distinct)
    {drop : Bool} (h : pruneObjectsNode lib options context data true = .ok (cleaned, drop)) :
    drop = false ∧ cleaned = data.without (hasType lib v) ∧
      (v.IsScalar → pruneObjectsNode lib options context cleaned true = .ok (cleaned, false)) := by
  obtain rfl := parse_typeFilter hvalue hoptions
  obtain ⟨hdrop, hcleaned⟩ := pruneObjectsNode_exact hlookup h
  obtain rfl : drop = false := by simpa using hdrop
  exact ⟨rfl, hcleaned rfl, fun hv => pruneObjectsNode_again hlookup hv hdata h⟩

end Again

/-! ## A type that is an array -/

/-- `gjson` at the fields of an object, and the texts of `[]` and of an array with an object of that type. -/
def typeLibrary : Library :=
  { dottedLibrary with
    get := fun data path => match data with
      | .object fields => fields.lookup path
      | _ => none
    raw := fun v => match v with
      | .array [] => "[]"
      | .array [.object [("type", .array [])]] => "[\x7b\"type\":[]\x7d]"
      | _ => "" }

def retryContext : Json := .object [("is_retry", .bool false)]

theorem typeLookup_typeLibrary : TypeLookup typeLibrary retryContext := ⟨fun _ => rfl, rfl⟩

def typed (t : Json) : Json := .object [("type", t)]

theorem shouldPruneObject_typed {v t : Json} {b : Bool} (h : compareEqual typeLibrary t v = .ok b) :
    shouldPruneObject typeLibrary [("type", t)] (typeOptions v) retryContext = .ok b :=
  (shouldPruneObject_type typeLookup_typeLibrary [("type", t)] b).mpr h

/-- Of an image and a text the text is left. -/
theorem prune_by_type_image :
    pruneObjectsNode typeLibrary (typeOptions (.string "image")) retryContext (.array [typed (.string "text")]) true =
        .ok (.array [typed (.string "text")], false) ∧
      Json.array [typed (.string "text")] =
        (Json.array [typed (.string "image"), typed (.string "text")]).without
          (hasType typeLibrary (.string "image")) := by
  have himage := shouldPruneObject_typed (t := .string "image") (v := .string "image") (b := true)
    (by simp [compareEqual, kind])
  have htext := shouldPruneObject_typed (t := .string "text") (v := .string "image") (b := false)
    (by simp [compareEqual, kind])
  have hrecursive : (typeOptions (.string "image")).recursive = true := rfl
  have hparse : parsePruneObjectsOptions (.string "image") = .ok (typeOptions (.string "image")) := by
    have htrim : trimSpace "image" = "image" := trimSpace_of_all (by decide)
    simp [parsePruneObjectsOptions, htrim, typeOptions]
  have hrun : pruneObjectsNode typeLibrary (typeOptions (.string "image")) retryContext
      (.array [typed (.string "image"), typed (.string "text")]) true =
        .ok (.array [typed (.string "text")], false) := by
    simp [pruneObjectsNode, pruneItems, pruneFields, typed, himage, htext, hrecursive, bind, Except.bind, pure,
      Except.pure]
  have htrim : trimSpace "image" = "image" := trimSpace_of_all (by decide)
  obtain ⟨-, hwithout, hagain⟩ := prune_by_type typeLookup_typeLibrary (Or.inl ⟨"image", rfl, by rw [htrim]⟩) hparse
    (by simp [Distinct, DistinctItems, DistinctFields, typed]) hrun
  exact ⟨hagain trivial, hwithout⟩

/-- The object whose `type` becomes `[]` is taken out by the second run. -/
theorem array_type_left :
    ∃ options once twice, parsePruneObjectsOptions (.object [("type", .array [])]) = .ok options ∧
      pruneObjectsNode typeLibrary options retryContext (.array [typed (.array [typed (.array [])])]) true =
        .ok (once, false) ∧
      pruneObjectsNode typeLibrary options retryContext once true = .ok (twice, false) ∧ twice ≠ once := by
  have hempty := shouldPruneObject_typed (t := .array []) (v := .array []) (b := true)
    (by simp [compareEqual, kind])
  have htyped := shouldPruneObject_typed (t := .array [.object [("type", .array [])]]) (v := .array []) (b := false)
    (by simp [compareEqual, kind, gjsonText, typeLibrary])
  have hrecursive : (typeOptions (.array [])).recursive = true := rfl
  refine ⟨typeOptions (.array []), .array [typed (.array [])], .array [], rfl, ?_, ?_, ?_⟩
  · simp [pruneObjectsNode, pruneItems, pruneFields, typed, hempty, htyped, hrecursive, bind, Except.bind, pure,
      Except.pure]
  · simp [pruneObjectsNode, pruneItems, typed, hempty, bind, Except.bind, pure, Except.pure]
  · intro h
    cases h

end Vancine.ParamOverride
