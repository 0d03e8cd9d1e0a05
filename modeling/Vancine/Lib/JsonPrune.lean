import Vancine.Lib.JsonPath

/-!
# Taking values out

What is left of a JSON value without the elements and the fields, at any depth, that satisfy a test.
-/

namespace Lib.Json

variable (p : Json → Bool)

mutual

/-- The value without the elements and the fields that satisfy `p`, at any depth. -/
def without : Json → Json
  | .array items => .array (withoutItems items)
  | .object fields => .object (withoutFields fields)
  | v => v

def withoutItems : List Json → List Json
  | [] => []
  | item :: items => if p item then withoutItems items else without item :: withoutItems items

def withoutFields : Fields → Fields
  | [] => []
  | field :: fields => if p field.2 then withoutFields fields else (field.1, without field.2) :: withoutFields fields

end

mutual

/-- A map has a key once. -/
def Distinct : Json → Prop
  | .array items => DistinctItems items
  | .object fields => (fields.map Prod.fst).Nodup ∧ DistinctFields fields
  | _ => True

def DistinctItems : List Json → Prop
  | [] => True
  | item :: items => item.Distinct ∧ DistinctItems items

def DistinctFields : Fields → Prop
  | [] => True
  | field :: fields => field.2.Distinct ∧ DistinctFields fields

end

/-- No array and no object. -/
def IsScalar : Json → Prop
  | .array _ | .object _ => False
  | _ => True

variable {p}

theorem withoutItems_eq (items : List Json) : withoutItems p items = (items.filter fun v => !p v).map (without p) := by
  induction items with
  | nil => simp [withoutItems]
  | cons item items ih => by_cases h : p item <;> simp [withoutItems, h, ih]

theorem withoutFields_eq (fields : Fields) :
    withoutFields p fields = (fields.filter fun f => !p f.2).map fun f => (f.1, without p f.2) := by
  induction fields with
  | nil => simp [withoutFields]
  | cons field fields ih => by_cases h : p field.2 <;> simp [withoutFields, h, ih]

theorem lookup_withoutFields {fields : Fields} (hfields : (fields.map Prod.fst).Nodup) (k : String) :
    (withoutFields p fields).lookup k = ((fields.lookup k).filter fun v => !p v).map (without p) := by
  induction fields with
  | nil => simp [withoutFields]
  | cons field fields ih =>
    rw [List.map_cons, List.nodup_cons] at hfields
    rw [withoutFields, lookup_cons_if]
    by_cases hk : k = field.1
    · subst hk
      rw [if_pos rfl]
      by_cases hp : p field.2 = true
      · -- the key stands nowhere else
        have hnone : fields.lookup field.1 = none := by
          rw [← Option.not_isSome_iff_eq_none, isSome_lookup]
          exact hfields.1
        rw [if_pos hp, ih hfields.2, hnone]
        simp [hp]
      · rw [if_neg hp, lookup_cons_if, if_pos rfl]
        simp [hp]
    · rw [if_neg hk]
      by_cases hp : p field.2 = true
      · rw [if_pos hp, ih hfields.2]
      · rw [if_neg hp, lookup_cons_if, if_neg hk, ih hfields.2]

end Lib.Json
