import Mathlib

/-!
# Fields of a map

A map is a list of its fields, in whatever order it is visited. A key is written in place, or behind the others where it
is new.
-/

namespace Lib.Fields

variable {κ α β : Type*} [DecidableEq κ]

def put (key : κ) (a : α) : List (κ × α) → List (κ × α)
  | [] => [(key, a)]
  | f :: fields => if f.1 = key then (key, a) :: fields else f :: put key a fields

variable {key : κ} {a old : α} {f : κ × α} {fields : List (κ × α)}

theorem mem_put (h : f ∈ put key a fields) : f = (key, a) ∨ f ∈ fields := by
  induction fields with
  | nil => exact Or.inl (List.mem_singleton.mp h)
  | cons g fields ih =>
    unfold put at h
    split at h
    · exact (List.mem_cons.mp h).imp_right (List.mem_cons_of_mem g)
    · rcases List.mem_cons.mp h with rfl | h
      · exact Or.inr List.mem_cons_self
      · exact (ih h).imp_right (List.mem_cons_of_mem g)

theorem map_put (g : α → β) :
    (put key a fields).map (fun f => (f.1, g f.2)) = put key (g a) (fields.map fun f => (f.1, g f.2)) := by
  induction fields with
  | nil => rfl
  | cons f fields ih =>
    unfold put
    split
    · next heq =>
      rw [List.map_cons, List.map_cons]
      simp [heq]
    · next hne =>
      rw [List.map_cons, List.map_cons, ih]
      simp [hne]

variable [BEq κ] [LawfulBEq κ]

theorem lookup_cons : List.lookup key (f :: fields) = if f.1 = key then some f.2 else fields.lookup key := by
  obtain ⟨k, b⟩ := f
  rw [List.lookup_cons]
  by_cases h : k = key
  · simp [h]
  · rw [if_neg h, show (key == k) = false by simpa using Ne.symm h]

theorem put_of_lookup_none (h : fields.lookup key = none) : put key a fields = fields ++ [(key, a)] := by
  induction fields with
  | nil => rfl
  | cons f fields ih =>
    rw [lookup_cons] at h
    split at h
    · cases h
    · next hne => rw [put, if_neg hne, ih h, List.cons_append]

theorem length_put (h : fields.lookup key = some old) : (put key a fields).length = fields.length := by
  induction fields with
  | nil => cases h
  | cons f fields ih =>
    rw [lookup_cons] at h
    unfold put
    split at h
    · next heq => rw [if_pos heq, List.length_cons, List.length_cons]
    · next hne => rw [if_neg hne, List.length_cons, List.length_cons, ih h]

theorem sum_map_put (g : κ × α → ℤ) (h : fields.lookup key = some old) :
    ((put key a fields).map g).sum = (fields.map g).sum - g (key, old) + g (key, a) := by
  induction fields with
  | nil => cases h
  | cons f fields ih =>
    rw [lookup_cons] at h
    unfold put
    split at h
    · next heq =>
      obtain rfl : f = (key, old) := Prod.ext heq (Option.some.inj h)
      rw [if_pos rfl, List.map_cons, List.map_cons, List.sum_cons, List.sum_cons]
      omega
    · next hne =>
      rw [if_neg hne, List.map_cons, List.map_cons, List.sum_cons, List.sum_cons, ih h]
      omega

theorem lookup_map (g : α → β) : (fields.map fun f => (f.1, g f.2)).lookup key = (fields.lookup key).map g := by
  induction fields with
  | nil => rfl
  | cons f fields ih =>
    rw [List.map_cons, lookup_cons, lookup_cons, ih]
    split <;> rfl

theorem mem_of_lookup (h : fields.lookup key = some a) : (key, a) ∈ fields := by
  induction fields with
  | nil => cases h
  | cons f fields ih =>
    rw [lookup_cons] at h
    split at h
    · next heq => exact List.mem_cons.mpr (Or.inl (Prod.ext heq.symm (Option.some.inj h).symm))
    · exact List.mem_cons_of_mem f (ih h)

end Lib.Fields
