import Mathlib.Algebra.Order.BigOperators.Group.List
import Mathlib.Algebra.Order.Group.Int
import Mathlib.Tactic.Abel

/-!
# Sums over a list of slots

A system keeps a list with one slot per process or per pending item. A step writes one slot (`set`),
appends a slot, or takes one out (`eraseIdx`). These lemmas say what that does to a sum over the
list.
-/

namespace Lib

variable {α : Type*} {f : α → ℤ} {l : List α} {i : ℕ} {a : α}

theorem sum_map_set (h : l[i]? = some a) (b : α) : ((l.set i b).map f).sum = (l.map f).sum - f a + f b := by
  induction l generalizing i with
  | nil => simp at h
  | cons x l ih =>
    cases i with
    | zero =>
      obtain rfl : x = a := by simpa using h
      simp only [List.set_cons_zero, List.map_cons, List.sum_cons]
      omega
    | succ i =>
      have hi : l[i]? = some a := by simpa using h
      simp only [List.set_cons_succ, List.map_cons, List.sum_cons, ih hi]
      omega

theorem sum_map_eraseIdx (h : l[i]? = some a) : ((l.eraseIdx i).map f).sum = (l.map f).sum - f a := by
  induction l generalizing i with
  | nil => simp at h
  | cons x l ih =>
    cases i with
    | zero =>
      obtain rfl : x = a := by simpa using h
      simp
    | succ i =>
      have hi : l[i]? = some a := by simpa using h
      simp only [List.eraseIdx_cons_succ, List.map_cons, List.sum_cons, ih hi]
      omega

/-- The same where nothing can be taken away. -/
theorem sum_map_set_add {M : Type*} [AddCommMonoid M] {g : α → M} (h : l[i]? = some a) (b : α) :
    ((l.set i b).map g).sum + g a = (l.map g).sum + g b := by
  induction l generalizing i with
  | nil => simp at h
  | cons x l ih =>
    cases i with
    | zero =>
      obtain rfl : x = a := by simpa using h
      simp only [List.set_cons_zero, List.map_cons, List.sum_cons]
      abel
    | succ i =>
      have hi : l[i]? = some a := by simpa using h
      simp only [List.set_cons_succ, List.map_cons, List.sum_cons]
      rw [add_assoc, ih hi, add_assoc]

theorem sum_eraseIdx {l : List ℤ} {a : ℤ} (h : l[i]? = some a) : (l.eraseIdx i).sum = l.sum - a := by
  have := sum_map_eraseIdx (f := id) h
  simpa using this

/-- One slot of a sum without negative terms is at most the sum. -/
theorem le_sum_map (hf : ∀ x ∈ l, 0 ≤ f x) (ha : a ∈ l) : f a ≤ (l.map f).sum := by
  refine List.single_le_sum ?_ _ (List.mem_map_of_mem ha)
  intro x hx
  obtain ⟨y, hy, rfl⟩ := List.mem_map.mp hx
  exact hf y hy

theorem sum_map_nonneg (hf : ∀ x ∈ l, 0 ≤ f x) : 0 ≤ (l.map f).sum := by
  apply List.sum_nonneg
  intro x hx
  obtain ⟨y, hy, rfl⟩ := List.mem_map.mp hx
  exact hf y hy

end Lib
