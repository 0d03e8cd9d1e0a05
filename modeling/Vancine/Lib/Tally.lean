import Mathlib.Tactic.Common
import Mathlib.Algebra.Order.Group.Int

/-!
# Tallies

A tally keeps one integer per key, as an association list with one entry a key. `add` changes the
entry of one key, `get` reads it (zero when there is none) and `total` is the sum over all keys.
-/

namespace Lib

/-- One integer per key. -/
abbrev Tally (κ : Type*) := List (κ × ℤ)

namespace Tally

variable {κ : Type*} [DecidableEq κ]

/-- The entry of a key, zero when there is none. -/
def get (r : κ) : Tally κ → ℤ
  | [] => 0
  | (r', n) :: l => if r' = r then n else get r l

/-- Add `a` to the entry of `r`. -/
def add (r : κ) (a : ℤ) : Tally κ → Tally κ
  | [] => [(r, a)]
  | (r', n) :: l => if r' = r then (r', n + a) :: l else (r', n) :: add r a l

/-- The sum of all entries. -/
def total : Tally κ → ℤ
  | [] => 0
  | (_, n) :: l => n + total l

/-- No entry is negative. -/
def Nonneg (t : Tally κ) : Prop := ∀ e ∈ t, 0 ≤ e.2

omit [DecidableEq κ] in
@[simp] theorem total_nil : total ([] : Tally κ) = 0 := rfl

@[simp] theorem get_nil (r : κ) : get r ([] : Tally κ) = 0 := rfl

omit [DecidableEq κ] in
theorem nonneg_nil : Nonneg ([] : Tally κ) := fun _ h => by simp at h

@[simp] theorem total_add (r : κ) (a : ℤ) (t : Tally κ) : total (add r a t) = total t + a := by
  induction t with
  | nil => simp [add, total]
  | cons e l ih =>
    obtain ⟨r', n⟩ := e
    unfold add
    by_cases h : r' = r
    · rw [if_pos h]; simp only [total]; omega
    · rw [if_neg h]; simp only [total, ih]; omega

variable {t : Tally κ}

theorem get_nonneg (h : Nonneg t) (r : κ) : 0 ≤ get r t := by
  induction t with
  | nil => simp
  | cons e l ih =>
    unfold get
    by_cases hr : e.1 = r
    · rw [if_pos hr]; exact h e (by simp)
    · rw [if_neg hr]; exact ih fun x hx => h x (by simp [hx])

omit [DecidableEq κ] in
theorem total_nonneg (h : Nonneg t) : 0 ≤ total t := by
  induction t with
  | nil => simp
  | cons e l ih =>
    have h1 := h e (by simp)
    have h2 := ih fun x hx => h x (by simp [hx])
    simp only [total]; omega

/-- One entry of a tally without negative entries is at most the total. -/
theorem get_le_total (h : Nonneg t) (r : κ) : get r t ≤ total t := by
  induction t with
  | nil => simp
  | cons e l ih =>
    have h1 := h e (by simp)
    have hl : Nonneg l := fun x hx => h x (by simp [hx])
    have h2 := ih hl
    have h3 := total_nonneg hl
    unfold get total
    by_cases hr : e.1 = r
    · rw [if_pos hr]; omega
    · rw [if_neg hr]; omega

/-- Adding to an entry keeps the tally non-negative when that entry stays so. -/
theorem nonneg_add (h : Nonneg t) {r : κ} {a : ℤ} (ha : 0 ≤ get r t + a) : Nonneg (add r a t) := by
  induction t with
  | nil =>
    intro e he
    simp only [add, List.mem_singleton] at he
    subst he
    simpa [get] using ha
  | cons e l ih =>
    obtain ⟨r', n⟩ := e
    have hl : Nonneg l := fun x hx => h x (by simp [hx])
    unfold add
    unfold get at ha
    by_cases hr : r' = r
    · rw [if_pos hr] at ha ⊢
      intro x hx
      rcases List.mem_cons.mp hx with rfl | hx
      · exact ha
      · exact hl x hx
    · rw [if_neg hr] at ha ⊢
      intro x hx
      rcases List.mem_cons.mp hx with rfl | hx
      · exact h _ (by simp)
      · exact ih hl ha x hx

end Tally

end Lib
