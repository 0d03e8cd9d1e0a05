import Mathlib.Data.List.DropRight
import Mathlib.Data.List.Infix

/-!
# Scanning lists from the left

The steps that a regular expression without backtracking takes on a list: a fixed beginning
(`List.dropPrefix?`), a longest run of one class (`run1`), and white space at both ends (`trimBy`). Each
step has a rule for the list it accepts and one for what an accepted list looks like.
-/

namespace Lib

variable {α : Type*}

/-! ## Fixed beginnings -/

section Prefix

variable [DecidableEq α] {p l s t : List α}

@[simp] theorem dropPrefix?_append (p t : List α) : (p ++ t).dropPrefix? p = some t :=
  List.dropPrefix?_eq_some_iff.mpr ⟨p, rfl, beq_self_eq_true p⟩

theorem eq_of_dropPrefix? (h : l.dropPrefix? p = some s) : l = p ++ s := by
  obtain ⟨p', hl, hp⟩ := List.dropPrefix?_eq_some_iff.mp h
  rw [hl, eq_of_beq hp]

/-- The first place of `part`. -/
def indexOf (part : List α) : List α → Option ℕ
  | [] => if part = [] then some 0 else none
  | a :: t => if part <+: a :: t then some 0 else (indexOf part t).map (· + 1)

/-- A part that is there is found there or before. -/
theorem indexOf_append (pre part post : List α) :
    ∃ k, indexOf part (pre ++ part ++ post) = some k ∧ k ≤ pre.length := by
  induction pre with
  | nil =>
    refine ⟨0, ?_, Nat.le_refl 0⟩
    rw [List.nil_append]
    cases h : part ++ post with
    | nil => exact if_pos (List.append_eq_nil_iff.mp h).1
    | cons a t => exact if_pos (h ▸ List.prefix_append part post)
  | cons a pre ih =>
    obtain ⟨k, hk, hle⟩ := ih
    by_cases hpre : part <+: a :: (pre ++ part ++ post)
    · exact ⟨0, if_pos hpre, Nat.zero_le _⟩
    · refine ⟨k + 1, ?_, Nat.succ_le_succ hle⟩
      have hstep : indexOf part (a :: (pre ++ part ++ post)) =
          (indexOf part (pre ++ part ++ post)).map (· + 1) := if_neg hpre
      rw [List.cons_append, List.cons_append, hstep, hk]
      rfl

end Prefix

/-! ## Runs of a class -/

section Runs

variable {p : α → Bool} {l w t : List α}

/-- The longest run of a class, if there is one, and what follows. -/
def run1 (p : α → Bool) (l : List α) : Option (List α × List α) :=
  if l.takeWhile p = [] then none else some (l.takeWhile p, l.dropWhile p)

/-- The list does not go on with the class. -/
def Stops (p : α → Bool) (l : List α) : Prop := ∀ a ∈ l.head?, p a = false

@[simp] theorem stops_nil : Stops p [] := fun _ h => nomatch h

@[simp] theorem stops_cons {a : α} : Stops p (a :: l) ↔ p a = false :=
  ⟨fun h => h a rfl, fun h b hb => by cases hb; exact h⟩

theorem takeWhile_of_stops (h : Stops p l) : l.takeWhile p = [] := by
  cases l with
  | nil => rfl
  | cons a l => rw [List.takeWhile_cons, stops_cons.mp h]; rfl

theorem dropWhile_of_stops (h : Stops p l) : l.dropWhile p = l := by
  cases l with
  | nil => rfl
  | cons a l => rw [List.dropWhile_cons, stops_cons.mp h]; rfl

theorem takeWhile_append_stops (l : List α) (ht : Stops p t) : (l ++ t).takeWhile p = l.takeWhile p := by
  induction l with
  | nil => exact takeWhile_of_stops ht
  | cons a l ih => rw [List.cons_append, List.takeWhile_cons, List.takeWhile_cons, ih]

theorem dropWhile_append_stops (l : List α) (ht : Stops p t) : (l ++ t).dropWhile p = l.dropWhile p ++ t := by
  induction l with
  | nil => exact dropWhile_of_stops ht
  | cons a l ih =>
    rw [List.cons_append, List.dropWhile_cons, List.dropWhile_cons, ih]
    split_ifs <;> rfl

theorem stops_dropWhile (p : α → Bool) (l : List α) : Stops p (l.dropWhile p) := by
  intro a ha
  have hnot := List.head?_dropWhile_not p l
  rw [Option.mem_def.mp ha] at hnot
  exact hnot

theorem run1_append (hw : ∀ a ∈ w, p a = true) (hne : w ≠ []) (ht : Stops p t) : run1 p (w ++ t) = some (w, t) := by
  have htake : (w ++ t).takeWhile p = w := by
    rw [List.takeWhile_append_of_pos hw, takeWhile_of_stops ht, List.append_nil]
  have hdrop : (w ++ t).dropWhile p = t := by
    rw [List.dropWhile_append_of_pos hw, dropWhile_of_stops ht]
  unfold run1
  rw [htake, hdrop, if_neg hne]

theorem run1_eq_some (h : run1 p l = some (w, t)) : l = w ++ t ∧ w ≠ [] ∧ (∀ a ∈ w, p a = true) ∧ Stops p t := by
  unfold run1 at h
  split_ifs at h with hne
  cases h
  exact ⟨List.takeWhile_append_dropWhile.symm, hne, fun a ha => List.mem_takeWhile_imp ha, stops_dropWhile p l⟩

end Runs

/-! ## Ends -/

section Trim

variable {p : α → Bool} {l s t : List α}

/-- The list without the class at either end. -/
def trimBy (p : α → Bool) (l : List α) : List α := (l.dropWhile p).rdropWhile p

/-- Neither end is of the class. -/
structure Tight (p : α → Bool) (l : List α) : Prop where
  left : Stops p l
  right : Stops p l.reverse

theorem trimBy_eq_self (h : Tight p l) : trimBy p l = l := by
  unfold trimBy List.rdropWhile
  rw [dropWhile_of_stops h.left, dropWhile_of_stops h.right, List.reverse_reverse]

theorem tight_trimBy (p : α → Bool) (l : List α) : Tight p (trimBy p l) where
  left := by
    intro a ha
    have hpre : trimBy p l <+: l.dropWhile p := List.rdropWhile_prefix p _
    obtain ⟨t, ht⟩ := hpre
    refine stops_dropWhile p l a ?_
    rw [← ht, Option.mem_def, List.head?_append, ha]
    rfl
  right := by
    unfold trimBy List.rdropWhile
    rw [List.reverse_reverse]
    exact stops_dropWhile p _

@[simp] theorem trimBy_trimBy (p : α → Bool) (l : List α) : trimBy p (trimBy p l) = trimBy p l :=
  trimBy_eq_self (tight_trimBy p l)

theorem trimBy_pad (hs : ∀ a ∈ s, p a = true) (hl : Tight p l) (ht : ∀ a ∈ t, p a = true) :
    trimBy p (s ++ l ++ t) = l := by
  rw [List.append_assoc]
  unfold trimBy List.rdropWhile
  rw [List.dropWhile_append_of_pos hs]
  cases l with
  | nil =>
    have hnil : ([] ++ t).dropWhile p = [] := by
      rw [List.nil_append, List.dropWhile_eq_nil_iff]
      exact ht
    rw [hnil]
    rfl
  | cons a l =>
    have hstop : Stops p ((a :: l) ++ t) := stops_cons.mpr (stops_cons.mp hl.left)
    have ht' : ∀ b ∈ t.reverse, p b = true := fun b hb => ht b (List.mem_reverse.mp hb)
    rw [dropWhile_of_stops hstop, List.reverse_append, List.dropWhile_append_of_pos ht',
      dropWhile_of_stops hl.right, List.reverse_reverse]

end Trim

/-! ## Parts between separators -/

/-- No part has a separator. -/
theorem not_mem_of_mem_splitOn [DecidableEq α] {separator : α} {l s : List α} (hs : s ∈ l.splitOn separator) :
    separator ∉ s := by
  induction l generalizing s with
  | nil =>
    rw [List.splitOn_nil, List.mem_singleton] at hs
    rw [hs]
    exact List.not_mem_nil
  | cons c l ih =>
    rw [List.splitOn_cons_eq_if_modifyHead] at hs
    split at hs
    · rcases List.mem_cons.mp hs with rfl | hs
      · exact List.not_mem_nil
      · exact ih hs
    · next hc =>
      obtain ⟨t, rest, hl⟩ := List.exists_cons_of_ne_nil (List.splitOn_ne_nil separator l)
      rw [hl, List.modifyHead_cons] at hs
      rcases List.mem_cons.mp hs with rfl | hs
      · have ht : separator ∉ t := ih (hl ▸ List.mem_cons_self)
        have hne : ¬ separator = c := fun h => hc (beq_iff_eq.mpr h.symm)
        simp [ht, hne]
      · exact ih (hl ▸ List.mem_cons_of_mem _ hs)

/-! ## Results of steps -/

/-- A chain of steps that succeeds succeeds at its first step. -/
theorem except_bind_ok {ε : Type*} {β γ : Type _} {x : Except ε β} {f : β → Except ε γ} {c : γ}
    (h : x >>= f = .ok c) : ∃ b, x = .ok b ∧ f b = .ok c := by
  cases x with
  | error e => cases h
  | ok b => exact ⟨b, rfl, h⟩

end Lib
