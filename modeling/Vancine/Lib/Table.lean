import Mathlib.Data.List.Nodup

/-!
# Tables with a key

A table is a list of rows; `k` is its key column. `find` is a lookup by key and `save` writes a
whole row back over the row with its key, as an `UPDATE … WHERE key = ?` of every column does. A
row whose key is absent is not inserted by `save`.

`updateWhere` is an `UPDATE` with any condition. A column that may be null carries a unique index as
the list of its values that are there.
-/

namespace Lib.Table

variable {α κ : Type*} [DecidableEq κ] (k : α → κ)

/-- The first row with the key. -/
def find (key : κ) (t : List α) : Option α := t.find? fun r => decide (k r = key)

/-- Write `row` over the row with its key. -/
def save (row : α) (t : List α) : List α := t.map fun r => if k r = k row then row else r

variable {k}

variable {key : κ} {t : List α}

theorem find_mem {r : α} (h : find k key t = some r) : r ∈ t :=
  List.mem_of_find?_eq_some h

theorem find_key {r : α} (h : find k key t = some r) : k r = key := by
  simpa using List.find?_some h

theorem find_of_mem (hn : (t.map k).Nodup) {r : α} (hr : r ∈ t) : find k (k r) t = some r := by
  induction t with
  | nil => simp at hr
  | cons x t ih =>
    rw [List.map_cons, List.nodup_cons] at hn
    unfold find
    rcases List.mem_cons.mp hr with rfl | hr
    · simp
    · have hne : k x ≠ k r := fun e => hn.1 (e ▸ List.mem_map_of_mem hr)
      rw [List.find?_cons_of_neg (by simpa using hne)]
      exact ih hn.2 hr

@[simp] theorem map_key_save (row : α) (t : List α) : (save k row t).map k = t.map k := by
  unfold save
  rw [List.map_map]
  refine List.map_congr_left fun r _ => ?_
  by_cases h : k r = k row <;> simp [h]

variable {row r : α}

/-- Every row of a saved table is the row written or an old row with another key. -/
theorem mem_save (h : r ∈ save k row t) : r = row ∨ (r ∈ t ∧ k r ≠ k row) := by
  obtain ⟨x, hx, rfl⟩ := List.mem_map.mp h
  by_cases hk : k x = k row
  · left; rw [if_pos hk]
  · right; rw [if_neg hk]; exact ⟨hx, hk⟩

theorem find_save_ne {row : α} (t : List α) (h : key ≠ k row) : find k key (save k row t) = find k key t := by
  induction t with
  | nil => rfl
  | cons x t ih =>
    unfold find save at ih ⊢
    by_cases hx : k x = k row
    · have hne : k x ≠ key := fun e => h (e.symm.trans hx)
      rw [List.map_cons, if_pos hx, List.find?_cons_of_neg (by simpa using h.symm),
        List.find?_cons_of_neg (by simpa using hne), ih]
    · rw [List.map_cons, if_neg hx, List.find?_cons, List.find?_cons, ih]

theorem find_save_self (h : find k key t = some r) (hk : k row = key) : find k key (save k row t) = some row := by
  induction t with
  | nil => simp [find] at h
  | cons x t ih =>
    unfold find save at *
    by_cases hx : k x = k row
    · rw [List.map_cons, if_pos hx, List.find?_cons_of_pos (by simpa using hk)]
    · have hne : k x ≠ key := fun e => hx (e.trans hk.symm)
      rw [List.find?_cons_of_neg (by simpa using hne)] at h
      rw [List.map_cons, if_neg hx, List.find?_cons_of_neg (by simpa using hne), ih h]

/-- Lookup after a write, in one equation. -/
theorem find_save (h : find k (k row) t = some r) :
    find k key (save k row t) = if key = k row then some row else find k key t := by
  by_cases hk : key = k row
  · rw [if_pos hk, hk]; exact find_save_self h rfl
  · rw [if_neg hk]; exact find_save_ne t hk

/-- A change of rows that keeps the column `k` commutes with a lookup by that column. -/
theorem find_map {f : α → α} (h : ∀ r ∈ t, k (f r) = k r) : find k key (t.map f) = (find k key t).map f := by
  induction t with
  | nil => rfl
  | cons x t ih =>
    have hx : k (f x) = k x := h x List.mem_cons_self
    have ih' := ih fun r hr => h r (List.mem_cons_of_mem _ hr)
    unfold find at ih' ⊢
    rw [List.map_cons, List.find?_cons, List.find?_cons, hx, ih']
    cases decide (k x = key) <;> rfl

/-- A lookup by another column, after a write that keeps that column. -/
theorem find_save_other {κ' : Type*} [DecidableEq κ'] {k' : α → κ'} {key : κ'} (hn : (t.map k).Nodup)
    (hr : find k' key t = some r) (hk : k row = k r) (hk' : k' row = k' r) : find k' key (save k row t) = some row := by
  have hmem : r ∈ t := find_mem hr
  unfold save
  rw [find_map, hr, Option.map_some, if_pos hk.symm]
  intro x hx
  by_cases h : k x = k row
  · rw [if_pos h, hk', List.inj_on_of_nodup_map hn hx hmem (h.trans hk)]
  · rw [if_neg h]

section UpdateWhere

/-- Rewrite the rows that match. -/
def updateWhere (p : α → Bool) (f : α → α) (t : List α) : List α :=
  t.map fun r => if p r then f r else r

variable {p : α → Bool} {f : α → α} {t : List α}

theorem mem_updateWhere {r : α} :
    r ∈ updateWhere p f t ↔ (∃ r₀ ∈ t, p r₀ = true ∧ f r₀ = r) ∨ (r ∈ t ∧ p r = false) := by
  unfold updateWhere
  rw [List.mem_map]
  constructor
  · rintro ⟨x, hx, rfl⟩
    by_cases hp : p x = true
    · left; rw [if_pos hp]; exact ⟨x, hx, hp, rfl⟩
    · right; rw [if_neg hp]; exact ⟨hx, by simpa using hp⟩
  · rintro (⟨x, hx, hp, rfl⟩ | ⟨hr, hp⟩)
    · exact ⟨x, hx, if_pos hp⟩
    · exact ⟨r, hr, if_neg (by simp [hp])⟩

/-- A column that the update does not write. -/
theorem map_updateWhere {β : Type*} {g : α → β} (h : ∀ r, g (f r) = g r) : (updateWhere p f t).map g = t.map g := by
  unfold updateWhere
  rw [List.map_map]
  refine List.map_congr_left fun r _ => ?_
  by_cases hp : p r = true <;> simp [hp, h]

/-- A column that the update keeps or sets to null loses values only. -/
theorem filterMap_updateWhere_sublist {β : Type*} {g : α → Option β} (h : ∀ r, g (f r) = g r ∨ g (f r) = none) :
    ((updateWhere p f t).filterMap g).Sublist (t.filterMap g) := by
  unfold updateWhere
  rw [List.filterMap_map]
  induction t with
  | nil => exact .slnil
  | cons x t ih =>
    rw [List.filterMap_cons, List.filterMap_cons]
    have hx : (g ∘ fun r => if p r then f r else r) x = g x ∨
        (g ∘ fun r => if p r then f r else r) x = none := by
      by_cases hp : p x = true
      · simpa [hp] using h x
      · simp [hp]
    rcases hx with hx | hx
    · rw [hx]
      cases g x with
      | none => exact ih
      | some b => exact ih.cons_cons b
    · rw [hx]
      cases g x with
      | none => exact ih
      | some b => exact ih.cons b

end UpdateWhere

/-- Rows with the same value in a unique column that may be null are one row. -/
theorem eq_of_nodup_filterMap {β : Type*} {g : α → Option β} {b : β} (hn : (t.filterMap g).Nodup) {r r' : α}
    (hr : r ∈ t) (hr' : r' ∈ t) (h : g r = some b) (h' : g r' = some b) : r = r' := by
  induction t with
  | nil => simp at hr
  | cons x t ih =>
    rcases List.mem_cons.mp hr with e | hmem
    · subst e
      rcases List.mem_cons.mp hr' with e' | hmem'
      · exact e'.symm
      · rw [List.filterMap_cons_some h, List.nodup_cons] at hn
        exact absurd (List.mem_filterMap.mpr ⟨r', hmem', h'⟩) hn.1
    · rcases List.mem_cons.mp hr' with e' | hmem'
      · subst e'
        rw [List.filterMap_cons_some h', List.nodup_cons] at hn
        exact absurd (List.mem_filterMap.mpr ⟨r, hmem, h⟩) hn.1
      · refine ih (hn.sublist ?_) hmem hmem'
        exact (List.sublist_cons_self x t).filterMap g

end Lib.Table
