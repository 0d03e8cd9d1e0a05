import Mathlib.Data.List.Basic

/-!
# Row locks

The locks of a database: which row is held by which transaction. A transaction locks rows that nobody else holds, and
gives back all that it holds when it ends. No row then has two holders.
-/

namespace Lib

/-- Rows with their holders. -/
abbrev RowLocks (κ : Type) := List (κ × ℕ)

namespace RowLocks

variable {κ : Type} {locks : RowLocks κ} {row : κ} {rows : List κ} {i j : ℕ}

/-- The transaction holds the row. -/
def Held (locks : RowLocks κ) (i : ℕ) (row : κ) : Prop := (row, i) ∈ locks

def heldByOther [DecidableEq κ] (locks : RowLocks κ) (i : ℕ) (row : κ) : Bool :=
  locks.any fun lock => decide (lock.1 = row) && decide (lock.2 ≠ i)

/-- Somebody holds the row. -/
def isHeld [DecidableEq κ] (locks : RowLocks κ) (row : κ) : Bool := locks.any fun lock => decide (lock.1 = row)

def lock (locks : RowLocks κ) (i : ℕ) (rows : List κ) : RowLocks κ := rows.map (fun row => (row, i)) ++ locks

/-- The transaction ends. -/
def release (locks : RowLocks κ) (i : ℕ) : RowLocks κ := locks.filter (·.2 ≠ i)

/-- No row has two holders. -/
def Exclusive (locks : RowLocks κ) : Prop := ∀ row i j, locks.Held i row → locks.Held j row → i = j

theorem exclusive_nil : Exclusive ([] : RowLocks κ) := fun _ _ _ h => absurd h List.not_mem_nil

theorem held_lock : (locks.lock i rows).Held j row ↔ (row ∈ rows ∧ j = i) ∨ locks.Held j row := by
  rw [Held, lock, List.mem_append]
  refine or_congr_left ⟨fun h => ?_, ?_⟩
  · obtain ⟨row', hrow', e⟩ := List.mem_map.mp h
    obtain ⟨rfl, rfl⟩ := Prod.mk.inj e
    exact ⟨hrow', rfl⟩
  · rintro ⟨hrow, rfl⟩
    exact List.mem_map.mpr ⟨row, hrow, rfl⟩

theorem Held.lock (h : locks.Held j row) : (locks.lock i rows).Held j row := held_lock.mpr (.inr h)

theorem held_lock_self (h : row ∈ rows) : (locks.lock i rows).Held i row := held_lock.mpr (.inl ⟨h, rfl⟩)

theorem held_release : (locks.release i).Held j row ↔ locks.Held j row ∧ j ≠ i := by
  rw [Held, release, List.mem_filter, decide_eq_true_eq]
  rfl

theorem Exclusive.release (h : locks.Exclusive) (i : ℕ) : (locks.release i).Exclusive := fun row j k hj hk =>
  h row j k (held_release.mp hj).1 (held_release.mp hk).1

variable [DecidableEq κ]

theorem eq_of_not_heldByOther (h : ¬locks.heldByOther i row = true) (hj : locks.Held j row) : j = i := by
  by_contra hne
  exact h (List.any_eq_true.mpr ⟨(row, j), hj, by simpa using hne⟩)

/-- Rows that nobody else holds are locked. -/
theorem Exclusive.lock (h : locks.Exclusive) (hfree : ∀ row ∈ rows, ¬locks.heldByOther i row = true) :
    (locks.lock i rows).Exclusive := by
  intro row j k hj hk
  rcases held_lock.mp hj with ⟨hmem, rfl⟩ | hj'
  · rcases held_lock.mp hk with ⟨-, rfl⟩ | hk'
    · rfl
    · exact (eq_of_not_heldByOther (hfree row hmem) hk').symm
  · rcases held_lock.mp hk with ⟨hmem, rfl⟩ | hk'
    · exact eq_of_not_heldByOther (hfree row hmem) hj'
    · exact h row j k hj' hk'

end RowLocks

end Lib
