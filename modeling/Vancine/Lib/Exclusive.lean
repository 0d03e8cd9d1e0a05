import Mathlib.Data.List.Basic

/-!
# Exclusive holders

A list of parties, each of which may hold a key. `Exclusive f l` says that no key has two holders, which
is what a table of row locks guarantees.
-/

namespace Lib

variable {α κ : Type*}

/-- No key is held by two parties. -/
def Exclusive (f : α → Option κ) (l : List α) : Prop :=
  ∀ (i j : ℕ) (x y : α) (key : κ), l[i]? = some x → l[j]? = some y → f x = some key → f y = some key → i = j

variable {f : α → Option κ} {l : List α}

theorem exclusive_nil : Exclusive f [] := by
  intro i j x y key hx
  simp at hx

/-- A newcomer that holds nothing. -/
theorem Exclusive.append (h : Exclusive f l) {z : α} (hz : f z = none) : Exclusive f (l ++ [z]) := by
  have hold : ∀ (i : ℕ) (x : α) (key : κ), (l ++ [z])[i]? = some x → f x = some key → l[i]? = some x := by
    intro i x key hx hkey
    rcases Nat.lt_or_ge i l.length with hi | hi
    · rwa [List.getElem?_append_left hi] at hx
    · rw [List.getElem?_append_right hi] at hx
      obtain rfl : z = x := List.mem_singleton.mp (List.mem_of_getElem? hx) |>.symm
      rw [hz] at hkey
      cases hkey
  intro i j x y key hx hy hkx hky
  exact h i j x y key (hold i x key hx hkx) (hold j y key hy hky) hkx hky

/-- A party after one of them changed is the changed one or an old one. -/
theorem getElem?_set_cases {i j : ℕ} {x y z : α} (hx : l[i]? = some x)
    (hz : (l.set i y)[j]? = some z) : (j = i ∧ z = y) ∨ (j ≠ i ∧ l[j]? = some z) := by
  by_cases hj : i = j
  · subst hj
    have hlt : i < l.length := (List.getElem?_eq_some_iff.mp hx).1
    rw [List.getElem?_set_self hlt] at hz
    exact .inl ⟨rfl, (Option.some.inj hz).symm⟩
  · rw [List.getElem?_set_ne hj] at hz
    exact .inr ⟨Ne.symm hj, hz⟩

/-- One party changes what it holds, to a key that was its own or free. -/
theorem Exclusive.set (h : Exclusive f l) {i : ℕ} {x y : α} (hx : l[i]? = some x)
    (hy : ∀ key, f y = some key → f x = some key ∨ ∀ z ∈ l, f z ≠ some key) : Exclusive f (l.set i y) := by
  -- a holder other than the changed party cannot hold a key of the new party
  have hother : ∀ (j : ℕ) (z : α) (key : κ), j ≠ i → l[j]? = some z → f z = some key → f y ≠ some key := by
    intro j z key hj hz hkz hky
    rcases hy key hky with hkx | hfree
    · exact hj (h j i z x key hz hx hkz hkx)
    · exact hfree z (List.mem_of_getElem? hz) hkz
  intro j k a b key ha hb hka hkb
  rcases getElem?_set_cases hx ha with ⟨rfl, rfl⟩ | ⟨hj, ha'⟩ <;>
    rcases getElem?_set_cases hx hb with ⟨rfl, rfl⟩ | ⟨hk, hb'⟩
  · rfl
  · exact absurd hka (hother k b key hk hb' hkb)
  · exact absurd hkb (hother j a key hj ha' hka)
  · exact h j k a b key ha' hb' hka hkb

end Lib
