import Mathlib.Data.Nat.Log
import Mathlib.Tactic.Linarith

/-!
# Integers in a float64

A float64 has 53 significant bits: an integer of more bits is rounded to a multiple of a power of two, ties to even.
-/

namespace Lib

/-- The bits of an integer that do not fit. -/
def lostBits (n : ℤ) : ℕ := Nat.log2 n.natAbs - 52

/-- The float64 that an integer becomes. -/
def float64 (n : ℤ) : ℤ :=
  let unit : ℤ := 2 ^ lostBits n
  let r := n % unit
  if 2 * r < unit ∨ 2 * r = unit ∧ n / unit % 2 = 0 then n - r else n - r + unit

variable {n : ℤ}

theorem lostBits_eq_zero (h : n.natAbs < 2 ^ 53) : lostBits n = 0 := by
  unfold lostBits
  rcases Nat.eq_zero_or_pos n.natAbs with hz | hpos
  · rw [hz]
    rfl
  · have := (Nat.log2_lt (by omega)).mpr h
    omega

theorem float64_eq_self (h : n.natAbs ≤ 2 ^ 53) : float64 n = n := by
  rcases h.lt_or_eq with hlt | heq
  · simp [float64, lostBits_eq_zero hlt]
  · rcases Int.natAbs_eq n with hn | hn <;> rw [hn, heq] <;> decide

/-- What does not fit into a negative number is less than the number. -/
theorem two_pow_lostBits_le (h : lostBits n ≠ 0) : (2 : ℤ) ^ lostBits n * 2 ^ 52 ≤ n.natAbs := by
  have hne : n.natAbs ≠ 0 := by
    intro hz
    exact h (by rw [lostBits, hz]; rfl)
  have hlog : 2 ^ Nat.log2 n.natAbs ≤ n.natAbs := Nat.log2_self_le hne
  have hsum : lostBits n + 52 = Nat.log2 n.natAbs := by unfold lostBits at h ⊢; omega
  rw [← pow_add, hsum]
  exact_mod_cast hlog

theorem float64_neg (h : n < 0) : float64 n < 0 := by
  have hunit : (0 : ℤ) < 2 ^ lostBits n := by positivity
  have hr := Int.emod_nonneg n hunit.ne'
  have hlt := Int.emod_lt_of_pos n hunit
  unfold float64
  dsimp only
  split
  · omega
  · next hup =>
    rcases Nat.eq_zero_or_pos (lostBits n) with hz | hpos
    · rw [hz] at hup
      simp at hup
    · have := two_pow_lostBits_le hpos.ne'
      omega

theorem float64_nonneg (h : 0 ≤ n) : 0 ≤ float64 n := by
  have hunit : (0 : ℤ) < 2 ^ lostBits n := by positivity
  have hle : n % 2 ^ lostBits n ≤ n := by
    have hdiv := mul_nonneg hunit.le (Int.ediv_nonneg h hunit.le)
    linarith [Int.emod_add_mul_ediv n (2 ^ lostBits n)]
  unfold float64
  dsimp only
  split <;> omega

/-- A float that is the exact value, or is negative like it. -/
def Follows (x exact : ℤ) : Prop := x = exact ∨ x < 0 ∧ exact < 0

theorem Follows.sub {x exact k : ℤ} (h : Follows x exact) (hle : exact ≤ 2 ^ 53) (hk : 0 ≤ k) (hk' : k ≤ 2 ^ 53) :
    Follows (float64 (x - k)) (exact - k) := by
  rcases h with rfl | ⟨hx, he⟩
  · by_cases hneg : x < 0
    · exact Or.inr ⟨float64_neg (by omega), by omega⟩
    · exact Or.inl (float64_eq_self (by omega))
  · exact Or.inr ⟨float64_neg (by omega), by omega⟩

theorem Follows.clamp {x exact : ℤ} (h : Follows x exact) : (if x < 0 then 0 else x) = max exact 0 := by
  rcases h with rfl | ⟨hx, he⟩
  · split <;> omega
  · rw [if_pos hx]
    omega

end Lib
