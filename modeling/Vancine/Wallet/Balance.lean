import Mathlib.Tactic.Common
import Mathlib.Algebra.Order.Group.Int

/-!
# A cached balance with reservations in flight

What the wallet is for, without the machinery: a balance held by the database and its write queue, a
cached copy that admits reservations, amounts taken from the copy but not yet from the balance, and
credits added to the balance but not yet to the copy.

The copy may admit a reservation as long as it stays within what is left of the balance:
`cached + unsynced ≤ held - inflight`. Every move keeps that, except filling an empty copy with a
value and taking an amount from the balance past the copy. These two carry it as a premise, and
under it no more is ever reserved than was granted (`Balance.Sound.no_overspend`).
-/

namespace Vancine.Wallet

/-- `held` is the row and its queued changes together; `granted` is the first balance and all credits
since; `reserved` is what was reserved for good. -/
@[ext]
structure Balance where
  held : ℤ
  cached : Option ℤ
  inflight : ℤ
  unsynced : ℤ
  granted : ℤ
  reserved : ℤ

/-- What is left of the balance once the reservations in flight arrive. -/
def Balance.available (b : Balance) : ℤ := b.held - b.inflight

/-- The moves of the wallet. -/
inductive Move (b : Balance) : Balance → Prop
  | keep : Move b b
  | drop : Move b { b with cached := none }
  | fill (v : ℤ) (h : b.cached = none) (hle : v + b.unsynced ≤ b.available) :
      Move b { b with cached := some v }
  | take (q n : ℤ) (h : b.cached = some q) (hn : 0 ≤ n) (hle : n ≤ q) :
      Move b { b with cached := some (q - n), inflight := b.inflight + n }
  | confirm (n : ℤ) (hn : 0 ≤ n) (hle : n ≤ b.inflight) :
      Move b { b with
        held := b.held - n, inflight := b.inflight - n, reserved := b.reserved + n }
  | release (n : ℤ) (hn : 0 ≤ n) (hle : n ≤ b.inflight) :
      Move b { b with cached := b.cached.map (· + n), inflight := b.inflight - n }
  | direct (n : ℤ) (hn : 0 ≤ n) (hle : n ≤ b.available)
      (hcached : ∀ q ∈ b.cached, q + b.unsynced + n ≤ b.available) :
      Move b { b with held := b.held - n, reserved := b.reserved + n }
  | credit (c : ℤ) (hc : 0 ≤ c) :
      Move b { b with
        held := b.held + c, unsynced := b.unsynced + c, granted := b.granted + c }
  | sync (c : ℤ) (hc : 0 ≤ c) (hle : c ≤ b.unsynced) :
      Move b { b with cached := b.cached.map (· + c), unsynced := b.unsynced - c }

/-- The copy stays within what is left, and what is left is not negative once anything was taken. -/
structure Balance.Sound (b : Balance) : Prop where
  cached : ∀ q ∈ b.cached, q + b.unsynced ≤ b.available
  taken : 0 < b.reserved + b.inflight → 0 ≤ b.available
  held : b.held = b.granted - b.reserved
  inflight : 0 ≤ b.inflight
  unsynced : 0 ≤ b.unsynced
  reserved : 0 ≤ b.reserved

theorem mem_map_add {o : Option ℤ} {c x : ℤ} (h : x ∈ o.map (· + c)) : x - c ∈ o := by
  obtain ⟨q, hq, rfl⟩ := Option.map_eq_some_iff.mp h
  rw [Int.add_sub_cancel]; exact hq

/-- **One move.** -/
theorem Move.sound {b b' : Balance} (h : Move b b') (hs : b.Sound) : b'.Sound := by
  obtain ⟨hc, ht, hh, hi, hu, hr⟩ := hs
  unfold Balance.available at hc ht
  cases h with
  | keep => exact ⟨hc, ht, hh, hi, hu, hr⟩
  | drop => exact ⟨by simp, ht, hh, hi, hu, hr⟩
  | fill v hnone hle =>
    refine ⟨?_, ht, hh, hi, hu, hr⟩
    intro q hq
    obtain rfl : v = q := by simpa using hq
    exact hle
  | take q n hq hn hle =>
    have hq' := hc q hq
    refine ⟨?_, ?_, hh, by dsimp only; omega, hu, hr⟩
    · intro x hx
      obtain rfl : q - n = x := by simpa using hx
      unfold Balance.available
      dsimp only
      omega
    · intro _
      unfold Balance.available
      dsimp only
      omega
  | confirm n hn hle =>
    refine ⟨?_, ?_, by dsimp only; omega, by dsimp only; omega, hu, by dsimp only; omega⟩
    · intro q hq
      have := hc q hq
      unfold Balance.available
      dsimp only
      omega
    · intro h
      unfold Balance.available
      dsimp only at h ⊢
      omega
  | release n hn hle =>
    refine ⟨?_, ?_, hh, by dsimp only; omega, hu, hr⟩
    · intro q hq
      have := hc _ (mem_map_add hq)
      unfold Balance.available
      dsimp only
      omega
    · intro h
      unfold Balance.available
      dsimp only at h ⊢
      omega
  | direct n hn hle hcached =>
    unfold Balance.available at hle hcached
    refine ⟨?_, ?_, by dsimp only; omega, hi, hu, by dsimp only; omega⟩
    · intro q hq
      have := hcached q hq
      unfold Balance.available
      dsimp only
      omega
    · intro _
      unfold Balance.available
      dsimp only
      omega
  | credit c hc0 =>
    refine ⟨?_, ?_, by dsimp only; omega, hi, by dsimp only; omega, hr⟩
    · intro q hq
      have := hc q hq
      unfold Balance.available
      dsimp only
      omega
    · intro h
      unfold Balance.available
      dsimp only at h ⊢
      omega
  | sync c hc0 hle =>
    refine ⟨?_, ht, hh, hi, by dsimp only; omega, hr⟩
    intro q hq
    have := hc _ (mem_map_add hq)
    unfold Balance.available
    dsimp only
    omega

/-- **No overspend.** Unless nothing was reserved at all, no more was reserved than granted. -/
theorem Balance.Sound.no_overspend {b : Balance} (hs : b.Sound) : b.reserved = 0 ∨ b.reserved ≤ b.granted := by
  obtain ⟨-, ht, hh, hi, -, hr⟩ := hs
  unfold Balance.available at ht
  omega

end Vancine.Wallet
