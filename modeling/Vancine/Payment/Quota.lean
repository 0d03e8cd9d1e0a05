import Vancine.Billing.Account

/-!
# Money to quota

The conversions of `common/quota_math.go` that top-ups use. Settlements multiply decimals and round;
the fallback for old orders multiplies floats and truncates.

A float64 column or setting is held as the shortest decimal that reads back as the same float. That is
what `decimal.NewFromFloat` makes of it, and the nearest binary64 value of that decimal is the float
itself, so both conversions start from the same datum.
-/

namespace Vancine.Payment

open Vancine.Billing (maxWalletQuota)

/-- A `decimal.Decimal`, `coef / 10 ^ scale`. -/
structure Decimal where
  coef : ℤ
  scale : ℕ
  deriving DecidableEq

namespace Decimal

def ofInt (n : ℤ) : Decimal := ⟨n, 0⟩

def mul (a b : Decimal) : Decimal := ⟨a.coef * b.coef, a.scale + b.scale⟩

/-- Half away from zero. A value with no more than `places` digits is unchanged. -/
def round (d : Decimal) (places : ℕ) : Decimal :=
  if d.scale ≤ places then d
  else
    let p := 10 ^ (d.scale - places)
    ⟨d.coef.sign * ((d.coef.natAbs + p / 2) / p : ℕ), places⟩

/-- Equality of values, not of representations. -/
def equal (a b : Decimal) : Bool := a.coef * 10 ^ b.scale == b.coef * 10 ^ a.scale

end Decimal

/-- `WalletQuotaFromDecimalStrict`. Integers up to `maxWalletQuota` are floats and larger ones round to
no float in the range, so the range check may be made on the integer. -/
def walletQuotaFromDecimalStrict (d : Decimal) : Option ℤ :=
  let r := d.round 0
  let q := r.coef
  if q ≤ maxWalletQuota ∧ -maxWalletQuota ≤ q then some q else none

/-! ## Floats -/

/-- A nonnegative binary64 value, `mant * 2 ^ exp`. -/
structure Binary64 where
  mant : ℕ
  exp : ℤ

/-- Numerator and denominator of `n / d * 2 ^ e`. -/
def scaled (n d : ℕ) (e : ℤ) : ℕ × ℕ := (n * 2 ^ e.toNat, d * 2 ^ (-e).toNat)

/-- `n / d` rounded to an integer, half to even. -/
def roundHalfEven (n d : ℕ) : ℕ :=
  let q := n / d
  let twice := 2 * (n % d)
  if twice < d then q else if d < twice then q + 1 else q + q % 2

/-- The binary64 value nearest to `n / d`: 53 bits of mantissa, fewer below the normal range. A value
past the largest float keeps its magnitude, which every caller here rejects. -/
def Binary64.nearest (n d : ℕ) : Binary64 :=
  let k : ℤ := (Nat.log2 n : ℤ) - Nat.log2 d
  let (a, b) := scaled n d (-k)
  let e := max (-1074) ((if b ≤ a then k else k - 1) - 52)
  let (a, b) := scaled n d (-e)
  ⟨roundHalfEven a b, e⟩

def Binary64.mul (x y : Binary64) : Binary64 :=
  let (a, b) := scaled (x.mant * y.mant) 1 (x.exp + y.exp)
  Binary64.nearest a b

/-- The float a decimal was the shortest form of, without its sign. -/
def Decimal.abs64 (d : Decimal) : Binary64 := Binary64.nearest d.coef.natAbs (10 ^ d.scale)

/-- `WalletQuotaFromFloatStrict` of the float product of two decimals: truncated toward zero, and
rejected outside the wallet domain. -/
def walletQuotaFromFloatStrict (a b : Decimal) : Option ℤ :=
  let p := a.abs64.mul b.abs64
  let (n, d) := scaled p.mant 1 p.exp
  if (n : ℤ) ≤ maxWalletQuota * d then
    some (a.coef.sign * b.coef.sign * (n / d : ℕ))
  else none

/-- The truncated float product and the rounded decimal product of the same two numbers differ:
1.15 × 100 is 114.99999999999999 in binary64. -/
example : walletQuotaFromFloatStrict ⟨115, 2⟩ ⟨100, 0⟩ = some 114 ∧
    walletQuotaFromDecimalStrict (Decimal.mul ⟨115, 2⟩ ⟨100, 0⟩) = some 115 := by
  decide

end Vancine.Payment
