import Mathlib.Data.Rat.Floor

/-!
# Numbers

Prices are computed with doubles, in the browser and on the server. The model takes any type with their
operations, and of their laws only what a result needs. `Exact` is such a type without rounding: its finite
values are the rationals.
-/

namespace Vancine.Expression

class Numbers (α : Type) where
  ofInt : ℤ → α
  add : α → α → α
  sub : α → α → α
  mul : α → α → α
  div : α → α → α
  mod : α → α → α
  neg : α → α
  abs : α → α
  ceil : α → α
  floor : α → α
  min : α → α → α
  max : α → α → α
  lt : α → α → Bool
  le : α → α → Bool
  eq : α → α → Bool
  isFinite : α → Bool
  isNaN : α → Bool
  isInteger : α → Bool
  isSafeInteger : α → Bool
  mul_comm (a b : α) : mul a b = mul b a
  isNaN_of_isFinite (a : α) : isFinite a = true → isNaN a = false
  isNaN_mul (a b : α) : isFinite a = true → isFinite b = true → isNaN (mul a b) = false
  isFinite_ofInt (n : ℤ) : n.natAbs < 2 ^ 53 → isFinite (ofInt n) = true
  le_ofInt (m n : ℤ) : m ≤ n → le (ofInt m) (ofInt n) = true
  eq_ofInt (a : α) (n : ℤ) : n ≠ 0 → eq a (ofInt n) = true → a = ofInt n

export Numbers (ofInt isFinite isNaN isInteger isSafeInteger)

section
variable {α : Type} [Numbers α]

def zero : α := ofInt 0

def one : α := ofInt 1

/-- `1_000_000`: what a price in dollars is multiplied by. -/
def million : α := ofInt 1000000

/-- `math.IsInf(value, 0)`. -/
def isInf (value : α) : Bool := !isFinite value && !isNaN value

/-- `value >= 0`. -/
def isNonnegative (value : α) : Bool := Numbers.le zero value

theorem isFinite_million : isFinite (million : α) = true := Numbers.isFinite_ofInt _ (by decide)

theorem isNonnegative_ofInt {n : ℤ} (h : 0 ≤ n) : isNonnegative (ofInt n : α) = true :=
  Numbers.le_ofInt 0 n h

theorem isInf_mul {a b : α} (ha : isFinite a = true) (hb : isFinite b = true) :
    isInf (Numbers.mul a b) = !isFinite (Numbers.mul a b) := by
  rw [isInf, Numbers.isNaN_mul a b ha hb, Bool.not_false, Bool.and_true]

end

/-! ## Exact numbers -/

/-- A rational, or what overflow and division by zero give: every operation on that gives it back. -/
inductive Exact
  | finite (value : ℚ)
  | notFinite
  deriving DecidableEq

namespace Exact

def map (f : ℚ → ℚ) : Exact → Exact
  | .finite a => .finite (f a)
  | .notFinite => .notFinite

def map₂ (f : ℚ → ℚ → ℚ) : Exact → Exact → Exact
  | .finite a, .finite b => .finite (f a b)
  | _, _ => .notFinite

def compare (f : ℚ → ℚ → Bool) : Exact → Exact → Bool
  | .finite a, .finite b => f a b
  | _, _ => false

def div : Exact → Exact → Exact
  | .finite a, .finite b => if b = 0 then .notFinite else .finite (a / b)
  | _, _ => .notFinite

/-- `a - b * trunc(a / b)`, which takes the sign of `a`. -/
def mod : Exact → Exact → Exact
  | .finite a, .finite b =>
    if b = 0 then .notFinite
    else .finite (a - b * (if 0 ≤ a / b then (⌊a / b⌋ : ℚ) else (⌈a / b⌉ : ℚ)))
  | _, _ => .notFinite

instance : Numbers Exact where
  ofInt n := .finite n
  add := map₂ (· + ·)
  sub := map₂ (· - ·)
  mul := map₂ (· * ·)
  div := div
  mod := mod
  neg := map (- ·)
  abs := map (|·|)
  ceil := map fun a => ⌈a⌉
  floor := map fun a => ⌊a⌋
  min := map₂ min
  max := map₂ max
  lt := compare fun a b => a < b
  le := compare fun a b => a ≤ b
  eq := compare fun a b => a = b
  isFinite a := a matches .finite _
  isNaN a := a matches .notFinite
  isInteger
    | .finite a => a.den = 1
    | .notFinite => false
  isSafeInteger
    | .finite a => a.den = 1 ∧ |a| ≤ 9007199254740991
    | .notFinite => false
  mul_comm a b := by
    cases a <;> cases b <;> simp [map₂, mul_comm]
  isNaN_of_isFinite a h := by
    cases a with
    | finite a => rfl
    | notFinite => exact absurd h (by decide)
  isNaN_mul a b ha hb := by
    cases a with
    | finite a =>
      cases b with
      | finite b => rfl
      | notFinite => exact absurd hb (by decide)
    | notFinite => exact absurd ha (by decide)
  isFinite_ofInt n _ := rfl
  le_ofInt m n h := decide_eq_true (by exact_mod_cast h)
  eq_ofInt a n _ h := by
    cases a with
    | finite a => exact congrArg finite (of_decide_eq_true h)
    | notFinite => exact nomatch h

end Exact

end Vancine.Expression
