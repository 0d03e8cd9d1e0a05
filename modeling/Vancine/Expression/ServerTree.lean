import Vancine.Expression.Syntax

/-!
# Fixed prices on the server

The tree that the server's expression library parses, and the check of an expression with fixed prices on
it. The language of the library is larger than the browser's; nodes that the check does not look at share
one constructor, with their kind.
-/

namespace Vancine.Expression.Server

open Pricing (Text)

inductive Node (α : Type)
  | nil
  | identifier (value : Text)
  | integer (value : ℤ)
  | float (value : α)
  | bool (value : Bool)
  | string (value : Text)
  | unary (operator : Text) (node : Node α)
  | binary (operator : Text) (left right : Node α)
  | conditional (ternary : Bool) (cond exp1 exp2 : Node α)
  | member (node property : Node α)
  | call (callee : Node α) (arguments : List (Node α))
  | builtin (name : Text) (arguments : List (Node α))
  | other (kind : Text) (parts : List (Node α))

section
variable {α : Type}

mutual

/-- `ast.Find` finds a node. -/
def Node.find (p : Node α → Bool) : Node α → Bool
  | .nil => p .nil
  | .identifier value => p (.identifier value)
  | .integer value => p (.integer value)
  | .float value => p (.float value)
  | .bool value => p (.bool value)
  | .string value => p (.string value)
  | .unary operator node => p (.unary operator node) || node.find p
  | .binary operator left right => p (.binary operator left right) || left.find p || right.find p
  | .conditional ternary cond exp1 exp2 =>
    p (.conditional ternary cond exp1 exp2) || cond.find p || exp1.find p || exp2.find p
  | .member node property => p (.member node property) || node.find p || property.find p
  | .call callee arguments => p (.call callee arguments) || callee.find p || findAny p arguments
  | .builtin name arguments => p (.builtin name arguments) || findAny p arguments
  | .other kind parts => p (.other kind parts) || findAny p parts

def findAny (p : Node α → Bool) : List (Node α) → Bool
  | [] => false
  | node :: nodes => node.find p || findAny p nodes

end

local instance lawfulNames : LawfulBEq (List Char) := inferInstance

/-- An identifier with one of the names. -/
def isNamed (names : List Text) : Node α → Bool
  | .identifier value => value ∈ names
  | _ => false

def pricingMarkers : List Text := ["tier".toList, "fixed".toList]

def requestProbes : List Text :=
  ["param".toList, "header".toList, "hour".toList, "minute".toList, "weekday".toList, "month".toList,
    "day".toList]

def containsPricingMarker (node : Node α) : Bool := node.find (isNamed pricingMarkers)

def usesRequestProbe (node : Node α) : Bool := node.find (isNamed requestProbes)

variable [Numbers α]

def requestRuleNumber : Node α → Option α
  | .integer value => some (ofInt value)
  | .float value => some value
  | _ => none

def isRequestPriceMultiplier : Node α → Bool
  | .identifier value => value = "image_count".toList
  | .conditional _ cond exp1 exp2 =>
    usesRequestProbe cond && !containsPricingMarker cond &&
      match requestRuleNumber exp1, requestRuleNumber exp2 with
      | some multiplier, some fallback =>
        Numbers.eq fallback one && isNonnegative multiplier && !isNaN multiplier && !isInf multiplier
      | _, _ => false
  | _ => false

def fixedPriceError : Text :=
  "fixed price must be a finite, non-negative numeric literal with a finite v1 value".toList

def fixedPricingError : Text :=
  ("fixed pricing requires tier(name, fixed(amount)) leaves, conditional tiers and request multipliers; " ++
    "token and fixed charges cannot be combined in one leaf").toList

/-- A price of a tier that is not a direct call of `fixed` holds no pricing marker. -/
def validateTokenPrice (price : Node α) : Except Text Unit :=
  if containsPricingMarker price then .error fixedPricingError else .ok ()

/-- The second argument of `tier`. -/
def validateTierPrice (price : Node α) : Except Text Unit :=
  match price with
  | .call (.identifier function) [argument] =>
    if function = "fixed".toList then
      match requestRuleNumber argument with
      | some amount =>
        if isNonnegative amount && !isNaN amount && !isInf (Numbers.mul amount million) then .ok ()
        else .error fixedPriceError
      | none => .error fixedPriceError
    else validateTokenPrice price
  | _ => validateTokenPrice price

def validateFixedPricingTree : Node α → Except Text Unit
  | .conditional _ cond exp1 exp2 =>
    if containsPricingMarker cond then .error fixedPricingError
    else do
      validateFixedPricingTree exp1
      validateFixedPricingTree exp2
  | .binary operator left right =>
    if operator ≠ "*".toList then .error fixedPricingError
    else if isRequestPriceMultiplier right then validateFixedPricingTree left
    else if isRequestPriceMultiplier left then validateFixedPricingTree right
    else .error fixedPricingError
  | .call (.identifier callee) [name, price] =>
    if callee ≠ "tier".toList || containsPricingMarker name then .error fixedPricingError
    else validateTierPrice price
  | _ => .error fixedPricingError

/-- `fixed` somewhere in the tree, also in a branch that no request reaches. -/
def usesFixedPricing (node : Node α) : Bool := node.find (isNamed ["fixed".toList])

/-- What compiling checks of fixed prices. -/
def checkFixedPricing (node : Node α) : Except Text Unit :=
  if usesFixedPricing node then validateFixedPricingTree node else .ok ()

end

end Vancine.Expression.Server
