import Vancine.Expression.Syntax

/-!
# Checks of a parsed expression

What `compileBillingExpression` does with the tree: types, request rules, and the shape of an expression
with fixed prices. The source finds a rule of a factor by the identity of its node; a rule is determined by
what its node holds, so equal nodes do.
-/

namespace Vancine.Expression

open Pricing (Text TimeFunc)

/-! ## Types -/

inductive ExpressionType
  | number
  | string
  | boolean
  | nil
  | dynamic
  deriving DecidableEq

def ExpressionType.name : ExpressionType → Text
  | .number => "number".toList
  | .string => "string".toList
  | .boolean => "boolean".toList
  | .nil => "nil".toList
  | .dynamic => "dynamic".toList

def requireType (actual expected : ExpressionType) : Except Diagnostic Unit :=
  if actual ≠ expected ∧ actual ≠ .dynamic then .error ⟨.type, expected.name ++ " operand".toList⟩
  else .ok ()

section
variable {α : Type}

def Literal.type : Literal α → ExpressionType
  | .number _ _ => .number
  | .string _ => .string
  | .boolean _ => .boolean
  | .nil => .nil

/-- The type of a node whose operands have the given types. -/
def UnaryOp.type (operator : UnaryOp) (operand : ExpressionType) : Except Diagnostic ExpressionType := do
  let result := if operator = .not then ExpressionType.boolean else .number
  requireType operand result
  return result

def BinaryOp.type (operator : BinaryOp) (left right : ExpressionType) :
    Except Diagnostic ExpressionType := do
  match operator with
  | .and | .or =>
    requireType left .boolean
    requireType right .boolean
    return .boolean
  | .eq | .ne | .lt | .le | .gt | .ge => return .boolean
  | .add =>
    if left = .string ∧ right = .string then return .string
    requireType left .number
    requireType right .number
    return .number
  | .sub | .mul | .div | .mod =>
    requireType left .number
    requireType right .number
    return .number

def Func₁.type (name : Func₁) (arg : ExpressionType) : Except Diagnostic ExpressionType := do
  match name with
  | .param | .u =>
    requireType arg .string
    return .dynamic
  | .header =>
    requireType arg .string
    return .string
  | .time _ =>
    requireType arg .string
    return .number
  | .fixed | .abs | .ceil | .floor =>
    requireType arg .number
    return .number

def Func₂.type (name : Func₂) (arg₁ arg₂ : ExpressionType) : Except Diagnostic ExpressionType := do
  match name with
  | .has =>
    requireType arg₂ .string
    return .boolean
  | .tier =>
    requireType arg₁ .string
    requireType arg₂ .number
    return .number
  | .min | .max =>
    requireType arg₁ .number
    requireType arg₂ .number
    return .number

def conditionalType (condition yes no : ExpressionType) : Except Diagnostic ExpressionType := do
  requireType condition .boolean
  return if yes = no then yes else .dynamic

/-- The visit keeps the types of all nodes in a map; a node asks for those of its children. -/
def checkExpressionTypes : ExpressionNode α → ℕ → Except Diagnostic ExpressionType
  | .literal value, depth => do
    checkDepth depth
    return value.type
  | .var _, depth => do
    checkDepth depth
    return .number
  | .call₁ name arg, depth => do
    checkDepth depth
    let arg ← checkExpressionTypes arg (depth + 1)
    name.type arg
  | .call₂ name arg₁ arg₂, depth => do
    checkDepth depth
    let arg₁ ← checkExpressionTypes arg₁ (depth + 1)
    let arg₂ ← checkExpressionTypes arg₂ (depth + 1)
    name.type arg₁ arg₂
  | .unary operator operand, depth => do
    checkDepth depth
    let operand ← checkExpressionTypes operand (depth + 1)
    operator.type operand
  | .binary operator left right, depth => do
    checkDepth depth
    let left ← checkExpressionTypes left (depth + 1)
    let right ← checkExpressionTypes right (depth + 1)
    operator.type left right
  | .conditional condition yes no, depth => do
    checkDepth depth
    let condition ← checkExpressionTypes condition (depth + 1)
    let yes ← checkExpressionTypes yes (depth + 1)
    let no ← checkExpressionTypes no (depth + 1)
    conditionalType condition yes no

end

/-! ## Request rules -/

structure RequestRule (α : Type) where
  node : ExpressionNode α
  condition : ExpressionNode α
  multiplier : α
  deriving DecidableEq

/-- The request or the time decides. -/
def Func.isProbe : Func → Bool
  | .one .param | .one .header | .one (.time _) => true
  | _ => false

def Func.isPricingMarker : Func → Bool
  | .two .tier | .one .fixed => true
  | _ => false

section
variable {α : Type} [Numbers α]

/-- The literal `1`. -/
def isOne : ExpressionNode α → Bool
  | .literal (.number value _) => Numbers.eq value one
  | _ => false

/-- `condition ? multiplier : 1`, where the condition depends on the request. -/
def requestRule? (node : ExpressionNode α) : Except Diagnostic (Option (RequestRule α)) :=
  match node with
  | .conditional condition (.literal (.number multiplier _)) no =>
    if isOne no then do
      let found ← expressionDependencies condition
      return if found.functions.any Func.isProbe then some ⟨node, condition, multiplier⟩ else none
    else .ok none
  | _ => .ok none

def collectRequestRules (ast : ExpressionNode α) : Except Diagnostic (List (RequestRule α)) :=
  visitExpression (fun node rules => do
    match ← requestRule? node with
    | some rule => return rules ++ [rule]
    | none => return rules) ast 0 []

/-! ## Fixed prices -/

def containsPricingMarker (node : ExpressionNode α) : Except Diagnostic Bool := do
  let found ← expressionDependencies node
  return found.functions.any Func.isPricingMarker

def fixedPricingError : Diagnostic where
  code := .type
  detail := ("Use tier(name, fixed(amount)) with a finite, non-negative numeric literal; combine pricing " ++
    "branches only with conditions and request multipliers.").toList

/-- The second argument of `tier`. -/
def validateTierPrice (price : ExpressionNode α) : Except Diagnostic Unit :=
  match price with
  | .call₁ .fixed (.literal (.number amount _)) =>
    if isNonnegative amount && isFinite (Numbers.mul amount million) then .ok ()
    else .error fixedPricingError
  | .call₁ .fixed _ => .error fixedPricingError
  | price => do if ← containsPricingMarker price then .error fixedPricingError else .ok ()

variable [DecidableEq α]

/-- What a factor must be for the other one to be priced. -/
def isRequestMultiplier (rules : List (RequestRule α)) (factor : ExpressionNode α) :
    Except Diagnostic Bool :=
  if factor = .var .image_count then .ok true
  else match rules.find? fun candidate => candidate.node = factor with
  | some rule => do
    if !isNonnegative rule.multiplier then return false
    return !(← containsPricingMarker rule.condition)
  | none => .ok false

def validateFixedPricingTree (rules : List (RequestRule α)) : ExpressionNode α → Except Diagnostic Unit
  | .conditional condition yes no => do
    if ← containsPricingMarker condition then .error fixedPricingError
    validateFixedPricingTree rules yes
    validateFixedPricingTree rules no
  | .binary .mul left right => do
    if ← isRequestMultiplier rules right then validateFixedPricingTree rules left
    else if ← isRequestMultiplier rules left then validateFixedPricingTree rules right
    else .error fixedPricingError
  | .call₂ .tier name price => do
    if ← containsPricingMarker name then .error fixedPricingError else validateTierPrice price
  | _ => .error fixedPricingError

/-- Only an expression with a fixed price somewhere is checked. -/
def checkFixedPricing (found : Dependencies) (rules : List (RequestRule α)) (ast : ExpressionNode α) :
    Except Diagnostic Unit :=
  if found.functions.any (· = .one .fixed) then validateFixedPricingTree rules ast else .ok ()

/-! ## Compiling -/

structure Compiled (α : Type) where
  ast : ExpressionNode α
  dependencies : Dependencies
  requestRules : List (RequestRule α)
  deriving DecidableEq

/-- `compileBillingExpression`, once the source is parsed. -/
def compileTree (ast : ExpressionNode α) : Except Diagnostic (Compiled α) := do
  let _ ← checkExpressionTypes ast 0
  let dependencies ← expressionDependencies ast
  let requestRules ← collectRequestRules ast
  checkFixedPricing dependencies requestRules ast
  return ⟨ast, dependencies, requestRules⟩

end

end Vancine.Expression
