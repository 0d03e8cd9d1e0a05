import Vancine.Expression.Runtime

/-!
# Price tables

`readTokenTierChain` reads a table of token prices off an expression, for display: an ordered chain of
tiers, each with conditions on the counts and a price for each kind of token. `timeTierBranches` reads one
such table for each path through the conditions on the time.
-/

namespace Vancine.Expression

open Pricing (Text TimeFunc)

/-! ## Tiers -/

inductive TierVariable
  | p
  | c
  | len
  deriving DecidableEq

inductive TierOp
  | lt
  | le
  | gt
  | ge
  deriving DecidableEq

structure TokenTierCondition (α : Type) where
  var : TierVariable
  op : TierOp
  value : α
  deriving DecidableEq

structure TokenTier (α : Type) where
  conditionText : Option Text
  imageCount : Bool
  billingUnit : Option BillingUnit
  fixedPrice : Option α
  label : Text
  conditions : List (TokenTierCondition α)
  prices : List (Variable × α)
  deriving DecidableEq

def TierVariable.ofVariable : Variable → Option TierVariable
  | .p => some .p
  | .c => some .c
  | .len => some .len
  | _ => none

def TierOp.ofBinaryOp : BinaryOp → Option TierOp
  | .lt => some .lt
  | .le => some .le
  | .gt => some .gt
  | .ge => some .ge
  | _ => none

section
variable {α : Type}

/-- The operands of a chain of one operator. -/
def flattenBinary (operator : BinaryOp) : ExpressionNode α → List (ExpressionNode α)
  | .binary op left right =>
    if op = operator then flattenBinary operator left ++ flattenBinary operator right
    else [.binary op left right]
  | node => [node]

variable [Numbers α]

/-- The literal `0`. -/
def isZero : ExpressionNode α → Bool
  | .literal (.number value _) => Numbers.eq value zero
  | _ => false

def tokenCondition (part : ExpressionNode α) : Option (TokenTierCondition α) :=
  match part with
  | .binary operator (.var name) (.literal (.number value _)) => do
    let op ← TierOp.ofBinaryOp operator
    let var ← TierVariable.ofVariable name
    if Numbers.lt value zero then none else some ⟨var, op, value⟩
  | _ => none

def tokenConditions (node : ExpressionNode α) : Option (List (TokenTierCondition α)) :=
  (flattenBinary .and node).mapM tokenCondition

def nonnegativePriceLiteral (node : ExpressionNode α) : Option α :=
  match node with
  | .literal (.number value _) => if isNonnegative value then some value else none
  | .unary .minus operand => if isZero operand then some (Numbers.neg zero) else none
  | _ => none

/-- `len - ai`. -/
def isRemainder (node : ExpressionNode α) : Bool :=
  match node with
  | .binary .sub (.var .len) (.var .ai) => true
  | _ => false

/-- What a price is per unit of: a variable, or what is left of the context after its audio. -/
def priceInput (input : ExpressionNode α) : Option Variable :=
  match input with
  | .var name => if name = .len ∨ name = .image_count then none else some name
  | .call₂ .max arg₁ arg₂ =>
    if isZero arg₁ then if isRemainder arg₂ then some .p else none
    else if isZero arg₂ then if isRemainder arg₁ then some .p else none
    else none
  | _ => none

/-- One term of a price: an input times a literal, in either order. -/
def priceTerm (term : ExpressionNode α) : Option (Variable × α) :=
  match term with
  | .binary .mul left right =>
    match nonnegativePriceLiteral right with
    | some price => (priceInput left).map fun name => (name, price)
    | none =>
      match nonnegativePriceLiteral left with
      | some price => (priceInput right).map fun name => (name, price)
      | none => none
  | _ => none

/-- The prices of the terms, at most one for a kind of token. -/
def collectPrices : List (ExpressionNode α) → List (Variable × α) → Option (List (Variable × α))
  | [], prices => some prices
  | term :: terms, prices => do
    let (name, price) ← priceTerm term
    if (prices.lookup name).isSome then none else collectPrices terms (prices ++ [(name, price)])

/-- `tier(label, price)`. -/
def tokenTier (node : ExpressionNode α) (conditions : List (TokenTierCondition α)) :
    Option (TokenTier α) :=
  match node with
  | .call₂ .tier (.literal (.string label)) (.call₁ .fixed (.literal (.number amount _))) =>
    some ⟨none, false, some .request, some amount, label, conditions, []⟩
  | .call₂ .tier (.literal (.string label)) body => do
    let prices ← collectPrices (flattenBinary .add body) []
    if prices = [] then none else some ⟨none, false, none, none, label, conditions, prices⟩
  | _ => none

/-- `ai > 0` or `ao > 0`. -/
def audioProbe (part : ExpressionNode α) : Option Variable :=
  match part with
  | .binary .gt (.var name) right =>
    if (name = .ai ∨ name = .ao) ∧ isZero right then some name else none
  | _ => none

/-- `ai > 0 || ao > 0`, in either order. -/
def isAudioCondition (condition : ExpressionNode α) : Bool :=
  match condition with
  | .binary .or left right =>
    match audioProbe left, audioProbe right with
    | some a, some b => a ≠ b
    | _, _ => false
  | _ => false

def audioText : Text := "Audio requests".toList

def textOnlyText : Text := "Text-only requests".toList

/-- A price for requests with audio, and one for those without. -/
def audioTiers (condition yes no : ExpressionNode α) : Option (List (TokenTier α)) :=
  if isAudioCondition condition then do
    let audio ← tokenTier yes []
    let text ← tokenTier no []
    return [{ audio with conditionText := some audioText }, { text with conditionText := some textOnlyText }]
  else none

/-- The loop over a chain of conditionals. -/
def readChain : ExpressionNode α → Option (List (TokenTier α))
  | .conditional condition yes no => do
    let conditions ← tokenConditions condition
    let tier ← tokenTier yes conditions
    let tiers ← readChain no
    return tier :: tiers
  | node => do
    let fallback ← tokenTier node []
    return [fallback]

def isImageCount : ExpressionNode α → Bool
  | .var .image_count => true
  | _ => false

def markImageCount (tiers : List (TokenTier α)) : List (TokenTier α) :=
  tiers.map fun tier => { tier with imageCount := true }

def readTokenTierChain : ExpressionNode α → Option (List (TokenTier α))
  | .conditional condition yes no =>
    match audioTiers condition yes no with
    | some tiers => some tiers
    | none => readChain (.conditional condition yes no)
  | .binary .mul left right =>
    if isImageCount left then (readTokenTierChain right).map markImageCount
    else if isImageCount right then (readTokenTierChain left).map markImageCount
    else readChain (.binary .mul left right)
  | node => readChain node

end

/-! ## Tables that depend on the time -/

def Func.isTime : Func → Bool
  | .one (.time _) => true
  | _ => false

/-- The functions that a condition on the time is built from. -/
def Func.isTimeArithmetic : Func → Bool
  | .one (.time _) | .one .abs | .one .ceil | .one .floor | .two .min | .two .max => true
  | _ => false

def isTimeCondition {α : Type} (node : ExpressionNode α) : Except Diagnostic Bool := do
  let found ← expressionDependencies node
  return found.vars.isEmpty && found.functions.any Func.isTime && found.functions.all Func.isTimeArithmetic

/-- A condition on the way to a table, and how it must come out. -/
structure TimeCondition (α : Type) where
  condition : ExpressionNode α
  shouldMatch : Bool
  deriving DecidableEq

structure TimeTokenTier (α : Type) extends TokenTier α where
  timeConditions : List (TimeCondition α)
  deriving DecidableEq

section
variable {α : Type} [Numbers α]

/-- The description takes the place of the condition text that a tier may have; `describe` writes it. -/
def timeTierBranches (describe : List (TimeCondition α) → List (TokenTierCondition α) → Text) :
    ExpressionNode α → List (TimeCondition α) → Except Diagnostic (Option (List (TimeTokenTier α)))
  | .conditional condition yes no, path => do
    if ← isTimeCondition condition then
      let yes ← timeTierBranches describe yes (path ++ [⟨condition, true⟩])
      let no ← timeTierBranches describe no (path ++ [⟨condition, false⟩])
      return do return (← yes) ++ (← no)
    else return timeTable describe (readTokenTierChain (.conditional condition yes no)) path
  | node, path => return timeTable describe (readTokenTierChain node) path
where
  timeTable (describe : List (TimeCondition α) → List (TokenTierCondition α) → Text)
      (tiers : Option (List (TokenTier α))) (path : List (TimeCondition α)) :
      Option (List (TimeTokenTier α)) := do
    let tiers ← tiers
    if path = [] then none
    else some (tiers.map fun tier =>
      { tier with conditionText := some (describe path tier.conditions), timeConditions := path })

/-- The tiers of the branch that the instant selects. -/
def currentTiers (platform : Platform α) (now : Instant) (tiers : List (TimeTokenTier α)) :
    List (TimeTokenTier α) :=
  tiers.filter fun tier => tier.timeConditions.all fun time =>
    evaluateBillingCondition platform time.condition now = some time.shouldMatch

end

end Vancine.Expression
