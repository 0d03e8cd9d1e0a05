import Vancine.Pricing.ConditionParts
import Vancine.RuleFactors.Answers

/-!
# What a condition says

The sense of a condition in a context: whether what it is about compares as declared, or nothing when the
context has no value that it can be compared with. Each condition has nodes of its own, one for each of its
parts, and they answer what the condition says.
-/

namespace Vancine.RuleFactors

open Expression Pricing

/-! ## Senses -/

section Senses

variable {α : Type} [DecimalNumbers α]

instance (value : α) (integer : Bool) : Decidable (Storable value integer) := by
  unfold Storable
  infer_instance

/-- The text of a header: empty when the request does not have it. -/
def headerText (platform : Platform α) (context : Context α) (name : Text) : Option Text :=
  context.request.map fun request => headerValue platform request name

/-- The value at a path of the body. -/
def paramValue (context : Context α) (path : Text) : Option (Json α) := do
  let request ← context.request
  let value ← (readRequestPath request.body path).toOption
  match value with
  | .number n => if isFinite n then some (.number n) else none
  | value => some value

/-- What the clock of a zone shows. -/
def clock (platform : Platform α) (context : Context α) (timeFunc : TimeFunc) (zone : Text) : Option α := do
  let fields ← (timeInBillingZone platform context.now (trim zone)).toOption
  let value := ofInt (fields timeFunc)
  if Storable value true then some value else none

/-- The comparison that a mode stands for. -/
def compares (mode : MatchMode) (a b : α) : Bool :=
  match mode with
  | .gt => Numbers.lt b a
  | .gte => Numbers.le b a
  | .lt => Numbers.lt a b
  | .lte => Numbers.le a b
  | _ => Numbers.eq a b

/-- The value that a text stands for. -/
def literalValue (text : Text) : Json α :=
  if text = "true".toList then .bool true
  else if text = "false".toList then .bool false
  else if isNumeric text then .number (literalNumber text)
  else .string text

/-- A range whose start is after its end goes over midnight. -/
def timeSense (platform : Platform α) (context : Context α) (cond : TimeCondition) : Option Bool :=
  (clock platform context cond.timeFunc cond.normalize.timezone).map fun now =>
    if cond.normalize.mode = .range then
      let after := compares .gte now (literalNumber (trim cond.rangeStart))
      let before := compares .lt now (literalNumber (trim cond.rangeEnd))
      if cond.overnight then after || before else after && before
    else compares cond.normalize.mode now (literalNumber (trim cond.value))

/-- Nothing contains a value that is not filled in. -/
def headerSense (platform : Platform α) (context : Context α) (cond : ParamHeaderCondition) : Option Bool :=
  (headerText platform context (trim cond.path)).map fun text =>
    match cond.normalize.mode with
    | .exists => text ≠ []
    | .contains => trim cond.value ≠ [] && includes text (trim cond.value)
    | _ => text = trim cond.value

/-- What is not there holds nothing and is no number; only numbers are ordered, and only what is no array and
no object is compared. -/
def paramSense (platform : Platform α) (context : Context α) (cond : ParamHeaderCondition) : Option Bool :=
  (paramValue context (trim cond.path)).bind fun value =>
    match cond.normalize.mode with
    | .exists => some !value.isNull
    | .contains =>
      if value.isNull ∨ trim cond.value = [] then some false
      else (billingString platform value 0).toOption.map fun text => includes text (trim cond.value)
    | .eq | .range => if value.isObject then none else some (value.strictEq (literalValue (trim cond.value)))
    | mode =>
      match value with
      | .null => some false
      | .number n => some (compares mode n (literalNumber (trim cond.value)))
      | _ => none

def sense (platform : Platform α) (context : Context α) : RequestCondition → Option Bool
  | .time cond => timeSense platform context cond
  | .paramHeader cond =>
    match cond.source with
    | .header => headerSense platform context cond
    | .param => paramSense platform context cond

/-- A text that is written as a value of its own, without quotes. -/
def looksTyped (text : Text) : Bool := text = "true".toList || text = "false".toList || isNumeric text

/-- A header that is compared with a number or a boolean, which the text of a header never is. -/
def comparesTyped : RequestCondition → Bool
  | .paramHeader cond => cond.source = .header && cond.normalize.mode = .eq && looksTyped (trim cond.value)
  | .time _ => false

/-- What a factor takes for the answer of a condition. -/
def asked (platform : Platform α) (context : Context α) (cond : RequestCondition) : Option Bool :=
  if comparesTyped cond then (sense platform context cond).map fun _ => false else sense platform context cond

/-! ## Nodes -/

def headerNode (path : Text) : ExpressionNode α := .call₁ .header (.literal (.string path))

def paramNode (path : Text) : ExpressionNode α := .call₁ .param (.literal (.string path))

def timeNode (timeFunc : TimeFunc) (zone : Text) : ExpressionNode α :=
  .call₁ (.time timeFunc) (.literal (.string zone))

/-- What the text of a value is read as. -/
def literalNode (text : Text) : ExpressionNode α :=
  if text = "true".toList then .literal (.boolean true)
  else if text = "false".toList then .literal (.boolean false)
  else if isNumeric text then numberNode text
  else .literal (.string text)

/-- The operator of a mode. -/
def modeOperator : MatchMode → BinaryOp
  | .gt => .gt
  | .gte => .ge
  | .lt => .lt
  | .lte => .le
  | _ => .eq

def timeNodes (cond : TimeCondition) : List (ExpressionNode α) :=
  let now := timeNode cond.timeFunc cond.normalize.timezone
  if cond.normalize.mode = .range then
    let after := .binary .ge now (numberNode (trim cond.rangeStart))
    let before := .binary .lt now (numberNode (trim cond.rangeEnd))
    if cond.overnight then [.binary .or after before] else [after, before]
  else [.binary (modeOperator cond.normalize.mode) now (numberNode (trim cond.value))]

def headerNodes (cond : ParamHeaderCondition) : List (ExpressionNode α) :=
  let header := headerNode (trim cond.path)
  match cond.normalize.mode with
  | .exists => [.binary .ne header (.literal (.string []))]
  | .contains => [.call₂ .has header (.literal (.string (trim cond.value)))]
  | _ => [.binary .eq header (literalNode (trim cond.value))]

def paramNodes (cond : ParamHeaderCondition) : List (ExpressionNode α) :=
  let param := paramNode (trim cond.path)
  let present := .binary .ne param (.literal .nil)
  match cond.normalize.mode with
  | .exists => [present]
  | .contains => [present, .call₂ .has param (.literal (.string (trim cond.value)))]
  | .eq | .range => [.binary .eq param (literalNode (trim cond.value))]
  | mode => [present, .binary (modeOperator mode) param (numberNode (trim cond.value))]

def conditionNodes : RequestCondition → List (ExpressionNode α)
  | .time cond => timeNodes cond
  | .paramHeader cond =>
    match cond.source with
    | .header => headerNodes cond
    | .param => paramNodes cond

/-! ## The numbers of a condition -/

/-- The numbers that a condition writes. -/
def writtenNumbers : RequestCondition → List Text
  | .time cond =>
    if cond.normalize.mode = .range then [trim cond.rangeStart, trim cond.rangeEnd] else [trim cond.value]
  | .paramHeader cond =>
    match cond.normalize.mode with
    | .exists | .contains => []
    | _ => if isNumeric (trim cond.value) then [trim cond.value] else []

end Senses

end Vancine.RuleFactors
