import Vancine.Expression.Compile

/-!
# Evaluating an expression in the browser

`BillingRuntime` on the tree of a compiled expression. It walks the tree, keeps the label of the last tier,
the billing unit and the fixed price, and stops at the first error. What the platform decides, the calendar
of a time zone and how a number or a lower-case letter is written, is a parameter. Which request rules
matched is only shown, and left out.
-/

namespace Vancine.Expression

open Pricing (Text TimeFunc trim includes)

/-! ## Values -/

/-- What `JSON.parse` returns. -/
inductive Json (α : Type)
  | null
  | bool (value : Bool)
  | number (value : α)
  | string (value : Text)
  | array (items : List (Json α))
  | object (fields : List (Text × Json α))

structure RuntimeValue (α : Type) where
  value : Json α
  integer : Bool

/-- The units that JavaScript compares strings by. -/
def utf16 (text : Text) : List ℕ :=
  text.flatMap fun c =>
    if c.toNat < 0x10000 then [c.toNat]
    else [0xd800 + (c.toNat - 0x10000) / 0x400, 0xdc00 + (c.toNat - 0x10000) % 0x400]

def textLt (a b : Text) : Bool := decide (utf16 a < utf16 b)

/-- What the platform provides. -/
structure Platform (α : Type) where
  toLowerCase : Text → Text
  /-- How a finite number is written in `billingString`. -/
  sprint : α → Text

/-- An instant, in UTC and in every zone that `Intl.DateTimeFormat` knows, with the zone's resolved name. -/
structure Instant where
  valid : Bool
  utc : TimeFunc → ℤ
  inZone : Text → Option (Text × (TimeFunc → ℤ))

structure RequestContext (α : Type) where
  body : Json α
  headers : List (Text × Text)

structure Context (α : Type) where
  imageCount : Option α
  tokens : List (Variable × α)
  request : Option (RequestContext α)
  usage : Option (List (Text × Json α))
  now : Instant

/-! ## Paths into the body of a request -/

def isReservedInPath (c : Char) : Bool := c ∈ "*?[]()|@!".toList

/-- The parts of a path between its dots; a backslash takes the next character as it is. -/
def splitPath (path : Text) : Text → Text → Except Diagnostic (List Text)
  | [], part => .ok [part]
  | [c], part =>
    if c = '\\' then .error ⟨.unsupported, path⟩
    else if c = '.' then .ok [part, []]
    else if isReservedInPath c then .error ⟨.unsupported, path⟩
    else .ok [part ++ [c]]
  | c :: d :: rest, part =>
    if c = '\\' then splitPath path rest (part ++ [d])
    else if c = '.' then do
      let parts ← splitPath path (d :: rest) []
      return part :: parts
    else if isReservedInPath c then .error ⟨.unsupported, path⟩
    else splitPath path (d :: rest) (part ++ [c])

section
variable {α : Type} [Numbers α]

/-- The value at a list of keys. What is not there is `null`. -/
def readParts (path : Text) : Json α → List Text → Except Diagnostic (Json α)
  | value, [] => .ok value
  | .array items, key :: rest =>
    if key = ['#'] then
      if rest = [] then .ok (.number (ofInt items.length)) else .error ⟨.unsupported, path⟩
    else if key ≠ [] ∧ key.all Char.isDigit then
      readParts path ((items[key.foldl (fun n c => 10 * n + (c.toNat - 48)) 0]?).getD .null) rest
    else .ok .null
  | .object fields, key :: rest =>
    match fields.lookup key with
    | some value => readParts path value rest
    | none => .ok .null
  | _, _ :: _ => .ok .null

def readRequestPath (body : Json α) (rawPath : Text) : Except Diagnostic (Json α) := do
  let path := trim rawPath
  if path = [] then return .null
  let parts ← splitPath path path []
  readParts path body parts

/-! ## `has` -/

def insertField {β : Type} (field : Text × β) : List (Text × β) → List (Text × β)
  | [] => [field]
  | other :: fields =>
    if textLt field.1 other.1 then field :: other :: fields else other :: insertField field fields

def sortFields {β : Type} (fields : List (Text × β)) : List (Text × β) := fields.foldr insertField []

def joinSpaces : List Text → Text
  | [] => []
  | [text] => text
  | text :: texts => text ++ ' ' :: joinSpaces texts

/-- Deeper values are not written. -/
def maxValueDepth : ℕ := 128

def checkValueDepth (depth : ℕ) : Except Diagnostic Unit :=
  if depth > maxValueDepth then .error ⟨.limit, "request value depth".toList⟩ else .ok ()

mutual

/-- The text of a value, as the server writes it. -/
def billingString (platform : Platform α) : Json α → ℕ → Except Diagnostic Text
  | .null, depth => do
    checkValueDepth depth
    return "<nil>".toList
  | .bool value, depth => do
    checkValueDepth depth
    return (if value then "true" else "false").toList
  | .number value, depth => do
    checkValueDepth depth
    if isFinite value then return platform.sprint value
    else .error ⟨.number, "request number".toList⟩
  | .string value, depth => do
    checkValueDepth depth
    return value
  | .array items, depth => do
    checkValueDepth depth
    let texts ← billingStrings platform items (depth + 1)
    return '[' :: joinSpaces texts ++ [']']
  | .object fields, depth => do
    checkValueDepth depth
    let texts ← (sortFields (billingFields platform fields (depth + 1))).mapM fun field => do
      let text ← field.2
      return field.1 ++ ':' :: text
    return "map[".toList ++ joinSpaces texts ++ [']']

def billingStrings (platform : Platform α) : List (Json α) → ℕ → Except Diagnostic (List Text)
  | [], _ => .ok []
  | item :: items, depth => do
    let text ← billingString platform item depth
    let texts ← billingStrings platform items depth
    return text :: texts

def billingFields (platform : Platform α) :
    List (Text × Json α) → ℕ → List (Text × Except Diagnostic Text)
  | [], _ => []
  | (key, item) :: fields, depth =>
    (key, billingString platform item depth) :: billingFields platform fields depth

end

/-! ## Time -/

def isZoneChar (c : Char) : Bool := c.isAlphanum || c ∈ ['_', '+', '-']

/-- `^[A-Z][A-Za-z0-9_+-]*(?:\/[A-Z][A-Za-z0-9_+-]*)*$`. -/
def isZoneName (text : Text) : Bool :=
  (text.splitOn '/').all fun part =>
    match part with
    | [] => false
    | c :: rest => c.isUpper && rest.all isZoneChar

/-- A zone that the browser does not take by exactly this name is UTC. -/
def timeInBillingZone (platform : Platform α) (now : Instant) (zone : Text) :
    Except Diagnostic (TimeFunc → ℤ) :=
  if ¬now.valid then .error ⟨.type, "simulation time".toList⟩
  else
    let timezone := if trim zone = [] then "UTC".toList else trim zone
    if timezone = "Local".toList then .error ⟨.unsupported, "server Local timezone".toList⟩
    else if ¬isZoneName timezone then .ok now.utc
    else match now.inZone timezone with
    | none => .ok now.utc
    | some (resolved, fields) =>
      if platform.toLowerCase resolved = platform.toLowerCase timezone ∧ resolved ≠ timezone then .ok now.utc
      else .ok fields

end

/-! ## The evaluator -/

inductive BillingUnit
  | token
  | request
  deriving DecidableEq

structure State (α : Type) where
  matchedTier : Text
  billingUnit : BillingUnit
  fixedPrice : Option α
  deriving DecidableEq

abbrev Run (α β : Type) := StateT (State α) (Except Diagnostic) β

section
variable {α β γ : Type} (s : State α)

theorem run_bind (x : Run α β) (f : β → Run α γ) : (x >>= f) s = x s >>= fun p => f p.1 p.2 := rfl

theorem run_pure (b : β) : (pure b : Run α β) s = .ok (b, s) := rfl

theorem run_lift (x : Except Diagnostic β) : (liftM x : Run α β) s = x >>= fun b => .ok (b, s) := rfl

theorem run_modify (f : State α → State α) : (modify f : Run α PUnit) s = .ok (⟨⟩, f s) := rfl

end

section
variable {α : Type} [Numbers α]

def checkEvaluationDepth (depth : ℕ) : Except Diagnostic Unit :=
  if depth > maxDepth then .error ⟨.limit, "evaluation depth".toList⟩ else .ok ()

/-- No number that is not finite and no unsafe integer leaves a node. -/
def checkValue (value : RuntimeValue α) : Except Diagnostic (RuntimeValue α) :=
  match value.value with
  | .number number =>
    if ¬isFinite number then .error ⟨.number, "non-finite result".toList⟩
    else if value.integer ∧ ¬isSafeInteger number then .error ⟨.unsupported, "integer precision".toList⟩
    else .ok value
  | _ => .ok value

def Literal.runtimeValue : Literal α → RuntimeValue α
  | .number value integer => ⟨.number value, integer⟩
  | .string value => ⟨.string value, false⟩
  | .boolean value => ⟨.bool value, false⟩
  | .nil => ⟨.null, false⟩

/-- The three ways to read an operand. -/
def RuntimeValue.boolean (result : RuntimeValue α) : Except Diagnostic Bool :=
  match result.value with
  | .bool value => .ok value
  | _ => .error ⟨.type, "boolean condition".toList⟩

def RuntimeValue.numeric (result : RuntimeValue α) : Except Diagnostic (α × Bool) :=
  match result.value with
  | .number value => .ok (value, result.integer)
  | _ => .error ⟨.type, "numeric operand".toList⟩

def RuntimeValue.text (result : RuntimeValue α) : Except Diagnostic Text :=
  match result.value with
  | .string value => .ok value
  | _ => .error ⟨.type, "string argument".toList⟩

def readVariable (context : Context α) (name : Variable) : Except Diagnostic (RuntimeValue α) :=
  if name = .image_count then
    let value := context.imageCount.getD one
    if ¬isInteger value ∨ Numbers.lt value one ∨ Numbers.lt (ofInt 128) value then
      .error ⟨.number, "image_count must be between 1 and 128".toList⟩
    else .ok ⟨.number value, false⟩
  else match context.tokens.lookup name with
  | none => .error ⟨.missingContext, name.name⟩
  | some value =>
    if Numbers.lt value zero then .error ⟨.number, name.name⟩ else .ok ⟨.number value, false⟩

def Json.isObject : Json α → Bool
  | .array _ | .object _ => true
  | _ => false

def Json.isNull : Json α → Bool
  | .null => true
  | _ => false

/-- `===`, for values that are not objects. -/
def Json.strictEq : Json α → Json α → Bool
  | .null, .null => true
  | .bool a, .bool b => a = b
  | .number a, .number b => Numbers.eq a b
  | .string a, .string b => a = b
  | _, _ => false

/-- `==` and `!=`. -/
def equality (negated : Bool) (a b : Json α) : Except Diagnostic (RuntimeValue α) :=
  if !a.isNull && !b.isNull && (a.isObject || b.isObject) then
    .error ⟨.unsupported, "object comparison".toList⟩
  else .ok ⟨.bool (a.strictEq b != negated), false⟩

/-- The order of two numbers or of two strings. -/
def comparison (operator : BinaryOp) (number : α → α → Bool) (text : Text → Text → Bool) (a b : Json α) :
    Except Diagnostic (RuntimeValue α) :=
  match a, b with
  | .number a, .number b => .ok ⟨.bool (number a b), false⟩
  | .string a, .string b => .ok ⟨.bool (text a b), false⟩
  | _, _ => .error ⟨.type, operator.text⟩

def arithmetic (operator : BinaryOp) (left right : RuntimeValue α) (f : α → α → Bool → RuntimeValue α) :
    Except Diagnostic (RuntimeValue α) :=
  match left.value, right.value with
  | .number a, .number b => .ok (f a b (left.integer && right.integer))
  | _, _ => .error ⟨.type, operator.text⟩

/-- An operator whose operands are evaluated. -/
def binaryValue (operator : BinaryOp) (left right : RuntimeValue α) : Except Diagnostic (RuntimeValue α) :=
  match operator with
  | .eq => equality false left.value right.value
  | .ne => equality true left.value right.value
  | .lt => comparison .lt Numbers.lt textLt left.value right.value
  | .le => comparison .le Numbers.le (fun a b => !textLt b a) left.value right.value
  | .gt => comparison .gt (fun a b => Numbers.lt b a) (fun a b => textLt b a) left.value right.value
  | .ge => comparison .ge (fun a b => Numbers.le b a) (fun a b => !textLt a b) left.value right.value
  | .add =>
    match left.value, right.value with
    | .string a, .string b => .ok ⟨.string (a ++ b), false⟩
    | _, _ => arithmetic .add left right fun a b integer => ⟨.number (Numbers.add a b), integer⟩
  | .sub => arithmetic .sub left right fun a b integer => ⟨.number (Numbers.sub a b), integer⟩
  | .mul => arithmetic .mul left right fun a b integer => ⟨.number (Numbers.mul a b), integer⟩
  | .div => arithmetic .div left right fun a b _ => ⟨.number (Numbers.div a b), false⟩
  | .mod =>
    match left.value, right.value with
    | .number a, .number b =>
      if left.integer && right.integer then .ok ⟨.number (Numbers.mod a b), true⟩
      else .error ⟨.type, "integer modulo".toList⟩
    | _, _ => .error ⟨.type, BinaryOp.mod.text⟩
  | .and | .or => .error ⟨.unsupported, operator.text⟩

def unaryValue (operator : UnaryOp) (operand : RuntimeValue α) : Except Diagnostic (RuntimeValue α) := do
  match operator with
  | .not => return ⟨.bool (!(← operand.boolean)), false⟩
  | .plus =>
    let (value, integer) ← operand.numeric
    return ⟨.number value, integer⟩
  | .minus =>
    let (value, integer) ← operand.numeric
    return ⟨.number (Numbers.neg value), integer⟩

/-- The headers of a request, by their names; a later one replaces an earlier one. -/
def headerValue (platform : Platform α) (request : RequestContext α) (name : Text) : Text :=
  let headers := request.headers.filterMap fun (name, raw) =>
    let key := platform.toLowerCase (trim name)
    let value := trim raw
    if key ≠ [] ∧ value ≠ [] then some (key, value) else none
  (headers.reverse.lookup (platform.toLowerCase (trim name))).getD []

/-- A call with its argument evaluated. -/
def callOne (platform : Platform α) (context : Context α) (name : Func₁) (arg : RuntimeValue α) :
    Run α (RuntimeValue α) := do
  match name with
  | .fixed =>
    let (amount, _) ← arg.numeric
    modify fun s => { s with billingUnit := .request, fixedPrice := some amount }
    return ⟨.number (Numbers.mul amount million), false⟩
  | .param =>
    let path ← arg.text
    match context.request with
    | none => throw ⟨.missingContext, "request body".toList⟩
    | some request => return ⟨← readRequestPath request.body path, false⟩
  | .header =>
    let name ← arg.text
    match context.request with
    | none => throw ⟨.missingContext, "request headers".toList⟩
    | some request => return ⟨.string (headerValue platform request name), false⟩
  | .u =>
    let name ← arg.text
    match context.usage with
    | none => throw ⟨.missingContext, "task usage".toList⟩
    | some usage => return ⟨(usage.lookup name).getD .null, false⟩
  | .time name =>
    let zone ← arg.text
    let values ← timeInBillingZone platform context.now (trim zone)
    return ⟨.number (ofInt (values name)), true⟩
  | .abs =>
    let (value, _) ← arg.numeric
    return ⟨.number (Numbers.abs value), false⟩
  | .ceil =>
    let (value, _) ← arg.numeric
    return ⟨.number (Numbers.ceil value), false⟩
  | .floor =>
    let (value, _) ← arg.numeric
    return ⟨.number (Numbers.floor value), false⟩

/-- `source != null && substring !== '' && billingString(source).includes(substring)`. -/
def hasValue (platform : Platform α) (source : Json α) (substring : Text) :
    Except Diagnostic (RuntimeValue α) :=
  if source.isNull ∨ substring = [] then .ok ⟨.bool false, false⟩
  else do
    let text ← billingString platform source 0
    return ⟨.bool (includes text substring), false⟩

/-- A node whose parent is at the depth. -/
def evaluate (platform : Platform α) (context : Context α) : ExpressionNode α → ℕ → Run α (RuntimeValue α)
  | .literal value, depth => do
    checkEvaluationDepth (depth + 1)
    checkValue value.runtimeValue
  | .var name, depth => do
    checkEvaluationDepth (depth + 1)
    checkValue (← readVariable context name)
  | .call₁ name arg, depth => do
    checkEvaluationDepth (depth + 1)
    checkValue (← callOne platform context name (← evaluate platform context arg (depth + 1)))
  | .call₂ .tier arg₁ arg₂, depth => do
    checkEvaluationDepth (depth + 1)
    let name ← (← evaluate platform context arg₁ (depth + 1)).text
    let (value, _) ← (← evaluate platform context arg₂ (depth + 1)).numeric
    modify fun s => { s with matchedTier := name }
    checkValue ⟨.number value, false⟩
  | .call₂ .has arg₁ arg₂, depth => do
    checkEvaluationDepth (depth + 1)
    let source ← evaluate platform context arg₁ (depth + 1)
    let substring ← (← evaluate platform context arg₂ (depth + 1)).text
    checkValue (← hasValue platform source.value substring)
  | .call₂ .min arg₁ arg₂, depth => do
    checkEvaluationDepth (depth + 1)
    let (a, _) ← (← evaluate platform context arg₁ (depth + 1)).numeric
    let (b, _) ← (← evaluate platform context arg₂ (depth + 1)).numeric
    checkValue ⟨.number (Numbers.min a b), false⟩
  | .call₂ .max arg₁ arg₂, depth => do
    checkEvaluationDepth (depth + 1)
    let (a, _) ← (← evaluate platform context arg₁ (depth + 1)).numeric
    let (b, _) ← (← evaluate platform context arg₂ (depth + 1)).numeric
    checkValue ⟨.number (Numbers.max a b), false⟩
  | .unary operator operand, depth => do
    checkEvaluationDepth (depth + 1)
    checkValue (← unaryValue operator (← evaluate platform context operand (depth + 1)))
  | .binary .and left right, depth => do
    checkEvaluationDepth (depth + 1)
    if ← (← evaluate platform context left (depth + 1)).boolean then
      checkValue ⟨.bool (← (← evaluate platform context right (depth + 1)).boolean), false⟩
    else checkValue ⟨.bool false, false⟩
  | .binary .or left right, depth => do
    checkEvaluationDepth (depth + 1)
    if ← (← evaluate platform context left (depth + 1)).boolean then checkValue ⟨.bool true, false⟩
    else checkValue ⟨.bool (← (← evaluate platform context right (depth + 1)).boolean), false⟩
  | .binary operator left right, depth => do
    checkEvaluationDepth (depth + 1)
    let left ← evaluate platform context left (depth + 1)
    let right ← evaluate platform context right (depth + 1)
    checkValue (← binaryValue operator left right)
  | .conditional condition yes no, depth => do
    checkEvaluationDepth (depth + 1)
    if ← (← evaluate platform context condition (depth + 1)).boolean then
      checkValue (← evaluate platform context yes (depth + 1))
    else checkValue (← evaluate platform context no (depth + 1))

section EvaluateEq

variable (platform : Platform α) (context : Context α) (depth : ℕ)

theorem evaluate_literal_eq (value : Literal α) :
    evaluate platform context (.literal value) depth = (do
      checkEvaluationDepth (depth + 1)
      checkValue value.runtimeValue) := rfl

theorem evaluate_var_eq (name : Variable) :
    evaluate platform context (.var name) depth = (do
      checkEvaluationDepth (depth + 1)
      checkValue (← readVariable context name)) := rfl

theorem evaluate_call₁_eq (name : Func₁) (arg : ExpressionNode α) :
    evaluate platform context (.call₁ name arg) depth = (do
      checkEvaluationDepth (depth + 1)
      checkValue (← callOne platform context name (← evaluate platform context arg (depth + 1)))) := rfl

variable (arg₁ arg₂ : ExpressionNode α)

theorem evaluate_tier_eq : evaluate platform context (.call₂ .tier arg₁ arg₂) depth = (do
      checkEvaluationDepth (depth + 1)
      let name ← (← evaluate platform context arg₁ (depth + 1)).text
      let (value, _) ← (← evaluate platform context arg₂ (depth + 1)).numeric
      modify fun s => { s with matchedTier := name }
      checkValue ⟨.number value, false⟩) := rfl

theorem evaluate_min_eq : evaluate platform context (.call₂ .min arg₁ arg₂) depth = (do
      checkEvaluationDepth (depth + 1)
      let (a, _) ← (← evaluate platform context arg₁ (depth + 1)).numeric
      let (b, _) ← (← evaluate platform context arg₂ (depth + 1)).numeric
      checkValue ⟨.number (Numbers.min a b), false⟩) := rfl

theorem evaluate_max_eq : evaluate platform context (.call₂ .max arg₁ arg₂) depth = (do
      checkEvaluationDepth (depth + 1)
      let (a, _) ← (← evaluate platform context arg₁ (depth + 1)).numeric
      let (b, _) ← (← evaluate platform context arg₂ (depth + 1)).numeric
      checkValue ⟨.number (Numbers.max a b), false⟩) := rfl

theorem evaluate_unary_eq (operator : UnaryOp) (operand : ExpressionNode α) :
    evaluate platform context (.unary operator operand) depth = (do
      checkEvaluationDepth (depth + 1)
      checkValue (← unaryValue operator (← evaluate platform context operand (depth + 1)))) := rfl

theorem evaluate_and_eq (left right : ExpressionNode α) :
    evaluate platform context (.binary .and left right) depth = (do
      checkEvaluationDepth (depth + 1)
      if ← (← evaluate platform context left (depth + 1)).boolean then
        checkValue ⟨.bool (← (← evaluate platform context right (depth + 1)).boolean), false⟩
      else checkValue ⟨.bool false, false⟩) := rfl

theorem evaluate_or_eq (left right : ExpressionNode α) :
    evaluate platform context (.binary .or left right) depth = (do
      checkEvaluationDepth (depth + 1)
      if ← (← evaluate platform context left (depth + 1)).boolean then checkValue ⟨.bool true, false⟩
      else checkValue ⟨.bool (← (← evaluate platform context right (depth + 1)).boolean), false⟩) := rfl

theorem evaluate_operator_eq {operator : BinaryOp} (hand : operator ≠ .and) (hor : operator ≠ .or)
    (left right : ExpressionNode α) :
    evaluate platform context (.binary operator left right) depth = (do
      checkEvaluationDepth (depth + 1)
      let left ← evaluate platform context left (depth + 1)
      let right ← evaluate platform context right (depth + 1)
      checkValue (← binaryValue operator left right)) := by
  cases operator with
  | and => exact absurd rfl hand
  | or => exact absurd rfl hor
  | _ => rfl

theorem evaluate_conditional_eq (condition yes no : ExpressionNode α) :
    evaluate platform context (.conditional condition yes no) depth = (do
      checkEvaluationDepth (depth + 1)
      if ← (← evaluate platform context condition (depth + 1)).boolean then
        checkValue (← evaluate platform context yes (depth + 1))
      else checkValue (← evaluate platform context no (depth + 1))) := rfl

end EvaluateEq

def initialState : State α := ⟨[], .token, none⟩

/-- A condition that depends on the time alone; what cannot be evaluated without more is unknown. -/
def evaluateBillingCondition (platform : Platform α) (node : ExpressionNode α) (now : Instant) :
    Option Bool :=
  match evaluate platform ⟨none, [], none, none, now⟩ node 0 initialState with
  | .ok (⟨.bool value, _⟩, _) => some value
  | _ => none

structure EvaluationResult (α : Type) where
  cost : α
  billingUnit : BillingUnit
  imageCount : Option α
  fixedPrice : Option α
  matchedTier : Text

/-- Every count of the context is a finite number that is not negative. -/
def checkTokens (tokens : List (Variable × α)) : Except Diagnostic Unit :=
  match tokens.find? fun token => !isFinite token.2 || Numbers.lt token.2 zero with
  | some token => .error ⟨.number, token.1.name⟩
  | none => .ok ()

def evaluateBillingExpression (platform : Platform α) (compiled : Compiled α) (context : Context α) :
    Except Diagnostic (EvaluationResult α) := do
  checkTokens context.tokens
  let (result, state) ← evaluate platform context compiled.ast 0 initialState
  match result.value with
  | .number cost =>
    if !isFinite cost || Numbers.lt cost zero then .error ⟨.number, "billing result".toList⟩
    else
      return {
        cost
        billingUnit := state.billingUnit
        imageCount :=
          if compiled.dependencies.vars.any (· = .image_count) then some (context.imageCount.getD one)
          else none
        fixedPrice := state.fixedPrice
        matchedTier := state.matchedTier }
  | _ => .error ⟨.number, "billing result".toList⟩

theorem checkEvaluationDepth_of_lt {depth : ℕ} (h : depth < maxDepth) : checkEvaluationDepth (depth + 1) = .ok () := by
  rw [checkEvaluationDepth, if_neg (by omega)]

end

end Vancine.Expression
