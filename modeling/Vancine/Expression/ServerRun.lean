import Vancine.Expression.ServerTree

/-!
# Running an expression on the server

Before it is compiled, every request rule of an expression is replaced by a call that records whether the
rule matched. A run then calls `tier`, `fixed` and the recording functions of the host, in the order in
which the program evaluates them, and the trace is what these calls leave.

The virtual machine is a library. `Vm` says of it what its language definition says: which operands a node
evaluates and in which order, and that only the names `tier` and `fixed` lead to these functions. A program
also reaches them through `$env`, the map of everything the host passes in.
-/

namespace Vancine.Expression.Server

open Pricing (Text)

/-! ## Request rules -/

structure RequestRuleTrace (α : Type) where
  cond : Node α
  multiplier : α
  matched : Bool

section
variable {α : Type} [Numbers α]

/-- `Visit` of a conditional whose parts are patched. -/
def patchConditional (ternary : Bool) (cond exp1 exp2 : Node α) (rules : List (RequestRuleTrace α)) :
    Node α × List (RequestRuleTrace α) :=
  if !ternary || !usesRequestProbe cond then (.conditional ternary cond exp1 exp2, rules)
  else match requestRuleNumber exp1, requestRuleNumber exp2 with
  | some multiplier, some fallback =>
    if Numbers.eq fallback one then
      let call := match exp1, exp2 with
        | .integer _, .integer _ =>
          Node.call (.identifier "_trace_int".toList) [.integer rules.length, cond, exp1]
        | _, _ => .call (.identifier "_trace".toList) [.integer rules.length, cond, .float multiplier]
      (call, rules ++ [⟨cond, multiplier, false⟩])
    else (.conditional ternary cond exp1 exp2, rules)
  | _, _ => (.conditional ternary cond exp1 exp2, rules)

mutual

/-- `requestRulePatcher`, on each node after its children. -/
def Node.patch : Node α → List (RequestRuleTrace α) → Node α × List (RequestRuleTrace α)
  | .nil, rules => (.nil, rules)
  | .identifier value, rules => (.identifier value, rules)
  | .integer value, rules => (.integer value, rules)
  | .float value, rules => (.float value, rules)
  | .bool value, rules => (.bool value, rules)
  | .string value, rules => (.string value, rules)
  | .unary operator node, rules =>
    let node := node.patch rules
    (.unary operator node.1, node.2)
  | .binary operator left right, rules =>
    let left := left.patch rules
    let right := right.patch left.2
    (.binary operator left.1 right.1, right.2)
  | .conditional ternary cond exp1 exp2, rules =>
    let cond := cond.patch rules
    let exp1 := exp1.patch cond.2
    let exp2 := exp2.patch exp1.2
    patchConditional ternary cond.1 exp1.1 exp2.1 exp2.2
  | .member node property, rules =>
    let node := node.patch rules
    let property := property.patch node.2
    (.member node.1 property.1, property.2)
  | .call callee arguments, rules =>
    let callee := callee.patch rules
    let arguments := patchAll arguments callee.2
    (.call callee.1 arguments.1, arguments.2)
  | .builtin name arguments, rules =>
    let arguments := patchAll arguments rules
    (.builtin name arguments.1, arguments.2)
  | .other kind parts, rules =>
    let parts := patchAll parts rules
    (.other kind parts.1, parts.2)

def patchAll : List (Node α) → List (RequestRuleTrace α) → List (Node α) × List (RequestRuleTrace α)
  | [], rules => ([], rules)
  | node :: nodes, rules =>
    let node := node.patch rules
    let nodes := patchAll nodes node.2
    (node.1 :: nodes.1, nodes.2)

end

end

/-! ## Values and calls -/

inductive Value (α : Type)
  | int (value : ℤ)
  | float (value : α)
  | bool (value : Bool)
  | string (value : Text)
  | nil
  deriving DecidableEq

/-- A call of the host that leaves something in the trace. -/
inductive Event (α : Type)
  | tier (name : Text) (value : α)
  | fixed (amount : α)
  | rule (index : ℤ) (matched : Bool)
  deriving DecidableEq

section
variable {α : Type} [Numbers α]

def Value.toFloat : Value α → Option α
  | .int value => some (ofInt value)
  | .float value => some value
  | _ => none

/-- The product of two integers is an integer of 64 bits, any other product of numbers is a `float64`. -/
def Value.mul : Value α → Value α → Option (Value α)
  | .int a, .int b => some (.int ((a * b).bmod (2 ^ 64)))
  | a, b => do
    let a ← a.toFloat
    let b ← b.toFloat
    return .float (Numbers.mul a b)

end

/-- What the host passes in: the number of images, and everything else a run depends on. -/
structure Env (Context : Type) where
  imageCount : ℤ
  context : Context

local instance lawfulFields : LawfulBEq (List Char) := inferInstance

/-- `$env.name`, with a name other than those of the pricing functions. -/
def isEnvField {α : Type} : Node α → Node α → Bool
  | .identifier value, .string name => value = "$env".toList && name ∉ pricingMarkers
  | _, _ => false

mutual

/-- `$env` is read at most as `$env.name`, with a name other than those of the pricing functions. -/
def Node.envSafe {α : Type} : Node α → Bool
  | .nil => true
  | .identifier value => value ≠ "$env".toList
  | .integer _ => true
  | .float _ => true
  | .bool _ => true
  | .string _ => true
  | .unary _ node => node.envSafe
  | .binary _ left right => left.envSafe && right.envSafe
  | .conditional _ cond exp1 exp2 => cond.envSafe && exp1.envSafe && exp2.envSafe
  | .member node property => isEnvField node property || node.envSafe && property.envSafe
  | .call callee arguments => callee.envSafe && allEnvSafe arguments
  | .builtin _ arguments => allEnvSafe arguments
  | .other _ parts => allEnvSafe parts

def allEnvSafe {α : Type} : List (Node α) → Bool
  | [] => true
  | node :: nodes => node.envSafe && allEnvSafe nodes

end

/-- The virtual machine. A run that fails returns no value. -/
structure Vm (α Context : Type) [Numbers α] where
  run : Env Context → Node α → Except Text (List (Event α) × Value α)
  run_integer {env n es v} : run env (.integer n) = .ok (es, v) → es = [] ∧ v = .int n
  run_float {env a es v} : run env (.float a) = .ok (es, v) → es = [] ∧ v = .float a
  run_imageCount {env es v} : run env (.identifier "image_count".toList) = .ok (es, v) →
    es = [] ∧ v = .float (ofInt env.imageCount)
  run_conditional {env ternary cond exp1 exp2 es v} :
    run env (.conditional ternary cond exp1 exp2) = .ok (es, v) →
      ∃ es₁ es₂ matched, run env cond = .ok (es₁, .bool matched) ∧
        run env (if matched then exp1 else exp2) = .ok (es₂, v) ∧ es = es₁ ++ es₂
  run_mul {env left right es v} : run env (.binary "*".toList left right) = .ok (es, v) →
    ∃ es₁ es₂ a b, run env left = .ok (es₁, a) ∧ run env right = .ok (es₂, b) ∧ Value.mul a b = some v ∧
      es = es₁ ++ es₂
  run_tier {env name price es v} :
    run env (.call (.identifier "tier".toList) [name, price]) = .ok (es, v) →
      ∃ es₁ es₂ label a value, run env name = .ok (es₁, .string label) ∧ run env price = .ok (es₂, a) ∧
        a.toFloat = some value ∧ v = .float value ∧ es = es₁ ++ es₂ ++ [.tier label value]
  run_fixed {env argument es v} :
    run env (.call (.identifier "fixed".toList) [argument]) = .ok (es, v) →
      ∃ es₁ a amount, run env argument = .ok (es₁, a) ∧ a.toFloat = some amount ∧
        v = .float (Numbers.mul amount million) ∧ es = es₁ ++ [.fixed amount]
  run_trace {env index cond multiplier es v} :
    run env (.call (.identifier "_trace".toList) [.integer index, cond, .float multiplier]) = .ok (es, v) →
      ∃ es₁ matched, run env cond = .ok (es₁, .bool matched) ∧
        v = .float (if matched then multiplier else one) ∧ es = es₁ ++ [.rule index matched]
  run_traceInt {env index cond multiplier es v} :
    run env (.call (.identifier "_trace_int".toList) [.integer index, cond, .integer multiplier])
        = .ok (es, v) →
      ∃ es₁ matched, run env cond = .ok (es₁, .bool matched) ∧
        v = .int (if matched then multiplier else 1) ∧ es = es₁ ++ [.rule index matched]
  run_unmarked {env node es v} : run env node = .ok (es, v) → containsPricingMarker node = false →
    node.envSafe = true → ∀ event ∈ es, ∃ index matched, event = .rule index matched

/-! ## The trace -/

inductive BillingUnit
  | token
  | request
  deriving DecidableEq

structure TraceResult (α : Type) where
  imageCount : Option ℤ
  billingUnit : BillingUnit
  fixedPrice : Option α
  matchedTier : Text
  requestRules : List (RequestRuleTrace α)
  cost : α

section
variable {α : Type}

/-- What a call of the host writes. -/
def TraceResult.record (trace : TraceResult α) : Event α → TraceResult α
  | .tier name value => { trace with matchedTier := name, cost := value }
  | .fixed amount => { trace with billingUnit := .request, fixedPrice := some amount }
  | .rule index matched =>
    if matched ∧ 0 ≤ index then
      { trace with
        requestRules := trace.requestRules.modify index.toNat fun rule => { rule with matched := true } }
    else trace

/-- `dto.MaxImageN`. -/
def maxImageN : ℤ := 128

/-- The number of images of a run, checked when the program reads it. -/
def imageCountOf (usesImageCount : Bool) (requested : Option ℤ) : Except Text ℤ :=
  if usesImageCount then
    let imageCount := requested.getD 1
    if imageCount < 1 ∨ imageCount > maxImageN then
      .error "image_count must be between 1 and 128".toList
    else .ok imageCount
  else .ok 1

variable [Numbers α] {Context : Type}

def runProgram (vm : Vm α Context) (prog : Node α) (requestRules : List (RequestRuleTrace α))
    (usesImageCount : Bool) (requested : Option ℤ) (context : Context) : Except Text (α × TraceResult α) := do
  let imageCount ← imageCountOf usesImageCount requested
  let trace : TraceResult α :=
    { imageCount := if usesImageCount then some imageCount else none
      billingUnit := .token
      fixedPrice := none
      matchedTier := []
      requestRules
      cost := zero }
  match vm.run ⟨imageCount, context⟩ prog with
  | .error err => .error ("expr run error: ".toList ++ err)
  | .ok (calls, out) =>
    match out.toFloat with
    | some value => return (value, calls.foldl TraceResult.record trace)
    | none => .error "expr result is not a float64".toList

end

end Vancine.Expression.Server
