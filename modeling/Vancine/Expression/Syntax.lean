import Vancine.Expression.Numbers
import Vancine.Pricing.RequestRules

/-!
# Trees of the expression language

The tree that the browser's parser builds. How many arguments a call has is part of its name, as the parser
checks it there. A node also carries its place in the source, for messages and for patching texts; trees
are the same here when they are the same up to that.
-/

namespace Vancine.Expression

open Pricing (Text TimeFunc)

/-- `BILLING_VARIABLES`. -/
inductive Variable
  | p
  | c
  | len
  | cr
  | cc
  | cc1h
  | img
  | img_cr
  | img_o
  | ai
  | ao
  | image_count
  deriving DecidableEq

/-- The functions of one argument. -/
inductive Func₁
  | fixed
  | param
  | header
  | u
  | time (name : TimeFunc)
  | abs
  | ceil
  | floor
  deriving DecidableEq

/-- The functions of two arguments. -/
inductive Func₂
  | tier
  | has
  | min
  | max
  deriving DecidableEq

/-- `BILLING_FUNCTIONS`. -/
inductive Func
  | one (name : Func₁)
  | two (name : Func₂)
  deriving DecidableEq

inductive UnaryOp
  | not
  | plus
  | minus
  deriving DecidableEq

inductive BinaryOp
  | or
  | and
  | eq
  | ne
  | lt
  | le
  | gt
  | ge
  | add
  | sub
  | mul
  | div
  | mod
  deriving DecidableEq

inductive Literal (α : Type)
  | number (value : α) (integer : Bool)
  | string (value : Text)
  | boolean (value : Bool)
  | nil
  deriving DecidableEq

inductive ExpressionNode (α : Type)
  | literal (value : Literal α)
  | var (name : Variable)
  | call₁ (name : Func₁) (arg : ExpressionNode α)
  | call₂ (name : Func₂) (arg₁ arg₂ : ExpressionNode α)
  | unary (operator : UnaryOp) (operand : ExpressionNode α)
  | binary (operator : BinaryOp) (left right : ExpressionNode α)
  | conditional (condition yes no : ExpressionNode α)
  deriving DecidableEq

/-! ## Names -/

def Variable.name : Variable → Text
  | .p => "p".toList
  | .c => "c".toList
  | .len => "len".toList
  | .cr => "cr".toList
  | .cc => "cc".toList
  | .cc1h => "cc1h".toList
  | .img => "img".toList
  | .img_cr => "img_cr".toList
  | .img_o => "img_o".toList
  | .ai => "ai".toList
  | .ao => "ao".toList
  | .image_count => "image_count".toList

def Func₁.name : Func₁ → Text
  | .fixed => "fixed".toList
  | .param => "param".toList
  | .header => "header".toList
  | .u => "u".toList
  | .time name => name.name
  | .abs => "abs".toList
  | .ceil => "ceil".toList
  | .floor => "floor".toList

def Func₂.name : Func₂ → Text
  | .tier => "tier".toList
  | .has => "has".toList
  | .min => "min".toList
  | .max => "max".toList

def UnaryOp.text : UnaryOp → Text
  | .not => "!".toList
  | .plus => "+".toList
  | .minus => "-".toList

def BinaryOp.text : BinaryOp → Text
  | .or => "||".toList
  | .and => "&&".toList
  | .eq => "==".toList
  | .ne => "!=".toList
  | .lt => "<".toList
  | .le => "<=".toList
  | .gt => ">".toList
  | .ge => ">=".toList
  | .add => "+".toList
  | .sub => "-".toList
  | .mul => "*".toList
  | .div => "/".toList
  | .mod => "%".toList

/-! ## Diagnostics -/

inductive DiagnosticCode
  | syntaxError
  | unsupported
  | missingContext
  | type
  | number
  | limit
  deriving DecidableEq

structure Diagnostic where
  code : DiagnosticCode
  detail : Text
  deriving DecidableEq

section
variable {ε α β : Type}

@[simp] theorem ok_bind (a : α) (f : α → Except ε β) : (Except.ok a >>= f) = f a := rfl

@[simp] theorem error_bind (e : ε) (f : α → Except ε β) : (Except.error e >>= f) = .error e := rfl

theorem pure_eq_ok (a : α) : (pure a : Except ε α) = .ok a := rfl

theorem ok_of_bind {x : Except ε α} {f : α → Except ε β} {b : β} (h : x >>= f = .ok b) :
    ∃ a, x = .ok a ∧ f a = .ok b := by
  cases x with
  | ok a => exact ⟨a, rfl, h⟩
  | error e => exact nomatch h

end

/-! ## Walking a tree -/

/-- No node deeper than this is visited. -/
def maxDepth : ℕ := 256

def checkDepth (depth : ℕ) : Except Diagnostic Unit :=
  if depth > maxDepth then .error ⟨.limit, "expression depth".toList⟩ else .ok ()

section
variable {α σ : Type}

/-- Each node after its children, which are visited from the left; `depth` is that of the node. -/
def visitExpression (visitor : ExpressionNode α → σ → Except Diagnostic σ) :
    ExpressionNode α → ℕ → σ → Except Diagnostic σ
  | .literal value, depth, s => do
    checkDepth depth
    visitor (.literal value) s
  | .var name, depth, s => do
    checkDepth depth
    visitor (.var name) s
  | .call₁ name arg, depth, s => do
    checkDepth depth
    let s ← visitExpression visitor arg (depth + 1) s
    visitor (.call₁ name arg) s
  | .call₂ name arg₁ arg₂, depth, s => do
    checkDepth depth
    let s ← visitExpression visitor arg₁ (depth + 1) s
    let s ← visitExpression visitor arg₂ (depth + 1) s
    visitor (.call₂ name arg₁ arg₂) s
  | .unary operator operand, depth, s => do
    checkDepth depth
    let s ← visitExpression visitor operand (depth + 1) s
    visitor (.unary operator operand) s
  | .binary operator left right, depth, s => do
    checkDepth depth
    let s ← visitExpression visitor left (depth + 1) s
    let s ← visitExpression visitor right (depth + 1) s
    visitor (.binary operator left right) s
  | .conditional condition yes no, depth, s => do
    checkDepth depth
    let s ← visitExpression visitor condition (depth + 1) s
    let s ← visitExpression visitor yes (depth + 1) s
    let s ← visitExpression visitor no (depth + 1) s
    visitor (.conditional condition yes no) s

structure Dependencies where
  vars : List Variable
  functions : List Func
  deriving DecidableEq

def addDependency (node : ExpressionNode α) (found : Dependencies) : Dependencies :=
  match node with
  | .var name => { found with vars := name :: found.vars }
  | .call₁ name _ => { found with functions := .one name :: found.functions }
  | .call₂ name _ _ => { found with functions := .two name :: found.functions }
  | _ => found

def expressionDependencies (node : ExpressionNode α) : Except Diagnostic Dependencies :=
  visitExpression (fun part found => .ok (addDependency part found)) node 0 ⟨[], []⟩

end

namespace ExpressionNode

variable {α : Type}

/-- How deep the deepest node is; the root is at 0. -/
def depth : ExpressionNode α → ℕ
  | .literal _ | .var _ => 0
  | .call₁ _ arg => arg.depth + 1
  | .call₂ _ arg₁ arg₂ => max arg₁.depth arg₂.depth + 1
  | .unary _ operand => operand.depth + 1
  | .binary _ left right => max left.depth right.depth + 1
  | .conditional condition yes no => max condition.depth (max yes.depth no.depth) + 1

/-- The nodes, each after its children. -/
def postorder : ExpressionNode α → List (ExpressionNode α)
  | .literal value => [.literal value]
  | .var name => [.var name]
  | .call₁ name arg => arg.postorder ++ [.call₁ name arg]
  | .call₂ name arg₁ arg₂ => arg₁.postorder ++ arg₂.postorder ++ [.call₂ name arg₁ arg₂]
  | .unary operator operand => operand.postorder ++ [.unary operator operand]
  | .binary operator left right => left.postorder ++ right.postorder ++ [.binary operator left right]
  | .conditional condition yes no =>
    condition.postorder ++ yes.postorder ++ no.postorder ++ [.conditional condition yes no]

/-- A function that is called somewhere in the tree. -/
def calls (p : Func → Bool) : ExpressionNode α → Bool
  | .literal _ | .var _ => false
  | .call₁ name arg => p (.one name) || arg.calls p
  | .call₂ name arg₁ arg₂ => p (.two name) || arg₁.calls p || arg₂.calls p
  | .unary _ operand => operand.calls p
  | .binary _ left right => left.calls p || right.calls p
  | .conditional condition yes no => condition.calls p || yes.calls p || no.calls p

/-- A variable that is read somewhere in the tree. -/
def reads (p : Variable → Bool) : ExpressionNode α → Bool
  | .literal _ => false
  | .var name => p name
  | .call₁ _ arg => arg.reads p
  | .call₂ _ arg₁ arg₂ => arg₁.reads p || arg₂.reads p
  | .unary _ operand => operand.reads p
  | .binary _ left right => left.reads p || right.reads p
  | .conditional condition yes no => condition.reads p || yes.reads p || no.reads p

def isCall (p : Func → Bool) : ExpressionNode α → Bool
  | .call₁ name _ => p (.one name)
  | .call₂ name _ _ => p (.two name)
  | _ => false

def isVar (p : Variable → Bool) : ExpressionNode α → Bool
  | .var name => p name
  | _ => false

theorem any_postorder_isCall (p : Func → Bool) (node : ExpressionNode α) :
    node.postorder.any (isCall p) = node.calls p := by
  induction node with
  | literal _ | var _ => rfl
  | call₁ _ a iha | unary _ a iha => simp [postorder, calls, isCall, iha, Bool.or_comm]
  | call₂ _ a b iha ihb | binary _ a b iha ihb =>
    simp [postorder, calls, isCall, iha, ihb, Bool.or_comm, Bool.or_left_comm]
  | conditional a b c iha ihb ihc => simp [postorder, calls, isCall, iha, ihb, ihc, Bool.or_assoc]

theorem any_postorder_isVar (p : Variable → Bool) (node : ExpressionNode α) :
    node.postorder.any (isVar p) = node.reads p := by
  induction node with
  | literal _ | var _ => simp [postorder, reads, isVar]
  | call₁ _ a iha | unary _ a iha => simp [postorder, reads, isVar, iha]
  | call₂ _ a b iha ihb | binary _ a b iha ihb => simp [postorder, reads, isVar, iha, ihb]
  | conditional a b c iha ihb ihc => simp [postorder, reads, isVar, iha, ihb, ihc, Bool.or_assoc]

theorem mem_postorder_self (node : ExpressionNode α) : node ∈ node.postorder := by
  cases node <;> simp [postorder]

end ExpressionNode

section
variable {α σ : Type} {visitor : ExpressionNode α → σ → Except Diagnostic σ}

theorem checkDepth_of_le {depth : ℕ} (h : depth ≤ maxDepth) : checkDepth depth = .ok () := by
  rw [checkDepth, if_neg (by omega)]

theorem visitExpression_eq (node : ExpressionNode α) : ∀ (depth : ℕ) (s : σ), depth + node.depth ≤ maxDepth →
      visitExpression visitor node depth s = node.postorder.foldlM (fun s part => visitor part s) s := by
  induction node with
  | literal value | var name =>
    intro depth s h
    simp only [ExpressionNode.depth] at h
    simp only [visitExpression, checkDepth_of_le (by omega : depth ≤ maxDepth), ok_bind,
      ExpressionNode.postorder, List.foldlM_cons, List.foldlM_nil, bind_pure]
  | call₁ _ arg ih | unary _ arg ih =>
    intro depth s h
    simp only [ExpressionNode.depth] at h
    simp only [visitExpression, checkDepth_of_le (by omega : depth ≤ maxDepth), ok_bind,
      ih (depth + 1) s (by omega), ExpressionNode.postorder, List.foldlM_append, List.foldlM_cons,
      List.foldlM_nil, bind_pure]
  | call₂ _ a b iha ihb | binary _ a b iha ihb =>
    intro depth s h
    simp only [ExpressionNode.depth] at h
    have hb : ∀ s, _ := fun s => ihb (depth + 1) s (by omega)
    simp only [visitExpression, checkDepth_of_le (by omega : depth ≤ maxDepth), ok_bind,
      iha (depth + 1) s (by omega), hb, ExpressionNode.postorder, List.foldlM_append, List.foldlM_cons,
      List.foldlM_nil, bind_pure, bind_assoc]
  | conditional a b c iha ihb ihc =>
    intro depth s h
    simp only [ExpressionNode.depth] at h
    have hb : ∀ s, _ := fun s => ihb (depth + 1) s (by omega)
    have hc : ∀ s, _ := fun s => ihc (depth + 1) s (by omega)
    simp only [visitExpression, checkDepth_of_le (by omega : depth ≤ maxDepth), ok_bind,
      iha (depth + 1) s (by omega), hb, hc, ExpressionNode.postorder, List.foldlM_append,
      List.foldlM_cons, List.foldlM_nil, bind_pure, bind_assoc]

end

section
variable {α : Type}

theorem foldlM_ok {σ β : Type} (f : σ → β → σ) (l : List β) :
    ∀ s : σ, l.foldlM (fun s b => (Except.ok (f s b) : Except Diagnostic σ)) s = .ok (l.foldl f s) := by
  induction l with
  | nil => intro s; rfl
  | cons b l ih => intro s; exact ih (f s b)

/-- A list of nodes adds to the functions found so far what its nodes call. -/
theorem functions_foldl (p : Func → Bool) (l : List (ExpressionNode α)) : ∀ found : Dependencies,
      (l.foldl (fun found part => addDependency part found) found).functions.any p
        = (l.any (ExpressionNode.isCall p) || found.functions.any p) := by
  induction l with
  | nil => intro found; rfl
  | cons part l ih =>
    intro found
    have hadd : (addDependency part found).functions.any p
        = (part.isCall p || found.functions.any p) := by
      cases part <;> rfl
    rw [List.foldl_cons, ih, hadd, List.any_cons, Bool.or_assoc, Bool.or_left_comm]

theorem vars_foldl (p : Variable → Bool) (l : List (ExpressionNode α)) : ∀ found : Dependencies,
      (l.foldl (fun found part => addDependency part found) found).vars.any p
        = (l.any (ExpressionNode.isVar p) || found.vars.any p) := by
  induction l with
  | nil => intro found; rfl
  | cons part l ih =>
    intro found
    have hadd : (addDependency part found).vars.any p = (part.isVar p || found.vars.any p) := by
      cases part <;> rfl
    rw [List.foldl_cons, ih, hadd, List.any_cons, Bool.or_assoc, Bool.or_left_comm]

/-- The dependencies of a tree within the limit are what it calls and reads. -/
theorem expressionDependencies_spec {node : ExpressionNode α} (h : node.depth ≤ maxDepth) :
    ∃ found, expressionDependencies node = .ok found ∧ (∀ p, found.functions.any p = node.calls p) ∧
      ∀ p, found.vars.any p = node.reads p := by
  refine ⟨node.postorder.foldl (fun found part => addDependency part found) ⟨[], []⟩, ?_, ?_, ?_⟩
  · rw [expressionDependencies, visitExpression_eq node 0 _ (by omega), foldlM_ok]
  · intro p
    rw [functions_foldl, List.any_nil, Bool.or_false, ExpressionNode.any_postorder_isCall]
  · intro p
    rw [vars_foldl, List.any_nil, Bool.or_false, ExpressionNode.any_postorder_isVar]

end

/-! ## The numbers of a tree -/

section
variable {α : Type} [Numbers α]

/-- What the parser accepts as a number. -/
def Literal.valid : Literal α → Bool
  | .number value integer => isFinite value && isNonnegative value && (!integer || isSafeInteger value)
  | _ => true

/-- Every number of the tree is one that the parser accepts. -/
def ExpressionNode.valid : ExpressionNode α → Bool
  | .literal value => value.valid
  | .var _ => true
  | .call₁ _ arg => arg.valid
  | .call₂ _ arg₁ arg₂ => arg₁.valid && arg₂.valid
  | .unary _ operand => operand.valid
  | .binary _ left right => left.valid && right.valid
  | .conditional condition yes no => condition.valid && yes.valid && no.valid

end

end Vancine.Expression
