import Vancine.Expression.Phrases

/-!
# What a condition answers

The nodes of a condition change nothing in the state of a run. So what such a node evaluates to is said by a
computation without a state, and of a condition only its answer counts: yes, no, or none when the evaluation
stops.
-/

namespace Vancine.RuleFactors

open Expression
open Pricing (Text TimeFunc)

/-! ## Answers -/

/-- `&&`: the right side is asked only after a yes. -/
def both : Option Bool → Option Bool → Option Bool
  | some true, answer => answer
  | answer, _ => answer

/-- `||`: the right side is asked only after a no. -/
def either : Option Bool → Option Bool → Option Bool
  | some false, answer => answer
  | answer, _ => answer

@[simp] theorem both_true (a : Option Bool) : both a (some true) = a := by
  rcases a with _ | _ | _ <;> rfl

theorem both_assoc (a b c : Option Bool) : both (both a b) c = both a (both b c) := by
  rcases a with _ | _ | _ <;> rfl

/-- Conditions in their order, up to the first that is not met. -/
def all (answers : List (Option Bool)) : Option Bool := answers.foldr both (some true)

theorem all_cons (a : Option Bool) (answers : List (Option Bool)) : all (a :: answers) = both a (all answers) := rfl

theorem all_append (as bs : List (Option Bool)) : all (as ++ bs) = both (all as) (all bs) := by
  induction as with
  | nil => rfl
  | cons a as ih => rw [List.cons_append, all_cons, ih, all_cons, both_assoc]

/-! ## Evaluation without effects -/

section

variable {α : Type} [Numbers α]

/-- The node evaluates to the result at every depth where it fits, and leaves the state as it is. -/
def Gives (platform : Platform α) (context : Context α) (node : ExpressionNode α)
    (result : Except Diagnostic (RuntimeValue α)) : Prop :=
  ∀ (depth : ℕ) (s : State α), depth + node.depth < maxDepth →
    evaluate platform context node depth s = result >>= fun value => .ok (value, s)

/-- The answer of a result. -/
def answerOf (result : Except Diagnostic (RuntimeValue α)) : Option Bool :=
  (result >>= RuntimeValue.boolean).toOption

def Answers (platform : Platform α) (context : Context α) (node : ExpressionNode α) (answer : Option Bool) : Prop :=
  ∃ result, Gives platform context node result ∧ answerOf result = answer

variable {platform : Platform α} {context : Context α} {left right node : ExpressionNode α}
  {l r result : Except Diagnostic (RuntimeValue α)} {a b : Option Bool}

omit [Numbers α] in
theorem run_lift_bind {β γ : Type} (x : Except Diagnostic β) (f : β → Run α γ) (s : State α) :
    ((liftM x : Run α β) >>= f) s = x >>= fun v => f v s := by
  rw [run_bind, run_lift]
  cases x <;> rfl

theorem Gives.bind {γ : Type} (h : Gives platform context node result) (f : RuntimeValue α → Run α γ) {depth : ℕ}
    (s : State α) (hdepth : depth + node.depth < maxDepth) :
    (evaluate platform context node depth >>= f) s = result >>= fun v => f v s := by
  rw [run_bind, h depth s hdepth]
  cases result <;> rfl

theorem gives_literal (value : Literal α) (h : checkValue value.runtimeValue = .ok value.runtimeValue) :
    Gives platform context (.literal value) (.ok value.runtimeValue) := by
  intro depth s hdepth
  simp only [ExpressionNode.depth] at hdepth
  rw [evaluate_literal_eq, run_lift_bind, checkEvaluationDepth_of_lt (by omega), ok_bind, run_lift, h]

variable {value : RuntimeValue α} {operator : BinaryOp}

theorem gives_call₁ {name : Func₁} {arg : ExpressionNode α} (harg : Gives platform context arg (.ok value))
    (hcall : ∀ s, callOne platform context name value s = result >>= fun value => .ok (value, s)) :
    Gives platform context (.call₁ name arg) (result >>= checkValue) := by
  intro depth s hdepth
  simp only [ExpressionNode.depth] at hdepth
  rw [evaluate_call₁_eq, run_lift_bind, checkEvaluationDepth_of_lt (by omega), ok_bind, harg.bind _ s (by omega),
    ok_bind, run_bind, hcall]
  cases result <;> rfl

theorem gives_unary (operator : UnaryOp) (h : Gives platform context node (.ok value)) :
    Gives platform context (.unary operator node) (unaryValue operator value >>= checkValue) := by
  intro depth s hdepth
  simp only [ExpressionNode.depth] at hdepth
  rw [evaluate_unary_eq, run_lift_bind, checkEvaluationDepth_of_lt (by omega), ok_bind, h.bind _ s (by omega), ok_bind,
    run_lift_bind, bind_assoc]
  rfl

/-- `==`, `!=` and the ordered comparisons. -/
def isComparison : BinaryOp → Bool
  | .eq | .ne | .lt | .le | .gt | .ge => true
  | _ => false

theorem checkValue_binaryValue (h : isComparison operator = true) (x y : RuntimeValue α) :
    (binaryValue operator x y >>= checkValue) = binaryValue operator x y := by
  have hequality (negated : Bool) (v w : Json α) :
      (equality negated v w >>= checkValue) = equality negated v w := by
    unfold equality
    split_ifs <;> rfl
  have hcomparison (operator : BinaryOp) (number : α → α → Bool) (text : Text → Text → Bool) (v w : Json α) :
      (comparison operator number text v w >>= checkValue) = comparison operator number text v w := by
    unfold comparison
    split <;> rfl
  cases operator with
  | eq | ne => exact hequality _ _ _
  | lt | le | gt | ge => exact hcomparison _ _ _ _ _
  | _ => exact absurd h (by decide)

theorem gives_comparison (h : isComparison operator = true) (hl : Gives platform context left l)
    (hr : Gives platform context right r) : Gives platform context (.binary operator left right)
      (l >>= fun x => r >>= fun y => binaryValue operator x y) := by
  intro depth s hdepth
  simp only [ExpressionNode.depth] at hdepth
  have hand : operator ≠ .and := by
    rintro rfl
    cases h
  have hor : operator ≠ .or := by
    rintro rfl
    cases h
  rw [evaluate_operator_eq platform context depth hand hor, run_lift_bind, checkEvaluationDepth_of_lt (by omega),
    ok_bind, hl.bind _ s (by omega), bind_assoc]
  refine congrArg (l >>= ·) (funext fun x => ?_)
  rw [hr.bind _ s (by omega), bind_assoc]
  refine congrArg (r >>= ·) (funext fun y => ?_)
  rw [run_lift_bind]
  have hcheck := checkValue_binaryValue h x y
  cases hvalue : binaryValue operator x y with
  | error e => rfl
  | ok v =>
    rw [hvalue, ok_bind] at hcheck
    rw [ok_bind, ok_bind, run_lift, hcheck, ok_bind]

theorem gives_has {value : Except Diagnostic (RuntimeValue α)} {text : Text}
    (hl : Gives platform context left value) (hr : Gives platform context right (.ok ⟨.string text, false⟩)) :
    Gives platform context (.call₂ .has left right)
      (value >>= fun source => hasValue platform source.value text >>= checkValue) := by
  intro depth s hdepth
  simp only [ExpressionNode.depth] at hdepth
  have hrun : evaluate platform context (.call₂ .has left right) depth = (do
      checkEvaluationDepth (depth + 1)
      let source ← evaluate platform context left (depth + 1)
      let substring ← (← evaluate platform context right (depth + 1)).text
      checkValue (← hasValue platform source.value substring)) := rfl
  rw [hrun, run_lift_bind, checkEvaluationDepth_of_lt (by omega), ok_bind, hl.bind _ s (by omega), bind_assoc]
  refine congrArg (value >>= ·) (funext fun source => ?_)
  have htext : (⟨.string text, false⟩ : RuntimeValue α).text = .ok text := rfl
  rw [hr.bind _ s (by omega), ok_bind, run_lift_bind, htext, ok_bind, run_lift_bind]
  cases hasValue platform source.value text <;> rfl

/-! ## Conjunctions and disjunctions -/

theorem Answers.and (hl : Answers platform context left a) (hr : Answers platform context right b) :
    Answers platform context (.binary .and left right) (both a b) := by
  obtain ⟨l, hl, rfl⟩ := hl
  obtain ⟨r, hr, rfl⟩ := hr
  refine ⟨(l >>= RuntimeValue.boolean) >>= fun yes =>
    if yes then (r >>= RuntimeValue.boolean) >>= fun value => .ok ⟨.bool value, false⟩
    else .ok ⟨.bool false, false⟩, ?_, ?_⟩
  · intro depth s hdepth
    simp only [ExpressionNode.depth] at hdepth
    rw [evaluate_and_eq, run_lift_bind, checkEvaluationDepth_of_lt (by omega), ok_bind, hl.bind _ s (by omega),
      bind_assoc, bind_assoc]
    refine congrArg (l >>= ·) (funext fun x => ?_)
    rw [run_lift_bind]
    refine congrArg (x.boolean >>= ·) (funext fun yes => ?_)
    cases yes with
    | false => rfl
    | true =>
      rw [if_pos rfl, if_pos rfl, hr.bind _ s (by omega), bind_assoc, bind_assoc]
      refine congrArg (r >>= ·) (funext fun y => ?_)
      rw [run_lift_bind]
      rfl
  · unfold answerOf
    generalize l >>= RuntimeValue.boolean = l
    generalize r >>= RuntimeValue.boolean = r
    rcases l with e | _ | _
    · rfl
    · rfl
    · cases r <;> rfl

theorem Answers.or (hl : Answers platform context left a) (hr : Answers platform context right b) :
    Answers platform context (.binary .or left right) (either a b) := by
  obtain ⟨l, hl, rfl⟩ := hl
  obtain ⟨r, hr, rfl⟩ := hr
  refine ⟨(l >>= RuntimeValue.boolean) >>= fun yes =>
    if yes then .ok ⟨.bool true, false⟩
    else (r >>= RuntimeValue.boolean) >>= fun value => .ok ⟨.bool value, false⟩, ?_, ?_⟩
  · intro depth s hdepth
    simp only [ExpressionNode.depth] at hdepth
    rw [evaluate_or_eq, run_lift_bind, checkEvaluationDepth_of_lt (by omega), ok_bind, hl.bind _ s (by omega),
      bind_assoc, bind_assoc]
    refine congrArg (l >>= ·) (funext fun x => ?_)
    rw [run_lift_bind]
    refine congrArg (x.boolean >>= ·) (funext fun yes => ?_)
    cases yes with
    | false =>
      rw [if_neg Bool.false_ne_true, if_neg Bool.false_ne_true, hr.bind _ s (by omega), bind_assoc, bind_assoc]
      refine congrArg (r >>= ·) (funext fun y => ?_)
      rw [run_lift_bind]
      rfl
    | true => rfl
  · unfold answerOf
    generalize l >>= RuntimeValue.boolean = l
    generalize r >>= RuntimeValue.boolean = r
    rcases l with e | _ | _
    · rfl
    · cases r <;> rfl
    · rfl

/-- Conditions joined by `&&`, from the left. -/
def conjunction : List (ExpressionNode α) → ExpressionNode α
  | [] => .literal (.boolean true)
  | node :: nodes => nodes.foldl (.binary .and) node

/-- A conjunction stops at the first condition that is not met. -/
theorem Answers.conjunction {nodes : List (ExpressionNode α)} {answers : List (Option Bool)}
    (h : List.Forall₂ (Answers platform context) nodes answers) (hne : nodes ≠ []) :
    Answers platform context (conjunction nodes) (all answers) := by
  cases h with
  | nil => exact absurd rfl hne
  | @cons node a nodes answers hnode hnodes =>
    clear hne
    show Answers platform context (nodes.foldl (.binary .and) node) (both a (all answers))
    induction hnodes generalizing node a with
    | nil =>
      have htrue : both a (all []) = a := both_true a
      rw [htrue]
      exact hnode
    | @cons next b nodes answers hnext _ ih =>
      rw [all_cons, ← both_assoc]
      exact ih (hnode.and hnext)

theorem Answers.conditional {condition yes no : ExpressionNode α} {answer : Option Bool} {y n : RuntimeValue α}
    (hc : Answers platform context condition answer) (hy : Gives platform context yes (.ok y))
    (hn : Gives platform context no (.ok n)) (hychecked : checkValue y = .ok y) (hnchecked : checkValue n = .ok n) :
    ∃ result, Gives platform context (.conditional condition yes no) result ∧
      result.toOption = answer.map fun met => if met then y else n := by
  obtain ⟨c, hc, rfl⟩ := hc
  refine ⟨(c >>= RuntimeValue.boolean) >>= fun met => .ok (if met then y else n), ?_, ?_⟩
  · intro depth s hdepth
    simp only [ExpressionNode.depth] at hdepth
    rw [evaluate_conditional_eq, run_lift_bind, checkEvaluationDepth_of_lt (by omega), ok_bind, hc.bind _ s (by omega),
      bind_assoc, bind_assoc]
    refine congrArg (c >>= ·) (funext fun x => ?_)
    rw [run_lift_bind]
    refine congrArg (x.boolean >>= ·) (funext fun met => ?_)
    cases met with
    | false =>
      rw [if_neg Bool.false_ne_true, if_neg Bool.false_ne_true, hn.bind _ s (by omega), ok_bind, run_lift, hnchecked]
    | true => rw [if_pos rfl, if_pos rfl, hy.bind _ s (by omega), ok_bind, run_lift, hychecked]
  · unfold answerOf
    cases c >>= RuntimeValue.boolean <;> rfl

end

end Vancine.RuleFactors
