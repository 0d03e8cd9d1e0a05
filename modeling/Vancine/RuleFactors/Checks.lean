import Vancine.Expression.FixedPricing
import Vancine.RuleFactors.Conditions

/-!
# Conditions compile

Conditions are of the type boolean, and no fixed price stands in them. So a tree that is put together from
them passes the checks of a compiled expression.
-/

namespace Vancine.RuleFactors

open Expression Pricing

/-! ## Checks of a tree -/

section Checks

variable {α : Type}

attribute [local simp] checkExpressionTypes ExpressionNode.calls ExpressionNode.depth

/-- The node has the type, and no fixed price in it. -/
structure Checks (node : ExpressionNode α) (type : ExpressionType) : Prop where
  typed : ∀ depth, depth + node.depth ≤ maxDepth → checkExpressionTypes node depth = .ok type
  unpriced : node.calls (fun name => name = .one .fixed) = false

theorem checks_literal (value : Literal α) : Checks (.literal value) value.type where
  typed depth hdepth := by
    simp only [ExpressionNode.depth] at hdepth
    rw [checkExpressionTypes, checkDepth_of_le (by omega)]
    rfl
  unpriced := rfl

theorem checks_call₁ {name : Func₁} {type : ExpressionType} (hname : name ≠ .fixed) (text : Text)
    (htype : name.type .string = .ok type) :
    Checks (.call₁ name (.literal (.string text)) : ExpressionNode α) type where
  typed depth hdepth := by
    simp only [ExpressionNode.depth] at hdepth
    rw [checkExpressionTypes, checkDepth_of_le (by omega), (checks_literal (.string text)).typed (depth + 1) hdepth]
    exact htype
  unpriced := by
    simp [ExpressionNode.calls, hname]

theorem checks_operator {operator : BinaryOp} {left right : ExpressionNode α} {l r type : ExpressionType}
    (hl : Checks left l) (hr : Checks right r) (htype : operator.type l r = .ok type) :
    Checks (.binary operator left right) type where
  typed depth hdepth := by
    simp only [ExpressionNode.depth] at hdepth
    rw [checkExpressionTypes, checkDepth_of_le (by omega), ok_bind, hl.typed (depth + 1) (by omega), ok_bind,
      hr.typed (depth + 1) (by omega)]
    exact htype
  unpriced := by
    rw [ExpressionNode.calls, hl.unpriced, hr.unpriced]
    rfl

theorem checks_has {left : ExpressionNode α} {l : ExpressionType} (hl : Checks left l) (text : Text) :
    Checks (.call₂ .has left (.literal (.string text))) .boolean where
  typed depth hdepth := by
    simp only [ExpressionNode.depth] at hdepth
    rw [checkExpressionTypes, checkDepth_of_le (by omega), ok_bind, hl.typed (depth + 1) (by omega), ok_bind,
      (checks_literal (.string text)).typed (depth + 1) (by simp only [ExpressionNode.depth]; omega)]
    rfl
  unpriced := by
    rw [ExpressionNode.calls, hl.unpriced]
    rfl

theorem checks_conditional {condition yes no : ExpressionNode α} {t : ExpressionType} (hc : Checks condition .boolean)
    (hy : Checks yes t) (hn : Checks no t) : Checks (.conditional condition yes no) t where
  typed depth hdepth := by
    simp only [ExpressionNode.depth] at hdepth
    rw [checkExpressionTypes, checkDepth_of_le (by omega), ok_bind, hc.typed (depth + 1) (by omega), ok_bind,
      hy.typed (depth + 1) (by omega), ok_bind, hn.typed (depth + 1) (by omega), ok_bind]
    cases t <;> rfl
  unpriced := by
    rw [ExpressionNode.calls, hc.unpriced, hy.unpriced, hn.unpriced]
    rfl

theorem checks_conjunction {nodes : List (ExpressionNode α)} (h : ∀ node ∈ nodes, Checks node .boolean) :
    Checks (conjunction nodes) .boolean := by
  cases nodes with
  | nil => exact checks_literal (.boolean true)
  | cons node nodes =>
    obtain ⟨hnode, hnodes⟩ := List.forall_mem_cons.mp h
    show Checks (nodes.foldl (.binary .and) node) .boolean
    clear h
    induction nodes generalizing node with
    | nil => exact hnode
    | cons next nodes ih =>
      obtain ⟨hnext, hnodes⟩ := List.forall_mem_cons.mp hnodes
      exact ih _ (checks_operator hnode hnext rfl) hnodes

end Checks

section Compile

variable {α : Type} [DecimalNumbers α] [DecidableEq α]

theorem compileTree_ok {node : ExpressionNode α} {t : ExpressionType} (h : Checks node t)
    (hdepth : node.depth ≤ maxDepth) : ∃ compiled, compileTree node = .ok compiled ∧ compiled.ast = node := by
  obtain ⟨found, hfound, hcalls, -⟩ := expressionDependencies_spec hdepth
  have hfixed : checkFixedPricing found (node.postorder.filterMap ruleOf) node = .ok () := by
    unfold checkFixedPricing
    rw [hcalls, if_neg]
    rw [h.unpriced]
    exact Bool.false_ne_true
  refine ⟨⟨node, found, node.postorder.filterMap ruleOf⟩, ?_, rfl⟩
  unfold compileTree
  rw [h.typed 0 (by omega), ok_bind, hfound, ok_bind, collectRequestRules_eq hdepth, ok_bind, hfixed]
  rfl

end Compile

/-! ## The nodes of a condition -/

section Nodes

variable {α : Type} [DecimalNumbers α]

theorem checks_number (text : Text) : Checks (numberNode text : ExpressionNode α) .number := by
  rcases sign_cases (α := α) text with ⟨digits, rfl⟩ | ⟨-, -, hnode, -⟩
  · have hdigits := checks_literal (.number (numberValue digits : α) (isIntegerText digits))
    constructor
    · intro depth hdepth
      have hdepth' : depth + (0 + 1) ≤ maxDepth := hdepth
      show checkExpressionTypes (.unary .minus _) depth = _
      rw [checkExpressionTypes, checkDepth_of_le (by omega), ok_bind,
        hdigits.typed (depth + 1) (by simp only [ExpressionNode.depth]; omega)]
      rfl
    · rfl
  · rw [hnode]
    exact checks_literal _

theorem checks_value (text : Text) : ∃ t, Checks (literalNode text : ExpressionNode α) t := by
  unfold literalNode
  split_ifs
  · exact ⟨_, checks_literal _⟩
  · exact ⟨_, checks_literal _⟩
  · exact ⟨_, checks_number text⟩
  · exact ⟨_, checks_literal _⟩

omit [DecimalNumbers α] in
theorem checks_comparison {operator : BinaryOp} (h : isComparison operator = true) {left right : ExpressionNode α}
    (hl : ∃ l, Checks left l) (hr : ∃ r, Checks right r) : Checks (.binary operator left right) .boolean := by
  obtain ⟨l, hl⟩ := hl
  obtain ⟨r, hr⟩ := hr
  refine checks_operator hl hr ?_
  cases operator with
  | eq | ne | lt | le | gt | ge => rfl
  | _ => cases h

theorem timeNodes_checks (cond : TimeCondition) :
    ∀ node ∈ (timeNodes cond : List (ExpressionNode α)), Checks node .boolean := by
  have hnow : ∃ t, Checks (timeNode cond.timeFunc cond.normalize.timezone : ExpressionNode α) t :=
    ⟨.number, checks_call₁ (by simp) _ rfl⟩
  have hbound (mode : MatchMode) (text : Text) : Checks (.binary (modeOperator mode)
      (timeNode cond.timeFunc cond.normalize.timezone) (numberNode text) : ExpressionNode α) .boolean :=
    checks_comparison (isComparison_modeOperator mode) hnow ⟨_, checks_number text⟩
  unfold timeNodes
  dsimp only
  split_ifs
  · rw [List.forall_mem_singleton]
    exact checks_operator (hbound .gte _) (hbound .lt _) rfl
  · exact List.forall_mem_cons.mpr ⟨hbound .gte _, List.forall_mem_singleton.mpr (hbound .lt _)⟩
  · exact List.forall_mem_singleton.mpr (hbound _ _)

theorem headerNodes_checks (cond : ParamHeaderCondition) :
    ∀ node ∈ (headerNodes cond : List (ExpressionNode α)), Checks node .boolean := by
  have hheader : Checks (headerNode (trim cond.path) : ExpressionNode α) .string := checks_call₁ (by decide) _ rfl
  unfold headerNodes
  split <;> rw [List.forall_mem_singleton]
  · exact checks_comparison rfl ⟨_, hheader⟩ ⟨_, checks_literal (.string [])⟩
  · exact checks_has hheader _
  · exact checks_comparison rfl ⟨_, hheader⟩ (checks_value _)

theorem paramNodes_checks (cond : ParamHeaderCondition) :
    ∀ node ∈ (paramNodes cond : List (ExpressionNode α)), Checks node .boolean := by
  have hparam : Checks (paramNode (trim cond.path) : ExpressionNode α) .dynamic := checks_call₁ (by decide) _ rfl
  have hpresent : Checks (.binary .ne (paramNode (trim cond.path)) (.literal .nil) : ExpressionNode α) .boolean :=
    checks_comparison rfl ⟨_, hparam⟩ ⟨_, checks_literal .nil⟩
  unfold paramNodes
  split
  · exact List.forall_mem_singleton.mpr hpresent
  · exact List.forall_mem_cons.mpr ⟨hpresent, List.forall_mem_singleton.mpr (checks_has hparam _)⟩
  · exact List.forall_mem_singleton.mpr (checks_comparison rfl ⟨_, hparam⟩ (checks_value _))
  · exact List.forall_mem_singleton.mpr (checks_comparison rfl ⟨_, hparam⟩ (checks_value _))
  · exact List.forall_mem_cons.mpr ⟨hpresent, List.forall_mem_singleton.mpr
      (checks_comparison (isComparison_modeOperator _) ⟨_, hparam⟩ ⟨_, checks_number _⟩)⟩

theorem conditionNodes_checks (cond : RequestCondition) :
    ∀ node ∈ (conditionNodes cond : List (ExpressionNode α)), Checks node .boolean := by
  cases cond with
  | time cond => exact timeNodes_checks cond
  | paramHeader cond =>
    unfold conditionNodes
    split
    · rename_i h
      cases h
    · rename_i h
      cases h
      split
      · exact headerNodes_checks cond
      · exact paramNodes_checks cond

end Nodes

end Vancine.RuleFactors
