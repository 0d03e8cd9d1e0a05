import Vancine.Pricing.RoundTrip
import Vancine.RuleFactors.Checks
import Vancine.RuleFactors.Texts

/-!
# What a rule group means
-/

namespace Vancine.RuleFactors

open Expression Pricing

/-! ## The factor -/

section Factor

variable {α : Type} [DecimalNumbers α]

/-- The numbers of a factor. -/
def factorNumbers (group : RequestRuleGroup) : List Text :=
  trim group.multiplier :: "1".toList :: group.conditions.flatMap writtenNumbers

/-- The tree of a factor. -/
def factorNode (group : RequestRuleGroup) : ExpressionNode α :=
  .conditional (conjunction (nodesOf group.conditions)) (numberNode (trim group.multiplier)) (numberNode "1".toList)

variable (α) in
/-- The parser and the evaluator take the factor: its length, how deep its tree is, and its numbers. -/
structure Fits (group : RequestRuleGroup) : Prop where
  length : (utf16 (buildRuleGroupFactor group)).length ≤ maxLength
  depth : (factorNode group : ExpressionNode α).depth < maxDepth
  numbers : ∀ text ∈ factorNumbers group, Readable α text

variable {group : RequestRuleGroup}

omit [DecimalNumbers α] in
theorem length_le_depth (nodes : List (ExpressionNode α)) : nodes.length ≤ (conjunction nodes).depth + 1 := by
  cases nodes with
  | nil => exact Nat.zero_le _
  | cons node nodes =>
    have hfold : ∀ (nodes : List (ExpressionNode α)) (node : ExpressionNode α),
        nodes.length + node.depth ≤ (nodes.foldl (.binary .and) node).depth := by
      intro nodes
      induction nodes with
      | nil => intro node; simp
      | cons next nodes ih =>
        intro node
        have h := ih (.binary .and node next)
        simp only [ExpressionNode.depth, List.length_cons, List.foldl_cons] at h ⊢
        omega
    have h := hfold nodes node
    show (node :: nodes).length ≤ (nodes.foldl (.binary .and) node).depth + 1
    rw [List.length_cons]
    omega

theorem parseSource_factor (hcomplete : group.complete = true) (hne : group.conditions ≠ []) (hfits : Fits α group) :
    parseSource (buildRuleGroupFactor group) = .ok (factorNode group : ExpressionNode α) := by
  have hnumbers := hfits.numbers
  unfold factorNumbers at hnumbers
  rw [List.forall_mem_cons, List.forall_mem_cons] at hnumbers
  have hparts := hcomplete
  unfold RequestRuleGroup.complete at hparts
  rw [Bool.and_eq_true, List.all_eq_true] at hparts
  have hcondition := conditions_phrase (α := α) hne hparts.2 fun cond hcond text htext =>
    hnumbers.2.2 text (List.mem_flatMap.mpr ⟨cond, hcond, htext⟩)
  have hyes : Phrase 5 2 0 (trim group.multiplier) (numberNode (trim group.multiplier) : ExpressionNode α) :=
    .number hparts.1 hnumbers.1
  have hno : Phrase 5 2 0 "1".toList (numberNode "1".toList : ExpressionNode α) := .number (by decide) hnumbers.2.1
  have hfactor : Phrase 7 _ 0 _ (factorNode group) := (hcondition.conditional hyes hno).parens
  obtain ⟨tokens, hlexes, hlength, hparses⟩ := hfactor
  have htext : buildRuleGroupFactor group = '(' ::
      (combineConditions (group.conditions.map buildRequestConditionExpr) ++
        ' ' :: '?' :: ' ' :: (trim group.multiplier ++ ' ' :: ':' :: ' ' :: "1".toList) ++ [')']) := by
    rw [RequestRuleGroup.factor_eq hcomplete hne]
    simp
  have hversion : versionBody (buildRuleGroupFactor group) = .ok (buildRuleGroupFactor group) := by
    rw [htext]
    rfl
  rw [← htext] at hlexes
  refine parseSource_eq_ok_iff.mpr ⟨hfits.length, _, tokens, hversion, hlexes, ?_, hparses.mono (by decide)⟩
  have hdepth := hfits.depth
  have hnodes := length_le_depth (nodesOf group.conditions : List (ExpressionNode α))
  unfold factorNode at hdepth
  simp only [ExpressionNode.depth, maxDepth] at hdepth
  unfold maxTokens
  omega

theorem factorNode_checks (group : RequestRuleGroup) : Checks (factorNode group : ExpressionNode α) .number := by
  refine checks_conditional (checks_conjunction fun node hnode => ?_) (checks_number _) (checks_number _)
  obtain ⟨cond, -, hnode⟩ := List.mem_flatMap.mp hnode
  unfold groupNodes at hnode
  split_ifs at hnode
  · rw [List.mem_singleton.mp hnode]
    exact checks_conjunction (conditionNodes_checks cond)
  · exact conditionNodes_checks cond node hnode

variable [DecidableEq α]

theorem compile_factor (hcomplete : group.complete = true) (hne : group.conditions ≠ []) (hfits : Fits α group) :
    ∃ compiled, compileBillingExpression (buildRuleGroupFactor group) = .ok compiled ∧
      compiled.ast = (factorNode group : ExpressionNode α) := by
  obtain ⟨compiled, hcompiled, hast⟩ := compileTree_ok (factorNode_checks group) hfits.depth.le
  refine ⟨compiled, ?_, hast⟩
  unfold compileBillingExpression
  rw [parseSource_factor hcomplete hne hfits, ok_bind, hcompiled]

/-! ## The value of a factor -/

/-- What the factor is in a context, by itself; none when it throws. -/
def evaluateFactor (platform : Platform α) (context : Context α) (group : RequestRuleGroup) : Option (Json α) :=
  match compileBillingExpression (buildRuleGroupFactor group) with
  | .error _ => none
  | .ok compiled =>
    match evaluate platform context compiled.ast 0 initialState with
    | .error _ => none
    | .ok (value, _) => some value.value

variable {platform : Platform α} {context : Context α}

omit [DecidableEq α] in
theorem answerTogether_append {xs ys : List (ExpressionNode α)} {a b : Option Bool}
    (hx : AnswerTogether platform context xs a) (hy : AnswerTogether platform context ys b) :
    AnswerTogether platform context (xs ++ ys) (both a b) := by
  obtain ⟨as, hxs, rfl⟩ := hx
  obtain ⟨bs, hys, rfl⟩ := hy
  exact ⟨as ++ bs, List.rel_append hxs hys, all_append as bs⟩

variable {cond : RequestCondition}

omit [DecidableEq α] in
theorem groupNodes_answers (alone : Bool) (hcomplete : cond.complete = true)
    (hnumbers : ∀ text ∈ writtenNumbers cond, Readable α text) :
    AnswerTogether platform context (groupNodes alone cond) (asked platform context cond) := by
  have hanswers := condition_answers platform context hcomplete hnumbers
  unfold groupNodes
  split_ifs
  · obtain ⟨answers, hanswers, hall⟩ := hanswers
    exact answerTogether_one (.conjunction hanswers (conditionNodes_length cond).1) hall
  · exact hanswers

variable {conds : List RequestCondition}

omit [DecidableEq α] in
theorem nodesOf_answers (platform : Platform α) (context : Context α) (hcomplete : ∀ cond ∈ conds, cond.complete = true)
    (hnumbers : ∀ cond ∈ conds, ∀ text ∈ writtenNumbers cond, Readable α text) :
    AnswerTogether platform context (nodesOf conds) (all (conds.map (asked platform context))) := by
  unfold nodesOf
  generalize decide (conds.length = 1) = alone
  induction conds with
  | nil => exact ⟨[], .nil, rfl⟩
  | cons cond conds ih =>
    rw [List.forall_mem_cons] at hcomplete hnumbers
    rw [List.flatMap_cons, List.map_cons, all_cons]
    exact answerTogether_append (groupNodes_answers alone hcomplete.1 hnumbers.1) (ih hcomplete.2 hnumbers.2)

/-- The factor is decided by the first condition, from the left, that is not answered with yes. -/
theorem evaluateFactor_eq (platform : Platform α) (context : Context α) (hcomplete : group.complete = true)
    (hne : group.conditions ≠ []) (hfits : Fits α group) :
    evaluateFactor platform context group = (all (group.conditions.map (asked platform context))).map fun met =>
      .number (literalNumber (if met then trim group.multiplier else "1".toList)) := by
  have hnumbers := hfits.numbers
  unfold factorNumbers at hnumbers
  rw [List.forall_mem_cons, List.forall_mem_cons] at hnumbers
  have hparts := hcomplete
  unfold RequestRuleGroup.complete at hparts
  rw [Bool.and_eq_true, List.all_eq_true] at hparts
  obtain ⟨answers, hanswers, hall⟩ := nodesOf_answers platform context hparts.2
    fun cond hcond text htext => hnumbers.2.2 text (List.mem_flatMap.mpr ⟨cond, hcond, htext⟩)
  obtain ⟨result, hresult, hvalue⟩ := Answers.conditional (.conjunction hanswers (nodesOf_ne_nil hne))
    (gives_number platform context hnumbers.1) (gives_number platform context hnumbers.2.1)
    (checkValue_storable hnumbers.1.2) (checkValue_storable hnumbers.2.1.2)
  obtain ⟨compiled, hcompiled, hast⟩ := compile_factor (α := α) hcomplete hne hfits
  have hrun := hresult 0 initialState (by rw [Nat.zero_add]; exact hfits.depth)
  rw [hall] at hvalue
  unfold evaluateFactor
  rw [hcompiled]
  dsimp only
  rw [hast]
  unfold factorNode
  rw [hrun]
  cases result with
  | error e =>
    have hnone : all (group.conditions.map (asked platform context)) = none := Option.map_eq_none_iff.mp hvalue.symm
    rw [hnone]
    rfl
  | ok value =>
    obtain ⟨met, hmet, rfl⟩ := Option.map_eq_some_iff.mp hvalue.symm
    rw [hmet]
    cases met <;> rfl

/-! ## What a group means -/

def Holds (platform : Platform α) (context : Context α) (cond : RequestCondition) : Prop :=
  sense platform context cond = some true

instance : DecidablePred (Holds platform context) := fun _ => by
  unfold Holds
  infer_instance

/-- The factor is the multiplier when every condition holds, and 1 otherwise. -/
def MeansItsConditions (platform : Platform α) (context : Context α) (group : RequestRuleGroup) : Prop :=
  evaluateFactor platform context group = some (.number (literalNumber
    (if ∀ cond ∈ group.conditions, Holds platform context cond then trim group.multiplier else "1".toList)))

/-- Every condition that is asked has an answer; none is asked after a no. -/
def Answered (platform : Platform α) (context : Context α) : List RequestCondition → Prop
  | [] => True
  | cond :: conds => sense platform context cond ≠ none ∧
      (Holds platform context cond → comparesTyped cond = false → Answered platform context conds)

omit [DecidableEq α] in
theorem asked_eq_true :
    asked platform context cond = some true ↔ Holds platform context cond ∧ comparesTyped cond = false := by
  unfold asked Holds
  cases comparesTyped cond <;> cases sense platform context cond <;> simp

omit [DecidableEq α] in
theorem asked_eq_none : asked platform context cond = none ↔ sense platform context cond = none := by
  unfold asked
  split_ifs
  · exact Option.map_eq_none_iff
  · exact Iff.rfl

omit [DecidableEq α] in
theorem answered_iff : Answered platform context conds ↔ all (conds.map (asked platform context)) ≠ none := by
  induction conds with
  | nil => exact iff_of_true trivial nofun
  | cons cond conds ih =>
    have hnone : sense platform context cond ≠ none ↔ asked platform context cond ≠ none := asked_eq_none.not.symm
    rw [List.map_cons, all_cons, Answered, ih, ← and_imp, ← asked_eq_true, hnone]
    rcases asked platform context cond with _ | _ | _
    · exact iff_of_false (fun h => h.1 rfl) (fun h => h rfl)
    · exact iff_of_true ⟨nofun, nofun⟩ nofun
    · exact ⟨fun h => h.2 rfl, fun h => ⟨nofun, fun _ => h⟩⟩

omit [DecidableEq α] in
theorem all_asked_iff (platform : Platform α) (context : Context α) (conds : List RequestCondition) :
    all (conds.map (asked platform context)) = some true ↔
      ∀ cond ∈ conds, Holds platform context cond ∧ comparesTyped cond = false := by
  induction conds with
  | nil => exact iff_of_true rfl nofun
  | cons cond conds ih =>
    rw [List.map_cons, all_cons, List.forall_mem_cons, ← ih, ← asked_eq_true]
    rcases asked platform context cond with _ | _ | _
    · exact iff_of_false nofun fun h => nomatch h.1
    · exact iff_of_false nofun fun h => nomatch h.1
    · exact ⟨fun h => ⟨rfl, h⟩, fun h => h.2⟩

theorem evaluateFactor_nil (hne : group.conditions = []) : evaluateFactor platform context group = none := by
  have htext : buildRuleGroupFactor group = [] := by
    unfold buildRuleGroupFactor
    have hfilter : (([] : List RequestCondition).map buildRequestConditionExpr).filter (· ≠ []) = [] := rfl
    dsimp only
    rw [hne, hfilter, if_pos rfl, ite_self]
  have hparse : ∀ node : ExpressionNode α, parseSource (buildRuleGroupFactor group) ≠ .ok node := by
    intro node h
    obtain ⟨-, body, tokens, hbody, hlexes, -, hparses⟩ := parseSource_eq_ok_iff.mp h
    rw [htext] at hbody
    cases hbody
    cases hlexes with
    | nil => exact hparses.ne_nil
    | cons hnext => cases hnext
  unfold evaluateFactor compileBillingExpression
  cases hsource : parseSource (α := α) (buildRuleGroupFactor group) with
  | error e => rfl
  | ok node => exact absurd hsource (hparse node)

/-- A factor means its conditions exactly when there are any, every condition that is asked has an answer, and it is
not so that all of them hold while one compares a header with a number or a boolean. -/
theorem meansItsConditions_iff (platform : Platform α) (context : Context α) (hcomplete : group.complete = true)
    (hfits : Fits α group) :
    MeansItsConditions platform context group ↔ group.conditions ≠ [] ∧ Answered platform context group.conditions ∧
      ¬((∀ cond ∈ group.conditions, Holds platform context cond) ∧
        (∃ cond ∈ group.conditions, comparesTyped cond = true) ∧
        (literalNumber (trim group.multiplier) : α) ≠ literalNumber "1".toList) := by
  unfold MeansItsConditions
  by_cases hne : group.conditions = []
  · rw [evaluateFactor_nil hne]
    exact iff_of_false nofun fun h => h.1 hne
  rw [and_iff_right hne, evaluateFactor_eq platform context hcomplete hne hfits, answered_iff]
  have hall := all_asked_iff platform context group.conditions
  generalize all (group.conditions.map (asked platform context)) = answer at hall ⊢
  rcases answer with _ | _ | _
  · exact iff_of_false nofun fun h => h.1 rfl
  · -- some condition was answered with no
    have hnot : ¬∀ cond ∈ group.conditions, Holds platform context cond ∧ comparesTyped cond = false :=
      fun h => nomatch hall.mpr h
    rw [Option.map_some, and_iff_right (by exact nofun)]
    simp only [Bool.false_eq_true, if_false, Option.some.injEq, Json.number.injEq]
    by_cases hholds : ∀ cond ∈ group.conditions, Holds platform context cond
    · have htyped : ∃ cond ∈ group.conditions, comparesTyped cond = true := by
        by_contra hnone
        exact hnot fun cond hcond => ⟨hholds cond hcond, Bool.eq_false_of_not_eq_true fun h => hnone ⟨cond, hcond, h⟩⟩
      rw [if_pos hholds]
      constructor
      · exact fun h hand => hand.2.2 h.symm
      · intro h
        by_contra hvalue
        exact h ⟨hholds, htyped, fun h => hvalue h.symm⟩
    · rw [if_neg hholds]
      exact iff_of_true rfl fun h => hholds h.1
  · -- all were answered with yes
    have hyes := hall.mp rfl
    have hholds : ∀ cond ∈ group.conditions, Holds platform context cond := fun cond hcond => (hyes cond hcond).1
    rw [Option.map_some, if_pos hholds]
    refine iff_of_true rfl ⟨nofun, fun h => ?_⟩
    obtain ⟨-, ⟨cond, hcond, htyped⟩, -⟩ := h
    rw [(hyes cond hcond).2] at htyped
    cases htyped

end Factor

/-! ## A header in both kinds -/

instance (text : Text) : Decidable (Readable Exact text) := by
  unfold Readable
  infer_instance

def plainPlatform : Platform Exact where
  toLowerCase text := text.map Char.toLower
  sprint _ := []

/-- A request with one header. -/
def tierContext (tier : String) : Context Exact where
  imageCount := none
  tokens := []
  request := some ⟨.null, [("X-Tier".toList, tier.toList)]⟩
  usage := none
  now := ⟨true, fun _ => 0, fun _ => none⟩

/-- Twice the price for one tier. -/
def tierGroup (tier : String) : RequestRuleGroup where
  conditions := [.paramHeader ⟨.header, "x-tier".toList, .eq, tier.toList⟩]
  multiplier := "2".toList

theorem tierGroup_gold : MeansItsConditions plainPlatform (tierContext "gold") (tierGroup "gold") := by
  have hfits : Fits Exact (tierGroup "gold") :=
    ⟨by decide +kernel, by decide +kernel, by decide +kernel⟩
  refine (meansItsConditions_iff plainPlatform (tierContext "gold") (by decide) hfits).mpr ⟨by decide, ?_, ?_⟩
  · exact ⟨by decide, fun _ _ => trivial⟩
  · exact fun h => absurd h.2.1 (by decide)

/-- The header is the text `123`, and it is compared with the number. -/
theorem tierGroup_number : ¬MeansItsConditions plainPlatform (tierContext "123") (tierGroup "123") := by
  have hfits : Fits Exact (tierGroup "123") :=
    ⟨by decide +kernel, by decide +kernel, by decide +kernel⟩
  have hvalue := evaluateFactor_eq plainPlatform (tierContext "123") (by decide) (by decide) hfits
  have hasked : all ((tierGroup "123").conditions.map (asked plainPlatform (tierContext "123"))) = some false := by
    decide
  have hholds : ∀ cond ∈ (tierGroup "123").conditions, Holds plainPlatform (tierContext "123") cond := by
    decide
  intro h
  rw [MeansItsConditions, hvalue, hasked, if_pos hholds] at h
  have hnumbers : (literalNumber "1".toList : Exact) = literalNumber "2".toList :=
    Json.number.inj (Option.some.inj h)
  exact absurd hnumbers (by decide +kernel)

end Vancine.RuleFactors
