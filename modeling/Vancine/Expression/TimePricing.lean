import Vancine.Expression.TokenTiers

/-!
# Price tables that depend on the time

Along the conditions on the time an expression is a decision tree. At an instant at which they can all be
evaluated, the conditions of exactly one path hold, and the table of that path gives the price.
-/

namespace Vancine.Expression

open Pricing (Text TimeFunc)

/-! ## Conditions on the time -/

theorem run_ite {α β : Type} (c : Prop) [Decidable c] (x y : Run α β) (s : State α) :
    (if c then x else y) s = if c then x s else y s := by
  split_ifs <;> rfl

theorem bind_ite {ε β γ : Type} (c : Prop) [Decidable c] (x y : Except ε β) (f : β → Except ε γ) :
    (if c then x else y) >>= f = if c then x >>= f else y >>= f := by
  split_ifs <;> rfl

section
variable {α : Type} [Numbers α] {platform : Platform α}

/-- The node reads no variable, and calls nothing but the clock and arithmetic. -/
def timeOnly (node : ExpressionNode α) : Prop :=
  node.reads (fun _ => true) = false ∧ node.calls (fun name => !name.isTimeArithmetic) = false

/-- What the node evaluates to depends on the instant alone, and the state stays as it is. -/
def DependsOnTime (platform : Platform α) (now : Instant) (node : ExpressionNode α)
    (r : Except Diagnostic (RuntimeValue α)) : Prop :=
  ∀ (context : Context α) (depth : ℕ) (s : State α), context.now = now → depth + node.depth < maxDepth →
    evaluate platform context node depth s = r >>= fun v => .ok (v, s)

theorem callOne_time (now : Instant) {name : Func₁} (h : (Func.one name).isTimeArithmetic = true) :
    ∃ f : RuntimeValue α → Except Diagnostic (RuntimeValue α), ∀ (context : Context α) (v : RuntimeValue α)
      (s : State α), context.now = now → callOne platform context name v s = f v >>= fun w => .ok (w, s) := by
  cases name with
  | time name =>
    refine ⟨fun v => do
      let zone ← v.text
      let values ← timeInBillingZone platform now (Pricing.trim zone)
      return ⟨.number (ofInt (values name)), true⟩, ?_⟩
    rintro context v s rfl
    simp only [callOne, run_bind, run_lift, run_pure, bind_assoc, ok_bind, pure_eq_ok]
  | abs =>
    refine ⟨fun v => do return ⟨.number (Numbers.abs (← v.numeric).1), false⟩, fun context v s _ => ?_⟩
    simp only [callOne, run_bind, run_lift, run_pure, bind_assoc, ok_bind, pure_eq_ok]
  | ceil =>
    refine ⟨fun v => do return ⟨.number (Numbers.ceil (← v.numeric).1), false⟩, fun context v s _ => ?_⟩
    simp only [callOne, run_bind, run_lift, run_pure, bind_assoc, ok_bind, pure_eq_ok]
  | floor =>
    refine ⟨fun v => do return ⟨.number (Numbers.floor (← v.numeric).1), false⟩, fun context v s _ => ?_⟩
    simp only [callOne, run_bind, run_lift, run_pure, bind_assoc, ok_bind, pure_eq_ok]
  | _ => cases h

theorem dependsOnTime (now : Instant) (node : ExpressionNode α) :
    timeOnly node → ∃ r, DependsOnTime platform now node r := by
  induction node with
  | literal value =>
    intro _
    refine ⟨checkValue value.runtimeValue, fun context depth s _ hdepth => ?_⟩
    simp only [evaluate_literal_eq, run_bind, run_lift, checkEvaluationDepth_of_lt (by omega : depth < maxDepth),
      ok_bind]
  | var name =>
    intro h
    cases h.1
  | unary operator operand ih =>
    intro h
    obtain ⟨r, hr⟩ := ih h
    refine ⟨r >>= fun v => unaryValue operator v >>= checkValue, fun context depth s hnow hdepth => ?_⟩
    simp only [ExpressionNode.depth] at hdepth
    simp only [evaluate_unary_eq, run_bind, run_lift, checkEvaluationDepth_of_lt (by omega : depth < maxDepth), ok_bind,
      hr context (depth + 1) s hnow (by omega), bind_assoc]
  | call₁ name arg ih =>
    intro h
    simp only [timeOnly, ExpressionNode.reads, ExpressionNode.calls, Bool.or_eq_false_iff, Bool.not_eq_false'] at h
    obtain ⟨r, hr⟩ := ih ⟨h.1, h.2.2⟩
    obtain ⟨f, hf⟩ : ∃ f : RuntimeValue α → Except Diagnostic (RuntimeValue α), ∀ (context : Context α)
        (v : RuntimeValue α) (s : State α), context.now = now →
          callOne platform context name v s = f v >>= fun w => .ok (w, s) := callOne_time now h.2.1
    refine ⟨r >>= fun v => f v >>= checkValue, fun context depth s hnow hdepth => ?_⟩
    simp only [ExpressionNode.depth] at hdepth
    simp only [evaluate_call₁_eq, run_bind, run_lift, checkEvaluationDepth_of_lt (by omega : depth < maxDepth), ok_bind,
      hr context (depth + 1) s hnow (by omega), hf context _ s hnow, bind_assoc]
  | call₂ name arg₁ arg₂ ih₁ ih₂ =>
    intro h
    simp only [timeOnly, ExpressionNode.reads, ExpressionNode.calls, Bool.or_eq_false_iff, Bool.not_eq_false'] at h
    obtain ⟨r₁, hr₁⟩ := ih₁ ⟨h.1.1, h.2.1.2⟩
    obtain ⟨r₂, hr₂⟩ := ih₂ ⟨h.1.2, h.2.2⟩
    cases name with
    | tier | has => cases h.2.1.1
    | min =>
      refine ⟨r₁ >>= fun v => v.numeric >>= fun a => r₂ >>= fun w => w.numeric >>= fun b =>
        checkValue ⟨.number (Numbers.min a.1 b.1), false⟩, fun context depth s hnow hdepth => ?_⟩
      simp only [ExpressionNode.depth] at hdepth
      simp only [evaluate_min_eq, run_bind, run_lift, checkEvaluationDepth_of_lt (by omega : depth < maxDepth), ok_bind,
        hr₁ context (depth + 1) s hnow (by omega), hr₂ context (depth + 1) s hnow (by omega), bind_assoc]
    | max =>
      refine ⟨r₁ >>= fun v => v.numeric >>= fun a => r₂ >>= fun w => w.numeric >>= fun b =>
        checkValue ⟨.number (Numbers.max a.1 b.1), false⟩, fun context depth s hnow hdepth => ?_⟩
      simp only [ExpressionNode.depth] at hdepth
      simp only [evaluate_max_eq, run_bind, run_lift, checkEvaluationDepth_of_lt (by omega : depth < maxDepth), ok_bind,
        hr₁ context (depth + 1) s hnow (by omega), hr₂ context (depth + 1) s hnow (by omega), bind_assoc]
  | binary operator left right ihl ihr =>
    intro h
    simp only [timeOnly, ExpressionNode.reads, ExpressionNode.calls, Bool.or_eq_false_iff] at h
    obtain ⟨r₁, hr₁⟩ := ihl ⟨h.1.1, h.2.1⟩
    obtain ⟨r₂, hr₂⟩ := ihr ⟨h.1.2, h.2.2⟩
    have hvalue : (∀ context depth, evaluate platform context (.binary operator left right) depth = do
          checkEvaluationDepth (depth + 1)
          let left ← evaluate platform context left (depth + 1)
          let right ← evaluate platform context right (depth + 1)
          checkValue (← binaryValue operator left right)) →
        ∃ r, DependsOnTime platform now (.binary operator left right) r := by
      intro hevaluate
      refine ⟨r₁ >>= fun v => r₂ >>= fun w => binaryValue operator v w >>= checkValue,
        fun context depth s hnow hdepth => ?_⟩
      simp only [ExpressionNode.depth] at hdepth
      simp only [hevaluate, run_bind, run_lift, checkEvaluationDepth_of_lt (by omega : depth < maxDepth), ok_bind,
        hr₁ context (depth + 1) s hnow (by omega), hr₂ context (depth + 1) s hnow (by omega), bind_assoc]
    cases operator with
    | and =>
      refine ⟨r₁ >>= fun v => v.boolean >>= fun matched =>
        if matched then r₂ >>= fun w => w.boolean >>= fun b => checkValue ⟨.bool b, false⟩
        else checkValue ⟨.bool false, false⟩, fun context depth s hnow hdepth => ?_⟩
      simp only [ExpressionNode.depth] at hdepth
      simp only [evaluate_and_eq, run_bind, run_lift, run_ite, bind_ite,
        checkEvaluationDepth_of_lt (by omega : depth < maxDepth), ok_bind,
        hr₁ context (depth + 1) s hnow (by omega), hr₂ context (depth + 1) s hnow (by omega), bind_assoc]
    | or =>
      refine ⟨r₁ >>= fun v => v.boolean >>= fun matched =>
        if matched then checkValue ⟨.bool true, false⟩
        else r₂ >>= fun w => w.boolean >>= fun b => checkValue ⟨.bool b, false⟩, fun context depth s hnow hdepth => ?_⟩
      simp only [ExpressionNode.depth] at hdepth
      simp only [evaluate_or_eq, run_bind, run_lift, run_ite, bind_ite,
        checkEvaluationDepth_of_lt (by omega : depth < maxDepth), ok_bind,
        hr₁ context (depth + 1) s hnow (by omega), hr₂ context (depth + 1) s hnow (by omega), bind_assoc]
    | _ => exact hvalue fun _ _ => rfl
  | conditional condition yes no ihc ihy ihn =>
    intro h
    simp only [timeOnly, ExpressionNode.reads, ExpressionNode.calls, Bool.or_eq_false_iff] at h
    obtain ⟨r₁, hr₁⟩ := ihc ⟨h.1.1.1, h.2.1.1⟩
    obtain ⟨r₂, hr₂⟩ := ihy ⟨h.1.1.2, h.2.1.2⟩
    obtain ⟨r₃, hr₃⟩ := ihn ⟨h.1.2, h.2.2⟩
    refine ⟨r₁ >>= fun v => v.boolean >>= fun matched =>
      if matched then r₂ >>= checkValue else r₃ >>= checkValue, fun context depth s hnow hdepth => ?_⟩
    simp only [ExpressionNode.depth] at hdepth
    simp only [evaluate_conditional_eq, run_bind, run_lift, run_ite, bind_ite,
      checkEvaluationDepth_of_lt (by omega : depth < maxDepth), ok_bind,
      hr₁ context (depth + 1) s hnow (by omega), hr₂ context (depth + 1) s hnow (by omega),
      hr₃ context (depth + 1) s hnow (by omega), bind_assoc]

omit [Numbers α] in
/-- What `isTimeCondition` recognizes depends on the time alone. -/
theorem timeOnly_of_isTimeCondition {node : ExpressionNode α} (hdepth : node.depth ≤ maxDepth)
    (h : isTimeCondition node = .ok true) : timeOnly node := by
  obtain ⟨found, hfound, hfunctions, hvars⟩ := expressionDependencies_spec hdepth
  unfold isTimeCondition at h
  rw [hfound, ok_bind, pure_eq_ok, Except.ok.injEq, Bool.and_eq_true, Bool.and_eq_true] at h
  obtain ⟨⟨hempty, -⟩, hall⟩ := h
  constructor
  · rw [← hvars, List.isEmpty_iff.mp hempty]
    rfl
  · rw [← hfunctions]
    simpa [List.any_eq_false] using hall

/-- A condition on the time is the same in the tree as on its own: known, or not to be had there either. -/
theorem evaluate_timeCondition {condition : ExpressionNode α} {now : Instant}
    (hcondition : isTimeCondition condition = .ok true) (hle : condition.depth < maxDepth) :
    ∃ r : Except Diagnostic (RuntimeValue α), DependsOnTime platform now condition r ∧
      ((∃ b, evaluateBillingCondition platform condition now = some b ∧ (r >>= fun v => v.boolean) = .ok b) ∨
        evaluateBillingCondition platform condition now = none ∧ ∃ e, (r >>= fun v => v.boolean) = .error e) := by
  obtain ⟨r, hr⟩ : ∃ r, DependsOnTime platform now condition r :=
    dependsOnTime now condition (timeOnly_of_isTimeCondition hle.le hcondition)
  refine ⟨r, hr, ?_⟩
  have hrun := hr ⟨none, [], none, none, now⟩ 0 initialState rfl (by omega)
  unfold evaluateBillingCondition
  rw [hrun]
  cases r with
  | error e => exact .inr ⟨rfl, e, rfl⟩
  | ok v =>
    obtain ⟨value, integer⟩ := v
    cases value with
    | bool b => exact .inl ⟨b, rfl, rfl⟩
    | _ => exact .inr ⟨rfl, _, rfl⟩

end

/-! ## The branch of an instant -/

section
variable {α : Type} [Numbers α]

/-- The conditions on the way down to a table at an instant, and the node of that table. None when a
condition on the way is not known. -/
def timeLeaf (platform : Platform α) (now : Instant) :
    ExpressionNode α → List (TimeCondition α) → Option (List (TimeCondition α) × ExpressionNode α)
  | .conditional condition yes no, path =>
    if isTimeCondition condition = .ok true then
      match evaluateBillingCondition platform condition now with
      | some true => timeLeaf platform now yes (path ++ [⟨condition, true⟩])
      | some false => timeLeaf platform now no (path ++ [⟨condition, false⟩])
      | none => none
    else some (path, .conditional condition yes no)
  | node, path => some (path, node)

/-- All conditions come out as they must. -/
def pathHolds (platform : Platform α) (now : Instant) (path : List (TimeCondition α)) : Bool :=
  path.all fun time => evaluateBillingCondition platform time.condition now = some time.shouldMatch

variable {describe : List (TimeCondition α) → List (TokenTierCondition α) → Text}

/-- A tier of a table on a path. -/
def TokenTier.onPath (describe : List (TimeCondition α) → List (TokenTierCondition α) → Text)
    (path : List (TimeCondition α)) (tier : TokenTier α) : TimeTokenTier α :=
  { tier with conditionText := some (describe path tier.conditions), timeConditions := path }

variable {path : List (TimeCondition α)} {tiers : List (TimeTokenTier α)}

omit [Numbers α] in
theorem timeTable_eq_some {table : Option (List (TokenTier α))}
    (h : timeTierBranches.timeTable describe table path = some tiers) :
    ∃ rows, table = some rows ∧ tiers = rows.map (TokenTier.onPath describe path) := by
  unfold timeTierBranches.timeTable at h
  rw [Option.bind_eq_bind, Option.bind_eq_some_iff] at h
  obtain ⟨rows, hrows, h⟩ := h
  split_ifs at h
  exact ⟨rows, hrows, (Option.some.inj h).symm⟩

/-- A conditional on the time has the branches of both sides; any other node is a table. -/
theorem timeTierBranches_conditional {condition yes no : ExpressionNode α}
    (h : timeTierBranches describe (.conditional condition yes no) path = .ok (some tiers)) :
    (isTimeCondition condition = .ok true ∧ ∃ tiersYes tiersNo,
        timeTierBranches describe yes (path ++ [⟨condition, true⟩]) = .ok (some tiersYes) ∧
        timeTierBranches describe no (path ++ [⟨condition, false⟩]) = .ok (some tiersNo) ∧
        tiers = tiersYes ++ tiersNo) ∨ isTimeCondition condition = .ok false ∧ ∃ rows,
        readTokenTierChain (.conditional condition yes no) = some rows ∧
        tiers = rows.map (TokenTier.onPath describe path) := by
  unfold timeTierBranches at h
  obtain ⟨isTime, htime, h⟩ := ok_of_bind h
  cases isTime with
  | true =>
    simp only [if_true] at h
    obtain ⟨tiersYes, hyes, h⟩ := ok_of_bind h
    obtain ⟨tiersNo, hno, h⟩ := ok_of_bind h
    have hboth := Except.ok.inj h
    rw [Option.bind_eq_bind, Option.bind_eq_some_iff] at hboth
    obtain ⟨listYes, rfl, hboth⟩ := hboth
    rw [Option.bind_eq_some_iff] at hboth
    obtain ⟨listNo, rfl, hboth⟩ := hboth
    exact .inl ⟨htime, listYes, listNo, hyes, hno, (Option.some.inj hboth).symm⟩
  | false =>
    simp only [Bool.false_eq_true, if_false] at h
    exact .inr ⟨htime, timeTable_eq_some (Except.ok.inj h)⟩

theorem path_prefix (node : ExpressionNode α) : ∀ {path : List (TimeCondition α)} {tiers : List (TimeTokenTier α)},
      timeTierBranches describe node path = .ok (some tiers) → ∀ tier ∈ tiers, path <+: tier.timeConditions := by
  have htable : ∀ {path : List (TimeCondition α)} {rows : List (TokenTier α)},
      ∀ tier ∈ rows.map (TokenTier.onPath describe path), path <+: tier.timeConditions := by
    intro path rows tier htier
    obtain ⟨row, -, rfl⟩ := List.mem_map.mp htier
    exact List.prefix_refl path
  induction node with
  | conditional condition yes no _ ihy ihn =>
    intro path tiers h
    obtain ⟨-, tiersYes, tiersNo, hyes, hno, rfl⟩ | ⟨-, rows, -, rfl⟩ := timeTierBranches_conditional h
    · intro tier htier
      rcases List.mem_append.mp htier with htier | htier
      · exact (List.prefix_append path _).trans (ihy hyes tier htier)
      · exact (List.prefix_append path _).trans (ihn hno tier htier)
    · exact htable
  | _ =>
    intro path tiers h
    obtain ⟨rows, -, rfl⟩ := timeTable_eq_some (Except.ok.inj h)
    exact htable

theorem readTokenTierChain_ne_nil (node : ExpressionNode α) :
    ∀ {rows : List (TokenTier α)}, readTokenTierChain node = some rows → rows ≠ [] := by
  have hchain : ∀ (node : ExpressionNode α) {rows : List (TokenTier α)}, readChain node = some rows →
      rows ≠ [] := by
    intro node rows h
    cases node with
    | conditional condition yes no =>
      simp only [readChain, Option.bind_eq_bind, Option.bind_eq_some_iff] at h
      obtain ⟨conditions, -, tier, -, rest, -, h⟩ := h
      cases h
      exact List.cons_ne_nil _ _
    | _ =>
      simp only [readChain, Option.bind_eq_bind, Option.bind_eq_some_iff] at h
      obtain ⟨tier, -, h⟩ := h
      cases h
      exact List.cons_ne_nil _ _
  induction node with
  | conditional condition yes no =>
    intro rows h
    rw [readTokenTierChain] at h
    cases haudio : audioTiers condition yes no with
    | none =>
      simp only [haudio] at h
      exact hchain _ h
    | some tiers =>
      simp only [haudio, Option.some.injEq] at h
      subst h
      unfold audioTiers at haudio
      split_ifs at haudio
      simp only [Option.bind_eq_bind, Option.bind_eq_some_iff] at haudio
      obtain ⟨audio, -, text, -, h⟩ := haudio
      cases h
      exact List.cons_ne_nil _ _
  | binary operator left right ihl ihr =>
    intro rows h
    cases operator with
    | mul =>
      rw [readTokenTierChain] at h
      split_ifs at h
      · obtain ⟨rest, hrest, rfl⟩ := Option.map_eq_some_iff.mp h
        simpa [markImageCount] using ihr hrest
      · obtain ⟨rest, hrest, rfl⟩ := Option.map_eq_some_iff.mp h
        simpa [markImageCount] using ihl hrest
      · exact hchain _ h
    | _ => exact hchain _ h
  | _ => exact fun h => hchain _ h

section
variable {platform : Platform α} {now : Instant}

theorem pathHolds_append (path : List (TimeCondition α)) (time : TimeCondition α) :
    pathHolds platform now (path ++ [time]) = (pathHolds platform now path &&
      (evaluateBillingCondition platform time.condition now = some time.shouldMatch : Bool)) := by
  simp [pathHolds]

theorem currentTiers_eq (tiers : List (TimeTokenTier α)) :
    currentTiers platform now tiers = tiers.filter fun tier => pathHolds platform now tier.timeConditions := rfl

theorem currentTiers_nil {node : ExpressionNode α} {path : List (TimeCondition α)}
    {tiers : List (TimeTokenTier α)} (hpath : pathHolds platform now path = false)
    (h : timeTierBranches describe node path = .ok (some tiers)) : currentTiers platform now tiers = [] := by
  rw [currentTiers_eq, List.filter_eq_nil_iff]
  intro tier htier hholds
  obtain ⟨rest, hrest⟩ := path_prefix node h tier htier
  rw [← hrest] at hholds
  simp only [pathHolds, List.all_append, Bool.and_eq_true] at hholds
  exact absurd hholds.1 (by rw [← pathHolds, hpath]; decide)

/-- The tiers that are current are the rows of the table at the end of the way. -/
theorem currentTiers_timeLeaf (node : ExpressionNode α) :
    ∀ {path : List (TimeCondition α)} {tiers : List (TimeTokenTier α)},
      pathHolds platform now path = true → timeTierBranches describe node path = .ok (some tiers) →
        match timeLeaf platform now node path with
        | none => currentTiers platform now tiers = []
        | some (path', leaf) => ∃ rows, readTokenTierChain leaf = some rows ∧
            currentTiers platform now tiers = rows.map (TokenTier.onPath describe path') := by
  have htable : ∀ {path : List (TimeCondition α)} {rows : List (TokenTier α)}, pathHolds platform now path = true →
        currentTiers platform now (rows.map (TokenTier.onPath describe path))
          = rows.map (TokenTier.onPath describe path) := by
    intro path rows hpath
    rw [currentTiers_eq, List.filter_eq_self]
    intro tier htier
    obtain ⟨row, -, rfl⟩ := List.mem_map.mp htier
    exact hpath
  induction node with
  | conditional condition yes no _ ihy ihn =>
    intro path tiers hpath h
    obtain ⟨htime, tiersYes, tiersNo, hyes, hno, rfl⟩ | ⟨htime, rows, hrows, rfl⟩ :=
      timeTierBranches_conditional h
    · have happend : currentTiers platform now (tiersYes ++ tiersNo)
          = currentTiers platform now tiersYes ++ currentTiers platform now tiersNo :=
        List.filter_append ..
      have hstep : ∀ b, pathHolds platform now (path ++ [⟨condition, b⟩])
          = (evaluateBillingCondition platform condition now = some b : Bool) := by
        intro b
        rw [pathHolds_append, hpath, Bool.true_and]
      rw [timeLeaf, if_pos htime]
      -- The side that the condition does not select has no current tier.
      cases hcondition : evaluateBillingCondition platform condition now with
      | none =>
        dsimp only
        rw [happend, currentTiers_nil (by rw [hstep, hcondition]; rfl) hyes,
          currentTiers_nil (by rw [hstep, hcondition]; rfl) hno]
        rfl
      | some b =>
        cases b with
        | true =>
          have hrest : currentTiers platform now tiersNo = [] :=
            currentTiers_nil (by rw [hstep, hcondition]; rfl) hno
          rw [happend, hrest, List.append_nil]
          exact ihy (by rw [hstep, hcondition]; rfl) hyes
        | false =>
          have hrest : currentTiers platform now tiersYes = [] :=
            currentTiers_nil (by rw [hstep, hcondition]; rfl) hyes
          rw [happend, hrest, List.nil_append]
          exact ihn (by rw [hstep, hcondition]; rfl) hno
    · have hnot : ¬isTimeCondition condition = .ok true := by
        rw [htime]
        decide
      rw [timeLeaf, if_neg hnot]
      exact ⟨rows, hrows, htable hpath⟩
  | _ =>
    intro path tiers hpath h
    obtain ⟨rows, hrows, rfl⟩ := timeTable_eq_some (Except.ok.inj h)
    exact ⟨rows, hrows, htable hpath⟩

end

end

/-! ## The price at an instant -/

section
variable {platform : Platform Exact} {now : Instant}

/-- A conditional goes on with the side that its condition selects. -/
theorem evaluate_timeConditional {context : Context Exact} {depth : ℕ} {s : State Exact}
    {condition yes no : ExpressionNode Exact} {r : Except Diagnostic (RuntimeValue Exact)}
    (hdepth : depth + condition.depth + 1 < maxDepth) (hr : DependsOnTime platform now condition r)
    (hnow : context.now = now) : evaluate platform context (.conditional condition yes no) depth s
      = (r >>= fun v => v.boolean) >>= fun matched =>
          if matched then evaluate platform context yes (depth + 1) s >>= fun p =>
            checkValue p.1 >>= fun v => .ok (v, p.2)
          else evaluate platform context no (depth + 1) s >>= fun p => checkValue p.1 >>= fun v => .ok (v, p.2) := by
  simp only [evaluate_conditional_eq, run_bind, run_lift, run_ite,
    checkEvaluationDepth_of_lt (by omega : depth < maxDepth),
    ok_bind, hr context (depth + 1) s hnow (by omega), bind_assoc]

/-- The evaluation of a node takes the way to the table, and fails where that ends. -/
def Leads (platform : Platform Exact) (now : Instant) (node : ExpressionNode Exact) (depth : ℕ) :
    Option (List (TimeCondition Exact) × ExpressionNode Exact) → Prop
  | none => ∀ (context : Context Exact) (s : State Exact), context.now = now →
      ∃ e, evaluate platform context node depth s = .error e
  | some (_, leaf) => leaf.valid = true ∧ ∃ depth', depth' + leaf.depth < maxDepth ∧
      ∀ (context : Context Exact) (s s' : State Exact) (value : ℚ), context.now = now →
        evaluate platform context leaf depth' s = .ok (⟨.number (.finite value), false⟩, s') →
          evaluate platform context node depth s = .ok (⟨.number (.finite value), false⟩, s')

theorem Leads.of_side {node side : ExpressionNode Exact} {depth : ℕ}
    {way : Option (List (TimeCondition Exact) × ExpressionNode Exact)}
    (hstep : ∀ (context : Context Exact) (s : State Exact), context.now = now →
      evaluate platform context node depth s = evaluate platform context side (depth + 1) s >>= fun p =>
        checkValue p.1 >>= fun v => .ok (v, p.2)) (h : Leads platform now side (depth + 1) way) :
    Leads platform now node depth way := by
  cases way with
  | none =>
    intro context s hnow
    obtain ⟨e, he⟩ := h context s hnow
    refine ⟨e, ?_⟩
    rw [hstep context s hnow, he]
    rfl
  | some leaf =>
    obtain ⟨hvalid, depth', hdepth, heval⟩ := h
    refine ⟨hvalid, depth', hdepth, fun context s s' value hnow hleaf => ?_⟩
    rw [hstep context s hnow, heval context s s' value hnow hleaf, ok_bind, checkValue_number, ok_bind]

theorem leads_timeLeaf (node : ExpressionNode Exact) :
    ∀ {path : List (TimeCondition Exact)} {depth : ℕ}, depth + node.depth < maxDepth → node.valid = true →
      Leads platform now node depth (timeLeaf platform now node path) := by
  induction node with
  | conditional condition yes no _ ihy ihn =>
    intro path depth hdepth hvalid
    rw [timeLeaf]
    split_ifs with htime
    · simp only [ExpressionNode.depth] at hdepth
      simp only [ExpressionNode.valid, Bool.and_eq_true] at hvalid
      obtain ⟨r, hr, ⟨b, hb, hboolean⟩ | ⟨hnone, e, herror⟩⟩ :
          ∃ r : Except Diagnostic (RuntimeValue Exact), DependsOnTime platform now condition r ∧ _ :=
        evaluate_timeCondition htime (by omega)
      · rw [hb]
        have hstep : ∀ (context : Context Exact) (s : State Exact), context.now = now →
            evaluate platform context (.conditional condition yes no) depth s
              = evaluate platform context (if b then yes else no) (depth + 1) s >>= fun p =>
                  checkValue p.1 >>= fun v => .ok (v, p.2) := by
          intro context s hnow
          rw [evaluate_timeConditional (by omega) hr hnow, hboolean, ok_bind]
          cases b <;> rfl
        cases b with
        | true => exact Leads.of_side hstep (ihy (by omega) hvalid.1.2)
        | false => exact Leads.of_side hstep (ihn (by omega) hvalid.2)
      · rw [hnone]
        intro context s hnow
        refine ⟨e, ?_⟩
        rw [evaluate_timeConditional (by omega) hr hnow, herror]
        rfl
    · exact ⟨hvalid, depth, hdepth, fun context s s' value _ h => h⟩
  | _ =>
    intro path depth hdepth hvalid
    exact ⟨hvalid, depth, hdepth, fun context s s' value _ h => h⟩

end

/-- `readTimeTokenPricing`: the tiers of all branches, and those of the branch that the instant selects. -/
def readTimeTokenPricing {α : Type} [DecimalNumbers α] [DecidableEq α]
    (describe : List (TimeCondition α) → List (TokenTierCondition α) → Text) (platform : Platform α)
    (source : Text) (now : Option Instant) :
    Except Diagnostic (Option (List (TimeTokenTier α) × List (TimeTokenTier α))) :=
  match compileBillingExpression source with
  | .error _ => .ok none
  | .ok compiled => do
    let tiers ← timeTierBranches describe compiled.ast []
    return tiers.map fun tiers =>
      (tiers, match now with
        | some now => currentTiers platform now tiers
        | none => [])

/-- The two tables of an audio split are told apart by a text that the time takes the place of. -/
def splitsByAudio (leaf : ExpressionNode Exact) : Bool :=
  match readTokenTierChain leaf with
  | some rows => rows.any (·.conditionText.isSome)
  | none => false

section
variable {describe : List (TimeCondition Exact) → List (TokenTierCondition Exact) → Text}
  {platform : Platform Exact} {now : Instant}

theorem find?_onPath {path : List (TimeCondition Exact)} {rows : List (TokenTier Exact)}
    {leaves : List (ExpressionNode Exact)} {count : Variable → ℚ} {row : TokenTier Exact}
    {leaf : ExpressionNode Exact} (htext : ∀ row ∈ rows, row.conditionText = none)
    (h : (rows.zip leaves).find? (fun entry => entry.1.applies count) = some (row, leaf)) :
    ((rows.map (TokenTier.onPath describe path)).zip leaves).find?
      (fun entry => entry.1.conditions.all (·.holds count)) = some (row.onPath describe path, leaf) := by
  have hzip : (rows.map (TokenTier.onPath describe path)).zip leaves
      = (rows.zip leaves).map fun entry => (entry.1.onPath describe path, entry.2) := by
    rw [List.zip_map_left]
    rfl
  have hsame : ∀ entry ∈ rows.zip leaves,
      (entry.1.onPath describe path).conditions.all (·.holds count) = entry.1.applies count := by
    intro entry hentry
    have htext' := htext entry.1 (List.of_mem_zip hentry).1
    simp [TokenTier.applies, htext', TokenTier.onPath]
  rw [hzip, List.find?_map]
  have hfind : (rows.zip leaves).find? ((fun entry => entry.1.conditions.all (·.holds count)) ∘
      fun entry => (entry.1.onPath describe path, entry.2)) = some (row, leaf) := by
    rw [← h]
    exact List.find?_congr hsame
  rw [hfind]
  rfl

end

/-! ## A price by night -/

def noText (_ : List (TimeCondition Exact)) (_ : List (TokenTierCondition Exact)) : Text := []

def nightSource : Text := "hour(\"UTC\") < 8 ? tier(\"night\", p * 1) : tier(\"day\", p * 2)".toList

def nightCondition : ExpressionNode Exact :=
  .binary .lt (.call₁ (.time .hour) (.literal (.string "UTC".toList))) (.literal (.number (.finite 8) true))

def nightCompiled : Compiled Exact where
  ast := .conditional nightCondition (pricedTier "night" .p 1) (pricedTier "day" .p 2)
  dependencies := ⟨[.p, .p], [.two .tier, .two .tier, .one (.time .hour)]⟩
  requestRules := []

def nightTier (label : String) (price : ℚ) (night : Bool) : TimeTokenTier Exact :=
  ⟨⟨some [], false, none, none, label.toList, [], [(.p, .finite price)]⟩, [⟨nightCondition, night⟩]⟩

def localSource : Text := "hour(\"Local\") < 8 ? tier(\"night\", p * 1) : tier(\"day\", p * 2)".toList

end Vancine.Expression
