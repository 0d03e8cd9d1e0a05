import Vancine.RuleFactors.Senses

/-!
# Conditions answer what they say

The operands of a condition are looked up once for each of its nodes. Each node compares, and the nodes of a
condition together answer its sense.
-/

namespace Vancine.RuleFactors

open Expression Pricing

/-! ## Operands -/

section Operands

variable {α : Type} [DecimalNumbers α] {platform : Platform α} {context : Context α} {left right : ExpressionNode α}

theorem checkValue_storable {value : α} {integer : Bool} (h : Storable value integer) :
    checkValue ⟨.number value, integer⟩ = .ok ⟨.number value, integer⟩ := by
  have hinteger : ¬(integer = true ∧ ¬isSafeInteger value = true) := fun hand => hand.2 (h.2 hand.1)
  unfold checkValue
  simp only [if_neg (not_not.mpr h.1), if_neg hinteger]

theorem checkValue_number (value : α) (integer : Bool) :
    (checkValue ⟨.number value, integer⟩).toOption =
      if Storable value integer then some ⟨.number value, integer⟩ else none := by
  by_cases h : Storable value integer
  · rw [if_pos h, checkValue_storable h]
    rfl
  · rw [if_neg h]
    unfold Storable at h
    unfold checkValue
    by_cases hfinite : isFinite value = true
    · have hinteger : integer = true ∧ ¬isSafeInteger value = true := by
        simpa [hfinite] using h
      simp only [if_neg (not_not.mpr hfinite), if_pos hinteger]
      rfl
    · simp only [if_pos hfinite]
      rfl

/-- The node gives the value, or stops when there is none. -/
def GivesValue (platform : Platform α) (context : Context α) (node : ExpressionNode α)
    (value : Option (RuntimeValue α)) : Prop :=
  ∃ result, Gives platform context node result ∧ result.toOption = value

theorem gives_string (text : Text) : Gives platform context (.literal (.string text)) (.ok ⟨.string text, false⟩) :=
  gives_literal (.string text) rfl

omit [DecimalNumbers α] in
theorem text_string (text : Text) : (⟨.string text, false⟩ : RuntimeValue α).text = .ok text := rfl

variable (platform context) in
theorem givesValue_header (path : Text) :
    GivesValue platform context (headerNode path)
      ((headerText platform context path).map fun text => ⟨.string text, false⟩) := by
  have hcall (result : Except Diagnostic (RuntimeValue α)) (hresult : result =
      context.request.elim (.error ⟨.missingContext, "request headers".toList⟩) fun request =>
        .ok ⟨.string (headerValue platform request path), false⟩) (s : State α) :
      callOne platform context .header ⟨.string path, false⟩ s = result >>= fun value => .ok (value, s) := by
    subst hresult
    cases hrequest : context.request <;> simp only [callOne, hrequest] <;> rfl
  refine ⟨_, gives_call₁ (gives_string path) (hcall _ rfl), ?_⟩
  unfold headerText
  cases context.request <;> rfl

variable (platform context) in
theorem givesValue_param (path : Text) :
    GivesValue platform context (paramNode path) ((paramValue context path).map fun value => ⟨value, false⟩) := by
  have hcall (result : Except Diagnostic (RuntimeValue α)) (hresult : result =
      context.request.elim (.error ⟨.missingContext, "request body".toList⟩) fun request =>
        readRequestPath request.body path >>= fun value => .ok ⟨value, false⟩) (s : State α) :
      callOne platform context .param ⟨.string path, false⟩ s = result >>= fun value => .ok (value, s) := by
    subst hresult
    cases hrequest : context.request with
    | none =>
      simp only [callOne, hrequest]
      rfl
    | some request =>
      simp only [callOne, hrequest, Option.elim_some]
      rw [run_lift_bind, text_string, ok_bind, run_lift_bind, bind_assoc]
      rfl
  refine ⟨_, gives_call₁ (gives_string path) (hcall _ rfl), ?_⟩
  unfold paramValue
  cases context.request with
  | none => rfl
  | some request =>
    cases hread : readRequestPath request.body path with
    | error e => simp only [Option.bind_eq_bind, Option.bind_some, Option.elim_some, hread]; rfl
    | ok value =>
      cases value with
      | number n =>
        have hcheck : (checkValue ⟨.number n, false⟩).toOption =
            if isFinite n = true then some ⟨.number n, false⟩ else none := by
          rw [checkValue_number]
          exact if_congr (and_iff_left fun h => by cases h) rfl rfl
        simp only [Option.bind_eq_bind, Option.bind_some, Option.elim_some, hread]
        refine hcheck.trans ?_
        show _ = Option.map _ (if isFinite n = true then some (Json.number n) else none)
        rw [apply_ite (Option.map _)]
        rfl
      | _ => simp only [Option.bind_eq_bind, Option.bind_some, Option.elim_some, hread]; rfl

variable (platform context) in
theorem givesValue_time (timeFunc : TimeFunc) (zone : Text) :
    GivesValue platform context (timeNode timeFunc zone)
      ((clock platform context timeFunc zone).map fun value => ⟨.number value, true⟩) := by
  have hcall (s : State α) : callOne platform context (.time timeFunc) ⟨.string zone, false⟩ s =
      (timeInBillingZone platform context.now (trim zone) >>= fun fields =>
        .ok ⟨.number (ofInt (fields timeFunc)), true⟩) >>= fun value => .ok (value, s) := by
    simp only [callOne]
    rw [run_lift_bind, text_string, ok_bind, run_lift_bind, bind_assoc]
    rfl
  refine ⟨_, gives_call₁ (gives_string zone) hcall, ?_⟩
  unfold clock
  cases timeInBillingZone platform context.now (trim zone) with
  | error e => rfl
  | ok fields =>
    refine (checkValue_number _ _).trans ?_
    show _ = Option.map _ (if Storable (ofInt (fields timeFunc) : α) true then some (ofInt (fields timeFunc)) else none)
    rw [apply_ite (Option.map _)]
    rfl

/-! ## Comparisons -/

omit [DecimalNumbers α] in
theorem answerOf_bind {result : Except Diagnostic (RuntimeValue α)} {value : Option (RuntimeValue α)}
    (h : result.toOption = value) (f : RuntimeValue α → Except Diagnostic (RuntimeValue α)) :
    answerOf (result >>= f) = value.bind fun x => answerOf (f x) := by
  subst h
  cases result <;> rfl

theorem answers_comparison {operator : BinaryOp} (h : isComparison operator = true) {value : Option (RuntimeValue α)}
    {y : RuntimeValue α} (hl : GivesValue platform context left value) (hr : Gives platform context right (.ok y)) :
    Answers platform context (.binary operator left right)
      (value.bind fun x => answerOf (binaryValue operator x y)) := by
  obtain ⟨l, hl, hvalue⟩ := hl
  exact ⟨_, gives_comparison h hl hr, answerOf_bind hvalue _⟩

theorem answers_has {value : Option (RuntimeValue α)} (text : Text) (hl : GivesValue platform context left value) :
    Answers platform context (.call₂ .has left (.literal (.string text)))
      (value.bind fun x => if x.value.isNull ∨ text = [] then some false
        else (billingString platform x.value 0).toOption.map fun written => includes written text) := by
  obtain ⟨l, hl, hvalue⟩ := hl
  refine ⟨_, gives_has hl (gives_string text), (answerOf_bind hvalue _).trans ?_⟩
  refine congrArg (value.bind ·) (funext fun x => ?_)
  unfold hasValue
  split_ifs
  · rfl
  · cases billingString platform x.value 0 <;> rfl

variable (platform context) in
theorem gives_number {text : Text} (h : Readable α text) :
    Gives platform context (numberNode text) (.ok ⟨.number (literalNumber text), isIntegerText (unsigned text)⟩) := by
  rcases sign_cases (α := α) text with ⟨digits, rfl⟩ | ⟨-, hunsigned, hnode, hvalue⟩
  · have hdigits : Gives platform context (.literal (.number (numberValue digits) (isIntegerText digits)))
        (.ok ⟨.number (numberValue digits), isIntegerText digits⟩) :=
      gives_literal (.number (numberValue digits) (isIntegerText digits)) (checkValue_storable h.1)
    have hminus := gives_unary .minus hdigits
    have hvalue : (unaryValue .minus ⟨.number (numberValue digits : α), isIntegerText digits⟩ >>= checkValue) =
        .ok ⟨.number (literalNumber ('-' :: digits)), isIntegerText digits⟩ := checkValue_storable h.2
    rw [hvalue] at hminus
    exact hminus
  · rw [hnode, hunsigned, hvalue]
    have hstorable := h.1
    rw [hunsigned] at hstorable
    exact gives_literal (.number (numberValue text) (isIntegerText text)) (checkValue_storable hstorable)

variable (platform context) in
theorem gives_literalNode (text : Text) (h : isNumeric text = true → Readable α text) :
    ∃ value, Gives platform context (literalNode text) (.ok value) ∧ value.value = literalValue text := by
  unfold literalNode literalValue
  split_ifs with htrue hfalse hnumeric
  · exact ⟨_, gives_literal (.boolean true) rfl, rfl⟩
  · exact ⟨_, gives_literal (.boolean false) rfl, rfl⟩
  · exact ⟨_, gives_number platform context (h hnumeric), rfl⟩
  · exact ⟨_, gives_string text, rfl⟩

/-! ## Conditions -/

/-- The nodes together answer what the condition says. -/
def AnswerTogether (platform : Platform α) (context : Context α) (nodes : List (ExpressionNode α))
    (answer : Option Bool) : Prop :=
  ∃ answers, List.Forall₂ (Answers platform context) nodes answers ∧ all answers = answer

theorem answerTogether_one {node : ExpressionNode α} {a b : Option Bool} (h : Answers platform context node a)
    (hab : a = b) : AnswerTogether platform context [node] b :=
  ⟨[a], .cons h .nil, (both_true a).trans hab⟩

theorem answerTogether_two {node next : ExpressionNode α} {a b c : Option Bool} (h : Answers platform context node a)
    (hnext : Answers platform context next b) (hab : both a b = c) : AnswerTogether platform context [node, next] c :=
  ⟨[a, b], .cons h (.cons hnext .nil), (congrArg (both a) (both_true b)).trans hab⟩

theorem literalValue_plain (text : Text) :
    (literalValue text : Json α).isNull = false ∧ (literalValue text : Json α).isObject = false := by
  unfold literalValue
  split_ifs <;> exact ⟨rfl, rfl⟩

/-- A text equals what is written in quotes, and nothing that is not. -/
theorem string_strictEq (text value : Text) :
    (Json.string text : Json α).strictEq (literalValue value) = (!looksTyped value && decide (text = value)) := by
  unfold literalValue looksTyped
  split_ifs with htrue hfalse hnumeric
  · simp [htrue, Json.strictEq]
  · simp [hfalse, Json.strictEq]
  · simp [hnumeric, Json.strictEq]
  · rw [decide_eq_false htrue, decide_eq_false hfalse, Bool.eq_false_of_not_eq_true hnumeric]
    rfl

theorem answerOf_equality {negated : Bool} {a b : Json α} (ha : a.isNull = true ∨ a.isObject = false)
    (hb : b.isNull = true ∨ b.isObject = false) :
    answerOf (equality negated a b) = some (a.strictEq b != negated) := by
  have hnot : ¬(!a.isNull && !b.isNull && (a.isObject || b.isObject)) = true := by
    rcases ha with ha | ha <;> rcases hb with hb | hb <;> simp [ha, hb]
  unfold equality
  rw [if_neg hnot]
  rfl

theorem normalize_mode_mem (cond : ParamHeaderCondition) : cond.normalize.mode ∈ cond.source.matchOptions := by
  unfold ParamHeaderCondition.normalize
  dsimp only
  split_ifs with hmem
  · exact hmem
  · cases cond.source <;> decide

/-- The answer of a header that is compared with a number or a boolean is no. -/
def headerAnswer (platform : Platform α) (context : Context α) (cond : ParamHeaderCondition) : Option Bool :=
  if cond.normalize.mode = .eq ∧ looksTyped (trim cond.value) = true then
    (headerSense platform context cond).map fun _ => false
  else headerSense platform context cond

variable (platform context) in
theorem header_answers {cond : ParamHeaderCondition} (hsource : cond.source = .header)
    (hnumbers : ∀ text ∈ writtenNumbers (.paramHeader cond), Readable α text) :
    AnswerTogether platform context (headerNodes cond) (headerAnswer platform context cond) := by
  have hheader := givesValue_header platform context (trim cond.path)
  have hmem := normalize_mode_mem cond
  rw [hsource] at hmem
  simp only [Source.matchOptions, List.mem_cons, List.not_mem_nil, or_false] at hmem
  unfold headerNodes headerAnswer headerSense
  rcases hmem with hmode | hmode | hmode
  · obtain ⟨value, hgives, hvalue⟩ := gives_literalNode platform context (trim cond.value) fun h =>
      hnumbers _ (by simp [writtenNumbers, hmode, h])
    simp only [hmode]
    refine answerTogether_one (answers_comparison rfl hheader hgives) ?_
    rw [Option.bind_map]
    cases headerText platform context (trim cond.path) with
    | none => split_ifs <;> rfl
    | some text =>
      have hequal : answerOf (equality false (.string text) value.value : Except Diagnostic (RuntimeValue α)) =
          some (!looksTyped (trim cond.value) && decide (text = trim cond.value)) := by
        rw [hvalue, answerOf_equality (.inr rfl) (.inr (literalValue_plain _).2), Bool.bne_false, string_strictEq]
      refine hequal.trans ?_
      cases looksTyped (trim cond.value) <;> rfl
  · simp only [hmode]
    refine answerTogether_one (answers_has _ hheader) ?_
    rw [Option.bind_map]
    cases headerText platform context (trim cond.path) with
    | none => rfl
    | some text =>
      by_cases hvalue : trim cond.value = []
      · simp [hvalue, Json.isNull]
      · have hwritten : billingString platform (.string text : Json α) 0 = .ok text := by
          rw [billingString]
          rfl
        have hnot : ¬((Json.string text : Json α).isNull = true ∨ trim cond.value = []) :=
          not_or.mpr ⟨Bool.false_ne_true, hvalue⟩
        simp only [Option.bind_some, Function.comp_apply, Option.map_some, if_neg hnot, hwritten,
          decide_eq_true hvalue, Bool.true_and]
        rfl
  · simp only [hmode]
    refine answerTogether_one (answers_comparison rfl hheader (gives_string _)) ?_
    rw [Option.bind_map]
    cases headerText platform context (trim cond.path) with
    | none => rfl
    | some text =>
      have hequal : answerOf (equality true (.string text) (.string []) : Except Diagnostic (RuntimeValue α)) =
          some (decide (text = []) != true) := answerOf_equality (.inr rfl) (.inr rfl)
      rw [Bool.bne_true, ← decide_not] at hequal
      exact hequal

theorem present_answers (path : Text) :
    Answers platform context (.binary .ne (paramNode path) (.literal .nil))
      ((paramValue context path).map fun value => !value.isNull) := by
  have hnil : Gives platform context (.literal .nil) (.ok ⟨.null, false⟩) := gives_literal .nil rfl
  obtain ⟨result, hresult, hanswer⟩ :=
    answers_comparison (rfl : isComparison .ne = true) (givesValue_param platform context path) hnil
  refine ⟨result, hresult, hanswer.trans ?_⟩
  rw [Option.bind_map]
  cases paramValue context path with
  | none => rfl
  | some value =>
    have hequal : answerOf (equality true value .null : Except Diagnostic (RuntimeValue α)) =
        some (value.strictEq .null != true) := by
      unfold equality
      cases value <;> rfl
    refine hequal.trans ?_
    cases value <;> rfl

omit [DecimalNumbers α] in
theorem isNumeric_of_order {cond : ParamHeaderCondition} {operator : Text} (hcomplete : cond.complete = true)
    (hmode : cond.normalize.mode.order? = some operator) : isNumeric (trim cond.value) = true := by
  unfold ParamHeaderCondition.complete at hcomplete
  simp only [Bool.and_eq_true, Bool.or_eq_true] at hcomplete
  refine hcomplete.2.resolve_left ?_
  rw [(cond.normalize_order hmode).2]
  exact Bool.false_ne_true

theorem readable_of_order {cond : ParamHeaderCondition} {operator : Text} (hcomplete : cond.complete = true)
    (hnumbers : ∀ text ∈ writtenNumbers (.paramHeader cond), Readable α text)
    (hmode : cond.normalize.mode.order? = some operator) : Readable α (trim cond.value) := by
  have hnumeric := isNumeric_of_order hcomplete hmode
  refine hnumbers _ ?_
  unfold writtenNumbers
  cases hm : cond.normalize.mode with
  | gt | gte | lt | lte => simp [hnumeric, hm]
  | _ =>
    rw [hm] at hmode
    cases hmode

variable (platform context) in
theorem param_answers {cond : ParamHeaderCondition} (hsource : cond.source = .param) (hcomplete : cond.complete = true)
    (hnumbers : ∀ text ∈ writtenNumbers (.paramHeader cond), Readable α text) :
    AnswerTogether platform context (paramNodes cond) (paramSense platform context cond) := by
  have hparam := givesValue_param platform context (trim cond.path)
  have hmem := normalize_mode_mem cond
  rw [hsource] at hmem
  simp only [Source.matchOptions, List.mem_cons, List.not_mem_nil, or_false] at hmem
  have hnumber {operator : Text} (h : cond.normalize.mode.order? = some operator) :=
    gives_number platform context (readable_of_order hcomplete hnumbers h)
  rcases hmem with hmode | hmode | hmode | hmode | hmode | hmode | hmode
  all_goals
    unfold paramNodes paramSense
    simp only [hmode] at hnumber ⊢
  · -- equal
    obtain ⟨value, hgives, hvalue⟩ := gives_literalNode platform context (trim cond.value) fun h =>
      hnumbers _ (by simp [writtenNumbers, hmode, h])
    refine answerTogether_one (answers_comparison rfl hparam hgives) ?_
    rw [Option.bind_map]
    refine congrArg (Option.bind _) (funext fun v => ?_)
    show answerOf (equality false v value.value) = _
    rw [hvalue]
    have hplain := literalValue_plain (α := α) (trim cond.value)
    by_cases hobject : v.isObject = true
    · have hnull : v.isNull = false := by
        cases v <;> first | rfl | cases hobject
      rw [if_pos hobject]
      unfold equality
      rw [if_pos (by simp [hnull, hplain.1, hobject])]
      rfl
    · rw [if_neg hobject, answerOf_equality (.inr (Bool.eq_false_of_not_eq_true hobject)) (.inr hplain.2),
        Bool.bne_false]
  · -- contains
    refine answerTogether_two (present_answers _) (answers_has _ hparam) ?_
    cases paramValue context (trim cond.path) with
    | none => rfl
    | some v =>
      cases hnull : v.isNull with
      | false => simp only [Option.map_some, Option.bind_some, hnull, Bool.not_false]; rfl
      | true => simp only [Option.map_some, Option.bind_some, hnull, Bool.not_true, true_or, if_true]; rfl
  · -- exists
    refine answerTogether_one (present_answers _) ?_
    cases paramValue context (trim cond.path) <;> rfl
  all_goals
    refine answerTogether_two (present_answers _) (answers_comparison rfl hparam (hnumber rfl)) ?_
    cases paramValue context (trim cond.path) with
    | none => rfl
    | some v => cases v <;> rfl

theorem normalize_time_mem (cond : TimeCondition) : cond.normalize.mode ∈ timeMatchOptions := by
  unfold TimeCondition.normalize
  dsimp only
  split_ifs with h
  · exact h
  · decide

theorem isComparison_modeOperator (mode : MatchMode) : isComparison (modeOperator mode) = true := by
  cases mode <;> rfl

variable (platform context) in
theorem bound_answers {mode : MatchMode} (hmode : mode ∈ timeMatchOptions) (hrange : mode ≠ .range)
    (timeFunc : TimeFunc) (zone : Text) {text : Text} (hnumber : Readable α text) :
    Answers platform context (.binary (modeOperator mode) (timeNode timeFunc zone) (numberNode text))
      ((clock platform context timeFunc zone).map fun now => compares mode now (literalNumber text)) := by
  obtain ⟨result, hresult, hanswer⟩ :=
    answers_comparison (isComparison_modeOperator mode) (givesValue_time platform context timeFunc zone)
      (gives_number platform context hnumber)
  refine ⟨result, hresult, hanswer.trans ?_⟩
  rw [Option.bind_map]
  cases clock platform context timeFunc zone with
  | none => rfl
  | some now =>
    simp only [timeMatchOptions, List.mem_cons, List.not_mem_nil, or_false] at hmode
    rcases hmode with rfl | rfl | rfl | rfl
    · have hequal : answerOf (equality false (.number now) (.number (literalNumber text)) :
          Except Diagnostic (RuntimeValue α)) = some (Numbers.eq now (literalNumber text) != false) :=
        answerOf_equality (.inr rfl) (.inr rfl)
      rw [Bool.bne_false] at hequal
      exact hequal
    · rfl
    · rfl
    · exact absurd rfl hrange

theorem time_answers {cond : TimeCondition}
    (hnumbers : ∀ text ∈ writtenNumbers (.time cond), Readable α text) :
    AnswerTogether platform context (timeNodes cond) (timeSense platform context cond) := by
  unfold writtenNumbers at hnumbers
  unfold timeNodes timeSense
  by_cases hrange : cond.normalize.mode = .range
  · simp only [if_pos hrange, List.forall_mem_cons] at hnumbers ⊢
    have hafter := bound_answers platform context (by decide : .gte ∈ timeMatchOptions) (by decide)
      cond.timeFunc cond.normalize.timezone hnumbers.1
    have hbefore := bound_answers platform context (by decide : .lt ∈ timeMatchOptions) (by decide)
      cond.timeFunc cond.normalize.timezone hnumbers.2.1
    by_cases hover : cond.overnight = true
    · rw [if_pos hover]
      refine answerTogether_one (hafter.or hbefore) ?_
      simp only [if_pos hover]
      cases clock platform context cond.timeFunc cond.normalize.timezone with
      | none => rfl
      | some now =>
        simp only [Option.map_some]
        cases compares .gte now (literalNumber (trim cond.rangeStart)) <;> rfl
    · rw [if_neg hover]
      refine answerTogether_two hafter hbefore ?_
      simp only [if_neg hover]
      cases clock platform context cond.timeFunc cond.normalize.timezone with
      | none => rfl
      | some now =>
        simp only [Option.map_some]
        cases compares .gte now (literalNumber (trim cond.rangeStart)) <;> rfl
  · simp only [if_neg hrange, List.forall_mem_singleton] at hnumbers ⊢
    have hbound := bound_answers platform context (normalize_time_mem cond) hrange cond.timeFunc
      cond.normalize.timezone hnumbers
    exact answerTogether_one hbound rfl

variable (platform context) in
/-- The nodes of a condition answer what it says, unless it compares a header with a number or a boolean. -/
theorem condition_answers {cond : RequestCondition} (hcomplete : cond.complete = true)
    (hnumbers : ∀ text ∈ writtenNumbers cond, Readable α text) :
    AnswerTogether platform context (conditionNodes cond) (asked platform context cond) := by
  cases cond with
  | time cond => exact time_answers hnumbers
  | paramHeader cond =>
    cases hsource : cond.source with
    | header =>
      have h := header_answers platform context hsource hnumbers
      simpa [conditionNodes, asked, comparesTyped, sense, headerAnswer, hsource] using h
    | param =>
      have h := param_answers platform context hsource hcomplete hnumbers
      simpa [conditionNodes, asked, comparesTyped, sense, hsource] using h

end Operands

end Vancine.RuleFactors
