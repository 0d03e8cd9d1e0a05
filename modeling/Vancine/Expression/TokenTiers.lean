import Vancine.Expression.Display
import Vancine.Expression.Lexing

/-!
# A price table gives the price

For an expression whose table `readTokenTierChain` reads: whatever the counts are, the first tier of the
table that matches has the label that the evaluation reports, and its prices times the counts are the cost.
Numbers are exact here.

Two tiers of a table are told apart by their condition text alone, those with audio and those without. And
a tier that prices what is left of the context after its audio reports that as its price of `p`.
-/

namespace Vancine.Expression

open Pricing (Text TimeFunc)

/-! ## What a table says -/

def Exact.toRat : Exact → ℚ
  | .finite value => value
  | .notFinite => 0

@[simp] theorem Exact.toRat_finite (value : ℚ) : (Exact.finite value).toRat = value := rfl

def TierVariable.toVariable : TierVariable → Variable
  | .p => .p
  | .c => .c
  | .len => .len

def TierOp.holds : TierOp → ℚ → ℚ → Bool
  | .lt, a, b => a < b
  | .le, a, b => a ≤ b
  | .gt, a, b => b < a
  | .ge, a, b => b ≤ a

def TokenTierCondition.holds (count : Variable → ℚ) (condition : TokenTierCondition Exact) : Bool :=
  condition.op.holds (count condition.var.toVariable) condition.value.toRat

/-- The conditions of a tier hold; a tier for audio requests also wants audio. -/
def TokenTier.applies (count : Variable → ℚ) (tier : TokenTier Exact) : Bool :=
  (tier.conditionText ≠ some audioText || 0 < count .ai || 0 < count .ao) &&
    tier.conditions.all (·.holds count)

/-- The price of a tier for the counts: its fixed price, or that of each kind of token, for each image. -/
def TokenTier.cost (count : Variable → ℚ) (tier : TokenTier Exact) : ℚ :=
  (match tier.fixedPrice with
    | some amount => amount.toRat * 1000000
    | none => (tier.prices.map fun price => count price.1 * price.2.toRat).sum) *
  (if tier.imageCount then count .image_count else 1)

/-- The nodes that the tiers of a table are read from. -/
def tierLeaves : ExpressionNode Exact → List (ExpressionNode Exact)
  | .conditional _ yes no => yes :: tierLeaves no
  | .binary .mul left right =>
    if isImageCount left then tierLeaves right
    else if isImageCount right then tierLeaves left
    else [.binary .mul left right]
  | node => [node]

/-- The counts that the prices of a tier are for: with `max(0, len - ai)` in its expression, that is what
its price of `p` counts. -/
def leafCount (count : Variable → ℚ) (leaf : ExpressionNode Exact) (name : Variable) : ℚ :=
  if name = .p ∧ leaf.calls (· = .two .max) = true then max 0 (count .len - count .ai) else count name

/-! ## Contexts and expressions -/

/-- The context has all counts, and a number of images that is allowed. -/
structure CompleteUsage (context : Context Exact) (count : Variable → ℚ) : Prop where
  tokens : checkTokens context.tokens = .ok ()
  lookup : ∀ name, name ≠ .image_count → context.tokens.lookup name = some (.finite (count name))
  nonneg : ∀ name, 0 ≤ count name
  images : context.imageCount.getD one = .finite (count .image_count)
  isInteger : (count .image_count).den = 1
  one_le : 1 ≤ count .image_count
  le_max : count .image_count ≤ 128

/-! ## Evaluation without effect -/

section
variable (platform : Platform Exact) (context : Context Exact)

/-- The node evaluates to the value, and leaves the state as it is. -/
def Returns (node : ExpressionNode Exact) (depth : ℕ) (value : RuntimeValue Exact) : Prop :=
  ∀ s, evaluate platform context node depth s = .ok (value, s)

end

section
variable {platform : Platform Exact} {context : Context Exact} {count : Variable → ℚ} {depth : ℕ}

@[simp] theorem checkValue_number (value : ℚ) : checkValue (⟨.number (.finite value), false⟩ : RuntimeValue Exact)
      = .ok ⟨.number (.finite value), false⟩ := rfl

@[simp] theorem checkValue_bool (value : Bool) :
    checkValue (⟨.bool value, false⟩ : RuntimeValue Exact) = .ok ⟨.bool value, false⟩ := rfl

variable {integer : Bool} {left right : ExpressionNode Exact} {node : ExpressionNode Exact} {price : Exact}
  {name : Variable} {tier : TokenTier Exact} {part : ExpressionNode Exact} {condition yes no : ExpressionNode Exact}
  {tiers : List (TokenTier Exact)}

theorem checkValue_literal {value : ℚ} (h : (Literal.number (Exact.finite value) integer).valid = true) :
    checkValue (⟨.number (.finite value), integer⟩ : RuntimeValue Exact) = .ok ⟨.number (.finite value), integer⟩ := by
  cases integer with
  | false => rfl
  | true =>
    simp only [Literal.valid, Bool.and_eq_true, Bool.not_true, Bool.false_or] at h
    exact if_neg fun hunsafe => hunsafe.2 h.2

theorem finite_of_valid {value : Exact} (h : (Literal.number value integer).valid = true) :
    value = .finite value.toRat ∧ 0 ≤ value.toRat := by
  cases value with
  | finite value =>
    simp only [Literal.valid, Bool.and_eq_true] at h
    exact ⟨rfl, by simpa [isNonnegative, Numbers.le, zero, ofInt, Exact.compare] using h.1.2⟩
  | notFinite => cases h

theorem returns_literal {value : Exact} (hdepth : depth < maxDepth) (h : (Literal.number value integer).valid = true) :
    Returns platform context (.literal (.number value integer)) depth ⟨.number (.finite value.toRat), integer⟩ := by
  intro s
  cases value with
  | finite value =>
    simp only [evaluate_literal_eq, run_bind, run_lift, checkEvaluationDepth_of_lt hdepth, ok_bind,
      Literal.runtimeValue, checkValue_literal h, Exact.toRat_finite]
  | notFinite => exact nomatch h

theorem readVariable_eq (hu : CompleteUsage context count) (name : Variable) :
    readVariable context name = .ok ⟨.number (.finite (count name)), false⟩ := by
  by_cases hname : name = .image_count
  · subst hname
    have hinteger : isInteger (Exact.finite (count .image_count)) = true := decide_eq_true hu.isInteger
    have hlow : Numbers.lt (Exact.finite (count .image_count)) one = false :=
      decide_eq_false (not_lt.mpr (by exact_mod_cast hu.one_le))
    have hhigh : Numbers.lt (ofInt 128) (Exact.finite (count .image_count)) = false :=
      decide_eq_false (not_lt.mpr (by exact_mod_cast hu.le_max))
    simp [readVariable, hu.images, hinteger, hlow, hhigh]
  · have hsign : Numbers.lt (Exact.finite (count name)) zero = false :=
      decide_eq_false (not_lt.mpr (by exact_mod_cast hu.nonneg name))
    simp [readVariable, hname, hu.lookup name hname, hsign]

theorem returns_var (hu : CompleteUsage context count) (hdepth : depth < maxDepth) (name : Variable) :
    Returns platform context (.var name) depth ⟨.number (.finite (count name)), false⟩ := by
  intro s
  simp only [evaluate_var_eq, run_bind, run_lift, checkEvaluationDepth_of_lt hdepth, ok_bind,
    readVariable_eq hu name, checkValue_number]

/-! ## Prices -/

variable {a b : ℚ} {i j : Bool} {operand : ExpressionNode Exact} {input : ExpressionNode Exact}
  {term : ExpressionNode Exact} {conditions : List (TokenTierCondition Exact)}

/-- A sum, a difference or a product with an operand that is not marked as an integer. -/
theorem returns_arithmetic {operator : BinaryOp} {f : ℚ → ℚ → ℚ} (hdepth : depth < maxDepth)
    (hop : (operator = .add ∧ f = (· + ·)) ∨ (operator = .sub ∧ f = (· - ·)) ∨ (operator = .mul ∧ f = (· * ·)))
    (hleft : Returns platform context left (depth + 1) ⟨.number (.finite a), i⟩)
    (hright : Returns platform context right (depth + 1) ⟨.number (.finite b), j⟩) (hij : (i && j) = false) :
    Returns platform context (.binary operator left right) depth ⟨.number (.finite (f a b)), false⟩ := by
  intro s
  obtain ⟨rfl, rfl⟩ | ⟨rfl, rfl⟩ | ⟨rfl, rfl⟩ := hop <;>
    simp only [evaluate_operator_eq, ne_eq, reduceCtorEq, not_false_eq_true,
      run_bind, run_lift, checkEvaluationDepth_of_lt hdepth, ok_bind, hleft s, hright s,
      binaryValue, arithmetic, hij, Numbers.add, Numbers.sub, Numbers.mul, Exact.map₂, checkValue_number]

theorem returns_max {arg₁ arg₂ : ExpressionNode Exact} (hdepth : depth < maxDepth)
    (h₁ : Returns platform context arg₁ (depth + 1) ⟨.number (.finite a), i⟩)
    (h₂ : Returns platform context arg₂ (depth + 1) ⟨.number (.finite b), j⟩) :
    Returns platform context (.call₂ .max arg₁ arg₂) depth ⟨.number (.finite (max a b)), false⟩ := by
  intro s
  simp only [evaluate_max_eq, run_bind, run_lift, checkEvaluationDepth_of_lt hdepth, ok_bind, h₁ s, h₂ s,
    RuntimeValue.numeric, Numbers.max, Exact.map₂, checkValue_number]

theorem isZero_cases (h : isZero node = true) : ∃ integer, node = .literal (.number (.finite 0) integer) := by
  unfold isZero at h
  split at h
  case h_1 value integer =>
    have hvalue : value = .finite 0 := by
      cases value with
      | finite value => exact congrArg Exact.finite (by simpa [Numbers.eq, zero, ofInt, Exact.compare] using h)
      | notFinite => cases h
    exact ⟨integer, by rw [hvalue]⟩
  case h_2 => cases h

theorem returns_minus {a : ℚ} (hdepth : depth < maxDepth)
    (h : Returns platform context operand (depth + 1) ⟨.number (.finite a), integer⟩)
    (hcheck : checkValue (⟨.number (.finite (-a)), integer⟩ : RuntimeValue Exact) = .ok ⟨.number (.finite (-a)), integer⟩) :
    Returns platform context (.unary .minus operand) depth ⟨.number (.finite (-a)), integer⟩ := by
  intro s
  simp only [evaluate_unary_eq, run_bind, run_lift, checkEvaluationDepth_of_lt hdepth, ok_bind, h s, unaryValue,
    RuntimeValue.numeric, Numbers.neg, Exact.map, pure_eq_ok, hcheck]

theorem returns_price (hdepth : depth + node.depth < maxDepth) (hvalid : node.valid = true)
    (h : nonnegativePriceLiteral node = some price) :
    0 ≤ price.toRat ∧ ∃ integer, Returns platform context node depth ⟨.number (.finite price.toRat), integer⟩ := by
  unfold nonnegativePriceLiteral at h
  split at h
  case h_1 value integer =>
    split_ifs at h
    cases h
    exact ⟨(finite_of_valid hvalid).2, integer, returns_literal (by omega) hvalid⟩
  case h_2 operand =>
    split_ifs at h with hzero
    obtain ⟨integer, rfl⟩ := isZero_cases hzero
    obtain rfl : price = .finite (-0) := (Option.some.inj h).symm.trans (by decide)
    have hoperand : depth + 1 < maxDepth := by
      simp only [ExpressionNode.depth] at hdepth
      omega
    exact ⟨by decide, integer, returns_minus (by omega) (returns_literal hoperand hvalid)
      (by rw [neg_zero]; exact checkValue_literal hvalid)⟩
  case h_3 => cases h

/-- What a price is per unit of. -/
def inputCount (count : Variable → ℚ) (input : ExpressionNode Exact) (name : Variable) : ℚ :=
  if input.calls (· = .two .max) = true then max 0 (count .len - count .ai) else count name

theorem isRemainder_cases (h : isRemainder node = true) : node = .binary .sub (.var .len) (.var .ai) := by
  unfold isRemainder at h
  split at h
  case h_1 => rfl
  case h_2 => exact nomatch h

theorem priceInput_calls (h : priceInput input = some name) (hcalls : input.calls (· = .two .max) = true) :
    name = .p := by
  unfold priceInput at h
  split at h
  case h_1 => exact nomatch hcalls
  case h_2 =>
    split_ifs at h <;>
    · cases h
      rfl
  case h_3 => exact nomatch h

theorem returns_input (hu : CompleteUsage context count) (hdepth : depth + input.depth < maxDepth)
    (hvalid : input.valid = true) (h : priceInput input = some name) :
    Returns platform context input depth ⟨.number (.finite (inputCount count input name)), false⟩ := by
  unfold priceInput at h
  split at h
  case h_1 name' =>
    split_ifs at h
    cases h
    exact returns_var hu (by omega) name
  case h_2 arg₁ arg₂ =>
    have hcalls : (ExpressionNode.call₂ .max arg₁ arg₂).calls (· = .two .max) = true := by
      simp [ExpressionNode.calls]
    have hcount : inputCount count (.call₂ .max arg₁ arg₂) name = max 0 (count .len - count .ai) :=
      if_pos hcalls
    simp only [ExpressionNode.depth] at hdepth
    simp only [ExpressionNode.valid, Bool.and_eq_true] at hvalid
    have hremainder : ∀ node : ExpressionNode Exact, isRemainder node = true → node.depth ≤ max arg₁.depth arg₂.depth →
          Returns platform context node (depth + 1) ⟨.number (.finite (count .len - count .ai)), false⟩ := by
      intro node hnode hle
      rw [isRemainder_cases hnode] at hle ⊢
      simp only [ExpressionNode.depth] at hle
      exact returns_arithmetic (by omega) (.inr (.inl ⟨rfl, rfl⟩)) (returns_var hu (by omega) .len)
        (returns_var hu (by omega) .ai) rfl
    rw [hcount]
    split_ifs at h with h₁ h₂ h₂ h₃
    · cases h
      obtain ⟨integer, rfl⟩ := isZero_cases h₁
      exact returns_max (by omega) (returns_literal (by omega) hvalid.1)
        (hremainder arg₂ h₂ (le_max_right _ _))
    · cases h
      obtain ⟨integer, rfl⟩ := isZero_cases h₂
      rw [max_comm]
      exact returns_max (by omega) (hremainder arg₁ h₃ (le_max_left _ _))
        (returns_literal (by omega) hvalid.2)
  case h_3 => cases h

theorem calls_of_price (h : nonnegativePriceLiteral node = some price) : node.calls (· = .two .max) = false := by
  unfold nonnegativePriceLiteral at h
  split at h
  case h_1 => rfl
  case h_2 operand =>
    split_ifs at h with hzero
    obtain ⟨integer, rfl⟩ := isZero_cases hzero
    rfl
  case h_3 => exact nomatch h

/-- The cost of a term of a price. -/
def termCost (count : Variable → ℚ) (term : ExpressionNode Exact) : ℚ :=
  match priceTerm term with
  | some (name, price) => inputCount count term name * price.toRat
  | none => 0

theorem priceTerm_cases (h : priceTerm term = some (name, price)) :
    ∃ input literal, priceInput input = some name ∧ nonnegativePriceLiteral literal = some price ∧
      (term = .binary .mul input literal ∨ term = .binary .mul literal input) ∧
      term.calls (· = .two .max) = input.calls (· = .two .max) := by
  unfold priceTerm at h
  split at h
  case h_2 => exact nomatch h
  case h_1 left right =>
    cases hright : nonnegativePriceLiteral right with
    | some price' =>
      simp only [hright, Option.map_eq_some_iff, Prod.mk.injEq] at h
      obtain ⟨name', hinput, rfl, rfl⟩ := h
      exact ⟨left, right, hinput, hright, .inl rfl, by
        rw [ExpressionNode.calls, calls_of_price hright, Bool.or_false]⟩
    | none =>
      cases hleft : nonnegativePriceLiteral left with
      | none =>
        simp only [hright, hleft] at h
        exact nomatch h
      | some price' =>
        simp only [hright, hleft, Option.map_eq_some_iff, Prod.mk.injEq] at h
        obtain ⟨name', hinput, rfl, rfl⟩ := h
        exact ⟨right, left, hinput, hleft, .inr rfl, by
          rw [ExpressionNode.calls, calls_of_price hleft, Bool.false_or]⟩

theorem inputCount_nonneg (hu : CompleteUsage context count) (input : ExpressionNode Exact) (name : Variable) :
    0 ≤ inputCount count input name := by
  unfold inputCount
  split_ifs
  · exact le_max_left _ _
  · exact hu.nonneg name

theorem returns_term (hu : CompleteUsage context count) (hdepth : depth + term.depth < maxDepth)
    (hvalid : term.valid = true) (h : priceTerm term = some (name, price)) : 0 ≤ termCost count term ∧
      Returns platform context term depth ⟨.number (.finite (termCost count term)), false⟩ := by
  have hcost : termCost count term = inputCount count term name * price.toRat := by rw [termCost, h]
  obtain ⟨input, literal, hinput, hliteral, hterm, hcalls⟩ := priceTerm_cases h
  have hparts : (depth + 1) + input.depth < maxDepth ∧ (depth + 1) + literal.depth < maxDepth ∧
      input.valid = true ∧ literal.valid = true := by
    rcases hterm with rfl | rfl <;>
    · simp only [ExpressionNode.depth] at hdepth
      simp only [ExpressionNode.valid, Bool.and_eq_true] at hvalid
      exact ⟨by omega, by omega, by simp [hvalid], by simp [hvalid]⟩
  obtain ⟨hdinput, hdliteral, hvinput, hvliteral⟩ := hparts
  have hcount : inputCount count term name = inputCount count input name := by
    rw [inputCount, hcalls, inputCount]
  have hreturns : Returns platform context input (depth + 1)
      ⟨.number (.finite (inputCount count input name)), false⟩ := returns_input hu hdinput hvinput hinput
  obtain ⟨hprice, integer, hreturns'⟩ : _ ∧ ∃ integer, Returns platform context literal (depth + 1)
      ⟨.number (.finite price.toRat), integer⟩ := returns_price hdliteral hvliteral hliteral
  rw [hcost, hcount]
  refine ⟨mul_nonneg (inputCount_nonneg hu input name) hprice, ?_⟩
  rcases hterm with rfl | rfl
  · exact returns_arithmetic (by omega) (.inr (.inr ⟨rfl, rfl⟩)) hreturns hreturns' (Bool.false_and _)
  · rw [mul_comm]
    exact returns_arithmetic (by omega) (.inr (.inr ⟨rfl, rfl⟩)) hreturns' hreturns (Bool.and_false _)

/-- A price is the sum of its terms, however the sum is grouped. -/
theorem returns_sum (hu : CompleteUsage context count) (body : ExpressionNode Exact) :
    ∀ depth, depth + body.depth < maxDepth → body.valid = true →
      (∀ term ∈ flattenBinary .add body, ∃ price, priceTerm term = some price) →
        0 ≤ ((flattenBinary .add body).map (termCost count)).sum ∧ Returns platform context body depth
            ⟨.number (.finite ((flattenBinary .add body).map (termCost count)).sum), false⟩ := by
  have hsingle : ∀ (body : ExpressionNode Exact) (depth : ℕ), depth + body.depth < maxDepth →
      body.valid = true → flattenBinary .add body = [body] →
      (∀ term ∈ flattenBinary .add body, ∃ price, priceTerm term = some price) →
        0 ≤ ((flattenBinary .add body).map (termCost count)).sum ∧ Returns platform context body depth
            ⟨.number (.finite ((flattenBinary .add body).map (termCost count)).sum), false⟩ := by
    intro body depth hdepth hvalid hflatten hterms
    rw [hflatten] at hterms ⊢
    obtain ⟨⟨name, price⟩, hprice⟩ := hterms body (List.mem_singleton.mpr rfl)
    rw [List.map_singleton, List.sum_singleton]
    exact returns_term hu hdepth hvalid hprice
  induction body with
  | binary operator left right ihl ihr =>
    intro depth hdepth hvalid hterms
    by_cases hop : operator = .add
    · subst hop
      have hflatten : flattenBinary .add (.binary .add left right)
          = flattenBinary .add left ++ flattenBinary .add right := if_pos rfl
      rw [hflatten] at hterms ⊢
      simp only [ExpressionNode.depth] at hdepth
      simp only [ExpressionNode.valid, Bool.and_eq_true] at hvalid
      obtain ⟨hl, hleft⟩ := ihl (depth + 1) (by omega) hvalid.1
        fun term hterm => hterms term (List.mem_append_left _ hterm)
      obtain ⟨hr, hright⟩ := ihr (depth + 1) (by omega) hvalid.2
        fun term hterm => hterms term (List.mem_append_right _ hterm)
      rw [List.map_append, List.sum_append]
      exact ⟨add_nonneg hl hr, returns_arithmetic (by omega) (.inl ⟨rfl, rfl⟩) hleft hright rfl⟩
    · exact hsingle _ depth hdepth hvalid (if_neg hop) hterms
  | _ => exact fun depth hdepth hvalid hterms => hsingle _ depth hdepth hvalid rfl hterms

/-! ## Tiers -/

/-- The prices are those of the terms, and no kind of token has two. -/
theorem collectPrices_spec (terms : List (ExpressionNode Exact)) :
    ∀ {prices₀ prices : List (Variable × Exact)}, collectPrices terms prices₀ = some prices →
      (prices₀.map Prod.fst).Nodup → ∃ rest, prices = prices₀ ++ rest ∧
        terms.map priceTerm = rest.map some ∧ (prices.map Prod.fst).Nodup := by
  induction terms with
  | nil =>
    intro prices₀ prices h hnodup
    cases h
    exact ⟨[], (List.append_nil _).symm, rfl, hnodup⟩
  | cons term terms ih =>
    intro prices₀ prices h hnodup
    rw [collectPrices, Option.bind_eq_bind, Option.bind_eq_some_iff] at h
    obtain ⟨⟨name, price⟩, hterm, h⟩ := h
    dsimp only at h
    split_ifs at h with hdup
    have hnew : name ∉ prices₀.map Prod.fst := by
      intro hmem
      obtain ⟨other, hother, rfl⟩ := List.mem_map.mp hmem
      exact hdup (List.lookup_isSome_iff.mpr ⟨other, hother, beq_self_eq_true _⟩)
    have hnodup₁ : ((prices₀ ++ [(name, price)]).map Prod.fst).Nodup := by
      rw [List.map_append]
      exact hnodup.append (List.nodup_singleton _) (List.disjoint_singleton.mpr hnew)
    obtain ⟨rest, rfl, hrest, hnodup'⟩ := ih h hnodup₁
    exact ⟨(name, price) :: rest, by simp, by simp [hterm, hrest], hnodup'⟩

/-- What evaluating a tier leaves. -/
def TokenTier.after (tier : TokenTier Exact) (s : State Exact) : State Exact :=
  match tier.fixedPrice with
  | some amount => ⟨tier.label, .request, some amount⟩
  | none => { s with matchedTier := tier.label }

/-- The tier of a node is what the node evaluates to. -/
structure TierOf (platform : Platform Exact) (context : Context Exact) (count : Variable → ℚ)
    (node : ExpressionNode Exact) (depth : ℕ) (tier : TokenTier Exact) : Prop where
  evaluates : ∀ s, evaluate platform context node depth s
    = .ok (⟨.number (.finite (tier.cost (leafCount count node))), false⟩, tier.after s)
  nonneg : 0 ≤ tier.cost (leafCount count node)
  unit : tier.billingUnit.getD .token = if tier.fixedPrice.isSome then .request else .token

theorem calls_flattenBinary (body : ExpressionNode Exact) (p : Func → Bool) :
    body.calls p = (flattenBinary .add body).any (·.calls p) := by
  induction body with
  | binary operator left right ihl ihr =>
    by_cases hop : operator = .add
    · subst hop
      have hflatten : flattenBinary .add (.binary .add left right)
          = flattenBinary .add left ++ flattenBinary .add right := if_pos rfl
      rw [hflatten, List.any_append, ExpressionNode.calls, ihl, ihr]
    · have hflatten : flattenBinary .add (.binary operator left right) = [.binary operator left right] :=
        if_neg hop
      rw [hflatten, List.any_cons, List.any_nil, Bool.or_false]
  | _ => simp [flattenBinary]

/-- The sum of the terms is that of the prices: with the remainder among the terms, no other term prices
`p`. -/
theorem sum_terms (count : Variable → ℚ) {body : ExpressionNode Exact} (label : Text) {prices : List (Variable × Exact)}
    (hterms : (flattenBinary .add body).map priceTerm = prices.map some) (hnodup : (prices.map Prod.fst).Nodup) :
    ((flattenBinary .add body).map (termCost count)).sum = (prices.map fun price =>
        leafCount count (.call₂ .tier (.literal (.string label)) body) price.1 * price.2.toRat).sum := by
  have hleaf : (ExpressionNode.call₂ .tier (.literal (.string label)) body).calls (· = .two .max)
      = (flattenBinary .add body).any (·.calls (· = .two .max)) := calls_flattenBinary body _
  have hinj : ((flattenBinary .add body).map fun term => (priceTerm term).map Prod.fst).Nodup := by
    have hmap : ((flattenBinary .add body).map fun term => (priceTerm term).map Prod.fst)
        = (prices.map Prod.fst).map some := by
      have := congrArg (List.map (Option.map Prod.fst)) hterms
      simpa only [List.map_map, Function.comp_def, Option.map_some] using this
    rw [hmap]
    exact hnodup.map (Option.some_injective _)
  have hsome : ∀ term ∈ flattenBinary .add body, ∃ price, priceTerm term = some price := by
    intro term hmem
    obtain ⟨price, -, hprice⟩ := List.mem_map.mp (hterms ▸ List.mem_map_of_mem hmem)
    exact ⟨price, hprice.symm⟩
  have hterm : ∀ term ∈ flattenBinary .add body, ∀ name price, priceTerm term = some (name, price) →
      inputCount count term name
        = leafCount count (.call₂ .tier (.literal (.string label)) body) name := by
    intro term hmem name price hprice
    obtain ⟨input, -, hinput, -, -, hcalls⟩ := priceTerm_cases hprice
    unfold inputCount leafCount
    by_cases hmax : term.calls (· = .two .max) = true
    · have hname := priceInput_calls hinput (hcalls ▸ hmax)
      rw [if_pos hmax, if_pos ⟨hname, hleaf.trans (List.any_eq_true.mpr ⟨term, hmem, hmax⟩)⟩]
    · rw [if_neg hmax, if_neg]
      rintro ⟨rfl, hany⟩
      obtain ⟨other, hother, hmax'⟩ := List.any_eq_true.mp (hleaf.symm.trans hany)
      obtain ⟨⟨name', price'⟩, hprice'⟩ := hsome other hother
      obtain ⟨input', -, hinput', -, -, hcalls'⟩ := priceTerm_cases hprice'
      obtain rfl := priceInput_calls hinput' (hcalls' ▸ hmax')
      have hsame := List.inj_on_of_nodup_map hinj hmem hother (by rw [hprice, hprice']; rfl)
      exact hmax (hsame ▸ hmax')
  have hcosts : (flattenBinary .add body).map (termCost count)
      = ((flattenBinary .add body).map priceTerm).map fun price => (price.map fun price =>
          leafCount count (.call₂ .tier (.literal (.string label)) body) price.1 * price.2.toRat).getD 0 := by
    rw [List.map_map]
    refine List.map_congr_left fun term hmem => ?_
    obtain ⟨⟨name, price⟩, hprice⟩ := hsome term hmem
    simp only [termCost, Function.comp_apply, hprice, Option.map_some, Option.getD_some,
      hterm term hmem name price hprice]
  rw [hcosts, hterms, List.map_map]
  rfl

theorem returns_string (hdepth : depth < maxDepth) (text : Text) :
    Returns platform context (.literal (.string text)) depth ⟨.string text, false⟩ := by
  intro s
  simp only [evaluate_literal_eq, run_bind, run_lift, checkEvaluationDepth_of_lt hdepth, ok_bind, Literal.runtimeValue,
    checkValue]

theorem evaluate_fixed {a : ℚ} (hdepth : depth < maxDepth)
    (h : Returns platform context operand (depth + 1) ⟨.number (.finite a), integer⟩) (s : State Exact) :
    evaluate platform context (.call₁ .fixed operand) depth s = .ok (⟨.number (.finite (a * 1000000)), false⟩,
          { s with billingUnit := .request, fixedPrice := some (.finite a) }) := by
  have hmillion : Numbers.mul (Exact.finite a) million = .finite (a * 1000000) := rfl
  simp only [evaluate_call₁_eq, run_bind, run_lift, run_modify, run_pure, checkEvaluationDepth_of_lt hdepth, ok_bind,
    h s, callOne, RuntimeValue.numeric, hmillion, checkValue_number]

theorem evaluate_tier {name body : ExpressionNode Exact} {label : Text} {a : ℚ} {s s' : State Exact}
    (hdepth : depth < maxDepth) (hname : Returns platform context name (depth + 1) ⟨.string label, false⟩)
    (hbody : evaluate platform context body (depth + 1) s = .ok (⟨.number (.finite a), integer⟩, s')) :
    evaluate platform context (.call₂ .tier name body) depth s
      = .ok (⟨.number (.finite a), false⟩, { s' with matchedTier := label }) := by
  simp only [evaluate_tier_eq, run_bind, run_lift, run_modify, checkEvaluationDepth_of_lt hdepth, ok_bind, hname s,
    hbody, RuntimeValue.text, RuntimeValue.numeric, checkValue_number]

theorem tierOf_tokenTier (hu : CompleteUsage context count) (hdepth : depth + node.depth < maxDepth)
    (hvalid : node.valid = true) (h : tokenTier node conditions = some tier) :
    TierOf platform context count node depth tier := by
  unfold tokenTier at h
  split at h
  case h_1 label amount integer =>
    cases h
    simp only [ExpressionNode.depth] at hdepth
    simp only [ExpressionNode.valid, Bool.and_eq_true] at hvalid
    obtain ⟨hamount, hnonneg⟩ := finite_of_valid hvalid.2
    have hliteral : Returns platform context _ (depth + 1 + 1) _ := returns_literal (by omega) hvalid.2
    have hfixed := evaluate_fixed (by omega) hliteral
    refine ⟨fun s => ?_, ?_, rfl⟩
    · rw [evaluate_tier (by omega) (returns_string (by omega) label) (hfixed s)]
      simp only [TokenTier.cost, TokenTier.after, Bool.false_eq_true, if_false, mul_one, ← hamount]
    · simp only [TokenTier.cost, Bool.false_eq_true, if_false, mul_one]
      positivity
  case h_2 label body _ =>
    rw [Option.bind_eq_bind, Option.bind_eq_some_iff] at h
    obtain ⟨prices, hprices, h⟩ := h
    split_ifs at h with hempty
    cases h
    simp only [ExpressionNode.depth] at hdepth
    simp only [ExpressionNode.valid, Bool.and_eq_true] at hvalid
    obtain ⟨rest, rfl, hterms, hnodup⟩ := collectPrices_spec _ hprices List.nodup_nil
    have hsome : ∀ term ∈ flattenBinary .add body, ∃ price, priceTerm term = some price := by
      intro term hmem
      obtain ⟨price, -, hprice⟩ := List.mem_map.mp (hterms ▸ List.mem_map_of_mem hmem)
      exact ⟨price, hprice.symm⟩
    obtain ⟨hnonneg, hbody⟩ : _ ∧ Returns platform context body (depth + 1) _ :=
      returns_sum hu body (depth + 1) (by omega) hvalid.2 hsome
    have hsum := sum_terms count label hterms hnodup
    rw [hsum] at hnonneg hbody
    refine ⟨fun s => ?_, ?_, rfl⟩
    · rw [evaluate_tier (by omega) (returns_string (by omega) label) (hbody s)]
      simp only [TokenTier.cost, TokenTier.after, Bool.false_eq_true, if_false, mul_one]
    · simpa only [TokenTier.cost, Bool.false_eq_true, if_false, mul_one] using hnonneg
  case h_3 => cases h

/-! ## Conditions -/

def TierOp.toBinaryOp : TierOp → BinaryOp
  | .lt => .lt
  | .le => .le
  | .gt => .gt
  | .ge => .ge

theorem returns_comparison (op : TierOp) (hdepth : depth < maxDepth)
    (hleft : Returns platform context left (depth + 1) ⟨.number (.finite a), i⟩)
    (hright : Returns platform context right (depth + 1) ⟨.number (.finite b), j⟩) :
    Returns platform context (.binary op.toBinaryOp left right) depth ⟨.bool (op.holds a b), false⟩ := by
  intro s
  cases op <;>
    simp only [TierOp.toBinaryOp, evaluate_operator_eq, ne_eq, reduceCtorEq, not_false_eq_true,
      run_bind, run_lift, checkEvaluationDepth_of_lt hdepth, ok_bind,
      hleft s, hright s, binaryValue, comparison, Numbers.lt, Numbers.le, Exact.compare, checkValue_bool, TierOp.holds]

theorem returns_and {a b : Bool} (hdepth : depth < maxDepth)
    (hleft : Returns platform context left (depth + 1) ⟨.bool a, false⟩)
    (hright : Returns platform context right (depth + 1) ⟨.bool b, false⟩) :
    Returns platform context (.binary .and left right) depth ⟨.bool (a && b), false⟩ := by
  intro s
  simp only [evaluate_and_eq, run_bind, run_lift, checkEvaluationDepth_of_lt hdepth, ok_bind, hleft s,
    RuntimeValue.boolean]
  cases a with
  | false => rfl
  | true => simp only [if_true, run_bind, run_lift, ok_bind, hright s, checkValue_bool, Bool.true_and]

theorem returns_or {a b : Bool} (hdepth : depth < maxDepth)
    (hleft : Returns platform context left (depth + 1) ⟨.bool a, false⟩)
    (hright : Returns platform context right (depth + 1) ⟨.bool b, false⟩) :
    Returns platform context (.binary .or left right) depth ⟨.bool (a || b), false⟩ := by
  intro s
  simp only [evaluate_or_eq, run_bind, run_lift, checkEvaluationDepth_of_lt hdepth, ok_bind, hleft s,
    RuntimeValue.boolean]
  cases a with
  | true => rfl
  | false =>
    simp only [Bool.false_eq_true, if_false, run_bind, run_lift, ok_bind, hright s, checkValue_bool, Bool.false_or]

theorem returns_condition (hu : CompleteUsage context count) {condition : TokenTierCondition Exact}
    (hdepth : depth + part.depth < maxDepth) (hvalid : part.valid = true) (h : tokenCondition part = some condition) :
    Returns platform context part depth ⟨.bool (condition.holds count), false⟩ := by
  unfold tokenCondition at h
  split at h
  case h_2 => exact nomatch h
  case h_1 operator name value integer =>
    simp only [Option.bind_eq_bind, Option.bind_eq_some_iff] at h
    obtain ⟨op, hop, var, hvar, h⟩ := h
    split_ifs at h
    cases h
    simp only [ExpressionNode.depth] at hdepth
    simp only [ExpressionNode.valid, Bool.true_and] at hvalid
    obtain rfl : name = var.toVariable := by
      cases name <;> cases hvar <;> rfl
    obtain rfl : operator = op.toBinaryOp := by
      cases operator <;> cases hop <;> rfl
    exact returns_comparison op (by omega) (returns_var hu (by omega) _) (returns_literal (by omega) hvalid)

/-- A conjunction of conditions, with `&&` stopping at the first that does not hold. -/
theorem returns_conditions (hu : CompleteUsage context count) (node : ExpressionNode Exact) :
    ∀ (depth : ℕ) {conditions : List (TokenTierCondition Exact)}, depth + node.depth < maxDepth →
      node.valid = true → tokenConditions node = some conditions →
        Returns platform context node depth ⟨.bool (conditions.all (·.holds count)), false⟩ := by
  have hsingle : ∀ (node : ExpressionNode Exact) (depth : ℕ) {conditions : List (TokenTierCondition Exact)},
      depth + node.depth < maxDepth → node.valid = true → flattenBinary .and node = [node] →
      tokenConditions node = some conditions →
        Returns platform context node depth ⟨.bool (conditions.all (·.holds count)), false⟩ := by
    intro node depth conditions hdepth hvalid hflatten h
    rw [tokenConditions, hflatten] at h
    simp only [List.mapM_cons, List.mapM_nil, Option.bind_eq_bind, Option.bind_eq_some_iff, Option.pure_def,
      Option.bind_some, Option.some.injEq] at h
    obtain ⟨condition, hcondition, rfl⟩ := h
    rw [List.all_cons, List.all_nil, Bool.and_true]
    exact returns_condition hu hdepth hvalid hcondition
  induction node with
  | binary operator left right ihl ihr =>
    intro depth conditions hdepth hvalid h
    by_cases hop : operator = .and
    · subst hop
      have hflatten : flattenBinary .and (.binary .and left right)
          = flattenBinary .and left ++ flattenBinary .and right := if_pos rfl
      rw [tokenConditions, hflatten, List.mapM_append] at h
      simp only [Option.bind_eq_bind, Option.bind_eq_some_iff] at h
      obtain ⟨first, hfirst, second, hsecond, h⟩ := h
      cases h
      simp only [ExpressionNode.depth] at hdepth
      simp only [ExpressionNode.valid, Bool.and_eq_true] at hvalid
      rw [List.all_append]
      exact returns_and (by omega) (ihl (depth + 1) (by omega) hvalid.1 hfirst)
        (ihr (depth + 1) (by omega) hvalid.2 hsecond)
    · exact hsingle _ depth hdepth hvalid (if_neg hop) h
  | _ => exact fun depth _ hdepth hvalid h => hsingle _ depth hdepth hvalid rfl h

/-! ## Chains -/

theorem evaluate_conditional {matched : Bool} {s : State Exact} (hdepth : depth < maxDepth)
    (hcondition : Returns platform context condition (depth + 1) ⟨.bool matched, false⟩) {a : ℚ} {s' : State Exact}
    (h : evaluate platform context (if matched then yes else no) (depth + 1) s = .ok (⟨.number (.finite a), false⟩, s')) :
    evaluate platform context (.conditional condition yes no) depth s = .ok (⟨.number (.finite a), false⟩, s') := by
  simp only [evaluate_conditional_eq, run_bind, run_lift, checkEvaluationDepth_of_lt hdepth, ok_bind, hcondition s,
    RuntimeValue.boolean]
  cases matched with
  | true =>
    simp only [if_true] at h
    simp only [if_true, run_bind, run_lift, ok_bind, h, checkValue_number]
  | false =>
    simp only [Bool.false_eq_true, if_false] at h
    simp only [Bool.false_eq_true, if_false, run_bind, run_lift, ok_bind, h, checkValue_number]

theorem tokenTier_fields (h : tokenTier node conditions = some tier) :
    tier.conditions = conditions ∧ tier.conditionText = none ∧ tier.imageCount = false ∧ tierLeaves node = [node] := by
  unfold tokenTier at h
  split at h
  case h_1 =>
    cases h
    exact ⟨rfl, rfl, rfl, rfl⟩
  case h_2 =>
    rw [Option.bind_eq_bind, Option.bind_eq_some_iff] at h
    obtain ⟨prices, -, h⟩ := h
    split_ifs at h
    cases h
    exact ⟨rfl, rfl, rfl, rfl⟩
  case h_3 => exact nomatch h

/-- The first tier of a table that applies is what the node evaluates to. -/
def TableOf (platform : Platform Exact) (context : Context Exact) (count : Variable → ℚ)
    (node : ExpressionNode Exact) (depth : ℕ) (tiers : List (TokenTier Exact)) : Prop :=
  ∃ tier leaf, (tiers.zip (tierLeaves node)).find? (fun entry => entry.1.applies count) = some (tier, leaf) ∧
    (∀ s, evaluate platform context node depth s
      = .ok (⟨.number (.finite (tier.cost (leafCount count leaf))), false⟩, tier.after s)) ∧
    0 ≤ tier.cost (leafCount count leaf) ∧
    tier.billingUnit.getD .token = if tier.fixedPrice.isSome then .request else .token

theorem tableOf_fallback (hu : CompleteUsage context count) (hdepth : depth + node.depth < maxDepth)
    (hvalid : node.valid = true) (h : tokenTier node [] = some tier) :
    TableOf platform context count node depth [tier] := by
  obtain ⟨hconditions, htext, -, hleaves⟩ := tokenTier_fields h
  have htier : TierOf platform context count node depth tier := tierOf_tokenTier hu hdepth hvalid h
  refine ⟨tier, node, ?_, htier.evaluates, htier.nonneg, htier.unit⟩
  have happlies : tier.applies count = true := by
    simp [TokenTier.applies, htext, hconditions]
  simp only [hleaves, List.zip_cons_cons, List.find?_cons, happlies]

/-- A conditional in front of a table: the tier of its first branch, if its condition holds. -/
theorem tableOf_conditional {matched : Bool} (hdepth : depth < maxDepth)
    (hcondition : Returns platform context condition (depth + 1) ⟨.bool matched, false⟩)
    (happlies : tier.applies count = matched) (hyes : TierOf platform context count yes (depth + 1) tier)
    (hno : TableOf platform context count no (depth + 1) tiers) :
    TableOf platform context count (.conditional condition yes no) depth (tier :: tiers) := by
  cases matched with
  | true =>
    refine ⟨tier, yes, ?_, fun s => evaluate_conditional hdepth hcondition (hyes.evaluates s), hyes.nonneg, hyes.unit⟩
    simp only [tierLeaves, List.zip_cons_cons, List.find?_cons, happlies]
  | false =>
    obtain ⟨tier', leaf, hfind, hevaluates, hrest⟩ := hno
    refine ⟨tier', leaf, ?_, fun s => evaluate_conditional hdepth hcondition (hevaluates s), hrest⟩
    simp only [tierLeaves, List.zip_cons_cons, List.find?_cons, happlies, hfind]

theorem tableOf_chain (hu : CompleteUsage context count) (node : ExpressionNode Exact) :
    ∀ (depth : ℕ) {tiers : List (TokenTier Exact)}, depth + node.depth < maxDepth → node.valid = true →
      readChain node = some tiers → TableOf platform context count node depth tiers := by
  have hfallback : ∀ (node : ExpressionNode Exact) (depth : ℕ) {tiers : List (TokenTier Exact)},
      depth + node.depth < maxDepth → node.valid = true →
      (do let fallback ← tokenTier node []; return [fallback]) = some tiers →
        TableOf platform context count node depth tiers := by
    intro node depth tiers hdepth hvalid h
    rw [Option.bind_eq_bind, Option.bind_eq_some_iff] at h
    obtain ⟨tier, htier, h⟩ := h
    cases h
    exact tableOf_fallback hu hdepth hvalid htier
  induction node with
  | conditional condition yes no _ _ ih =>
    intro depth tiers hdepth hvalid h
    simp only [readChain, Option.bind_eq_bind, Option.bind_eq_some_iff] at h
    obtain ⟨conditions, hconditions, tier, htier, rest, hrest, h⟩ := h
    cases h
    simp only [ExpressionNode.depth] at hdepth
    simp only [ExpressionNode.valid, Bool.and_eq_true] at hvalid
    obtain ⟨hfields, htext, -⟩ := tokenTier_fields htier
    refine tableOf_conditional (by omega)
      (returns_conditions hu condition (depth + 1) (by omega) hvalid.1.1 hconditions) ?_
      (tierOf_tokenTier hu (by omega) hvalid.1.2 htier) (ih (depth + 1) (by omega) hvalid.2 hrest)
    simp [TokenTier.applies, htext, hfields]
  | _ => exact fun depth _ hdepth hvalid h => hfallback _ depth hdepth hvalid h

/-! ## Audio -/

theorem audioProbe_cases (h : audioProbe part = some name) :
    (name = .ai ∨ name = .ao) ∧ ∃ integer, part = .binary .gt (.var name) (.literal (.number (.finite 0) integer)) := by
  unfold audioProbe at h
  split at h
  case h_2 => exact nomatch h
  case h_1 name' right =>
    split_ifs at h with hname
    cases h
    obtain ⟨integer, rfl⟩ := isZero_cases hname.2
    exact ⟨hname.1, integer, rfl⟩

theorem returns_audioProbe (hu : CompleteUsage context count) (hdepth : depth + part.depth < maxDepth)
    (hvalid : part.valid = true) (h : audioProbe part = some name) :
    Returns platform context part depth ⟨.bool (0 < count name), false⟩ := by
  obtain ⟨-, integer, rfl⟩ := audioProbe_cases h
  simp only [ExpressionNode.depth] at hdepth
  simp only [ExpressionNode.valid, Bool.true_and] at hvalid
  exact returns_comparison .gt (by omega) (returns_var hu (by omega) name) (returns_literal (by omega) hvalid)

theorem returns_audioCondition (hu : CompleteUsage context count) {condition : ExpressionNode Exact}
    (hdepth : depth + condition.depth < maxDepth) (hvalid : condition.valid = true)
    (h : isAudioCondition condition = true) :
    Returns platform context condition depth ⟨.bool (0 < count .ai || 0 < count .ao), false⟩ := by
  unfold isAudioCondition at h
  split at h
  case h_2 => exact nomatch h
  case h_1 left right =>
    split at h
    case h_2 => exact nomatch h
    case h_1 a b ha hb =>
      simp only [ExpressionNode.depth] at hdepth
      simp only [ExpressionNode.valid, Bool.and_eq_true] at hvalid
      have hleft : Returns platform context left (depth + 1) _ :=
        returns_audioProbe hu (by omega) hvalid.1 ha
      have hright : Returns platform context right (depth + 1) _ :=
        returns_audioProbe hu (by omega) hvalid.2 hb
      have hor := returns_or (by omega) hleft hright
      have hne := of_decide_eq_true h
      obtain ⟨rfl | rfl, -⟩ := audioProbe_cases ha <;> obtain ⟨rfl | rfl, -⟩ := audioProbe_cases hb
      · exact absurd rfl hne
      · exact hor
      · rwa [Bool.or_comm] at hor
      · exact absurd rfl hne

theorem tableOf_audio (hu : CompleteUsage context count)
    (hdepth : depth + (ExpressionNode.conditional condition yes no).depth < maxDepth)
    (hvalid : (ExpressionNode.conditional condition yes no).valid = true)
    (h : audioTiers condition yes no = some tiers) :
    TableOf platform context count (.conditional condition yes no) depth tiers := by
  unfold audioTiers at h
  split_ifs at h with hcondition
  simp only [Option.bind_eq_bind, Option.bind_eq_some_iff] at h
  obtain ⟨audio, haudio, text, htext, h⟩ := h
  cases h
  simp only [ExpressionNode.depth] at hdepth
  simp only [ExpressionNode.valid, Bool.and_eq_true] at hvalid
  obtain ⟨hconditions, -, -, -⟩ := tokenTier_fields haudio
  obtain ⟨hconditions', -, -, hleaves⟩ := tokenTier_fields htext
  have hyes : TierOf platform context count yes (depth + 1) audio :=
    tierOf_tokenTier hu (by omega) hvalid.1.2 haudio
  have hno : TierOf platform context count no (depth + 1) text :=
    tierOf_tokenTier hu (by omega) hvalid.2 htext
  refine tableOf_conditional (by omega) (returns_audioCondition hu (by omega) hvalid.1.1 hcondition) ?_
    ⟨hyes.evaluates, hyes.nonneg, hyes.unit⟩
    ⟨{ text with conditionText := some textOnlyText }, no, ?_, hno.evaluates, hno.nonneg, hno.unit⟩
  · simp [TokenTier.applies, hconditions]
  · have happlies : ({ text with conditionText := some textOnlyText } : TokenTier Exact).applies count = true := by
      have htexts : textOnlyText ≠ audioText := by decide
      simp [TokenTier.applies, hconditions', htexts]
    simp only [hleaves, List.zip_cons_cons, List.find?_cons, happlies]

/-! ## Images -/

theorem evaluate_mul {s s₁ s₂ : State Exact} (hdepth : depth < maxDepth)
    (hleft : evaluate platform context left (depth + 1) s = .ok (⟨.number (.finite a), i⟩, s₁))
    (hright : evaluate platform context right (depth + 1) s₁ = .ok (⟨.number (.finite b), j⟩, s₂))
    (hij : (i && j) = false) : evaluate platform context (.binary .mul left right) depth s
      = .ok (⟨.number (.finite (a * b)), false⟩, s₂) := by
  simp only [evaluate_operator_eq, ne_eq, reduceCtorEq, not_false_eq_true,
      run_bind, run_lift, checkEvaluationDepth_of_lt hdepth, ok_bind, hleft, hright,
    binaryValue, arithmetic, hij, Numbers.mul, Exact.map₂, checkValue_number]

theorem readChain_imageCount (node : ExpressionNode Exact) :
    ∀ {tiers : List (TokenTier Exact)}, readChain node = some tiers → ∀ tier ∈ tiers, tier.imageCount = false := by
  have hfallback : ∀ (node : ExpressionNode Exact) {tiers : List (TokenTier Exact)},
      (do let fallback ← tokenTier node []; return [fallback]) = some tiers →
        ∀ tier ∈ tiers, tier.imageCount = false := by
    intro node tiers h
    rw [Option.bind_eq_bind, Option.bind_eq_some_iff] at h
    obtain ⟨tier, htier, h⟩ := h
    cases h
    exact List.forall_mem_singleton.mpr (tokenTier_fields htier).2.2.1
  induction node with
  | conditional condition yes no _ _ ih =>
    intro tiers h
    simp only [readChain, Option.bind_eq_bind, Option.bind_eq_some_iff] at h
    obtain ⟨conditions, -, tier, htier, rest, hrest, h⟩ := h
    cases h
    exact List.forall_mem_cons.mpr ⟨(tokenTier_fields htier).2.2.1, ih hrest⟩
  | _ => exact fun h => hfallback _ h

/-- A product with the number of images as one of its factors. -/
def isImageProduct : ExpressionNode Exact → Bool
  | .binary .mul left right => isImageCount left || isImageCount right
  | _ => false

/-- The number of images is no factor of what it multiplies. -/
def imageCountOnce : ExpressionNode Exact → Bool
  | .binary .mul left right =>
    if isImageCount left then !isImageProduct right
    else if isImageCount right then !isImageProduct left
    else true
  | _ => true

theorem tableOf_plain (hu : CompleteUsage context count) (hdepth : depth + node.depth < maxDepth)
    (hvalid : node.valid = true) (hplain : isImageProduct node = false) (h : readTokenTierChain node = some tiers) :
    TableOf platform context count node depth tiers ∧ ∀ tier ∈ tiers, tier.imageCount = false := by
  have hchain : readChain node = some tiers →
      TableOf platform context count node depth tiers ∧ ∀ tier ∈ tiers, tier.imageCount = false :=
    fun h => ⟨tableOf_chain hu node depth hdepth hvalid h, readChain_imageCount node h⟩
  cases node with
  | conditional condition yes no =>
    rw [readTokenTierChain] at h
    cases haudio : audioTiers condition yes no with
    | none =>
      simp only [haudio] at h
      exact hchain h
    | some tiers' =>
      simp only [haudio, Option.some.injEq] at h
      subst h
      refine ⟨tableOf_audio hu hdepth hvalid haudio, ?_⟩
      unfold audioTiers at haudio
      split_ifs at haudio
      simp only [Option.bind_eq_bind, Option.bind_eq_some_iff] at haudio
      obtain ⟨audio, haudio, text, htext, h⟩ := haudio
      cases h
      exact List.forall_mem_cons.mpr ⟨(tokenTier_fields haudio).2.2.1,
        List.forall_mem_singleton.mpr (tokenTier_fields htext).2.2.1⟩
  | binary operator left right =>
    cases operator with
    | mul =>
      simp only [isImageProduct, Bool.or_eq_false_iff] at hplain
      rw [readTokenTierChain, if_neg (by simp [hplain.1]), if_neg (by simp [hplain.2])] at h
      exact hchain h
    | _ => exact hchain h
  | _ => exact hchain h

theorem isImageCount_cases (h : isImageCount node = true) : node = .var .image_count := by
  unfold isImageCount at h
  split at h
  case h_1 => rfl
  case h_2 => exact nomatch h

/-- A factor for the images multiplies the price of each tier. -/
theorem tableOf_markImageCount {node pricing : ExpressionNode Exact} {depth' : ℕ} (hcount : 0 ≤ count .image_count)
    (hleaves : tierLeaves node = tierLeaves pricing)
    (hnode : ∀ {a : ℚ} {s s' : State Exact}, evaluate platform context pricing depth' s =
      .ok (⟨.number (.finite a), false⟩, s') → evaluate platform context node depth s =
        .ok (⟨.number (.finite (a * count .image_count)), false⟩, s'))
    (himages : ∀ tier ∈ tiers, tier.imageCount = false) (h : TableOf platform context count pricing depth' tiers) :
    TableOf platform context count node depth (markImageCount tiers) := by
  obtain ⟨tier, leaf, hfind, hevaluates, hnonneg, hunit⟩ := h
  have hmem := (List.of_mem_zip (List.mem_of_find?_eq_some hfind)).1
  have hcost : ({ tier with imageCount := true } : TokenTier Exact).cost (leafCount count leaf)
      = tier.cost (leafCount count leaf) * count .image_count := by
    have hleaf : leafCount count leaf .image_count = count .image_count := if_neg (by simp)
    simp only [TokenTier.cost, himages tier hmem, if_true, Bool.false_eq_true, if_false, mul_one, hleaf]
  refine ⟨{ tier with imageCount := true }, leaf, ?_, fun s => ?_, ?_, hunit⟩
  · have hzip : (markImageCount tiers).zip (tierLeaves node)
        = (tiers.zip (tierLeaves pricing)).map
            fun entry => ({ entry.1 with imageCount := true }, entry.2) := by
      rw [hleaves, markImageCount, List.zip_map_left]
      rfl
    rw [hzip, List.find?_map]
    -- The mark is no part of what a tier applies to.
    exact congrArg (Option.map _) hfind
  · rw [hcost]
    exact hnode (hevaluates s)
  · rw [hcost]
    exact mul_nonneg hnonneg hcount

theorem tableOf_readTokenTierChain (hu : CompleteUsage context count) (hdepth : depth + node.depth < maxDepth)
    (hvalid : node.valid = true) (honce : imageCountOnce node = true) (h : readTokenTierChain node = some tiers) :
    TableOf platform context count node depth tiers := by
  by_cases hplain : isImageProduct node = false
  · exact (tableOf_plain hu hdepth hvalid hplain h).1
  · rw [Bool.not_eq_false] at hplain
    unfold isImageProduct at hplain
    split at hplain
    case h_2 => exact nomatch hplain
    case h_1 left right =>
      simp only [ExpressionNode.depth] at hdepth
      simp only [ExpressionNode.valid, Bool.and_eq_true] at hvalid
      have himages : Returns platform context (.var .image_count) (depth + 1) _ :=
        returns_var hu (by omega) .image_count
      by_cases hleft : isImageCount left = true
      · rw [readTokenTierChain, if_pos hleft, Option.map_eq_some_iff] at h
        obtain ⟨rest, hrest, rfl⟩ := h
        rw [imageCountOnce, if_pos hleft, Bool.not_eq_true'] at honce
        obtain ⟨htable, hfalse⟩ : TableOf platform context count right (depth + 1) rest ∧ _ :=
          tableOf_plain hu (by omega) hvalid.2 honce hrest
        refine tableOf_markImageCount (hu.nonneg _) (if_pos hleft) (fun {a s s'} hs => ?_) hfalse htable
        obtain rfl := isImageCount_cases hleft
        rw [mul_comm]
        exact evaluate_mul (by omega) (himages s) hs rfl
      · have hright : isImageCount right = true := by simpa [hleft] using hplain
        rw [readTokenTierChain, if_neg hleft, if_pos hright, Option.map_eq_some_iff] at h
        obtain ⟨rest, hrest, rfl⟩ := h
        rw [imageCountOnce, if_neg hleft, if_pos hright, Bool.not_eq_true'] at honce
        obtain ⟨htable, hfalse⟩ : TableOf platform context count left (depth + 1) rest ∧ _ :=
          tableOf_plain hu (by omega) hvalid.1 honce hrest
        refine tableOf_markImageCount (hu.nonneg _) ((if_neg hleft).trans (if_pos hright))
          (fun {a s s'} hs => ?_) hfalse htable
        obtain rfl := isImageCount_cases hright
        exact evaluate_mul (by omega) hs (himages s') rfl

end

/-! ## The cost of an expression -/

theorem find?_of_zip {β γ : Type} {p : β → Bool} {l : List β} :
    ∀ {m : List γ} {b : β} {c : γ}, (l.zip m).find? (fun entry => p entry.1) = some (b, c) → l.find? p = some b := by
  induction l with
  | nil => exact fun h => nomatch h
  | cons a l ih =>
    intro m b c h
    cases m with
    | nil => exact nomatch h
    | cons d m =>
      rw [List.zip_cons_cons, List.find?_cons] at h
      rw [List.find?_cons]
      cases hp : p a with
      | true =>
        simp only [hp] at h ⊢
        exact congrArg some (Prod.mk.inj (Option.some.inj h)).1
      | false =>
        simp only [hp] at h ⊢
        exact ih h

variable {compiled : Compiled Exact}

theorem ast_of_compile {source : Text} (h : compileBillingExpression source = .ok compiled) :
    parseSource source = .ok compiled.ast := by
  obtain ⟨ast, hast, h⟩ := ok_of_bind h
  obtain ⟨-, -, h⟩ := ok_of_bind h
  obtain ⟨dependencies, -, h⟩ := ok_of_bind h
  obtain ⟨rules, -, h⟩ := ok_of_bind h
  obtain ⟨-, -, h⟩ := ok_of_bind h
  cases h
  exact hast

theorem result_of_tier {platform : Platform Exact} {context : Context Exact} {tier : TokenTier Exact} {cost : ℚ}
    (htokens : checkTokens context.tokens = .ok ())
    (hevaluate : evaluate platform context compiled.ast 0 initialState =
      .ok (⟨.number (.finite cost), false⟩, tier.after initialState))
    (hnonneg : 0 ≤ cost) (hunit : tier.billingUnit.getD .token = if tier.fixedPrice.isSome then .request else .token) :
    ∃ result, evaluateBillingExpression platform compiled context = .ok result ∧
      result.cost = .finite cost ∧ result.matchedTier = tier.label ∧ result.fixedPrice = tier.fixedPrice ∧
      result.billingUnit = tier.billingUnit.getD .token := by
  have hsign : (!isFinite (Exact.finite cost) || Numbers.lt (Exact.finite cost) zero) = false :=
    decide_eq_false (not_lt.mpr (by exact_mod_cast hnonneg))
  simp only [evaluateBillingExpression, htokens, ok_bind, hevaluate, hsign, Bool.false_eq_true, if_false]
  refine ⟨_, rfl, rfl, ?_, ?_, ?_⟩
  · cases hprice : tier.fixedPrice <;> simp [TokenTier.after, hprice]
  · cases hprice : tier.fixedPrice <;> simp [TokenTier.after, hprice, initialState]
  · rw [hunit]
    cases hprice : tier.fixedPrice <;> simp [TokenTier.after, hprice, initialState]

/-- For every usage, the first tier of the table that applies has the label and the cost of the evaluation:
its prices times the counts that its expression counts, or its fixed price. -/
theorem token_tiers_give_cost (platform : Platform Exact) {source : Text} {compiled : Compiled Exact}
    {tiers : List (TokenTier Exact)} (hcompile : compileBillingExpression source = .ok compiled)
    (hread : readTokenTierChain compiled.ast = some tiers) (hdepth : compiled.ast.depth < maxDepth)
    (honce : imageCountOnce compiled.ast = true) {context : Context Exact} {count : Variable → ℚ}
    (hu : CompleteUsage context count) :
    ∃ tier leaf,
      (tiers.zip (tierLeaves compiled.ast)).find? (fun entry => entry.1.applies count) = some (tier, leaf) ∧
      tiers.find? (fun tier => tier.applies count) = some tier ∧
      ∃ result, evaluateBillingExpression platform compiled context = .ok result ∧
        result.cost = .finite (tier.cost (leafCount count leaf)) ∧ result.matchedTier = tier.label ∧
        result.fixedPrice = tier.fixedPrice ∧ result.billingUnit = tier.billingUnit.getD .token := by
  have hvalid := valid_of_parseSource (ast_of_compile hcompile)
  obtain ⟨tier, leaf, hfind, hevaluates, hnonneg, hunit⟩ :
      TableOf platform context count compiled.ast 0 tiers :=
    tableOf_readTokenTierChain hu (by omega) hvalid honce hread
  refine ⟨tier, leaf, hfind, find?_of_zip hfind, ?_⟩
  exact result_of_tier hu.tokens (hevaluates initialState) hnonneg hunit

/-! ## A request with text only -/

def asciiPlatform : Platform Exact where
  toLowerCase text := text.map Char.toLower
  sprint _ := []

def epoch : Instant where
  valid := true
  utc
    | .month | .day => 1
    | .weekday => 4
    | _ => 0
  inZone _ := none

def textCount : Variable → ℚ
  | .p | .len => 5
  | .image_count => 1
  | _ => 0

/-- Five tokens of text. -/
def textUsage : Context Exact where
  imageCount := none
  tokens := (Variable.all.filter (· ≠ .image_count)).map fun name => (name, .finite (textCount name))
  request := none
  usage := none
  now := epoch

theorem textUsage_complete : CompleteUsage textUsage textCount where
  tokens := by decide
  lookup name := by cases name <;> decide
  nonneg name := by cases name <;> decide
  images := by decide
  isInteger := by decide
  one_le := by decide
  le_max := by decide

def audioSource : Text := "ai > 0 || ao > 0 ? tier(\"audio\", ai * 3) : tier(\"text\", p * 2)".toList

def labelBilled (source : Text) (context : Context Exact) : Option (Text × Exact) :=
  match compileBillingExpression source with
  | .ok compiled =>
    match evaluateBillingExpression asciiPlatform compiled context with
    | .ok result => some (result.matchedTier, result.cost)
    | .error _ => none
  | .error _ => none

def tiersShown (source : Text) : Option (List (TokenTier Exact)) :=
  match compileBillingExpression source with
  | .ok compiled => readTokenTierChain compiled.ast
  | .error _ => none

/-- The tier for audio has no conditions, so by its conditions it matches; the text is billed by the other
one. -/
theorem audio_tier_matches_text :
    ((tiersShown audioSource).bind fun tiers =>
        (tiers.find? fun tier => tier.conditions.all (·.holds textCount)).map fun tier =>
          (tier.label, tier.cost textCount)) = some ("audio".toList, 0) ∧
      labelBilled audioSource textUsage = some ("text".toList, .finite 10) := by
  decide +kernel

/-- `name > 0`. -/
def isPositive (name : Variable) : ExpressionNode Exact :=
  .binary .gt (.var name) (.literal (.number (.finite 0) true))

/-- `tier(label, name * price)`. -/
def pricedTier (label : String) (name : Variable) (price : ℚ) : ExpressionNode Exact :=
  .call₂ .tier (.literal (.string label.toList))
    (.binary .mul (.var name) (.literal (.number (.finite price) true)))

def audioCompiled : Compiled Exact where
  ast := .conditional (.binary .or (isPositive .ai) (isPositive .ao)) (pricedTier "audio" .ai 3)
    (pricedTier "text" .p 2)
  dependencies := ⟨[.p, .ai, .ao, .ai], [.two .tier, .two .tier]⟩
  requestRules := []

def audioTable : List (TokenTier Exact) :=
  [⟨some audioText, false, none, none, "audio".toList, [], [(.ai, .finite 3)]⟩,
    ⟨some textOnlyText, false, none, none, "text".toList, [], [(.p, .finite 2)]⟩]

theorem token_tiers_give_cost_text :
    ∃ tier leaf,
      (audioTable.zip (tierLeaves audioCompiled.ast)).find? (fun entry => entry.1.applies textCount)
          = some (tier, leaf) ∧
      audioTable.find? (fun tier => tier.applies textCount) = some tier ∧
      ∃ result, evaluateBillingExpression asciiPlatform audioCompiled textUsage = .ok result ∧
        result.cost = .finite (tier.cost (leafCount textCount leaf)) ∧ result.matchedTier = tier.label ∧
        result.fixedPrice = tier.fixedPrice ∧ result.billingUnit = tier.billingUnit.getD .token := by
  have hcompile : compileBillingExpression audioSource = .ok audioCompiled := by decide +kernel
  exact token_tiers_give_cost asciiPlatform hcompile (by decide) (by decide)
    (by decide) textUsage_complete

end Vancine.Expression
