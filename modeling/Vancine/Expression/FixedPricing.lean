import Vancine.Expression.Compile
import Vancine.Expression.ServerTree

/-!
# Both sides check fixed prices alike

`SameTree` relates the browser's tree of an expression to the server's tree of it. The browser collects the
request rules of the whole tree first and looks the factors up among them; the server asks each factor.
-/

namespace Vancine.Expression

open Pricing (Text TimeFunc)

section
variable {α : Type} [Numbers α]

/-- The browser's and the server's tree of one source. A literal the browser accepts is finite, and a safe
integer when it has no fraction and no exponent. -/
inductive SameTree : ExpressionNode α → Server.Node α → Prop
  | nil : SameTree (.literal .nil) .nil
  | bool (value : Bool) : SameTree (.literal (.boolean value)) (.bool value)
  | string (value : Text) : SameTree (.literal (.string value)) (.string value)
  | integer (n : ℕ) (h : n < 2 ^ 53) : SameTree (.literal (.number (ofInt n) true)) (.integer n)
  | float (value : α) (h : isFinite value = true) :
    SameTree (.literal (.number value false)) (.float value)
  | var (name : Variable) : SameTree (.var name) (.identifier name.name)
  | call₁ (name : Func₁) (hname : name ∉ [.abs, .ceil, .floor]) {a a'} (ha : SameTree a a') :
    SameTree (.call₁ name a) (.call (.identifier name.name) [a'])
  | builtin₁ (name : Func₁) (hname : name ∈ [.abs, .ceil, .floor]) {a a'} (ha : SameTree a a') :
    SameTree (.call₁ name a) (.builtin name.name [a'])
  | call₂ (name : Func₂) (hname : name ∉ [.min, .max]) {a a' b b'} (ha : SameTree a a')
    (hb : SameTree b b') : SameTree (.call₂ name a b) (.call (.identifier name.name) [a', b'])
  | builtin₂ (name : Func₂) (hname : name ∈ [.min, .max]) {a a' b b'} (ha : SameTree a a')
    (hb : SameTree b b') : SameTree (.call₂ name a b) (.builtin name.name [a', b'])
  | unary (operator : UnaryOp) {a a'} (ha : SameTree a a') :
    SameTree (.unary operator a) (.unary operator.text a')
  | binary (operator : BinaryOp) {a a' b b'} (ha : SameTree a a') (hb : SameTree b b') :
    SameTree (.binary operator a b) (.binary operator.text a' b')
  | conditional {a a' b b' c c'} (ha : SameTree a a') (hb : SameTree b b') (hc : SameTree c c') :
    SameTree (.conditional a b c) (.conditional true a' b' c')

end

/-! ## The browser -/

theorem containsPricingMarker_eq {α : Type} {node : ExpressionNode α} (h : node.depth ≤ maxDepth) :
    containsPricingMarker node = .ok (node.calls Func.isPricingMarker) := by
  obtain ⟨found, hfound, hcalls, -⟩ := expressionDependencies_spec h
  rw [containsPricingMarker, hfound, ok_bind, hcalls]
  rfl

section
variable {α : Type} [Numbers α]

/-- The rule that a node is, if any. -/
def ruleOf (node : ExpressionNode α) : Option (RequestRule α) :=
  match node with
  | .conditional condition (.literal (.number multiplier _)) no =>
    if isOne no && condition.calls Func.isProbe then some ⟨node, condition, multiplier⟩ else none
  | _ => none

variable {node : ExpressionNode α}

variable {rule : RequestRule α}

theorem ruleOf_node (h : ruleOf node = some rule) : rule.node = node := by
  unfold ruleOf at h
  split at h
  · split_ifs at h
    cases h
    rfl
  · exact nomatch h

theorem ruleOf_condition_depth (h : ruleOf node = some rule) : rule.condition.depth ≤ node.depth := by
  unfold ruleOf at h
  split at h
  · split_ifs at h
    cases h
    simp only [ExpressionNode.depth]
    omega
  · cases h

theorem requestRule?_eq (h : node.depth ≤ maxDepth) : requestRule? node = .ok (ruleOf node) := by
  unfold requestRule?
  split
  case h_1 condition multiplier integer no =>
    have hcondition : condition.depth ≤ maxDepth := by
      simp only [ExpressionNode.depth] at h
      omega
    obtain ⟨found, hfound, hcalls, -⟩ := expressionDependencies_spec hcondition
    simp only [ruleOf, hfound, ok_bind, hcalls]
    cases isOne no <;> rfl
  case h_2 node hnode =>
    unfold ruleOf
    split
    case h_1 condition multiplier integer no => exact (hnode _ _ _ _ rfl).elim
    case h_2 => rfl

end

namespace ExpressionNode

variable {α : Type}

theorem depth_le_of_mem_postorder {node part : ExpressionNode α} (h : part ∈ node.postorder) :
    part.depth ≤ node.depth := by
  induction node with
  | literal _ | var _ =>
    rw [List.mem_singleton.mp h]
  | call₁ _ a iha | unary _ a iha =>
    simp only [postorder, List.mem_append, List.mem_singleton] at h
    simp only [depth]
    rcases h with h | rfl
    · have := iha h
      omega
    · simp only [depth, le_refl]
  | call₂ _ a b iha ihb | binary _ a b iha ihb =>
    simp only [postorder, List.mem_append, List.mem_singleton] at h
    simp only [depth]
    rcases h with (h | h) | rfl
    · have := iha h
      omega
    · have := ihb h
      omega
    · simp only [depth, le_refl]
  | conditional a b c iha ihb ihc =>
    simp only [postorder, List.mem_append, List.mem_singleton] at h
    simp only [depth]
    rcases h with ((h | h) | h) | rfl
    · have := iha h
      omega
    · have := ihb h
      omega
    · have := ihc h
      omega
    · simp only [depth, le_refl]

end ExpressionNode

section
variable {α : Type} [Numbers α]

omit [Numbers α] in
theorem foldlM_filterMap {β : Type} {collect : List β → ExpressionNode α → Except Diagnostic (List β)}
    {found : ExpressionNode α → Option β} {l : List (ExpressionNode α)}
    (h : ∀ part ∈ l, ∀ rules, collect rules part = .ok (rules ++ (found part).toList)) (rules : List β) :
    l.foldlM collect rules = .ok (rules ++ l.filterMap found) := by
  induction l generalizing rules with
  | nil =>
    rw [List.filterMap_nil, List.append_nil]
    rfl
  | cons part l ih =>
    rw [List.foldlM_cons, h part List.mem_cons_self, ok_bind, ih fun p hp => h p (List.mem_cons_of_mem _ hp)]
    cases hfound : found part <;> simp [hfound]

theorem collectRequestRules_eq {ast : ExpressionNode α} (h : ast.depth ≤ maxDepth) :
    collectRequestRules ast = .ok (ast.postorder.filterMap ruleOf) := by
  rw [collectRequestRules, visitExpression_eq ast 0 [] (by omega)]
  refine foldlM_filterMap (fun part hp rules => ?_) []
  rw [requestRule?_eq ((ExpressionNode.depth_le_of_mem_postorder hp).trans h), ok_bind]
  cases ruleOf part with
  | none => exact congrArg Except.ok (List.append_nil rules).symm
  | some rule => rfl

/-- The price of a tier that the check accepts. -/
def acceptsPrice : ExpressionNode α → Bool
  | .call₁ .fixed (.literal (.number amount _)) =>
    isNonnegative amount && isFinite (Numbers.mul amount million)
  | price => !price.calls Func.isPricingMarker

theorem validateTierPrice_eq {price : ExpressionNode α} (hprice : price.depth ≤ maxDepth) :
    validateTierPrice price = if acceptsPrice price then .ok () else .error fixedPricingError := by
  unfold validateTierPrice
  split
  case h_1 => rfl
  case h_2 arg harg =>
    have hcalls : acceptsPrice (ExpressionNode.call₁ .fixed arg) = false := by
      unfold acceptsPrice
      split
      case h_1 heq =>
        cases heq
        exact (harg _ _ rfl).elim
      case h_2 => rfl
    rw [hcalls]
    rfl
  case h_3 h₁ h₂ =>
    have haccept : acceptsPrice price = !price.calls Func.isPricingMarker := by
      unfold acceptsPrice
      split
      case h_1 => exact (h₁ _ _ rfl).elim
      case h_2 => rfl
    rw [haccept, containsPricingMarker_eq hprice, ok_bind]
    by_cases hcalls : price.calls Func.isPricingMarker = true <;> simp [hcalls]

variable [DecidableEq α]

variable {l : List (ExpressionNode α)}

variable {factor : ExpressionNode α}

theorem find?_rules (h : factor ∈ l) :
    (l.filterMap ruleOf).find? (fun candidate => candidate.node = factor) = ruleOf factor := by
  induction l with
  | nil => exact nomatch h
  | cons part l ih =>
    by_cases hpart : part = factor
    · subst hpart
      cases hrule : ruleOf part with
      | some rule => simp [hrule, ruleOf_node hrule]
      | none =>
        rw [List.filterMap_cons_none hrule, List.find?_eq_none]
        intro rule hmem hnode
        obtain ⟨part', -, hrule'⟩ := List.mem_filterMap.mp hmem
        have heq : part' = part := (ruleOf_node hrule').symm.trans (of_decide_eq_true hnode)
        rw [heq, hrule] at hrule'
        exact nomatch hrule'
    · have hl : factor ∈ l := (List.mem_cons.mp h).resolve_left fun heq => hpart heq.symm
      cases hrule : ruleOf part with
      | some rule =>
        rw [List.filterMap_cons_some hrule, List.find?_cons_of_neg, ih hl]
        rw [ruleOf_node hrule]
        simpa using hpart
      | none => rw [List.filterMap_cons_none hrule, ih hl]

/-- A factor of the price: the number of images, or a rule with a multiplier that is not negative. -/
def isFactor (factor : ExpressionNode α) : Bool :=
  factor = .var .image_count ||
    match ruleOf factor with
    | some rule => isNonnegative rule.multiplier && !rule.condition.calls Func.isPricingMarker
    | none => false

theorem isRequestMultiplier_eq (h : factor ∈ l) (hdepth : factor.depth ≤ maxDepth) :
    isRequestMultiplier (l.filterMap ruleOf) factor = .ok (isFactor factor) := by
  unfold isRequestMultiplier isFactor
  rw [find?_rules h]
  by_cases himage : factor = .var .image_count
  · rw [if_pos himage, decide_eq_true himage, Bool.true_or]
  · rw [if_neg himage, decide_eq_false himage, Bool.false_or]
    cases hrule : ruleOf factor with
    | none => rfl
    | some rule =>
      have hcondition := (ruleOf_condition_depth hrule).trans hdepth
      simp only [containsPricingMarker_eq hcondition, ok_bind]
      cases isNonnegative rule.multiplier <;> rfl

/-- The check, as one property of a tree. -/
def acceptsFixed : ExpressionNode α → Bool
  | .conditional condition yes no =>
    !condition.calls Func.isPricingMarker && acceptsFixed yes && acceptsFixed no
  | .binary .mul left right =>
    if isFactor right then acceptsFixed left
    else if isFactor left then acceptsFixed right
    else false
  | .call₂ .tier name price => !name.calls Func.isPricingMarker && acceptsPrice price
  | _ => false

/-- The check of a part of a tree, with the rules of the whole tree. -/
theorem validateFixedPricingTree_eq (node : ExpressionNode α) :
    (∀ part ∈ node.postorder, part ∈ l) → node.depth ≤ maxDepth → validateFixedPricingTree (l.filterMap ruleOf) node =
        if acceptsFixed node then .ok () else .error fixedPricingError := by
  induction node with
  | literal _ | var _ | call₁ _ _ _ | unary _ _ _ => intro _ _; rfl
  | call₂ name a b iha ihb =>
    intro _ hdepth
    simp only [ExpressionNode.depth] at hdepth
    cases name with
    | has | min | max => rfl
    | tier =>
      have hmarker : containsPricingMarker a = _ := containsPricingMarker_eq (by omega)
      simp only [validateFixedPricingTree, acceptsFixed, hmarker, ok_bind,
        validateTierPrice_eq (by omega : b.depth ≤ maxDepth)]
      by_cases hcalls : a.calls Func.isPricingMarker = true <;> simp [hcalls]
  | binary operator a b iha ihb =>
    intro hl hdepth
    simp only [ExpressionNode.depth] at hdepth
    simp only [ExpressionNode.postorder, List.mem_append] at hl
    cases operator with
    | mul =>
      have ha := fun part hp => hl part (.inl (.inl hp))
      have hb := fun part hp => hl part (.inl (.inr hp))
      have hfactorb := isRequestMultiplier_eq (hb b b.mem_postorder_self) (by omega)
      have hfactora := isRequestMultiplier_eq (ha a a.mem_postorder_self) (by omega)
      simp only [validateFixedPricingTree, acceptsFixed, hfactora, hfactorb, ok_bind,
        iha ha (by omega), ihb hb (by omega)]
      by_cases hb : isFactor b = true
      · simp only [hb, if_true]
      · by_cases ha : isFactor a = true <;> simp [ha, hb]
    | _ => rfl
  | conditional a b c iha ihb ihc =>
    intro hl hdepth
    simp only [ExpressionNode.depth] at hdepth
    simp only [ExpressionNode.postorder, List.mem_append] at hl
    have hb := ihb (fun part hp => hl part (.inl (.inl (.inr hp)))) (by omega)
    have hc := ihc (fun part hp => hl part (.inl (.inr hp))) (by omega)
    have hmarker : containsPricingMarker a = _ := containsPricingMarker_eq (by omega)
    simp only [validateFixedPricingTree, acceptsFixed, hmarker, ok_bind, hb, hc]
    by_cases hcalls : a.calls Func.isPricingMarker = true
    · simp [hcalls]
    · by_cases hyes : acceptsFixed b = true <;> simp [hcalls, hyes]

end

/-! ## The server -/

section
variable {α : Type} [Numbers α] {node : ExpressionNode α} {tree : Server.Node α}

/-- The server finds an identifier where the browser finds a call of that name. -/
theorem SameTree.find_isNamed {names : List Text} {p : Func → Bool}
    (hvar : ∀ name : Variable, name.name ∉ names) (h₁ : ∀ name : Func₁, (name.name ∈ names) = p (.one name))
    (h₂ : ∀ name : Func₂, (name.name ∈ names) = p (.two name))
    (hb₁ : ∀ name ∈ [Func₁.abs, .ceil, .floor], p (.one name) = false)
    (hb₂ : ∀ name ∈ [Func₂.min, .max], p (.two name) = false) (h : SameTree node tree) :
    tree.find (Server.isNamed names) = node.calls p := by
  induction h with
  | nil | bool _ | string _ | integer _ _ | float _ _ => rfl
  | var name => simpa [Server.Node.find, Server.isNamed, ExpressionNode.calls] using hvar name
  | call₁ name _ _ iha =>
    simp [Server.Node.find, Server.findAny, Server.isNamed, ExpressionNode.calls, iha, h₁]
  | builtin₁ name hname _ iha =>
    simp [Server.Node.find, Server.findAny, Server.isNamed, ExpressionNode.calls, iha, hb₁ name hname]
  | call₂ name _ _ _ iha ihb =>
    simp [Server.Node.find, Server.findAny, Server.isNamed, ExpressionNode.calls, iha, ihb, h₂, Bool.or_assoc]
  | builtin₂ name hname _ _ iha ihb =>
    simp [Server.Node.find, Server.findAny, Server.isNamed, ExpressionNode.calls, iha, ihb, hb₂ name hname]
  | unary _ _ iha => simp [Server.Node.find, Server.isNamed, ExpressionNode.calls, iha]
  | binary _ _ _ iha ihb => simp [Server.Node.find, Server.isNamed, ExpressionNode.calls, iha, ihb]
  | conditional _ _ _ iha ihb ihc =>
    simp [Server.Node.find, Server.isNamed, ExpressionNode.calls, iha, ihb, ihc]

theorem SameTree.containsPricingMarker (h : SameTree node tree) :
    Server.containsPricingMarker tree = node.calls Func.isPricingMarker := by
  refine h.find_isNamed ?_ ?_ ?_ (by decide) (by decide)
  · rintro (_ | _) <;> decide
  · rintro (_ | _ | _ | _ | (_ | _) | _) <;> decide
  · rintro (_ | _) <;> decide

theorem SameTree.usesRequestProbe (h : SameTree node tree) :
    Server.usesRequestProbe tree = node.calls Func.isProbe := by
  refine h.find_isNamed ?_ ?_ ?_ (by decide) (by decide)
  · rintro (_ | _) <;> decide
  · rintro (_ | _ | _ | _ | (_ | _) | _) <;> decide
  · rintro (_ | _) <;> decide

theorem SameTree.usesFixedPricing (h : SameTree node tree) :
    Server.usesFixedPricing tree = node.calls (· = .one .fixed) := by
  refine h.find_isNamed ?_ ?_ ?_ (by decide) (by decide)
  · rintro (_ | _) <;> decide
  · rintro (_ | _ | _ | _ | (_ | _) | _) <;> decide
  · rintro (_ | _) <;> decide

/-- The value of a numeric literal. -/
def numberOf : ExpressionNode α → Option α
  | .literal (.number value _) => some value
  | _ => none

theorem SameTree.requestRuleNumber (h : SameTree node tree) : Server.requestRuleNumber tree = numberOf node := by
  cases h <;> rfl

theorem SameTree.isFinite_of_numberOf (h : SameTree node tree) {value : α}
    (hvalue : numberOf node = some value) : isFinite value = true := by
  cases h with
  | integer n hn =>
    cases hvalue
    exact Numbers.isFinite_ofInt _ (by simpa using hn)
  | float value hfinite =>
    cases hvalue
    exact hfinite
  | _ => exact nomatch hvalue

theorem isOne_eq (node : ExpressionNode α) : isOne node = (numberOf node).any fun value => Numbers.eq value one := by
  cases node with
  | literal value => cases value <;> rfl
  | _ => rfl

theorem ruleOf_conditional (condition yes no : ExpressionNode α) : ruleOf (.conditional condition yes no) =
      (numberOf yes).bind fun multiplier => if isOne no && condition.calls Func.isProbe then
          some ⟨.conditional condition yes no, condition, multiplier⟩ else none := by
  unfold ruleOf numberOf
  split
  case h_1 heq =>
    cases heq
    rfl
  case h_2 hne =>
    split
    case h_1 => exact (hne _ _ _ _ rfl).elim
    case h_2 => rfl

theorem SameTree.validateTokenPrice (h : SameTree node tree) :
    Server.validateTokenPrice tree = .ok () ↔ (!node.calls Func.isPricingMarker) = true := by
  rw [Server.validateTokenPrice, h.containsPricingMarker]
  by_cases hcalls : node.calls Func.isPricingMarker = true <;> simp [hcalls]

/-- A fixed price: both sides want a literal that is not negative and stays finite in millionths. -/
theorem SameTree.validateFixedPrice (h : SameTree node tree) :
    Server.validateTierPrice (.call (.identifier "fixed".toList) [tree]) = .ok () ↔
      acceptsPrice (.call₁ .fixed node) = true := by
  have hbrowser : acceptsPrice (.call₁ .fixed node) =
      (numberOf node).any fun amount => isNonnegative amount && isFinite (Numbers.mul amount million) := by
    cases node with
    | literal value => cases value <;> rfl
    | _ => rfl
  rewrite [Server.validateTierPrice, if_pos rfl, h.requestRuleNumber, hbrowser]
  cases hamount : numberOf node with
  | none => simp
  | some amount =>
    have hfinite := h.isFinite_of_numberOf hamount
    simp only [Numbers.isNaN_of_isFinite amount hfinite, isInf_mul hfinite isFinite_million, Bool.not_false,
      Bool.and_true, Bool.not_not, Option.any_some]
    split_ifs with hok <;> simp [hok]

theorem SameTree.validateTierPrice (h : SameTree node tree) :
    Server.validateTierPrice tree = .ok () ↔ acceptsPrice node = true := by
  have htoken := h.validateTokenPrice
  cases h with
  | call₁ name hname ha =>
    cases name with
    | fixed => exact ha.validateFixedPrice
    | param | header | u =>
      rw [Server.validateTierPrice, if_neg (by decide)]
      exact htoken
    | time name =>
      rw [Server.validateTierPrice, if_neg (by cases name <;> decide)]
      exact htoken
    | abs | ceil | floor => exact (hname (by decide)).elim
  | builtin₁ name hname ha =>
    cases name with
    | abs | ceil | floor => exact htoken
    | _ => exact absurd hname (by simp)
  | _ => exact htoken

variable [DecidableEq α]

theorem SameTree.isRequestPriceMultiplier (h : SameTree node tree) :
    Server.isRequestPriceMultiplier tree = isFactor node := by
  cases h with
  | nil | bool _ | string _ | integer _ _ | float _ _ | call₁ _ _ _ | builtin₁ _ _ _ | call₂ _ _ _ _
  | builtin₂ _ _ _ _ | unary _ _ | binary _ _ _ => simp [Server.isRequestPriceMultiplier, isFactor, ruleOf]
  | var name =>
    have hruleOf : ruleOf (ExpressionNode.var name : ExpressionNode α) = none := rfl
    simp only [Server.isRequestPriceMultiplier, isFactor, hruleOf, Bool.or_false, ExpressionNode.var.injEq]
    cases name <;> decide
  | conditional ha hb hc =>
    simp only [Server.isRequestPriceMultiplier, isFactor, ha.usesRequestProbe, ha.containsPricingMarker,
      hb.requestRuleNumber, hc.requestRuleNumber, ruleOf_conditional, isOne_eq, reduceCtorEq, decide_false,
      Bool.false_or]
    cases hmultiplier : numberOf _ with
    | none => simp
    | some multiplier =>
      have hfinite := hb.isFinite_of_numberOf hmultiplier
      have hnan := Numbers.isNaN_of_isFinite multiplier hfinite
      cases numberOf _ with
      | none => simp
      | some fallback =>
        cases hprobe : ExpressionNode.calls Func.isProbe _ <;> cases hone : Numbers.eq fallback one <;>
          simp [hnan, isInf, hfinite, hone, Bool.and_comm]

theorem SameTree.validateFixedPricingTree (h : SameTree node tree) :
    Server.validateFixedPricingTree tree = .ok () ↔ acceptsFixed node = true := by
  induction h with
  | @conditional a a' b b' c c' ha hb hc _ ihb ihc =>
    simp only [Server.validateFixedPricingTree, acceptsFixed, ha.containsPricingMarker, Bool.and_eq_true,
      Bool.not_eq_true', ← ihb, ← ihc]
    by_cases hcalls : a.calls Func.isPricingMarker = true
    · simp [hcalls]
    · cases Server.validateFixedPricingTree b' <;> simp [hcalls]
  | @binary operator a a' b b' ha hb iha ihb =>
    cases operator with
    | mul =>
      simp only [Server.validateFixedPricingTree, acceptsFixed, ha.isRequestPriceMultiplier,
        hb.isRequestPriceMultiplier, BinaryOp.text, ne_eq, not_true_eq_false, if_false]
      by_cases hright : isFactor b = true
      · simpa [hright] using iha
      · by_cases hleft : isFactor a = true
        · simpa [hright, hleft] using ihb
        · simp [hright, hleft]
    | _ => simp [Server.validateFixedPricingTree, acceptsFixed, BinaryOp.text]
  | @call₂ name hname a a' b b' ha hb =>
    cases name with
    | tier =>
      simp only [Server.validateFixedPricingTree, acceptsFixed, ha.containsPricingMarker, Func₂.name, ne_eq,
        not_true_eq_false, decide_false, Bool.false_or, Bool.and_eq_true, ← hb.validateTierPrice]
      by_cases hcalls : a.calls Func.isPricingMarker = true <;> simp [hcalls]
    | has => simp [Server.validateFixedPricingTree, acceptsFixed, Func₂.name]
    | min | max => exact (hname (by decide)).elim
  | builtin₂ name hname _ _ =>
    cases name with
    | min | max => simp [Server.validateFixedPricingTree, acceptsFixed]
    | _ => exact absurd hname (by simp)
  | _ => simp [Server.validateFixedPricingTree, acceptsFixed]

/-- On every tree of the language both sides share, the server's check of fixed prices accepts what the
browser's accepts, and so do the two compilers' uses of it. -/
theorem fixed_pricing_checked_alike (h : SameTree node tree) (hdepth : node.depth ≤ maxDepth) :
    ∃ found rules, expressionDependencies node = .ok found ∧ collectRequestRules node = .ok rules ∧
      (Server.validateFixedPricingTree tree = .ok () ↔
        Expression.validateFixedPricingTree rules node = .ok ()) ∧
      (Server.checkFixedPricing tree = .ok () ↔ checkFixedPricing found rules node = .ok ()) := by
  obtain ⟨found, hfound, hcalls, -⟩ := expressionDependencies_spec hdepth
  have hvalidate : Server.validateFixedPricingTree tree = .ok () ↔
      Expression.validateFixedPricingTree (node.postorder.filterMap ruleOf) node = .ok () := by
    rw [h.validateFixedPricingTree, validateFixedPricingTree_eq node (fun _ hp => hp) hdepth]
    cases acceptsFixed node <;> simp
  refine ⟨found, _, hfound, collectRequestRules_eq hdepth, hvalidate, ?_⟩
  rw [Server.checkFixedPricing, checkFixedPricing, h.usesFixedPricing, hcalls]
  split_ifs
  · exact hvalidate
  · exact iff_of_true rfl rfl

end

/-- `len > 9 ? tier("a", fixed(2)) : image_count * tier("b", p * 3)`, in the browser. -/
def imagePricing : ExpressionNode Exact :=
  .conditional (.binary .gt (.var .len) (.literal (.number (ofInt (9 : ℕ)) true)))
    (.call₂ .tier (.literal (.string ['a'])) (.call₁ .fixed (.literal (.number (ofInt (2 : ℕ)) true))))
    (.binary .mul (.var .image_count)
      (.call₂ .tier (.literal (.string ['b']))
        (.binary .mul (.var .p) (.literal (.number (ofInt (3 : ℕ)) true)))))

/-- The same on the server. -/
def imagePricingTree : Server.Node Exact :=
  .conditional true (.binary ['>'] (.identifier "len".toList) (.integer 9))
    (.call (.identifier "tier".toList) [.string ['a'], .call (.identifier "fixed".toList) [.integer 2]])
    (.binary ['*'] (.identifier "image_count".toList)
      (.call (.identifier "tier".toList)
        [.string ['b'], .binary ['*'] (.identifier "p".toList) (.integer 3)]))

theorem imagePricing_same : SameTree imagePricing imagePricingTree :=
  .conditional (.binary .gt (.var .len) (.integer 9 (by decide)))
    (.call₂ .tier (by decide) (.string ['a']) (.call₁ .fixed (by decide) (.integer 2 (by decide))))
    (.binary .mul (.var .image_count)
      (.call₂ .tier (by decide) (.string ['b']) (.binary .mul (.var .p) (.integer 3 (by decide)))))

theorem fixed_pricing_checked_alike_images :
    SameTree imagePricing imagePricingTree ∧ imagePricing.depth ≤ maxDepth ∧
      ∃ found rules, expressionDependencies imagePricing = .ok found ∧
        collectRequestRules imagePricing = .ok rules ∧
        (Server.validateFixedPricingTree imagePricingTree = .ok () ↔
          validateFixedPricingTree rules imagePricing = .ok ()) ∧
        (Server.checkFixedPricing imagePricingTree = .ok () ↔
          checkFixedPricing found rules imagePricing = .ok ()) :=
  ⟨imagePricing_same, by decide, fixed_pricing_checked_alike imagePricing_same (by decide)⟩

end Vancine.Expression
