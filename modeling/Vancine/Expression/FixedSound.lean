import Vancine.Expression.Interpreter

/-!
# A fixed price is charged once

An expression with fixed prices that passes the check selects one tier in every run: the conditions select
a branch, the factors are the number of images and request rules, and the price is that of the tier times
the factors.
-/

namespace Vancine.Expression.Server

open Pricing (Text)

/-! ## The calls of a run -/

/-- The tier that a run pays for. -/
structure Leaf (α : Type) where
  label : Text
  value : α
  fixedPrice : Option α

section
variable {α : Type}

def Event.tier? : Event α → Option (Text × α)
  | .tier name value => some (name, value)
  | _ => none

def Event.fixed? : Event α → Option α
  | .fixed amount => some amount
  | _ => none

/-- The calls of `tier`, each with its label and its value. -/
def tierCalls (es : List (Event α)) : List (Text × α) := es.filterMap Event.tier?

/-- The calls of `fixed`. -/
def fixedCalls (es : List (Event α)) : List α := es.filterMap Event.fixed?

/-- The run calls neither `tier` nor `fixed`. -/
def Unpriced (es : List (Event α)) : Prop := tierCalls es = [] ∧ fixedCalls es = []

/-- The run pays for the tier, and for nothing else. -/
def PaysOnce (es : List (Event α)) (leaf : Leaf α) : Prop :=
  tierCalls es = [(leaf.label, leaf.value)] ∧ fixedCalls es = leaf.fixedPrice.toList

theorem unpriced_nil : Unpriced ([] : List (Event α)) := ⟨rfl, rfl⟩

variable {es es' : List (Event α)}

theorem Unpriced.append (h : Unpriced es) (h' : Unpriced es') : Unpriced (es ++ es') :=
  ⟨by rw [tierCalls, List.filterMap_append, ← tierCalls, h.1]; exact h'.1,
    by rw [fixedCalls, List.filterMap_append, ← fixedCalls, h.2]; exact h'.2⟩

theorem PaysOnce.append_left {leaf : Leaf α} (h : Unpriced es) (h' : PaysOnce es' leaf) : PaysOnce (es ++ es') leaf :=
  ⟨by rw [tierCalls, List.filterMap_append, ← tierCalls, h.1]; exact h'.1,
    by rw [fixedCalls, List.filterMap_append, ← fixedCalls, h.2]; exact h'.2⟩

theorem PaysOnce.append_right {leaf : Leaf α} (h : PaysOnce es leaf) (h' : Unpriced es') :
    PaysOnce (es ++ es') leaf := by
  constructor
  · have h₁ : tierCalls es' = [] := h'.1
    rw [tierCalls, List.filterMap_append, ← tierCalls, ← tierCalls, h₁, List.append_nil]
    exact h.1
  · have h₂ : fixedCalls es' = [] := h'.2
    rw [fixedCalls, List.filterMap_append, ← fixedCalls, ← fixedCalls, h₂, List.append_nil]
    exact h.2

theorem unpriced_of_rules {es : List (Event α)}
    (h : ∀ event ∈ es, ∃ index matched, event = .rule index matched) : Unpriced es := by
  constructor <;>
  · refine List.filterMap_eq_nil_iff.mpr fun event hevent => ?_
    obtain ⟨index, matched, rfl⟩ := h event hevent
    rfl

theorem foldl_record (es : List (Event α)) (trace : TraceResult α) : (es.foldl TraceResult.record trace).matchedTier
        = (tierCalls es).foldl (fun _ call => call.1) trace.matchedTier ∧ (es.foldl TraceResult.record trace).cost
        = (tierCalls es).foldl (fun _ call => call.2) trace.cost ∧ (es.foldl TraceResult.record trace).fixedPrice
        = (fixedCalls es).foldl (fun _ amount => some amount) trace.fixedPrice ∧
      (es.foldl TraceResult.record trace).billingUnit
        = (fixedCalls es).foldl (fun _ _ => .request) trace.billingUnit := by
  induction es generalizing trace with
  | nil => exact ⟨rfl, rfl, rfl, rfl⟩
  | cons event es ih =>
    cases event with
    | tier name value => exact ih _
    | fixed amount => exact ih _
    | rule index matched =>
      obtain ⟨requestRules, hrecord⟩ : ∃ requestRules,
          trace.record (.rule index matched) = { trace with requestRules } := by
        rw [TraceResult.record]
        split_ifs
        · exact ⟨_, rfl⟩
        · exact ⟨trace.requestRules, rfl⟩
      rw [List.foldl_cons, hrecord]
      exact ih _

end

section
variable {α : Type} [Numbers α]

/-! ## Patching keeps the names -/

variable {node : Node α}

variable {a : α} {left right : Node α} {es₁ es₂ : List (Event α)}

theorem find_of_requestRuleNumber {names : List Text} (h : requestRuleNumber node = some a) :
    node.find (isNamed names) = false := by
  cases node with
  | integer _ | float _ => rfl
  | _ => exact nomatch h

theorem requestRuleNumber_patchConditional (ternary : Bool) (cond exp1 exp2 : Node α)
    (rules : List (RequestRuleTrace α)) :
    requestRuleNumber (patchConditional ternary cond exp1 exp2 rules).1 = none := by
  unfold patchConditional
  split_ifs
  · rfl
  · split
    · split_ifs
      · split <;> rfl
      · rfl
    · rfl

theorem requestRuleNumber_patch (node : Node α) (rules : List (RequestRuleTrace α)) :
    requestRuleNumber (node.patch rules).1 = requestRuleNumber node := by
  cases node with
  | conditional ternary cond exp1 exp2 => exact requestRuleNumber_patchConditional _ _ _ _ _
  | _ => rfl

theorem patchConditional_cases (ternary : Bool) (cond exp1 exp2 : Node α) (rules : List (RequestRuleTrace α)) :
    (patchConditional ternary cond exp1 exp2 rules).1 = .conditional ternary cond exp1 exp2 ∨
      ∃ multiplier fallback, requestRuleNumber exp1 = some multiplier ∧
        requestRuleNumber exp2 = some fallback ∧ Numbers.eq fallback one = true ∧
        ((patchConditional ternary cond exp1 exp2 rules).1
            = .call (.identifier "_trace".toList) [.integer rules.length, cond, .float multiplier] ∨
          ∃ n, exp1 = .integer n ∧ (patchConditional ternary cond exp1 exp2 rules).1
            = .call (.identifier "_trace_int".toList) [.integer rules.length, cond, .integer n]) := by
  unfold patchConditional
  by_cases hprobe : (!ternary || !usesRequestProbe cond) = true
  · rw [if_pos hprobe]
    exact .inl rfl
  · rw [if_neg hprobe]
    split
    case h_1 multiplier fallback hmultiplier hfallback =>
      by_cases hone : Numbers.eq fallback one = true
      · rw [if_pos hone]
        refine .inr ⟨multiplier, fallback, hmultiplier, hfallback, hone, ?_⟩
        split
        case h_1 n _ => exact .inr ⟨n, rfl, rfl⟩
        case h_2 => exact .inl rfl
      · rw [if_neg hone]
        exact .inl rfl
    case h_2 => exact .inl rfl

theorem find_patchConditional {names : List Text} (htrace : "_trace".toList ∉ names)
    (htraceInt : "_trace_int".toList ∉ names) (ternary : Bool) (cond exp1 exp2 : Node α)
    (rules : List (RequestRuleTrace α)) : (patchConditional ternary cond exp1 exp2 rules).1.find (isNamed names)
      = (cond.find (isNamed names) || exp1.find (isNamed names) || exp2.find (isNamed names)) := by
  rcases patchConditional_cases ternary cond exp1 exp2 rules with
    h | ⟨multiplier, fallback, hmultiplier, hfallback, -, h⟩
  · simp [h, Node.find, isNamed]
  · rw [find_of_requestRuleNumber hmultiplier, find_of_requestRuleNumber hfallback]
    rcases h with h | ⟨n, -, h⟩ <;>
      simp only [h, Node.find, findAny, isNamed, decide_eq_false htrace, decide_eq_false htraceInt,
        Bool.or_false, Bool.false_or]

mutual

/-- Patching adds no name but those of the recording functions, and takes none away. -/
theorem find_patch {names : List Text} (htrace : "_trace".toList ∉ names) (htraceInt : "_trace_int".toList ∉ names) :
    ∀ (node : Node α) (rules : List (RequestRuleTrace α)),
      (node.patch rules).1.find (isNamed names) = node.find (isNamed names)
  | .nil, _ | .identifier _, _ | .integer _, _ | .float _, _ | .bool _, _ | .string _, _ => rfl
  | .unary _ node, rules => by simp [Node.patch, Node.find, isNamed, find_patch htrace htraceInt node]
  | .binary _ left right, rules => by
    simp [Node.patch, Node.find, isNamed, find_patch htrace htraceInt left, find_patch htrace htraceInt right]
  | .conditional _ cond exp1 exp2, rules => by
    simp [Node.patch, Node.find, isNamed, find_patchConditional htrace htraceInt,
      find_patch htrace htraceInt cond, find_patch htrace htraceInt exp1, find_patch htrace htraceInt exp2]
  | .member node property, rules => by
    simp [Node.patch, Node.find, isNamed, find_patch htrace htraceInt node, find_patch htrace htraceInt property]
  | .call callee arguments, rules => by
    simp [Node.patch, Node.find, isNamed, find_patch htrace htraceInt callee,
      findAny_patchAll htrace htraceInt arguments]
  | .builtin _ arguments, rules => by
    simp [Node.patch, Node.find, isNamed, findAny_patchAll htrace htraceInt arguments]
  | .other _ parts, rules => by
    simp [Node.patch, Node.find, isNamed, findAny_patchAll htrace htraceInt parts]

theorem findAny_patchAll {names : List Text} (htrace : "_trace".toList ∉ names)
    (htraceInt : "_trace_int".toList ∉ names) : ∀ (nodes : List (Node α)) (rules : List (RequestRuleTrace α)),
      findAny (isNamed names) (patchAll nodes rules).1 = findAny (isNamed names) nodes
  | [], _ => rfl
  | node :: nodes, rules => by
    simp [patchAll, findAny, find_patch htrace htraceInt node, findAny_patchAll htrace htraceInt nodes]

end

theorem containsPricingMarker_patch (node : Node α) (rules : List (RequestRuleTrace α)) :
    containsPricingMarker (node.patch rules).1 = containsPricingMarker node :=
  find_patch (by decide) (by decide) node rules

theorem isEnvField_patch (node property : Node α) (rules rules' : List (RequestRuleTrace α)) :
    isEnvField (node.patch rules).1 (property.patch rules').1 = isEnvField node property := by
  cases node with
  | identifier value =>
    cases property with
    | conditional ternary cond exp1 exp2 =>
      rcases patchConditional_cases ternary (cond.patch rules').1 (exp1.patch (cond.patch rules').2).1
        (exp2.patch (exp1.patch (cond.patch rules').2).2).1
        (exp2.patch (exp1.patch (cond.patch rules').2).2).2 with h | ⟨_, _, -, -, -, h | ⟨_, -, h⟩⟩ <;>
        simp only [Node.patch, h, isEnvField]
    | _ => rfl
  | conditional ternary cond exp1 exp2 =>
    rcases patchConditional_cases ternary (cond.patch rules).1 (exp1.patch (cond.patch rules).2).1
      (exp2.patch (exp1.patch (cond.patch rules).2).2).1
      (exp2.patch (exp1.patch (cond.patch rules).2).2).2 with h | ⟨_, _, -, -, -, h | ⟨_, -, h⟩⟩ <;>
      simp only [Node.patch, h, isEnvField]
  | _ => rfl

theorem envSafe_of_requestRuleNumber (h : requestRuleNumber node = some a) : node.envSafe = true := by
  cases node with
  | integer _ | float _ => rfl
  | _ => exact nomatch h

theorem envSafe_patchConditional (ternary : Bool) (cond exp1 exp2 : Node α) (rules : List (RequestRuleTrace α)) :
    (patchConditional ternary cond exp1 exp2 rules).1.envSafe = (cond.envSafe && exp1.envSafe && exp2.envSafe) := by
  rcases patchConditional_cases ternary cond exp1 exp2 rules with
    h | ⟨multiplier, fallback, hmultiplier, hfallback, -, h⟩
  · simp only [h, Node.envSafe]
  · rw [envSafe_of_requestRuleNumber hmultiplier, envSafe_of_requestRuleNumber hfallback]
    have htrace : decide ("_trace".toList ≠ "$env".toList) = true := by decide
    have htraceInt : decide ("_trace_int".toList ≠ "$env".toList) = true := by decide
    rcases h with h | ⟨n, -, h⟩ <;>
      simp only [h, Node.envSafe, allEnvSafe, htrace, htraceInt, Bool.and_true, Bool.true_and]

mutual

theorem envSafe_patch : ∀ (node : Node α) (rules : List (RequestRuleTrace α)),
    (node.patch rules).1.envSafe = node.envSafe
  | .nil, _ | .identifier _, _ | .integer _, _ | .float _, _ | .bool _, _ | .string _, _ => rfl
  | .unary _ node, rules => envSafe_patch node rules
  | .binary _ left right, rules => by
    simp only [Node.patch, Node.envSafe, envSafe_patch left, envSafe_patch right]
  | .conditional _ cond exp1 exp2, rules => by
    simp only [Node.patch, Node.envSafe, envSafe_patchConditional, envSafe_patch cond, envSafe_patch exp1,
      envSafe_patch exp2]
  | .member node property, rules => by
    simp only [Node.patch, Node.envSafe, isEnvField_patch, envSafe_patch node, envSafe_patch property]
  | .call callee arguments, rules => by
    simp only [Node.patch, Node.envSafe, envSafe_patch callee, allEnvSafe_patchAll arguments]
  | .builtin _ arguments, rules => allEnvSafe_patchAll arguments rules
  | .other _ parts, rules => allEnvSafe_patchAll parts rules

theorem allEnvSafe_patchAll : ∀ (nodes : List (Node α)) (rules : List (RequestRuleTrace α)),
    allEnvSafe (patchAll nodes rules).1 = allEnvSafe nodes
  | [], _ => rfl
  | node :: nodes, rules => by
    simp only [patchAll, allEnvSafe, envSafe_patch node, allEnvSafe_patchAll nodes]

end

/-! ## What a run selects -/

variable {Context : Type}

/-- A factor and its value in a run. -/
inductive MultiplierValue (vm : Vm α Context) (env : Env Context) : Node α → α → Prop
  | imageCount : MultiplierValue vm env (.identifier "image_count".toList) (ofInt env.imageCount)
  | rule {ternary cond exp1 exp2 rules es} {matched : Bool} {m : α}
    (hcond : vm.run env (cond.patch rules).1 = .ok (es, .bool matched))
    (hm : requestRuleNumber (if matched then exp1 else exp2) = some m) :
    MultiplierValue vm env (.conditional ternary cond exp1 exp2) m

/-- The tier that the conditions of a tree select in a run, and the values of the factors on the way. -/
inductive Selects (vm : Vm α Context) (env : Env Context) : Node α → Leaf α → List α → Prop
  | fixed {name argument rules es label amount}
    (hname : vm.run env (name.patch rules).1 = .ok (es, .string label))
    (hamount : requestRuleNumber argument = some amount) :
    Selects vm env
      (.call (.identifier "tier".toList) [name, .call (.identifier "fixed".toList) [argument]])
      ⟨label, Numbers.mul amount million, some amount⟩ []
  | token {name price rules rules' es es' label v value} (hprice : containsPricingMarker price = false)
    (hname : vm.run env (name.patch rules).1 = .ok (es, .string label))
    (hvalue : vm.run env (price.patch rules').1 = .ok (es', v)) (hv : v.toFloat = some value) :
    Selects vm env (.call (.identifier "tier".toList) [name, price]) ⟨label, value, none⟩ []
  | branch {ternary cond exp1 exp2 rules es leaf ms} {matched : Bool}
    (hcond : vm.run env (cond.patch rules).1 = .ok (es, .bool matched))
    (h : Selects vm env (if matched then exp1 else exp2) leaf ms) :
    Selects vm env (.conditional ternary cond exp1 exp2) leaf ms
  | timesRight {left right leaf ms m} (hm : MultiplierValue vm env right m)
    (h : Selects vm env left leaf ms) : Selects vm env (.binary "*".toList left right) leaf (ms ++ [m])
  | timesLeft {left right leaf ms m} (hm : MultiplierValue vm env left m)
    (h : Selects vm env right leaf ms) : Selects vm env (.binary "*".toList left right) leaf (ms ++ [m])

variable {vm : Vm α Context} {env : Env Context} {rules : List (RequestRuleTrace α)}
  {es : List (Event α)} {v : Value α}

theorem unpriced_of_run (hmarker : containsPricingMarker node = false) (hsafe : node.envSafe = true)
    (hrun : vm.run env (node.patch rules).1 = .ok (es, v)) : Unpriced es :=
  unpriced_of_rules (vm.run_unmarked hrun ((containsPricingMarker_patch node rules).trans hmarker)
    ((envSafe_patch node rules).trans hsafe))

/-! ## Factors -/

theorem run_number (ha : requestRuleNumber node = some a) (hrun : vm.run env node = .ok (es, v)) :
    es = [] ∧ v.toFloat = some a := by
  cases node with
  | integer n =>
    cases ha
    obtain ⟨rfl, rfl⟩ := vm.run_integer hrun
    exact ⟨rfl, rfl⟩
  | float a =>
    cases ha
    obtain ⟨rfl, rfl⟩ := vm.run_float hrun
    exact ⟨rfl, rfl⟩
  | _ => exact nomatch ha

theorem patch_of_requestRuleNumber (ha : requestRuleNumber node = some a) : node.patch rules = (node, rules) := by
  cases node with
  | integer _ | float _ => rfl
  | _ => exact nomatch ha

/-- A factor calls neither `tier` nor `fixed`, and its value is not negative. -/
theorem run_multiplier (hcount : 0 ≤ env.imageCount) (hfactor : isRequestPriceMultiplier node = true)
    (hsafe : node.envSafe = true) (hrun : vm.run env (node.patch rules).1 = .ok (es, v)) :
    ∃ m, MultiplierValue vm env node m ∧ v.toFloat = some m ∧ isNonnegative m = true ∧ Unpriced es := by
  cases node with
  | identifier value =>
    have hvalue : value = "image_count".toList := of_decide_eq_true hfactor
    subst hvalue
    obtain ⟨rfl, rfl⟩ := vm.run_imageCount hrun
    exact ⟨_, .imageCount, rfl, isNonnegative_ofInt hcount, unpriced_nil⟩
  | conditional ternary cond exp1 exp2 =>
    simp only [isRequestPriceMultiplier, Bool.and_eq_true, Bool.not_eq_true'] at hfactor
    obtain ⟨⟨-, hmarker⟩, hfactor⟩ := hfactor
    split at hfactor
    case h_2 => exact nomatch hfactor
    case h_1 multiplier fallback hmultiplier hfallback =>
    simp only [Bool.and_eq_true] at hfactor
    obtain ⟨⟨⟨hone, hnonneg⟩, -⟩, -⟩ := hfactor
    have hfallback' : fallback = one := Numbers.eq_ofInt fallback 1 (by decide) hone
    subst hfallback'
    simp only [Node.envSafe, Bool.and_eq_true] at hsafe
    have hunpriced : ∀ {es₁ v₁}, vm.run env (cond.patch rules).1 = .ok (es₁, v₁) → Unpriced es₁ :=
      fun hcond => unpriced_of_run hmarker hsafe.1.1 hcond
    -- The value is that of the literal that the condition selects.
    have hvalue : ∀ matched : Bool, ∃ m,
        requestRuleNumber (if matched then exp1 else exp2) = some m ∧ isNonnegative m = true ∧
          m = if matched then multiplier else one := by
      rintro (_ | _)
      · exact ⟨one, hfallback, isNonnegative_ofInt (by decide), rfl⟩
      · exact ⟨multiplier, hmultiplier, hnonneg, rfl⟩
    simp only [Node.patch, patch_of_requestRuleNumber hmultiplier, patch_of_requestRuleNumber hfallback] at hrun
    rcases patchConditional_cases ternary (cond.patch rules).1 exp1 exp2 (cond.patch rules).2 with
      h | ⟨multiplier', fallback', hmultiplier', -, -, h | ⟨n, hn, h⟩⟩
    · rw [h] at hrun
      obtain ⟨es₁, es₂, matched, hcond, hbranch, rfl⟩ := vm.run_conditional hrun
      obtain ⟨m, hm, hmnonneg, -⟩ := hvalue matched
      obtain ⟨rfl, hv⟩ := run_number hm hbranch
      exact ⟨m, .rule hcond hm, hv, hmnonneg, (hunpriced hcond).append unpriced_nil⟩
    · rw [h] at hrun
      obtain ⟨es₁, matched, hcond, rfl, rfl⟩ := vm.run_trace hrun
      obtain ⟨m, hm, hmnonneg, rfl⟩ := hvalue matched
      have hsame : multiplier' = multiplier := Option.some.inj (hmultiplier'.symm.trans hmultiplier)
      subst hsame
      exact ⟨_, .rule hcond hm, rfl, hmnonneg, (hunpriced hcond).append ⟨rfl, rfl⟩⟩
    · rw [h] at hrun
      obtain ⟨es₁, matched, hcond, rfl, rfl⟩ := vm.run_traceInt hrun
      obtain ⟨m, hm, hmnonneg, hmeq⟩ := hvalue matched
      have hn' : ofInt n = multiplier := by
        rw [hn] at hmultiplier
        exact Option.some.inj hmultiplier
      refine ⟨m, .rule hcond hm, ?_, hmnonneg, (hunpriced hcond).append ⟨rfl, rfl⟩⟩
      rw [hmeq, ← hn']
      cases matched <;> rfl
  | _ => exact nomatch hfactor

theorem Value.mul_float_left {a m : α} {b : Value α} (hb : b.toFloat = some m) :
    Value.mul (.float a) b = some (.float (Numbers.mul a m)) := by
  cases b with
  | int _ | float _ =>
    cases hb
    rfl
  | _ => exact nomatch hb

theorem Value.mul_float_right {a m : α} {b : Value α} (hb : b.toFloat = some m) :
    Value.mul b (.float a) = some (.float (Numbers.mul a m)) := by
  cases b with
  | int _ | float _ =>
    cases hb
    exact congrArg (fun c => some (Value.float c)) (Numbers.mul_comm _ _)
  | _ => exact nomatch hb

/-! ## Trees that pass the check -/

/-- A run of a tree selects a tier, pays for it once, and returns its price times the factors. -/
structure Outcome (vm : Vm α Context) (env : Env Context) (tree : Node α) (es : List (Event α))
    (v : Value α) (leaf : Leaf α) (ms : List α) : Prop where
  selects : Selects vm env tree leaf ms
  value : v = .float (ms.foldl Numbers.mul leaf.value)
  nonnegative : ∀ m ∈ ms, isNonnegative m = true
  paysOnce : PaysOnce es leaf

theorem requestRuleNumber_of_valid {tree : Node α} (h : validateFixedPricingTree tree = .ok ()) :
    requestRuleNumber tree = none := by
  cases tree with
  | integer _ | float _ => exact nomatch h
  | _ => rfl

theorem patch_conditional_of_valid {ternary : Bool} {cond exp1 exp2 : Node α}
    (h : validateFixedPricingTree exp1 = .ok ()) : ((Node.conditional ternary cond exp1 exp2).patch rules).1 =
      .conditional ternary (cond.patch rules).1 (exp1.patch (cond.patch rules).2).1
        (exp2.patch (exp1.patch (cond.patch rules).2).2).1 := by
  rcases patchConditional_cases ternary (cond.patch rules).1 (exp1.patch (cond.patch rules).2).1
    (exp2.patch (exp1.patch (cond.patch rules).2).2).1
    (exp2.patch (exp1.patch (cond.patch rules).2).2).2 with h' | ⟨multiplier, _, hmultiplier, -⟩
  · exact h'
  · rw [requestRuleNumber_patch, requestRuleNumber_of_valid h] at hmultiplier
    exact nomatch hmultiplier

theorem Outcome.timesRight {a b : Value α} {leaf : Leaf α} {ms : List α} {m : α}
    (hleft : Outcome vm env left es₁ a leaf ms) (hm : MultiplierValue vm env right m) (hb : b.toFloat = some m)
    (hnonneg : isNonnegative m = true) (hes : Unpriced es₂) (hmul : Value.mul a b = some v) :
    Outcome vm env (.binary "*".toList left right) (es₁ ++ es₂) v leaf (ms ++ [m]) where
  selects := .timesRight hm hleft.selects
  value := by
    rw [hleft.value, Value.mul_float_left hb] at hmul
    rw [List.foldl_append]
    exact (Option.some.inj hmul).symm
  nonnegative := List.forall_mem_append.mpr ⟨hleft.nonnegative, by simpa using hnonneg⟩
  paysOnce := hleft.paysOnce.append_right hes

theorem Outcome.timesLeft {a b : Value α} {leaf : Leaf α} {ms : List α} {m : α}
    (hright : Outcome vm env right es₂ b leaf ms) (hm : MultiplierValue vm env left m) (ha : a.toFloat = some m)
    (hnonneg : isNonnegative m = true) (hes : Unpriced es₁) (hmul : Value.mul a b = some v) :
    Outcome vm env (.binary "*".toList left right) (es₁ ++ es₂) v leaf (ms ++ [m]) where
  selects := .timesLeft hm hright.selects
  value := by
    rw [hright.value, Value.mul_float_right ha] at hmul
    rw [List.foldl_append]
    exact (Option.some.inj hmul).symm
  nonnegative := List.forall_mem_append.mpr ⟨hright.nonnegative, by simpa using hnonneg⟩
  paysOnce := hright.paysOnce.append_left hes

theorem validateTierPrice_cases {price : Node α} (h : validateTierPrice price = .ok ()) :
    containsPricingMarker price = false ∨ ∃ argument amount, price = .call (.identifier "fixed".toList) [argument] ∧
        requestRuleNumber argument = some amount := by
  have htoken : validateTokenPrice price = .ok () → containsPricingMarker price = false := by
    intro h'
    by_contra hmarker
    rw [validateTokenPrice, if_pos (by simpa using hmarker)] at h'
    exact nomatch h'
  unfold validateTierPrice at h
  split at h
  case h_1 function argument =>
    by_cases hfixed : function = "fixed".toList
    · rw [if_pos hfixed] at h
      cases hamount : requestRuleNumber argument with
      | none =>
        rw [hamount] at h
        exact nomatch h
      | some amount => exact .inr ⟨argument, amount, by rw [hfixed], hamount⟩
    · rw [if_neg hfixed] at h
      exact .inl (htoken h)
  case h_2 => exact .inl (htoken h)

/-- A call of `tier`, with a fixed price or a price of tokens. -/
theorem outcome_tier {name price : Node α} (hname : containsPricingMarker name = false)
    (hsafe : name.envSafe = true) (hprice : validateTierPrice price = .ok ()) (hpriceSafe : price.envSafe = true)
    (hrun : vm.run env ((Node.call (.identifier "tier".toList) [name, price]).patch rules).1 = .ok (es, v)) :
    ∃ leaf, Outcome vm env (.call (.identifier "tier".toList) [name, price]) es v leaf [] := by
  obtain ⟨es₁, es₂, label, a, value, hlabel, hvalue, hfloat, rfl, rfl⟩ := vm.run_tier hrun
  have hunpriced := unpriced_of_run hname hsafe hlabel
  rcases validateTierPrice_cases hprice with hmarker | ⟨argument, amount, rfl, hamount⟩
  · have hpure := hunpriced.append (unpriced_of_run hmarker hpriceSafe hvalue)
    exact ⟨⟨label, value, none⟩, .token hmarker hlabel hvalue hfloat, rfl, List.forall_mem_nil _,
      .append_left hpure ⟨rfl, rfl⟩⟩
  · obtain ⟨es₃, b, amount', hargument, hb, rfl, rfl⟩ := vm.run_fixed hvalue
    rw [patch_of_requestRuleNumber hamount] at hargument
    obtain ⟨rfl, hb'⟩ := run_number hamount hargument
    have hsame : amount = amount' := Option.some.inj (hb'.symm.trans hb)
    subst hsame
    cases hfloat
    refine ⟨⟨label, Numbers.mul amount million, some amount⟩, .fixed hlabel hamount, rfl, List.forall_mem_nil _, ?_⟩
    rw [List.append_assoc]
    exact .append_left hunpriced ⟨rfl, rfl⟩

theorem outcome_of_valid (hcount : 0 ≤ env.imageCount) (tree : Node α) :
    validateFixedPricingTree tree = .ok () → tree.envSafe = true →
      ∀ (rules : List (RequestRuleTrace α)) (es : List (Event α)) (v : Value α),
        vm.run env (tree.patch rules).1 = .ok (es, v) → ∃ leaf ms, Outcome vm env tree es v leaf ms := by
  fun_induction validateFixedPricingTree tree with
  | case2 ternary cond exp1 exp2 hmarker ih1 ih2 =>
    intro hvalid hsafe rules es v hrun
    obtain ⟨u, h1, h2⟩ := ok_of_bind hvalid
    simp only [Node.envSafe, Bool.and_eq_true] at hsafe
    rw [patch_conditional_of_valid h1] at hrun
    obtain ⟨es₁, es₂, matched, hcond, hbranch, rfl⟩ := vm.run_conditional hrun
    have hunpriced := unpriced_of_run (by simpa using hmarker) hsafe.1.1 hcond
    cases matched with
    | true =>
      obtain ⟨leaf, ms, h⟩ := ih1 h1 hsafe.1.2 _ _ _ hbranch
      exact ⟨leaf, ms, .branch hcond h.selects, h.value, h.nonnegative, h.paysOnce.append_left hunpriced⟩
    | false =>
      obtain ⟨leaf, ms, h⟩ := ih2 h2 hsafe.2 _ _ _ hbranch
      exact ⟨leaf, ms, .branch hcond h.selects, h.value, h.nonnegative, h.paysOnce.append_left hunpriced⟩
  | case4 operator left right hop hfactor ih =>
    intro hvalid hsafe rules es v hrun
    obtain rfl : operator = "*".toList := not_not.mp hop
    simp only [Node.envSafe, Bool.and_eq_true] at hsafe
    obtain ⟨es₁, es₂, a, b, ha, hb, hmul, rfl⟩ := vm.run_mul hrun
    obtain ⟨m, hm, hfloat, hnonneg, hunpriced⟩ := run_multiplier hcount hfactor hsafe.2 hb
    obtain ⟨leaf, ms, h⟩ := ih hvalid hsafe.1 _ _ _ ha
    exact ⟨leaf, ms ++ [m], h.timesRight hm hfloat hnonneg hunpriced hmul⟩
  | case5 operator left right hop _ hfactor ih =>
    intro hvalid hsafe rules es v hrun
    obtain rfl : operator = "*".toList := not_not.mp hop
    simp only [Node.envSafe, Bool.and_eq_true] at hsafe
    obtain ⟨es₁, es₂, a, b, ha, hb, hmul, rfl⟩ := vm.run_mul hrun
    obtain ⟨m, hm, hfloat, hnonneg, hunpriced⟩ := run_multiplier hcount hfactor hsafe.1 ha
    obtain ⟨leaf, ms, h⟩ := ih hvalid hsafe.2 _ _ _ hb
    exact ⟨leaf, ms ++ [m], h.timesLeft hm hfloat hnonneg hunpriced hmul⟩
  | case8 callee name price hcallee =>
    intro hvalid hsafe rules es v hrun
    simp only [Bool.or_eq_true, decide_eq_true_eq, not_or, not_not] at hcallee
    obtain ⟨rfl, hmarker⟩ := hcallee
    simp only [Node.envSafe, allEnvSafe, Bool.and_eq_true] at hsafe
    obtain ⟨leaf, h⟩ := outcome_tier (by simpa using hmarker) hsafe.2.1 hvalid hsafe.2.2.1 hrun
    exact ⟨leaf, [], h⟩
  | case1 | case3 | case6 | case7 | case9 =>
    intro hvalid
    exact nomatch hvalid

/-! ## The trace -/

/-- What a run that returns leaves, for the program of a tree: one tier is selected, `tier` is called for it
and for no other, `fixed` at most for its price; the value is its value times the factors on the way, and
the trace names it. -/
def ChargedOnce (vm : Vm α Context) (tree : Node α) : Prop :=
  ∀ (usesImageCount : Bool) (requested : Option ℤ) (context : Context) (value : α) (trace : TraceResult α),
    runProgram vm (tree.patch []).1 (tree.patch []).2 usesImageCount requested context
        = .ok (value, trace) →
      ∃ imageCount es v leaf ms, imageCountOf usesImageCount requested = .ok imageCount ∧
        vm.run ⟨imageCount, context⟩ (tree.patch []).1 = .ok (es, v) ∧
        Selects vm ⟨imageCount, context⟩ tree leaf ms ∧
        tierCalls es = [(leaf.label, leaf.value)] ∧ fixedCalls es = leaf.fixedPrice.toList ∧
        value = ms.foldl Numbers.mul leaf.value ∧ (∀ m ∈ ms, isNonnegative m = true) ∧
        trace.matchedTier = leaf.label ∧ trace.cost = leaf.value ∧ trace.fixedPrice = leaf.fixedPrice ∧
        trace.billingUnit = if leaf.fixedPrice.isSome then .request else .token

theorem imageCountOf_nonneg {usesImageCount : Bool} {requested : Option ℤ} {imageCount : ℤ}
    (h : imageCountOf usesImageCount requested = .ok imageCount) : 0 ≤ imageCount := by
  unfold imageCountOf at h
  by_cases huses : usesImageCount = true
  · rw [if_pos huses] at h
    by_cases hrange : requested.getD 1 < 1 ∨ requested.getD 1 > maxImageN
    · exact nomatch (if_pos hrange).symm.trans h
    · have hcount := Except.ok.inj ((if_neg hrange).symm.trans h)
      omega
  · rw [if_neg huses] at h
    have hcount := Except.ok.inj h
    omega

/-- The check of fixed prices is sound for every expression that leaves the pricing functions to their
names: in every run one tier is charged, once. -/
theorem fixed_price_charged_once (vm : Vm α Context) (tree : Node α)
    (hvalid : validateFixedPricingTree tree = .ok ()) (hsafe : tree.envSafe = true) :
    ChargedOnce vm tree := by
  intro usesImageCount requested context value trace hrun
  obtain ⟨imageCount, hcount, hrun⟩ := ok_of_bind hrun
  cases hvm : vm.run ⟨imageCount, context⟩ (tree.patch []).1 with
  | error err =>
    simp only [hvm] at hrun
    exact nomatch hrun
  | ok out =>
    obtain ⟨es, v⟩ := out
    obtain ⟨leaf, ms, h⟩ : ∃ leaf ms, Outcome vm ⟨imageCount, context⟩ tree es v leaf ms :=
      outcome_of_valid (imageCountOf_nonneg hcount) tree hvalid hsafe [] es v hvm
    simp only [hvm, h.value, Value.toFloat] at hrun
    obtain ⟨rfl, rfl⟩ := Prod.mk.inj (Except.ok.inj hrun)
    obtain ⟨htier, hcost, hprice, hunit⟩ := foldl_record es
      { imageCount := if usesImageCount then some imageCount else none
        billingUnit := .token, fixedPrice := none, matchedTier := []
        requestRules := (tree.patch []).2, cost := (zero : α) }
    rw [h.paysOnce.1] at htier hcost
    rw [h.paysOnce.2] at hprice hunit
    refine ⟨imageCount, es, v, leaf, ms, hcount, hvm, h.selects, h.paysOnce.1, h.paysOnce.2, rfl,
      h.nonnegative, htier, hcost, ?_, ?_⟩
    · rw [hprice]
      cases leaf.fixedPrice <;> rfl
    · rw [hunit]
      cases leaf.fixedPrice <;> rfl

end

/-- `p > 9 ? tier("a", fixed(2)) : image_count * tier("b", p) * (header("tier") == "vip" ? 3 : 1)`. -/
def imageTiers : Node Exact :=
  .conditional true (.binary ['>'] (.identifier ['p']) (.integer 9))
    (.call (.identifier "tier".toList) [.string ['a'], .call (.identifier "fixed".toList) [.integer 2]])
    (.binary ['*']
      (.binary ['*'] (.identifier "image_count".toList)
        (.call (.identifier "tier".toList) [.string ['b'], .identifier ['p']]))
      (.conditional true
        (.binary "==".toList (.call (.identifier "header".toList) [.string "tier".toList])
          (.string "vip".toList))
        (.integer 3) (.integer 1)))

/-- Two images of five tokens for a request with the header cost 30. -/
theorem fixed_price_charged_once_images :
    validateFixedPricingTree imageTiers = .ok () ∧ imageTiers.envSafe = true ∧
      ((runProgram interpreter (imageTiers.patch []).1 (imageTiers.patch []).2 true (some 2)
        ⟨.finite 5, fun _ => "vip".toList⟩).map Prod.fst) = .ok (.finite 30) ∧
      ChargedOnce interpreter imageTiers :=
  ⟨by decide, by decide, by decide +kernel,
    fixed_price_charged_once interpreter imageTiers (by decide) (by decide)⟩

/-- `p > 9 ? tier("a", fixed(2)) : tier("b", $env.tier("c", p))`. -/
def hiddenTier : Node Exact :=
  .conditional true (.binary ['>'] (.identifier ['p']) (.integer 9))
    (.call (.identifier "tier".toList) [.string ['a'], .call (.identifier "fixed".toList) [.integer 2]])
    (.call (.identifier "tier".toList)
      [.string ['b'], .call (.member (.identifier "$env".toList) (.string "tier".toList))
        [.string ['c'], .identifier ['p']]])

theorem hidden_tier_charged_twice :
    usesFixedPricing hiddenTier = true ∧ validateFixedPricingTree hiddenTier = .ok () ∧
      ¬ChargedOnce interpreter hiddenTier := by
  refine ⟨by decide, by decide, fun h => ?_⟩
  have hvm : interpreter.run ⟨1, ⟨.finite 5, fun _ => []⟩⟩ (hiddenTier.patch []).1
      = .ok ([.tier ['c'] (.finite 5), .tier ['b'] (.finite 5)], .float (.finite 5)) := by decide
  obtain ⟨imageCount, es, v, leaf, ms, hcount, hrun, -, htier, -⟩ :=
    h false none ⟨.finite 5, fun _ => []⟩ (.finite 5) _ rfl
  obtain rfl : 1 = imageCount := Except.ok.inj hcount
  rw [hvm] at hrun
  obtain ⟨rfl, -⟩ := Prod.mk.inj (Except.ok.inj hrun)
  simp [tierCalls, Event.tier?] at htier

end Vancine.Expression.Server
