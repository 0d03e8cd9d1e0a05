import Vancine.Expression.ServerRun

/-!
# An interpreter for part of the language

The virtual machine on the part of its language that the prices here are written in: literals, `p`,
`image_count`, `header`, products and comparisons, conditionals, the pricing functions by their names or as
fields of `$env`, and the recording functions. Everything else is an error.
-/

namespace Vancine.Expression.Server

open Pricing (Text)

/-- The calls of a run are all of recording functions. -/
def RulesOnly {α : Type} (es : List (Event α)) : Prop := ∀ event ∈ es, ∃ index matched, event = .rule index matched

theorem RulesOnly.append {α : Type} {es es' : List (Event α)} (h : RulesOnly es) (h' : RulesOnly es') :
    RulesOnly (es ++ es') :=
  List.forall_mem_append.mpr ⟨h, h'⟩

theorem not_marker_of_call {α : Type} {name : Text} {args : List (Node α)}
    (h : containsPricingMarker (.call (.identifier name) args) = false) :
    name ∉ pricingMarkers ∧ findAny (isNamed pricingMarkers) args = false := by
  simp only [containsPricingMarker, Node.find, isNamed, Bool.or_eq_false_iff, decide_eq_false_iff_not] at h
  exact ⟨h.1.2, h.2⟩

/-- What a run depends on: the prompt tokens, and the headers of the request. -/
structure Request (α : Type) where
  p : α
  headers : Text → Text

section
variable {α : Type} [Numbers α]

def notSupported : Text := "not supported".toList

/-- An operator on two values. -/
def Value.binary (operator : Text) (a b : Value α) : Option (Value α) :=
  if operator = "*".toList then a.mul b
  else if operator = ">".toList then do
    let a ← a.toFloat
    let b ← b.toFloat
    return .bool (Numbers.lt b a)
  else if operator = "==".toList then
    match a, b with
    | .string a, .string b => some (.bool (a = b))
    | _, _ => none
  else none

/-- A function of one argument, after the calls that its argument made. -/
def callOne (env : Env (Request α)) (name : Text) (es : List (Event α)) (a : Value α) :
    Except Text (List (Event α) × Value α) :=
  if name = "fixed".toList then
    match a.toFloat with
    | some amount => .ok (es ++ [.fixed amount], .float (Numbers.mul amount million))
    | none => .error notSupported
  else if name = "header".toList then
    match a with
    | .string key => .ok (es, .string (env.context.headers key))
    | _ => .error notSupported
  else .error notSupported

/-- A function of two arguments. -/
def callTwo (name : Text) (es : List (Event α)) (a b : Value α) :
    Except Text (List (Event α) × Value α) :=
  if name = "tier".toList then
    match a, b.toFloat with
    | .string label, some value => .ok (es ++ [.tier label value], .float value)
    | _, _ => .error notSupported
  else .error notSupported

/-- The recording functions. -/
def callThree (name : Text) (es : List (Event α)) (a b c : Value α) :
    Except Text (List (Event α) × Value α) :=
  if name = "_trace".toList then
    match a, b, c with
    | .int index, .bool matched, .float multiplier =>
      .ok (es ++ [.rule index matched], .float (if matched then multiplier else one))
    | _, _, _ => .error notSupported
  else if name = "_trace_int".toList then
    match a, b, c with
    | .int index, .bool matched, .int multiplier =>
      .ok (es ++ [.rule index matched], .int (if matched then multiplier else 1))
    | _, _, _ => .error notSupported
  else .error notSupported

def evalNode (env : Env (Request α)) : Node α → Except Text (List (Event α) × Value α)
  | .nil => .ok ([], .nil)
  | .integer value => .ok ([], .int value)
  | .float value => .ok ([], .float value)
  | .bool value => .ok ([], .bool value)
  | .string value => .ok ([], .string value)
  | .identifier value =>
    if value = "image_count".toList then .ok ([], .float (ofInt env.imageCount))
    else if value = "p".toList then .ok ([], .float env.context.p)
    else .error notSupported
  | .binary operator left right => do
    let (es₁, a) ← evalNode env left
    let (es₂, b) ← evalNode env right
    match Value.binary operator a b with
    | some v => .ok (es₁ ++ es₂, v)
    | none => .error notSupported
  | .conditional _ cond exp1 exp2 => do
    let (es₁, a) ← evalNode env cond
    match a with
    | .bool true =>
      let (es₂, v) ← evalNode env exp1
      return (es₁ ++ es₂, v)
    | .bool false =>
      let (es₂, v) ← evalNode env exp2
      return (es₁ ++ es₂, v)
    | _ => .error notSupported
  | .call (.identifier name) [arg] => do
    let (es, a) ← evalNode env arg
    callOne env name es a
  | .call (.identifier name) [arg₁, arg₂] => do
    let (es₁, a) ← evalNode env arg₁
    let (es₂, b) ← evalNode env arg₂
    callTwo name (es₁ ++ es₂) a b
  | .call (.identifier name) [arg₁, arg₂, arg₃] => do
    let (es₁, a) ← evalNode env arg₁
    let (es₂, b) ← evalNode env arg₂
    let (es₃, c) ← evalNode env arg₃
    callThree name (es₁ ++ es₂ ++ es₃) a b c
  | .call (.member (.identifier value) (.string name)) [arg₁, arg₂] =>
    if value = "$env".toList then do
      let (es₁, a) ← evalNode env arg₁
      let (es₂, b) ← evalNode env arg₂
      callTwo name (es₁ ++ es₂) a b
    else .error notSupported
  | _ => .error notSupported

/-! ## It is a machine -/

variable {env : Env (Request α)} {es : List (Event α)} {v : Value α}

variable {name : Text} {es' : List (Event α)}

theorem callOne_unmarked {a : Value α} (h : callOne env name es a = .ok (es', v)) (hname : name ∉ pricingMarkers) :
    es' = es := by
  unfold callOne at h
  rw [if_neg (fun heq => hname (by rw [heq]; decide))] at h
  by_cases hheader : name = "header".toList
  · rw [if_pos hheader] at h
    split at h
    · exact ((Prod.mk.inj (Except.ok.inj h)).1).symm
    · exact nomatch h
  · rw [if_neg hheader] at h
    exact nomatch h

theorem callTwo_unmarked {a b : Value α} (h : callTwo name es a b = .ok (es', v)) (hname : name ∉ pricingMarkers) :
    es' = es := by
  unfold callTwo at h
  rw [if_neg (fun heq => hname (by rw [heq]; decide))] at h
  exact nomatch h

theorem callThree_rulesOnly {a b c : Value α} (h : callThree name es a b c = .ok (es', v)) (hes : RulesOnly es) :
    RulesOnly es' := by
  have hrule : ∀ index matched, RulesOnly [(.rule index matched : Event α)] :=
    fun index matched => List.forall_mem_singleton.mpr ⟨index, matched, rfl⟩
  unfold callThree at h
  by_cases htrace : name = "_trace".toList
  · rw [if_pos htrace] at h
    split at h
    · obtain ⟨rfl, -⟩ := Prod.mk.inj (Except.ok.inj h)
      exact hes.append (hrule _ _)
    · exact nomatch h
  · rw [if_neg htrace] at h
    by_cases htraceInt : name = "_trace_int".toList
    · rw [if_pos htraceInt] at h
      split at h
      · obtain ⟨rfl, -⟩ := Prod.mk.inj (Except.ok.inj h)
        exact hes.append (hrule _ _)
      · exact nomatch h
    · rw [if_neg htraceInt] at h
      exact nomatch h

theorem evalNode_binary {operator : Text} {left right : Node α}
    (h : evalNode env (.binary operator left right) = .ok (es, v)) :
    ∃ es₁ es₂ a b, evalNode env left = .ok (es₁, a) ∧ evalNode env right = .ok (es₂, b) ∧
      Value.binary operator a b = some v ∧ es = es₁ ++ es₂ := by
  obtain ⟨⟨es₁, a⟩, hleft, h⟩ := ok_of_bind h
  obtain ⟨⟨es₂, b⟩, hright, h⟩ := ok_of_bind h
  refine ⟨es₁, es₂, a, b, hleft, hright, ?_⟩
  dsimp only at h
  cases hvalue : Value.binary operator a b with
  | none => simp only [hvalue] at h; exact nomatch h
  | some v' =>
    simp only [hvalue] at h
    obtain ⟨rfl, rfl⟩ := Prod.mk.inj (Except.ok.inj h)
    exact ⟨rfl, rfl⟩

theorem evalNode_conditional {ternary : Bool} {cond exp1 exp2 : Node α}
    (h : evalNode env (.conditional ternary cond exp1 exp2) = .ok (es, v)) :
    ∃ es₁ es₂ matched, evalNode env cond = .ok (es₁, .bool matched) ∧
      evalNode env (if matched then exp1 else exp2) = .ok (es₂, v) ∧ es = es₁ ++ es₂ := by
  obtain ⟨⟨es₁, a⟩, hcond, h⟩ := ok_of_bind h
  dsimp only at h
  split at h
  case h_1 =>
    obtain ⟨⟨es₂, v'⟩, hbranch, h⟩ := ok_of_bind h
    obtain ⟨rfl, rfl⟩ := Prod.mk.inj (Except.ok.inj h)
    exact ⟨es₁, es₂, true, hcond, hbranch, rfl⟩
  case h_2 =>
    obtain ⟨⟨es₂, v'⟩, hbranch, h⟩ := ok_of_bind h
    obtain ⟨rfl, rfl⟩ := Prod.mk.inj (Except.ok.inj h)
    exact ⟨es₁, es₂, false, hcond, hbranch, rfl⟩
  case h_3 => exact nomatch h

theorem evalNode_one {arg : Node α} (h : evalNode env (.call (.identifier name) [arg]) = .ok (es, v)) :
    ∃ es₁ a, evalNode env arg = .ok (es₁, a) ∧ callOne env name es₁ a = .ok (es, v) := by
  obtain ⟨⟨es₁, a⟩, harg, h⟩ := ok_of_bind h
  exact ⟨es₁, a, harg, h⟩

theorem evalNode_two {arg₁ arg₂ : Node α} (h : evalNode env (.call (.identifier name) [arg₁, arg₂]) = .ok (es, v)) :
    ∃ es₁ es₂ a b, evalNode env arg₁ = .ok (es₁, a) ∧ evalNode env arg₂ = .ok (es₂, b) ∧
      callTwo name (es₁ ++ es₂) a b = .ok (es, v) := by
  obtain ⟨⟨es₁, a⟩, h₁, h⟩ := ok_of_bind h
  obtain ⟨⟨es₂, b⟩, h₂, h⟩ := ok_of_bind h
  exact ⟨es₁, es₂, a, b, h₁, h₂, h⟩

theorem evalNode_three {arg₁ arg₂ arg₃ : Node α}
    (h : evalNode env (.call (.identifier name) [arg₁, arg₂, arg₃]) = .ok (es, v)) :
    ∃ es₁ es₂ es₃ a b c, evalNode env arg₁ = .ok (es₁, a) ∧ evalNode env arg₂ = .ok (es₂, b) ∧
      evalNode env arg₃ = .ok (es₃, c) ∧ callThree name (es₁ ++ es₂ ++ es₃) a b c = .ok (es, v) := by
  obtain ⟨⟨es₁, a⟩, h₁, h⟩ := ok_of_bind h
  obtain ⟨⟨es₂, b⟩, h₂, h⟩ := ok_of_bind h
  obtain ⟨⟨es₃, c⟩, h₃, h⟩ := ok_of_bind h
  exact ⟨es₁, es₂, es₃, a, b, c, h₁, h₂, h₃, h⟩

/-- Without the names of the pricing functions, nothing but rules is recorded. -/
theorem evalNode_unmarked (node : Node α) : ∀ {es : List (Event α)} {v : Value α},
    evalNode env node = .ok (es, v) → containsPricingMarker node = false → node.envSafe = true → RulesOnly es := by
  have hnil : RulesOnly ([] : List (Event α)) := List.forall_mem_nil _
  fun_induction evalNode env node with
  | case1 | case2 | case3 | case4 | case5 | case6 | case7 =>
    intro es v h _ _
    obtain ⟨rfl, -⟩ := Prod.mk.inj (Except.ok.inj h)
    exact hnil
  | case8 | case15 | case16 =>
    intro es v h
    exact nomatch h
  | case9 operator left right ihl ihr =>
    intro es v h hmarker hsafe
    replace h : evalNode env (.binary operator left right) = .ok (es, v) := h
    simp only [containsPricingMarker, Node.find, isNamed, Bool.or_eq_false_iff] at hmarker
    simp only [Node.envSafe, Bool.and_eq_true] at hsafe
    obtain ⟨es₁, es₂, a, b, hleft, hright, -, rfl⟩ := evalNode_binary h
    exact (ihl hleft hmarker.1.2 hsafe.1).append (ihr hright hmarker.2 hsafe.2)
  | case10 ternary cond exp1 exp2 ihc ih1 ih2 =>
    intro es v h hmarker hsafe
    replace h : evalNode env (.conditional ternary cond exp1 exp2) = .ok (es, v) := h
    simp only [containsPricingMarker, Node.find, isNamed, Bool.or_eq_false_iff] at hmarker
    simp only [Node.envSafe, Bool.and_eq_true] at hsafe
    obtain ⟨es₁, es₂, matched, hcond, hbranch, rfl⟩ := evalNode_conditional h
    refine (ihc hcond hmarker.1.1.2 hsafe.1.1).append ?_
    cases matched with
    | true => exact ih1 hbranch hmarker.1.2 hsafe.1.2
    | false => exact ih2 hbranch hmarker.2 hsafe.2
  | case11 name arg ih =>
    intro es v h hmarker hsafe
    obtain ⟨hname, harg⟩ := not_marker_of_call hmarker
    simp only [findAny, Bool.or_eq_false_iff] at harg
    simp only [Node.envSafe, allEnvSafe, Bool.and_eq_true] at hsafe
    obtain ⟨⟨es₁, a⟩, ha, h⟩ := ok_of_bind h
    rw [callOne_unmarked h hname]
    exact ih ha harg.1 hsafe.2.1
  | case12 name arg₁ arg₂ ih₁ ih₂ =>
    intro es v h hmarker hsafe
    obtain ⟨hname, hargs⟩ := not_marker_of_call hmarker
    simp only [findAny, Bool.or_eq_false_iff] at hargs
    simp only [Node.envSafe, allEnvSafe, Bool.and_eq_true] at hsafe
    obtain ⟨⟨es₁, a⟩, ha, h⟩ := ok_of_bind h
    obtain ⟨⟨es₂, b⟩, hb, h⟩ := ok_of_bind h
    rw [callTwo_unmarked h hname]
    exact (ih₁ ha hargs.1 hsafe.2.1).append (ih₂ hb hargs.2.1 hsafe.2.2.1)
  | case13 name arg₁ arg₂ arg₃ ih₁ ih₂ ih₃ =>
    intro es v h hmarker hsafe
    obtain ⟨-, hargs⟩ := not_marker_of_call hmarker
    simp only [findAny, Bool.or_eq_false_iff] at hargs
    simp only [Node.envSafe, allEnvSafe, Bool.and_eq_true] at hsafe
    obtain ⟨⟨es₁, a⟩, ha, h⟩ := ok_of_bind h
    obtain ⟨⟨es₂, b⟩, hb, h⟩ := ok_of_bind h
    obtain ⟨⟨es₃, c⟩, hc, h⟩ := ok_of_bind h
    exact callThree_rulesOnly h (((ih₁ ha hargs.1 hsafe.2.1).append (ih₂ hb hargs.2.1 hsafe.2.2.1)).append
      (ih₃ hc hargs.2.2.1 hsafe.2.2.2.1))
  | case14 name arg₁ arg₂ ih₁ ih₂ =>
    -- A field of `$env`: not one of the pricing functions.
    intro es v h hmarker hsafe
    simp only [containsPricingMarker, Node.find, findAny, isNamed, Bool.or_eq_false_iff] at hmarker
    simp only [Node.envSafe, allEnvSafe, isEnvField, Bool.and_eq_true, Bool.or_eq_true,
      decide_eq_true_eq, ne_eq, not_true_eq_false, false_and, or_false, true_and] at hsafe
    obtain ⟨⟨es₁, a⟩, ha, h⟩ := ok_of_bind h
    obtain ⟨⟨es₂, b⟩, hb, h⟩ := ok_of_bind h
    rw [callTwo_unmarked h hsafe.1]
    exact (ih₁ ha hmarker.2.1 hsafe.2.1).append (ih₂ hb hmarker.2.2.1 hsafe.2.2.1)

/-- The interpreter as a machine. -/
def interpreter : Vm α (Request α) where
  run := evalNode
  run_integer h := by
    obtain ⟨rfl, rfl⟩ := Prod.mk.inj (Except.ok.inj h)
    exact ⟨rfl, rfl⟩
  run_float h := by
    obtain ⟨rfl, rfl⟩ := Prod.mk.inj (Except.ok.inj h)
    exact ⟨rfl, rfl⟩
  run_imageCount h := by
    obtain ⟨rfl, rfl⟩ := Prod.mk.inj (Except.ok.inj h)
    exact ⟨rfl, rfl⟩
  run_conditional h := evalNode_conditional h
  run_mul h := evalNode_binary h
  run_tier h := by
    obtain ⟨es₁, es₂, a, b, h₁, h₂, h⟩ := evalNode_two h
    unfold callTwo at h
    rw [if_pos rfl] at h
    split at h
    · rename_i label value hvalue
      obtain ⟨rfl, rfl⟩ := Prod.mk.inj (Except.ok.inj h)
      exact ⟨es₁, es₂, label, b, value, h₁, h₂, hvalue, rfl, rfl⟩
    · exact nomatch h
  run_fixed h := by
    obtain ⟨es₁, a, harg, h⟩ := evalNode_one h
    unfold callOne at h
    rw [if_pos rfl] at h
    cases hamount : a.toFloat with
    | none => simp only [hamount] at h; exact nomatch h
    | some amount =>
      simp only [hamount] at h
      obtain ⟨rfl, rfl⟩ := Prod.mk.inj (Except.ok.inj h)
      exact ⟨es₁, a, amount, harg, hamount, rfl, rfl⟩
  run_trace h := by
    obtain ⟨es₁, es₂, es₃, a, b, c, h₁, h₂, h₃, h⟩ := evalNode_three h
    obtain ⟨rfl, rfl⟩ := Prod.mk.inj (Except.ok.inj h₁)
    obtain ⟨rfl, rfl⟩ := Prod.mk.inj (Except.ok.inj h₃)
    unfold callThree at h
    rw [if_pos rfl] at h
    cases b with
    | bool matched =>
      obtain ⟨rfl, rfl⟩ := Prod.mk.inj (Except.ok.inj h)
      exact ⟨es₂, matched, h₂, rfl, by simp⟩
    | _ => exact nomatch h
  run_traceInt h := by
    obtain ⟨es₁, es₂, es₃, a, b, c, h₁, h₂, h₃, h⟩ := evalNode_three h
    obtain ⟨rfl, rfl⟩ := Prod.mk.inj (Except.ok.inj h₁)
    obtain ⟨rfl, rfl⟩ := Prod.mk.inj (Except.ok.inj h₃)
    unfold callThree at h
    rw [if_neg (by decide), if_pos rfl] at h
    cases b with
    | bool matched =>
      obtain ⟨rfl, rfl⟩ := Prod.mk.inj (Except.ok.inj h)
      exact ⟨es₂, matched, h₂, rfl, by simp⟩
    | _ => exact nomatch h
  run_unmarked h hmarker hsafe := evalNode_unmarked _ h hmarker hsafe

end

end Vancine.Expression.Server
