import Vancine.Pricing.ConditionParts

/-!
# The text of a rule group

The conditions of a group are joined by `&&`. Next to others, a condition whose text holds ` || ` is put in
parentheses, so what a group is cut into depends on where such a disjunction can stand: in a time zone, a
path or a value, or between the bounds of a range over midnight.
-/

namespace Vancine.Pricing

open Lib

/-! ## Looking for a disjunction -/

section Infix

variable {α : Type*} {p x y : List α} {c : α}

theorem infix_sep (hc : c ∉ p) : p <:+: x ++ c :: y ↔ p <:+: x ∨ p <:+: y := by
  constructor
  · intro h
    induction x with
    | nil =>
      rcases List.infix_cons_iff.mp h with hpre | hin
      · left
        cases p with
        | nil => exact List.nil_infix
        | cons d p =>
          rw [(List.cons_prefix_cons.mp hpre).1] at hc
          exact absurd List.mem_cons_self hc
      · exact .inr hin
    | cons d x ih =>
      rcases List.infix_cons_iff.mp h with hpre | hin
      · left
        have hwhole : d :: x ++ [c] <+: d :: (x ++ c :: y) := ⟨y, by simp⟩
        rcases List.prefix_or_prefix_of_prefix hpre hwhole with hp | hp
        · rcases List.prefix_concat_iff.mp hp with rfl | hp
          · exact absurd (List.mem_append_right _ List.mem_cons_self) hc
          · exact hp.isInfix
        · exact absurd (hp.subset (List.mem_append_right _ List.mem_cons_self)) hc
      · exact (ih hin).imp_left fun hx => hx.trans (List.suffix_cons d x).isInfix
  · rintro (h | h)
    · exact h.trans (List.prefix_append x _).isInfix
    · exact h.trans ((List.suffix_cons c y).isInfix.trans (List.suffix_append x _).isInfix)

end Infix

theorem includes_sep {x y : Text} (c : Char) (hc : c ∉ " || ".toList) :
    includes (x ++ c :: y) " || ".toList = (includes x " || ".toList || includes y " || ".toList) := by
  unfold includes
  rw [← Bool.decide_or]
  exact decide_eq_decide.mpr (infix_sep hc)

theorem includes_bar {w : Text} (h : '|' ∉ w) : includes w " || ".toList = false := by
  refine decide_eq_false ?_
  intro hin
  exact h (hin.subset (by decide))

theorem escapeChar_bar {c : Char} (hc : isPlain c = false) : ∀ d ∈ escapeChar c, d ∉ " || ".toList := by
  have hall (w : Text) (hw : (w.all fun d => d ∉ " || ".toList) = true) : ∀ d ∈ w, d ∉ " || ".toList :=
    fun d hd => of_decide_eq_true (List.all_eq_true.mp hw d hd)
  refine escapeChar_rec (P := fun c text => isPlain c = false → ∀ d ∈ text, d ∉ " || ".toList)
    ?_ ?_ ?_ ?_ ?_ ?_ ?_ ?_ ?_ c hc
  any_goals (intro _; apply hall; decide)
  · intro c hlow _
    have hhex : ∀ n < 16, hexDigit n ∉ " || ".toList := by decide
    intro d hd
    simp only [List.mem_cons, List.not_mem_nil, or_false] at hd
    rcases hd with rfl | rfl | rfl | rfl | rfl | rfl
    any_goals decide
    · exact hhex _ (by omega)
    · exact hhex _ (by omega)
  · exact fun c hplain hnot => absurd hplain (by rw [hnot]; exact Bool.false_ne_true)

theorem includes_drop {w y : Text} (hw : ∀ d ∈ w, d ∉ " || ".toList) :
    includes (w ++ y) " || ".toList = includes y " || ".toList := by
  induction w with
  | nil => rfl
  | cons d w ih =>
    rw [List.forall_mem_cons] at hw
    have hsep := includes_sep (x := []) (y := w ++ y) d hw.1
    have hnil : includes [] " || ".toList = false := by decide
    rw [hnil, Bool.false_or] at hsep
    exact hsep.trans (ih hw.2)

theorem prefix_escape {q : Text} (hq : ∀ d ∈ q, d ∈ " || ".toList) (t : Text) : q <+: escape t ↔ q <+: t := by
  induction q generalizing t with
  | nil => exact iff_of_true List.nil_prefix List.nil_prefix
  | cons d q ih =>
    rw [List.forall_mem_cons] at hq
    cases t with
    | nil => rfl
    | cons c t =>
      show d :: q <+: escapeChar c ++ escape t ↔ _
      rcases escapeChar_cases c with ⟨hc, h⟩ | ⟨hc, e, w, h, -⟩
      · rw [h, List.singleton_append, List.cons_prefix_cons, List.cons_prefix_cons, ih hq.2]
      · rw [h, List.cons_append, List.cons_prefix_cons, List.cons_prefix_cons]
        have hslash : d ≠ '\\' := by
          rintro rfl
          exact absurd hq.1 (by decide)
        have hplain : d ≠ c := by
          rintro rfl
          have hall : ∀ d ∈ " || ".toList, isPlain d = true := List.all_eq_true.mp (by decide)
          rw [hall d hq.1] at hc
          cases hc
        exact iff_of_false (fun hp => hslash hp.1) (fun hp => hplain hp.1)

theorem includes_escape (t : Text) : includes (escape t) " || ".toList = includes t " || ".toList := by
  induction t with
  | nil => rfl
  | cons c t ih =>
    show includes (escapeChar c ++ escape t) " || ".toList = _
    rcases escapeChar_cases c with ⟨hc, h⟩ | ⟨hc, -⟩
    · have hpre := prefix_escape (q := " || ".toList) (fun _ h => h) (c :: t)
      have hescape : escape (c :: t) = c :: escape t := by
        show escapeChar c ++ escape t = _
        rw [h]
        rfl
      rw [h, List.singleton_append]
      rw [hescape] at hpre
      unfold includes at ih ⊢
      have ih' := decide_eq_decide.mp ih
      refine decide_eq_decide.mpr ?_
      rw [List.infix_cons_iff, List.infix_cons_iff, hpre, ih']
    · rw [includes_drop (escapeChar_bar hc), ih]
      have hmem : c ∉ " || ".toList := by
        intro hin
        have hall : ∀ d ∈ " || ".toList, isPlain d = true := List.all_eq_true.mp (by decide)
        rw [hall c hin] at hc
        cases hc
      have hdrop : ∀ d ∈ [c], d ∉ " || ".toList := fun d hd => List.mem_singleton.mp hd ▸ hmem
      exact (includes_drop hdrop).symm

theorem includes_call {name : Text} (hname : '|' ∉ name) (a rest : Text) :
    includes (name ++ (quotedArg a ++ rest)) " || ".toList =
      (includes a " || ".toList || includes (')' :: rest) " || ".toList) := by
  have happ : name ++ (quotedArg a ++ rest) = (name ++ ['(']) ++ '"' :: (a ++ '"' :: (')' :: rest)) := by
    simp [quotedArg]
  have hhead : includes (name ++ ['(']) " || ".toList = false := by
    refine includes_bar ?_
    simp [hname]
  rw [happ, includes_sep '"' (by decide), includes_sep '"' (by decide), hhead, Bool.false_or]

theorem bar_notMem_name (f : TimeFunc) : '|' ∉ f.name := by
  cases f <;> decide

theorem bar_notMem_source (source : Source) : '|' ∉ source.name := by
  cases source <;> decide

theorem bar_notMem_number {v : Text} (hv : IsNumber v) : '|' ∉ v := by
  intro h
  have hbar := hv.chars '|' h
  revert hbar
  decide

theorem includes_boundText (f : TimeFunc) (a : Text) (mode : MatchMode) {v : Text} (hv : IsNumber v) :
    includes (boundText f a mode v) " || ".toList = includes a " || ".toList := by
  have htail : includes (')' :: (timeOperator mode ++ v)) " || ".toList = false := by
    refine includes_bar ?_
    have hop : '|' ∉ timeOperator mode := by
      cases mode <;> decide
    simp [hop, bar_notMem_number hv]
  unfold boundText
  rw [includes_call (bar_notMem_name f), htail, Bool.or_false]

theorem includes_eqText (source : Source) (a value : Text) :
    includes (source.name ++ (quotedArg a ++ (" == ".toList ++ buildExprLiteral .eq value)))
      " || ".toList = (includes a " || ".toList || includes (trim value) " || ".toList) := by
  have htail : includes (')' :: (" == ".toList ++ buildExprLiteral .eq value)) " || ".toList =
      includes (trim value) " || ".toList := by
    unfold buildExprLiteral
    dsimp only
    rw [if_neg (by decide)]
    split_ifs with hbool hnum
    · rcases hbool with h | h <;> rw [h] <;> decide
    · have hv := bar_notMem_number (isNumber_of_isNumeric hnum)
      rw [includes_bar hv]
      exact includes_bar (by simp [hv])
    · have happ : ')' :: (" == ".toList ++ stringify (trim value)) =
          ") == ".toList ++ '"' :: (escape (trim value) ++ '"' :: []) := by
        simp [stringify]
      have hhead : includes ") == ".toList " || ".toList = false := by decide
      have hnil : includes [] " || ".toList = false := by decide
      rw [happ, includes_sep '"' (by decide), includes_sep '"' (by decide), hhead, hnil,
        includes_escape, Bool.false_or, Bool.or_false]
  rw [includes_call (bar_notMem_source source), htail]

theorem includes_hasText (source : Source) (a v : Text) : includes (hasText source a v) " || ".toList =
      (includes a " || ".toList || includes v " || ".toList) := by
  have happ : hasText source a v = ("has(".toList ++ source.name) ++ (quotedArg a ++
      (", ".toList ++ (stringify v ++ [')']))) := by
    simp [hasText]
  have hname : '|' ∉ "has(".toList ++ source.name := by
    cases source <;> decide
  have htail : includes (')' :: (", ".toList ++ (stringify v ++ [')']))) " || ".toList =
      includes v " || ".toList := by
    have happ' : ')' :: (", ".toList ++ (stringify v ++ [')'])) =
        "), ".toList ++ '"' :: (escape v ++ '"' :: [')']) := by
      simp [stringify]
    have hhead : includes "), ".toList " || ".toList = false := by decide
    have hlast : includes [')'] " || ".toList = false := by decide
    rw [happ', includes_sep '"' (by decide), includes_sep '"' (by decide), hhead, hlast,
      includes_escape, Bool.false_or, Bool.or_false]
  rw [happ, includes_call hname, htail]

/-! ## The parts of a group -/

/-- The parts of a condition, alone or next to others. -/
def RequestCondition.textParts (alone : Bool) (cond : RequestCondition) : List Text :=
  if alone = false ∧ includes (buildRequestConditionExpr cond) " || ".toList = true then
    ['(' :: (buildRequestConditionExpr cond ++ [')'])]
  else cond.parts

theorem RequestCondition.parts_ne_nil (cond : RequestCondition) : cond.parts ≠ [] := by
  cases cond with
  | time cond =>
    show cond.parts ≠ []
    unfold TimeCondition.parts
    dsimp only
    split_ifs <;> exact List.cons_ne_nil _ _
  | paramHeader cond =>
    show cond.parts ≠ []
    unfold ParamHeaderCondition.parts
    dsimp only
    split
    · split <;> exact List.cons_ne_nil _ _
    · split <;> exact List.cons_ne_nil _ _
    · split <;> exact List.cons_ne_nil _ _

theorem RequestCondition.textParts_ne_nil (alone : Bool) (cond : RequestCondition) : cond.textParts alone ≠ [] := by
  unfold RequestCondition.textParts
  split_ifs
  · exact List.cons_ne_nil _ _
  · exact cond.parts_ne_nil

theorem intercalate_append {α : Type*} (sep : List α) {xs ys : List (List α)} (hxs : xs ≠ []) (hys : ys ≠ []) :
    sep.intercalate (xs ++ ys) = sep.intercalate xs ++ (sep ++ sep.intercalate ys) := by
  induction xs with
  | nil => exact absurd rfl hxs
  | cons x xs ih =>
    cases xs with
    | nil =>
      rw [List.singleton_append, List.intercalate_cons_of_ne_nil hys, List.intercalate_singleton, List.append_assoc]
    | cons x' xs =>
      rw [List.cons_append, List.cons_append, List.intercalate_cons_cons, List.intercalate_cons_cons,
        ← List.cons_append, ih (List.cons_ne_nil _ _)]
      simp only [List.append_assoc]

theorem intercalate_flatMap {α β : Type*} (sep : List α) (g : β → List (List α)) (hg : ∀ b, g b ≠ [])
    (l : List β) : sep.intercalate (l.map fun b => sep.intercalate (g b)) = sep.intercalate (l.flatMap g) := by
  induction l with
  | nil => rfl
  | cons b l ih =>
    cases l with
    | nil => simp
    | cons b' l =>
      have hne : (b' :: l).flatMap g ≠ [] := by
        rw [List.flatMap_cons]
        exact List.append_ne_nil_of_left_ne_nil (hg b') _
      rw [List.flatMap_cons, intercalate_append sep (hg b) hne, ← ih, List.map_cons, List.map_cons,
        List.intercalate_cons_cons, List.append_assoc]

variable {cond : RequestCondition}

theorem RequestCondition.wrapOr_eq (h : cond.complete = true) :
    wrapOr (buildRequestConditionExpr cond) = " && ".toList.intercalate (cond.textParts false) := by
  unfold wrapOr RequestCondition.textParts
  by_cases hin : includes (buildRequestConditionExpr cond) " || ".toList = true
  · rw [if_pos hin, if_pos ⟨rfl, hin⟩, List.intercalate_singleton]
  · rw [if_neg hin, if_neg fun hand => hin hand.2]
    exact RequestCondition.build_eq h

/-- The text of a group is the join of the parts of its conditions. -/
theorem combineConditions_eq {conds : List RequestCondition} (h : ∀ cond ∈ conds, cond.complete = true) :
    combineConditions (conds.map buildRequestConditionExpr) =
      " && ".toList.intercalate (conds.flatMap (RequestCondition.textParts (conds.length = 1))) := by
  have hmulti (h' : ¬conds.length = 1) : " && ".toList.intercalate ((conds.map buildRequestConditionExpr).map wrapOr) =
      " && ".toList.intercalate (conds.flatMap (RequestCondition.textParts (conds.length = 1))) := by
    rw [decide_eq_false h', ← intercalate_flatMap _ _ (RequestCondition.textParts_ne_nil false), List.map_map]
    congr 1
    refine List.map_congr_left ?_
    intro cond hcond
    exact RequestCondition.wrapOr_eq (h cond hcond)
  cases conds with
  | nil => exact hmulti (by decide)
  | cons cond conds =>
    cases conds with
    | nil =>
      have hbuild := RequestCondition.build_eq (h cond List.mem_cons_self)
      simpa [combineConditions, RequestCondition.textParts] using hbuild
    | cons next conds => exact hmulti (by simp)

theorem balanced_intercalate {texts : List Text} (h : ∀ text ∈ texts, Part text) :
    Balanced false (" && ".toList.intercalate texts) := by
  induction texts with
  | nil => exact .nil
  | cons text texts ih =>
    rw [List.forall_mem_cons] at h
    cases texts with
    | nil =>
      rw [List.intercalate_singleton]
      exact h.1.balanced.inside
    | cons next texts =>
      rw [List.intercalate_cons_cons]
      have hand : Balanced false " && ".toList := .of_all (by decide)
      exact (h.1.balanced.inside.append hand).append (ih h.2)

theorem RequestCondition.textPart (alone : Bool) (h : cond.complete = true) :
    ∀ text ∈ cond.textParts alone, Part text := by
  unfold RequestCondition.textParts
  split_ifs
  · intro text htext
    rw [List.mem_singleton.mp htext]
    refine ⟨?_, ?_, List.cons_ne_nil _ _⟩
    · rw [RequestCondition.build_eq h]
      exact (balanced_intercalate (RequestCondition.part h)).wrap true
    · have happ : '(' :: (buildRequestConditionExpr cond ++ [')']) =
          ('(' :: buildRequestConditionExpr cond) ++ [')'] := rfl
      rw [happ]
      exact tight_append (List.cons_ne_nil _ _) (stops_cons.mpr (by decide)) (List.cons_ne_nil _ _)
        (stops_cons.mpr (by decide))
  · exact RequestCondition.part h

end Vancine.Pricing
