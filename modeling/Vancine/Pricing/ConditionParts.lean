import Vancine.Pricing.ConditionTexts

/-!
# The parts of a rule group's condition

A condition is written as one or two parts joined by `&&`: a range within a day as its two bounds, and a
parameter that is searched or compared with a test for its presence first. The text of a group is the join
of all parts, so `splitExpressionAtTopLevel` gives these parts back.
-/

namespace Vancine.Pricing

open Lib

/-! ## Complete groups -/

/-- What the editor asks for is filled in: bounds in range. -/
def TimeCondition.complete (cond : TimeCondition) : Bool :=
  if cond.mode = .range then
    isTimeValueInRange cond.timeFunc (trim cond.rangeStart) &&
      isTimeValueInRange cond.timeFunc (trim cond.rangeEnd)
  else isTimeValueInRange cond.timeFunc (trim cond.value)

/-- A path, and a number to compare with. -/
def ParamHeaderCondition.complete (cond : ParamHeaderCondition) : Bool :=
  trim cond.path ≠ [] && (cond.mode.order?.isNone || isNumeric (trim cond.value))

def RequestCondition.complete : RequestCondition → Bool
  | .time cond => cond.complete
  | .paramHeader cond => cond.complete

def RequestRuleGroup.complete (group : RequestRuleGroup) : Bool :=
  isNumeric (trim group.multiplier) && group.conditions.all RequestCondition.complete

/-! ## Parts -/

/-- A range whose start is after its end. -/
def TimeCondition.overnight (cond : TimeCondition) : Bool :=
  (integer? (trim cond.rangeStart)).getD 0 > (integer? (trim cond.rangeEnd)).getD 0

def TimeCondition.parts (cond : TimeCondition) : List Text :=
  let f := cond.timeFunc
  let a := escape cond.normalize.timezone
  if cond.normalize.mode = .range then
    if cond.overnight then
      [rangeText f a " || ".toList (trim cond.rangeStart) (trim cond.rangeEnd)]
    else [boundText f a .gte (trim cond.rangeStart), boundText f a .lt (trim cond.rangeEnd)]
  else [boundText f a cond.normalize.mode (trim cond.value)]

/-- The test that a parameter is there. -/
def presentText (a : Text) : Text := Source.param.name ++ (quotedArg a ++ " != nil".toList)

def hasText (source : Source) (a v : Text) : Text :=
  "has(".toList ++ (source.name ++ (quotedArg a ++ (", ".toList ++ (stringify v ++ [')']))))

def ParamHeaderCondition.parts (cond : ParamHeaderCondition) : List Text :=
  let source := cond.source
  let a := escape (trim cond.path)
  match cond.normalize.mode with
  | .exists =>
    match source with
    | .header => [source.name ++ (quotedArg a ++ " != \"\"".toList)]
    | .param => [presentText a]
  | .contains =>
    match source with
    | .header => [hasText source a (trim cond.value)]
    | .param => [presentText a, hasText source a (trim cond.value)]
  | mode =>
    match mode.order? with
    | some op => [presentText a, source.name ++ (quotedArg a ++ (op ++ trim cond.value))]
    | none => [source.name ++ (quotedArg a ++ (" == ".toList ++ buildExprLiteral mode cond.value))]

def RequestCondition.parts : RequestCondition → List Text
  | .time cond => cond.parts
  | .paramHeader cond => cond.parts

variable (cond : TimeCondition)

@[simp] theorem TimeCondition.normalize_timeFunc : cond.normalize.timeFunc = cond.timeFunc := rfl

@[simp] theorem TimeCondition.normalize_value : cond.normalize.value = cond.value := rfl

@[simp] theorem TimeCondition.normalize_rangeStart : cond.normalize.rangeStart = cond.rangeStart := rfl

@[simp] theorem TimeCondition.normalize_rangeEnd : cond.normalize.rangeEnd = cond.rangeEnd := rfl

theorem TimeCondition.normalize_range : cond.normalize.mode = .range ↔ cond.mode = .range := by
  unfold TimeCondition.normalize
  dsimp only
  split_ifs with h
  · exact Iff.rfl
  · refine iff_of_false (by decide) ?_
    intro hmode
    rw [hmode] at h
    exact h (by decide)

theorem TimeCondition.build_eq {cond : TimeCondition} (h : cond.complete = true) :
    buildTimeConditionExpr cond = " && ".toList.intercalate cond.parts := by
  unfold TimeCondition.complete at h
  unfold buildTimeConditionExpr TimeCondition.parts
  dsimp only
  by_cases hmode : cond.mode = .range
  · have hn := cond.normalize_range.mpr hmode
    rw [if_pos hmode, Bool.and_eq_true] at h
    have hok : ¬(¬isTimeValueInRange cond.normalize.timeFunc (trim cond.normalize.rangeStart) = true ∨
        ¬isTimeValueInRange cond.normalize.timeFunc (trim cond.normalize.rangeEnd) = true) :=
      not_or.mpr ⟨not_not.mpr h.1, not_not.mpr h.2⟩
    rw [if_pos hn, if_pos hn, if_neg hok]
    by_cases hover : cond.overnight = true
    · have hgt : (integer? (trim cond.normalize.rangeStart)).getD 0 >
          (integer? (trim cond.normalize.rangeEnd)).getD 0 := of_decide_eq_true hover
      rw [if_pos hover, if_pos hgt, call_eq]
      simp [rangeText]
    · have hle : ¬((integer? (trim cond.normalize.rangeStart)).getD 0 >
          (integer? (trim cond.normalize.rangeEnd)).getD 0) := fun hgt => hover (decide_eq_true hgt)
      rw [if_neg hover, if_neg hle, call_eq]
      simp [boundText, timeOperator]
  · have hn : ¬cond.normalize.mode = .range := fun hr => hmode (cond.normalize_range.mp hr)
    rw [if_neg hmode] at h
    have hok : ¬¬isTimeValueInRange cond.normalize.timeFunc (trim cond.normalize.value) = true :=
      not_not.mpr h
    rw [if_neg hn, if_neg hn, if_neg hok, call_eq]
    unfold boundText timeOperator
    split <;> simp_all

theorem ParamHeaderCondition.normalize_order (cond : ParamHeaderCondition) {op : Text}
    (h : cond.normalize.mode.order? = some op) : cond.source = .param ∧ cond.mode.order? = some op := by
  unfold ParamHeaderCondition.normalize at h
  dsimp only at h
  split_ifs at h with hmem
  · refine ⟨?_, h⟩
    cases hs : cond.source with
    | param => rfl
    | header =>
      rw [hs] at hmem
      revert hmem h
      cases cond.mode <;> simp [Source.matchOptions, MatchMode.order?]
  · cases h

theorem ParamHeaderCondition.build_eq {cond : ParamHeaderCondition} (h : cond.complete = true) :
    buildParamHeaderExpr cond = " && ".toList.intercalate cond.parts := by
  unfold ParamHeaderCondition.complete at h
  simp only [Bool.and_eq_true, decide_eq_true_eq, Bool.or_eq_true] at h
  have hpath : trim cond.normalize.path ≠ [] := h.1
  have horder {op : Text} (hop : cond.normalize.mode.order? = some op) :
      cond.source = .param ∧ ¬¬isNumeric (trim cond.normalize.value) = true := by
    obtain ⟨hsource, hmode⟩ := cond.normalize_order hop
    refine ⟨hsource, not_not.mpr (h.2.resolve_left ?_)⟩
    rw [hmode]
    exact Bool.false_ne_true
  have hsource : cond.normalize.source = cond.source := rfl
  have hvalue : cond.normalize.value = cond.value := rfl
  have hpath' : cond.normalize.path = cond.path := rfl
  unfold buildParamHeaderExpr ParamHeaderCondition.parts
  dsimp only
  rw [if_neg hpath, hsource, hvalue, hpath', call_eq]
  rw [hvalue] at horder
  generalize cond.normalize.mode = mode at horder ⊢
  have hordered {op : Text} (hop : mode.order? = some op) : (if ¬isNumeric (trim cond.value) = true then []
        else cond.source.name ++ quotedArg (escape (trim cond.path)) ++ " != nil && ".toList ++
          (cond.source.name ++ quotedArg (escape (trim cond.path))) ++ op ++ trim cond.value) =
        " && ".toList.intercalate [presentText (escape (trim cond.path)),
          cond.source.name ++ (quotedArg (escape (trim cond.path)) ++ (op ++ trim cond.value))] := by
    obtain ⟨hparam, hnumeric⟩ := horder hop
    rw [if_neg hnumeric, hparam]
    simp [presentText]
  cases mode
  · simp [MatchMode.order?]
  · cases cond.source <;> simp [presentText, hasText, buildExprLiteral]
  · exact hordered rfl
  · exact hordered rfl
  · exact hordered rfl
  · exact hordered rfl
  · cases cond.source <;> simp [presentText]
  · simp [MatchMode.order?]

theorem RequestCondition.build_eq {cond : RequestCondition} (h : cond.complete = true) :
    buildRequestConditionExpr cond = " && ".toList.intercalate cond.parts := by
  cases cond with
  | time cond => exact TimeCondition.build_eq h
  | paramHeader cond => exact ParamHeaderCondition.build_eq h

/-! ## The walk passes over each part -/

section Walked

variable {top : Bool} {rest v : Text}

variable (f : TimeFunc) (source : Source)

theorem balanced_name (h : Balanced true rest) : Balanced true (f.name ++ rest) := by
  refine (Balanced.of_all ?_).append h
  cases f <;> decide

theorem balanced_source (h : Balanced true rest) : Balanced true (source.name ++ rest) := by
  refine (Balanced.of_all ?_).append h
  cases source <;> decide

theorem quotedArg_escape (t : Text) : quotedArg (escape t) = '(' :: (stringify t ++ [')']) := by
  simp [quotedArg, stringify]

theorem balanced_arg (t : Text) (h : Balanced true rest) : Balanced true (quotedArg (escape t) ++ rest) := by
  rw [quotedArg_escape]
  exact ((Balanced.string false t).wrap true).append h

theorem isNumberChar_walked {c : Char} (h : isNumberChar c = true) :
    isStructural c = false ∧ (true = true → isOperator c = false) := by
  have hno : ∀ d ∈ ['"', '\'', '(', ')', '[', ']', '{', '}', '?', '*', '&'], c ≠ d := by
    have hall : ['"', '\'', '(', ')', '[', ']', '{', '}', '?', '*', '&'].all (fun d => !isNumberChar d) = true := by
      decide
    rintro d hd rfl
    have hc := List.all_eq_true.mp hall c hd
    rw [h] at hc
    cases hc
  refine ⟨?_, fun _ => ?_⟩
  · unfold isStructural
    simp only [List.mem_cons, List.not_mem_nil, or_false, decide_eq_false_iff_not]
    rintro (rfl | rfl | rfl | rfl | rfl | rfl | rfl | rfl) <;> exact absurd rfl (hno _ (by decide))
  · unfold isOperator
    simp only [List.mem_cons, List.not_mem_nil, or_false, decide_eq_false_iff_not]
    rintro (rfl | rfl | rfl) <;> exact absurd rfl (hno _ (by decide))

theorem balanced_number (hv : IsNumber v) : Balanced true v :=
  .of_chars fun c hc => isNumberChar_walked (hv.chars c hc)

theorem balanced_literal (value : Text) : Balanced true (buildExprLiteral .eq value) := by
  unfold buildExprLiteral
  dsimp only
  rw [if_neg (by decide)]
  split_ifs with hbool hnum
  · rcases hbool with h | h <;> rw [h] <;> exact .of_all (by decide)
  · exact balanced_number (isNumber_of_isNumeric hnum)
  · exact .string true _

theorem isNumberChar_not_space {c : Char} (h : isNumberChar c = true) : isSpace c = false := by
  have hrange : c.toNat < 128 := by
    unfold isNumberChar isDigit at h
    simp only [List.mem_cons, List.not_mem_nil, or_false, Bool.or_eq_true, Bool.and_eq_true, decide_eq_true_eq] at h
    rcases h with ⟨-, h⟩ | rfl | rfl | rfl | rfl | rfl
    · have hle : c.toNat ≤ '9'.toNat := h
      exact Nat.lt_of_le_of_lt hle (by decide)
    all_goals decide
  have hall : ∀ n < 128, isNumberChar (Char.ofNat n) = true → isSpace (Char.ofNat n) = false := by
    decide
  have hc := hall c.toNat hrange
  rw [Char.ofNat_toNat] at hc
  exact hc h

theorem tight_append {u w : Text} (hu : u ≠ []) (hleft : Stops isSpace u) (hw : w ≠ [])
    (hright : Stops isSpace w.reverse) : Tight isSpace (u ++ w) where
  left := by
    cases u with
    | nil => exact absurd rfl hu
    | cons c u => exact stops_cons.mpr (stops_cons.mp hleft)
  right := by
    rw [List.reverse_append]
    cases hr : w.reverse with
    | nil => exact absurd (List.reverse_eq_nil_iff.mp hr) hw
    | cons c r =>
      rw [hr] at hright
      exact stops_cons.mpr (stops_cons.mp hright)

theorem stops_number (hv : IsNumber v) : Stops isSpace v.reverse := by
  intro c hc
  have hmem : c ∈ v := List.mem_reverse.mp (List.mem_of_mem_head? hc)
  exact isNumberChar_not_space (hv.chars c hmem)

theorem name_start (t : Text) : f.name ++ t ≠ [] ∧ Stops isSpace (f.name ++ t) := by
  cases f <;> exact ⟨List.cons_ne_nil _ _, stops_cons.mpr (by decide)⟩

theorem source_start (t : Text) : source.name ++ t ≠ [] ∧ Stops isSpace (source.name ++ t) := by
  cases source <;> exact ⟨List.cons_ne_nil _ _, stops_cons.mpr (by decide)⟩

theorem part_bound (t : Text) (mode : MatchMode) (hv : IsNumber v) : Part (boundText f (escape t) mode v) where
  balanced := by
    have hop : Balanced true (timeOperator mode) := by
      cases mode <;> exact .of_all (by decide)
    exact balanced_name f (balanced_arg t (hop.append (balanced_number hv)))
  tight := by
    have happ : boundText f (escape t) mode v =
        (f.name ++ (quotedArg (escape t) ++ timeOperator mode)) ++ v := by
      simp [boundText]
    rw [happ]
    obtain ⟨hne, hleft⟩ := name_start f (quotedArg (escape t) ++ timeOperator mode)
    exact tight_append hne hleft hv.nonempty (stops_number hv)
  nonempty := (name_start f _).1

theorem part_overnight (t : Text) {s e : Text} (hs : IsNumber s) (he : IsNumber e) :
    Part (rangeText f (escape t) " || ".toList s e) where
  balanced := by
    have hupper : Balanced true (boundText f (escape t) .lt e) := (part_bound f t .lt he).balanced
    have hor : Balanced true (" || ".toList ++ boundText f (escape t) .lt e) :=
      (Balanced.of_all (by decide)).append hupper
    have hge : Balanced true " >= ".toList := .of_all (by decide)
    exact balanced_name f (balanced_arg t (hge.append ((balanced_number hs).append hor)))
  tight := by
    have happ : rangeText f (escape t) " || ".toList s e =
        (f.name ++ (quotedArg (escape t) ++ (" >= ".toList ++ (s ++ (" || ".toList ++
          (f.name ++ (quotedArg (escape t) ++ " < ".toList))))))) ++ e := by
      simp [rangeText]
    rw [happ]
    obtain ⟨hne, hleft⟩ := name_start f (quotedArg (escape t) ++ (" >= ".toList ++ (s ++
      (" || ".toList ++ (f.name ++ (quotedArg (escape t) ++ " < ".toList))))))
    exact tight_append hne hleft he.nonempty (stops_number he)
  nonempty := (name_start f _).1

/-- A call on a parameter or a header, followed by a text that ends well. -/
theorem part_source (t : Text) {w : Text} (hw : Balanced true w) (hne : w ≠ []) (hright : Stops isSpace w.reverse) :
    Part (source.name ++ (quotedArg (escape t) ++ w)) where
  balanced := balanced_source source (balanced_arg t hw)
  tight := by
    rw [← List.append_assoc]
    obtain ⟨hstart, hleft⟩ := source_start source (quotedArg (escape t))
    exact tight_append hstart hleft hne hright
  nonempty := (source_start source _).1

theorem stops_literal (value : Text) : Stops isSpace (buildExprLiteral .eq value).reverse := by
  unfold buildExprLiteral
  dsimp only
  rw [if_neg (by decide)]
  split_ifs with hbool hnum
  · rcases hbool with h | h <;> rw [h] <;> exact stops_cons.mpr (by decide)
  · exact stops_number (isNumber_of_isNumeric hnum)
  · exact (tight_stringify _).right

theorem part_present (t : Text) : Part (presentText (escape t)) :=
  part_source .param t (.of_all (by decide)) (by decide) (stops_cons.mpr (by decide))

theorem part_has (t v : Text) : Part (hasText source (escape t) v) where
  balanced := by
    have happ : hasText source (escape t) v = "has".toList ++ ('(' ::
        ((source.name ++ (quotedArg (escape t) ++ (", ".toList ++ stringify v))) ++ [')'])) := by
      simp [hasText]
    have hinner : Balanced true (source.name ++ (quotedArg (escape t) ++ (", ".toList ++ stringify v))) :=
      balanced_source source (balanced_arg t ((Balanced.of_all (by decide)).append (.string true v)))
    rw [happ]
    exact (Balanced.of_all (by decide)).append (hinner.inside.wrap true)
  tight := by
    have happ : hasText source (escape t) v = ("has(".toList ++ (source.name ++ (quotedArg (escape t) ++
        (", ".toList ++ stringify v)))) ++ [')'] := by
      simp [hasText]
    rw [happ]
    exact tight_append (List.cons_ne_nil _ _) (stops_cons.mpr (by decide)) (by decide)
      (stops_cons.mpr (by decide))
  nonempty := List.cons_ne_nil _ _

theorem TimeCondition.part {cond : TimeCondition} (h : cond.complete = true) : ∀ text ∈ cond.parts, Part text := by
  unfold TimeCondition.complete at h
  unfold TimeCondition.parts
  dsimp only
  by_cases hmode : cond.mode = .range
  · rw [if_pos hmode, Bool.and_eq_true] at h
    have hs := isNumber_of_inRange h.1
    have he := isNumber_of_inRange h.2
    rw [if_pos (cond.normalize_range.mpr hmode)]
    split_ifs
    · intro text htext
      rw [List.mem_singleton.mp htext]
      exact part_overnight _ _ hs he
    · intro text htext
      rcases List.mem_cons.mp htext with rfl | htext
      · exact part_bound _ _ _ hs
      · rw [List.mem_singleton.mp htext]
        exact part_bound _ _ _ he
  · rw [if_neg hmode] at h
    rw [if_neg fun hr => hmode (cond.normalize_range.mp hr)]
    intro text htext
    rw [List.mem_singleton.mp htext]
    exact part_bound _ _ _ (isNumber_of_inRange h)

theorem ParamHeaderCondition.part {cond : ParamHeaderCondition} (h : cond.complete = true) :
    ∀ text ∈ cond.parts, Part text := by
  unfold ParamHeaderCondition.complete at h
  simp only [Bool.and_eq_true, decide_eq_true_eq, Bool.or_eq_true] at h
  have hnumber {op : Text} (hop : cond.normalize.mode.order? = some op) : IsNumber (trim cond.value) := by
    obtain ⟨-, hmode⟩ := cond.normalize_order hop
    refine isNumber_of_isNumeric (h.2.resolve_left ?_)
    rw [hmode]
    exact Bool.false_ne_true
  have heq : Part (cond.source.name ++ (quotedArg (escape (trim cond.path)) ++
      (" == ".toList ++ buildExprLiteral .eq cond.value))) := by
    refine part_source _ _ ((Balanced.of_all (by decide)).append (balanced_literal _)) (by simp) ?_
    rw [List.reverse_append]
    have hstops := stops_literal cond.value
    have hne := (buildExprLiteral_spec (fun _ => none) cond.value).1
    cases hr : (buildExprLiteral .eq cond.value).reverse with
    | nil => exact absurd (List.reverse_eq_nil_iff.mp hr) hne
    | cons c r =>
      rw [hr] at hstops
      exact stops_cons.mpr (stops_cons.mp hstops)
  have hordered {op : Text} (hop : cond.normalize.mode.order? = some op) (hbal : Balanced true op) :
      ∀ text ∈ [presentText (escape (trim cond.path)), cond.source.name ++
        (quotedArg (escape (trim cond.path)) ++ (op ++ trim cond.value))], Part text := by
    have hv := hnumber hop
    intro text htext
    rcases List.mem_cons.mp htext with rfl | htext
    · exact part_present _
    · rw [List.mem_singleton.mp htext]
      refine part_source _ _ (hbal.append (balanced_number hv)) (by simp [hv.nonempty]) ?_
      rw [List.reverse_append]
      have hstops := stops_number hv
      cases hr : (trim cond.value).reverse with
      | nil => exact absurd (List.reverse_eq_nil_iff.mp hr) hv.nonempty
      | cons c r =>
        rw [hr] at hstops
        exact stops_cons.mpr (stops_cons.mp hstops)
  unfold ParamHeaderCondition.parts
  dsimp only
  generalize cond.normalize.mode = mode at hordered ⊢
  cases mode
  · exact List.forall_mem_singleton.mpr heq
  · cases cond.source with
    | header => exact List.forall_mem_singleton.mpr (part_has _ _ _)
    | param => exact List.forall_mem_cons.mpr ⟨part_present _, List.forall_mem_singleton.mpr (part_has _ _ _)⟩
  · exact hordered rfl (.of_all (by decide))
  · exact hordered rfl (.of_all (by decide))
  · exact hordered rfl (.of_all (by decide))
  · exact hordered rfl (.of_all (by decide))
  · cases cond.source with
    | header =>
      refine List.forall_mem_singleton.mpr (part_source _ _ ?_ (by decide) (stops_cons.mpr (by decide)))
      exact (Balanced.of_all (w := " != ".toList) (by decide)).append (.string true [])
    | param => exact List.forall_mem_singleton.mpr (part_present _)
  · exact List.forall_mem_singleton.mpr heq

theorem RequestCondition.part {cond : RequestCondition} (h : cond.complete = true) :
    ∀ text ∈ cond.parts, Part text := by
  cases cond with
  | time cond => exact TimeCondition.part h
  | paramHeader cond => exact ParamHeaderCondition.part h

end Walked

end Vancine.Pricing
