import Vancine.Pricing.GroupText
import Vancine.RuleFactors.Conditions

/-!
# Conditions are read back

The text of a condition is put together from phrases, so that the parser reads each of its parts as one of
its nodes, and the conditions of a group as one conjunction.
-/

namespace Vancine.RuleFactors

open Expression Pricing

/-! ## The text of a condition -/

section Texts

variable {α : Type} [DecimalNumbers α]

theorem source_phrase (name : Func₁) (minimum : ℕ) (text : Text) :
    Phrase 2 4 minimum (name.name ++ quotedArg (escape text))
      (.call₁ name (.literal (.string text)) : ExpressionNode α) := by
  rw [quotedArg_escape]
  exact .call₁ name (.string text)

theorem comparison_phrase {operator : BinaryOp} (h : isComparison operator = true) (name : Func₁) (text : Text)
    {value : Text} {node : ExpressionNode α} (hvalue : Phrase 2 2 (operator.precedence + 1) value node) :
    Phrase 3 9 3 (name.name ++ (quotedArg (escape text) ++ (' ' :: (operator.text ++ ' ' :: value))))
      (.binary operator (.call₁ name (.literal (.string text))) node) := by
  have hsource := (source_phrase (α := α) name operator.precedence text).mono (Nat.le_succ 2) le_rfl
  have hphrase := Phrase.binary operator hsource hvalue
  rw [List.append_assoc] at hphrase
  have hle : 3 ≤ operator.precedence := by
    cases operator with
    | eq | ne | lt | le | gt | ge => decide
    | _ => cases h
  exact (hphrase.weaken hle (by omega)).mono le_rfl (by omega)

theorem has_phrase (source : Source) (name : Func₁) (hname : name.name = source.name) (path value : Text) :
    Phrase 3 9 3 (hasText source (escape path) value)
      (.call₂ .has (.call₁ name (.literal (.string path))) (.literal (.string value)) : ExpressionNode α) := by
  have hphrase : Phrase 3 9 3 _ (.call₂ .has (.call₁ name (.literal (.string path))) (.literal (.string value))) :=
    Phrase.call₂ .has (source_phrase (α := α) name 0 path) (Phrase.string value)
  have htext : hasText source (escape path) value = Func₂.has.name ++
      '(' :: ((name.name ++ quotedArg (escape path)) ++ ',' :: ' ' :: (stringify value ++ [')'])) := by
    simp [hasText, hname, Func₂.name]
  rw [htext]
  exact hphrase

theorem value_phrase {value : Text} (minimum : ℕ) (h : isNumeric (trim value) = true → Readable α (trim value)) :
    Phrase 2 2 minimum (buildExprLiteral .eq value) (literalNode (trim value) : ExpressionNode α) := by
  unfold buildExprLiteral literalNode
  dsimp only
  rw [if_neg (by decide)]
  by_cases htrue : trim value = "true".toList
  · rw [if_pos (.inl htrue), if_pos htrue, htrue]
    exact (Phrase.named rfl : Phrase 2 1 _ _ _).mono le_rfl (Nat.le_succ 1)
  · by_cases hfalse : trim value = "false".toList
    · rw [if_pos (.inr hfalse), if_neg htrue, if_pos hfalse, hfalse]
      exact (Phrase.named rfl : Phrase 2 1 _ _ _).mono le_rfl (Nat.le_succ 1)
    · rw [if_neg (not_or.mpr ⟨htrue, hfalse⟩), if_neg htrue, if_neg hfalse]
      split_ifs with hnumeric
      · exact .number hnumeric (h hnumeric)
      · exact (Phrase.string _ : Phrase 2 1 _ _ _).mono le_rfl (Nat.le_succ 1)

/-- Parts read as nodes. -/
abbrev PartsRead (texts : List Text) (nodes : List (ExpressionNode α)) : Prop :=
  List.Forall₂ (Phrase 3 9 3) texts nodes

theorem present_phrase (path : Text) : Phrase 3 9 3 (presentText (escape path))
    (.binary .ne (paramNode path) (.literal .nil) : ExpressionNode α) :=
  comparison_phrase (rfl : isComparison .ne = true) .param path
    ((Phrase.named rfl : Phrase 2 1 _ "nil".toList (.literal .nil)).mono le_rfl (Nat.le_succ 1))

theorem bound_phrase {mode : MatchMode} (hmode : mode ∈ timeMatchOptions) (hrange : mode ≠ .range) (timeFunc : TimeFunc)
    (zone : Text) {text : Text} (hnumeric : isNumeric text = true) (hnumber : Readable α text) :
    Phrase 3 9 3 (boundText timeFunc (escape zone) mode text)
      (.binary (modeOperator mode) (timeNode timeFunc zone) (numberNode text) : ExpressionNode α) := by
  have hphrase := comparison_phrase (α := α) (isComparison_modeOperator mode) (.time timeFunc) zone
    (.number hnumeric hnumber)
  simp only [timeMatchOptions, List.mem_cons, List.not_mem_nil, or_false] at hmode
  rcases hmode with rfl | rfl | rfl | rfl
  · exact hphrase
  · exact hphrase
  · exact hphrase
  · exact absurd rfl hrange

theorem isNumeric_inRange {timeFunc : TimeFunc} {text : Text} (h : isTimeValueInRange timeFunc text = true) :
    isNumeric text = true := by
  unfold isTimeValueInRange integer? at h
  unfold isNumeric
  cases hlit : numericLiteral text with
  | none =>
    rw [hlit] at h
    cases h
  | some x => rfl

theorem time_parts {cond : TimeCondition} (hcomplete : cond.complete = true)
    (hnumbers : ∀ text ∈ writtenNumbers (.time cond), Readable α text) :
    PartsRead cond.parts (timeNodes cond : List (ExpressionNode α)) ∨
      ∃ text node, cond.parts = [text] ∧ (timeNodes cond : List (ExpressionNode α)) = [node] ∧ Phrase 4 19 1 text node ∧
        includes text " || ".toList = true := by
  unfold TimeCondition.complete at hcomplete
  unfold writtenNumbers at hnumbers
  unfold TimeCondition.parts timeNodes
  by_cases hrange : cond.normalize.mode = .range
  · rw [if_pos (cond.normalize_range.mp hrange), Bool.and_eq_true] at hcomplete
    simp only [if_pos hrange, List.forall_mem_cons] at hnumbers ⊢
    have hafter := bound_phrase (α := α) (by decide : .gte ∈ timeMatchOptions) (by decide) cond.timeFunc
      cond.normalize.timezone (isNumeric_inRange hcomplete.1) hnumbers.1
    have hbefore := bound_phrase (α := α) (by decide : .lt ∈ timeMatchOptions) (by decide) cond.timeFunc
      cond.normalize.timezone (isNumeric_inRange hcomplete.2) hnumbers.2.1
    by_cases hover : cond.overnight = true
    · simp only [if_pos hover]
      refine .inr ⟨_, _, rfl, rfl, ?_, ?_⟩
      · have hleft := (hafter.mono (Nat.le_succ 3) le_rfl).weaken (by decide : 1 ≤ 3) (by decide)
        have hright := hbefore.weaken (by decide : 2 ≤ 3) (by decide)
        have hphrase := Phrase.binary .or hleft hright
        have htext (a s e : Text) : rangeText cond.timeFunc a " || ".toList s e = boundText cond.timeFunc a .gte s ++
              ' ' :: (BinaryOp.or.text ++ ' ' :: boundText cond.timeFunc a .lt e) := by
          simp [rangeText, boundText, timeOperator, BinaryOp.text]
        rw [htext]
        exact hphrase
      · refine decide_eq_true ⟨cond.timeFunc.name ++ (quotedArg (escape cond.normalize.timezone) ++
          (" >= ".toList ++ trim cond.rangeStart)), cond.timeFunc.name ++
            (quotedArg (escape cond.normalize.timezone) ++ (" < ".toList ++ trim cond.rangeEnd)), ?_⟩
        simp only [rangeText, List.append_assoc]
    · simp only [if_neg hover]
      exact .inl (.cons hafter (.cons hbefore .nil))
  · have hmode : ¬cond.mode = .range := fun h => hrange (cond.normalize_range.mpr h)
    rw [if_neg hmode] at hcomplete
    simp only [if_neg hrange, List.forall_mem_singleton] at hnumbers ⊢
    exact .inl (.cons (bound_phrase (normalize_time_mem cond) hrange _ _ (isNumeric_inRange hcomplete) hnumbers) .nil)

theorem header_parts {cond : ParamHeaderCondition} (hsource : cond.source = .header)
    (hnumbers : ∀ text ∈ writtenNumbers (.paramHeader cond), Readable α text) :
    PartsRead cond.parts (headerNodes cond : List (ExpressionNode α)) := by
  have hmem := normalize_mode_mem cond
  rw [hsource] at hmem
  simp only [Source.matchOptions, List.mem_cons, List.not_mem_nil, or_false] at hmem
  unfold ParamHeaderCondition.parts headerNodes
  rcases hmem with hmode | hmode | hmode
  all_goals simp only [hmode, hsource]
  · refine .cons (comparison_phrase (rfl : isComparison .eq = true) .header _ (value_phrase _ fun h => ?_)) .nil
    exact hnumbers _ (by simp [writtenNumbers, hmode, h])
  · exact .cons (has_phrase .header .header rfl _ _) .nil
  · exact .cons (comparison_phrase (rfl : isComparison .ne = true) .header _
      ((Phrase.string [] : Phrase 2 1 _ _ _).mono le_rfl (Nat.le_succ 1))) .nil

theorem param_parts {cond : ParamHeaderCondition} (hsource : cond.source = .param) (hcomplete : cond.complete = true)
    (hnumbers : ∀ text ∈ writtenNumbers (.paramHeader cond), Readable α text) :
    PartsRead cond.parts (paramNodes cond : List (ExpressionNode α)) := by
  have hmem := normalize_mode_mem cond
  rw [hsource] at hmem
  simp only [Source.matchOptions, List.mem_cons, List.not_mem_nil, or_false] at hmem
  have hnumber {operator : Text} (h : cond.normalize.mode.order? = some operator) (minimum : ℕ) :
      Phrase 2 2 minimum (trim cond.value) (numberNode (trim cond.value) : ExpressionNode α) :=
    .number (isNumeric_of_order hcomplete h) (readable_of_order hcomplete hnumbers h)
  unfold ParamHeaderCondition.parts paramNodes
  rcases hmem with hmode | hmode | hmode | hmode | hmode | hmode | hmode
  all_goals simp only [hmode, hsource] at hnumber ⊢
  · refine .cons (comparison_phrase (rfl : isComparison .eq = true) .param _ (value_phrase _ fun h => ?_)) .nil
    exact hnumbers _ (by simp [writtenNumbers, hmode, h])
  · exact .cons (present_phrase _) (.cons (has_phrase .param .param rfl _ _) .nil)
  · exact .cons (present_phrase _) .nil
  · exact .cons (present_phrase _)
      (.cons (comparison_phrase (rfl : isComparison .gt = true) .param _ (hnumber rfl _)) .nil)
  · exact .cons (present_phrase _)
      (.cons (comparison_phrase (rfl : isComparison .ge = true) .param _ (hnumber rfl _)) .nil)
  · exact .cons (present_phrase _)
      (.cons (comparison_phrase (rfl : isComparison .lt = true) .param _ (hnumber rfl _)) .nil)
  · exact .cons (present_phrase _)
      (.cons (comparison_phrase (rfl : isComparison .le = true) .param _ (hnumber rfl _)) .nil)

variable {cond : RequestCondition}

theorem condition_parts (hcomplete : cond.complete = true) (hnumbers : ∀ text ∈ writtenNumbers cond, Readable α text) :
    PartsRead cond.parts (conditionNodes cond : List (ExpressionNode α)) ∨
      ∃ text node, cond.parts = [text] ∧ (conditionNodes cond : List (ExpressionNode α)) = [node] ∧
        Phrase 4 19 1 text node ∧ includes text " || ".toList = true := by
  cases cond with
  | time cond => exact time_parts hcomplete hnumbers
  | paramHeader cond =>
    left
    show PartsRead cond.parts _
    cases hsource : cond.source with
    | header => simpa only [conditionNodes, hsource] using header_parts (α := α) hsource hnumbers
    | param => simpa only [conditionNodes, hsource] using param_parts (α := α) hsource hcomplete hnumbers

theorem conditionNodes_length (cond : RequestCondition) : (conditionNodes cond : List (ExpressionNode α)) ≠ [] ∧
      (conditionNodes cond : List (ExpressionNode α)).length ≤ 2 := by
  cases cond with
  | time cond =>
    show timeNodes cond ≠ [] ∧ (timeNodes cond).length ≤ 2
    unfold timeNodes
    dsimp only
    split_ifs <;> exact ⟨List.cons_ne_nil _ _, by simp⟩
  | paramHeader cond =>
    cases hsource : cond.source with
    | header =>
      simp only [conditionNodes, hsource]
      unfold headerNodes
      split <;> exact ⟨List.cons_ne_nil _ _, by simp⟩
    | param =>
      simp only [conditionNodes, hsource]
      unfold paramNodes
      split <;> exact ⟨List.cons_ne_nil _ _, by simp⟩

/-! ## Joining conditions -/

variable {depth size : ℕ} {texts : List Text} {nodes : List (ExpressionNode α)}

theorem phrase_conjunction (h : List.Forall₂ (Phrase (depth + 1) size 3) texts nodes) (hne : nodes ≠ []) :
    Phrase (depth + 2) (nodes.length * (size + 1)) 2 (" && ".toList.intercalate texts) (conjunction nodes) := by
  cases h with
  | nil => exact absurd rfl hne
  | @cons text node texts nodes hfirst hrest =>
    show Phrase _ _ 2 _ (nodes.foldl (.binary .and) node)
    have hgeneral : ∀ {n : ℕ} {text : Text} {node : ExpressionNode α}, Phrase (depth + 2) n 2 text node →
        Phrase (depth + 2) (n + nodes.length * (size + 1)) 2 (" && ".toList.intercalate (text :: texts))
          (nodes.foldl (.binary .and) node) := by
      clear hfirst hne
      induction hrest with
      | nil =>
        intro n text node h
        rw [List.intercalate_singleton]
        exact h.mono le_rfl (Nat.le_add_right _ _)
      | @cons next nextNode texts nodes hnext _ ih =>
        intro n text node h
        have hboth := Phrase.binary .and h hnext
        have htext : " && ".toList.intercalate (text :: next :: texts) =
            " && ".toList.intercalate ((text ++ ' ' :: (BinaryOp.and.text ++ ' ' :: next)) :: texts) := by
          cases texts with
          | nil => simp [BinaryOp.text]
          | cons last texts => simp [BinaryOp.text, List.intercalate_cons_cons]
        rw [htext]
        refine (ih hboth).mono le_rfl ?_
        rw [List.length_cons, Nat.add_mul]
        omega
    have hfirst' := (hfirst.weaken (by decide : 2 ≤ 3) (by decide)).mono (Nat.le_succ _) le_rfl
    refine (hgeneral hfirst').mono le_rfl ?_
    rw [List.length_cons, Nat.add_mul]
    omega

theorem condition_phrase (hcomplete : cond.complete = true) (hnumbers : ∀ text ∈ writtenNumbers cond, Readable α text) :
    Phrase 4 20 1 (buildRequestConditionExpr cond) (conjunction (conditionNodes cond) : ExpressionNode α) := by
  rw [RequestCondition.build_eq hcomplete]
  obtain ⟨hne, hlength⟩ := conditionNodes_length (α := α) cond
  rcases condition_parts (α := α) hcomplete hnumbers with h | ⟨text, node, htexts, hnodes, h, -⟩
  · have hphrase := (phrase_conjunction h hne).weaken (by decide : 1 ≤ 2) (by decide)
    exact hphrase.mono le_rfl (by omega)
  · rw [htexts, hnodes, List.intercalate_singleton]
    exact h.mono le_rfl (by decide)

/-- The nodes of a condition, alone or next to others. -/
def groupNodes (alone : Bool) (cond : RequestCondition) : List (ExpressionNode α) :=
  if alone = false ∧ includes (buildRequestConditionExpr cond) " || ".toList = true then
    [conjunction (conditionNodes cond)]
  else conditionNodes cond

theorem group_parts (hcomplete : cond.complete = true) (hnumbers : ∀ text ∈ writtenNumbers cond, Readable α text) :
    List.Forall₂ (Phrase 5 22 3) (cond.textParts false) (groupNodes false cond : List (ExpressionNode α)) := by
  unfold RequestCondition.textParts groupNodes
  split_ifs with hwrapped
  · exact .cons (((condition_phrase hcomplete hnumbers).weaken (Nat.zero_le 1) Nat.one_pos).parens) .nil
  · rcases condition_parts (α := α) hcomplete hnumbers with h | ⟨text, node, htexts, -, -, hincludes⟩
    · exact h.imp fun _ _ h => h.mono (by decide) (by decide)
    · rw [RequestCondition.build_eq hcomplete, htexts, List.intercalate_singleton] at hwrapped
      exact absurd ⟨rfl, hincludes⟩ hwrapped

theorem groupNodes_ne_nil (alone : Bool) (cond : RequestCondition) :
    groupNodes alone cond ≠ ([] : List (ExpressionNode α)) := by
  unfold groupNodes
  split_ifs
  · exact List.cons_ne_nil _ _
  · exact (conditionNodes_length cond).1

/-- The nodes of all conditions. -/
def nodesOf (conds : List RequestCondition) : List (ExpressionNode α) :=
  conds.flatMap (groupNodes (conds.length = 1))

variable {conds : List RequestCondition}

theorem nodesOf_ne_nil (hne : conds ≠ []) : nodesOf conds ≠ ([] : List (ExpressionNode α)) := by
  cases conds with
  | nil => exact absurd rfl hne
  | cons cond conds =>
    unfold nodesOf
    rw [List.flatMap_cons]
    exact List.append_ne_nil_of_left_ne_nil (groupNodes_ne_nil _ _) _

theorem forall₂_flatMap {β γ δ : Type} {R : γ → δ → Prop} {f : β → List γ} {g : β → List δ} {l : List β}
    (h : ∀ b ∈ l, List.Forall₂ R (f b) (g b)) : List.Forall₂ R (l.flatMap f) (l.flatMap g) := by
  induction l with
  | nil => exact .nil
  | cons b l ih =>
    rw [List.forall_mem_cons] at h
    rw [List.flatMap_cons, List.flatMap_cons]
    exact List.rel_append h.1 (ih h.2)

theorem conditions_phrase (hne : conds ≠ []) (hcomplete : ∀ cond ∈ conds, cond.complete = true)
    (hnumbers : ∀ cond ∈ conds, ∀ text ∈ writtenNumbers cond, Readable α text) :
    Phrase 6 ((nodesOf conds : List (ExpressionNode α)).length * 23) 1
      (combineConditions (conds.map buildRequestConditionExpr)) (conjunction (nodesOf conds) : ExpressionNode α) := by
  by_cases hone : conds.length = 1
  · obtain ⟨cond, rfl⟩ := List.length_eq_one_iff.mp hone
    have hnodes : (nodesOf [cond] : List (ExpressionNode α)) = conditionNodes cond := by
      simp [nodesOf, groupNodes]
    rw [hnodes]
    have hcond := condition_phrase (α := α) (hcomplete cond List.mem_cons_self) (hnumbers cond List.mem_cons_self)
    refine hcond.mono (by decide) ?_
    have := List.length_pos_of_ne_nil (conditionNodes_length (α := α) cond).1
    omega
  · rw [combineConditions_eq hcomplete]
    have hparts : List.Forall₂ (Phrase 5 22 3) (conds.flatMap (RequestCondition.textParts (conds.length = 1)))
        (nodesOf conds : List (ExpressionNode α)) := by
      unfold nodesOf
      rw [decide_eq_false hone]
      exact forall₂_flatMap fun cond hcond => group_parts (hcomplete cond hcond) (hnumbers cond hcond)
    exact (phrase_conjunction hparts (nodesOf_ne_nil hne)).weaken (by decide : 1 ≤ 2) (by decide)

end Texts

end Vancine.RuleFactors
