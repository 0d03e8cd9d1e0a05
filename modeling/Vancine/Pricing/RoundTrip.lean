import Vancine.Pricing.GroupText

/-!
# Request rules through the editor

`buildRequestRuleExpr` writes rule groups and `tryParseRequestRuleExpr` reads them. The groups come back
exactly when

* every group has a condition;
* every path and time zone is written without an escape, since the parser takes the text between the quotes
  as it is; a time zone is given;
* what a mode does not use is empty, and the mode is one the parser knows how to read: a parameter that is
  searched or compared is written with a test for its presence, and the cut at `&&` separates the two;
* the value of an equality holds no line or paragraph separator;
* next to other conditions, no text holds ` || `, which would put parentheses around the condition;
* a lower bound of a time is not followed by an upper bound of the same time, which are read as a range.
-/

namespace Vancine.Pricing

open Lib

/-! ## What comes back -/

def TimeCondition.trimmed (cond : TimeCondition) : TimeCondition :=
  { cond with value := trim cond.value, rangeStart := trim cond.rangeStart, rangeEnd := trim cond.rangeEnd }

def ParamHeaderCondition.trimmed (cond : ParamHeaderCondition) : ParamHeaderCondition :=
  { cond with path := trim cond.path, value := trim cond.value }

def RequestCondition.trimmed : RequestCondition → RequestCondition
  | .time cond => .time cond.trimmed
  | .paramHeader cond => .paramHeader cond.trimmed

def RequestRuleGroup.trimmed (group : RequestRuleGroup) : RequestRuleGroup where
  conditions := group.conditions.map RequestCondition.trimmed
  multiplier := trim group.multiplier

def TimeCondition.reopens (cond : TimeCondition) : Bool :=
  cond.timezone ≠ [] && cond.timezone.all isPlain &&
    match cond.mode with
    | .eq | .gte | .lt => trim cond.rangeStart = [] && trim cond.rangeEnd = []
    | .range => trim cond.value = []
    | _ => false

def ParamHeaderCondition.reopens (cond : ParamHeaderCondition) : Bool :=
  (trim cond.path).all isPlain &&
    match cond.mode with
    | .eq => (trim cond.value).all fun c => !isSeparator c
    | .exists => trim cond.value = []
    | .contains => cond.source = .header
    | _ => false

def RequestCondition.reopens : RequestCondition → Bool
  | .time cond => cond.reopens
  | .paramHeader cond => cond.reopens

/-- The condition gets no parentheses next to others, or those of a range. -/
def RequestCondition.quiet : RequestCondition → Bool
  | .time cond => cond.mode = .range || !includes cond.timezone " || ".toList
  | .paramHeader cond =>
    !includes (trim cond.path) " || ".toList && !includes (trim cond.value) " || ".toList

/-- A lower and an upper bound of the same time. -/
def RequestCondition.merges : RequestCondition → RequestCondition → Bool
  | .time a, .time b =>
    a.timeFunc = b.timeFunc && a.timezone = b.timezone && a.mode = .gte && b.mode = .lt
  | _, _ => false

def RequestRuleGroup.Reopens (group : RequestRuleGroup) : Prop :=
  group.conditions ≠ [] ∧ (∀ cond ∈ group.conditions, cond.reopens = true) ∧
    (1 < group.conditions.length → ∀ cond ∈ group.conditions, cond.quiet = true) ∧
    group.conditions.IsChain fun a b => a.merges b = false

instance (group : RequestRuleGroup) : Decidable group.Reopens :=
  inferInstanceAs (Decidable (_ ∧ _ ∧ _ ∧ _))

/-! ## The loop over the parts -/

section Loop

variable {structured : Text → Option Text} {part : Text} {rest : List Text} {conds : List RequestCondition}

variable {range : TimeCondition}

theorem tryParseTimeRangePair_some {lower upper : Text} : tryParseTimeRangePair lower upper = some range ↔
      ∃ a b, tryParseTimeCondition lower = some a ∧ tryParseTimeCondition upper = some b ∧
        (a.timeFunc = b.timeFunc ∧ a.timezone = b.timezone ∧ a.mode = .gte ∧ b.mode = .lt) ∧
        range = ⟨a.timeFunc, a.timezone, .range, [], a.value, b.value⟩ := by
  unfold tryParseTimeRangePair
  constructor
  · intro h
    obtain ⟨a, ha, h⟩ := Option.bind_eq_some_iff.mp h
    obtain ⟨b, hb, h⟩ := Option.bind_eq_some_iff.mp h
    obtain ⟨u, hguard, h⟩ := Option.bind_eq_some_iff.mp h
    unfold guard at hguard
    split_ifs at hguard with hsame
    cases h
    exact ⟨a, b, ha, hb, hsame, rfl⟩
  · rintro ⟨a, b, ha, hb, hsame, rfl⟩
    rw [ha, hb]
    simp only [Option.bind_eq_bind, Option.bind_some, guard, if_pos hsame]
    rfl

theorem parseConditionParts_single (h : ∀ next ∈ rest.head?, tryParseTimeRangePair (trim part) (trim next) = none) :
    parseConditionParts structured (part :: rest) = (do
      let cond ← tryParseRequestCondition structured (trim part)
      let conds ← parseConditionParts structured rest
      return cond :: conds) := by
  cases rest with
  | nil =>
    rw [parseConditionParts]
    rfl
  | cons next rest =>
    have hpair := h next rfl
    rw [parseConditionParts, hpair]

theorem parseConditionParts_pair {next : Text} (h : tryParseTimeRangePair (trim part) (trim next) = some range) :
    parseConditionParts structured (part :: next :: rest) = (do
      let conds ← parseConditionParts structured rest
      return .time range :: conds) := by
  rw [parseConditionParts, h]

theorem bind_cons_ok {β : Type} {x : Except ParseFailure (List β)} {a b : β} {l : List β} : ((do
      let conds ← x
      return a :: conds) = Except.ok (b :: l)) ↔ a = b ∧ x = .ok l := by
  cases x with
  | error e => exact iff_of_false (fun h => nomatch h) (fun h => nomatch h.2)
  | ok xs =>
    show Except.ok (a :: xs) = Except.ok (b :: l) ↔ _
    simp

/-- What the loop returned first is a range of two parts, or what one part says. -/
theorem parseConditionParts_cons {cond : RequestCondition} :
    parseConditionParts structured (part :: rest) = .ok (cond :: conds) ↔ (∃ next rest' range, rest = next :: rest' ∧
        tryParseTimeRangePair (trim part) (trim next) = some range ∧ .time range = cond ∧
        parseConditionParts structured rest' = .ok conds) ∨
      (∀ next ∈ rest.head?, tryParseTimeRangePair (trim part) (trim next) = none) ∧
        tryParseRequestCondition structured (trim part) = .ok cond ∧
        parseConditionParts structured rest = .ok conds := by
  by_cases hpair : ∀ next ∈ rest.head?, tryParseTimeRangePair (trim part) (trim next) = none
  · have hno : ¬∃ next rest' range, rest = next :: rest' ∧
        tryParseTimeRangePair (trim part) (trim next) = some range ∧ .time range = cond ∧
        parseConditionParts structured rest' = .ok conds := by
      rintro ⟨next, rest', range, rfl, hsome, -⟩
      rw [hpair next rfl] at hsome
      cases hsome
    rw [parseConditionParts_single hpair, or_iff_right hno]
    cases hparse : tryParseRequestCondition structured (trim part) with
    | error e => exact iff_of_false (fun h => nomatch h) (fun h => nomatch h.2.1)
    | ok found =>
      refine (bind_cons_ok (x := parseConditionParts structured rest)).trans ?_
      constructor
      · rintro ⟨rfl, h⟩
        exact ⟨hpair, rfl, h⟩
      · rintro ⟨-, hfound, h⟩
        cases hfound
        exact ⟨rfl, h⟩
  · push Not at hpair
    obtain ⟨next, hnext, hsome⟩ := hpair
    obtain ⟨range, hrange⟩ := Option.ne_none_iff_exists'.mp hsome
    cases rest with
    | nil => cases hnext
    | cons next' rest =>
      cases hnext
      rw [parseConditionParts_pair hrange, bind_cons_ok]
      constructor
      · rintro ⟨rfl, h⟩
        exact .inl ⟨next, rest, range, rfl, hrange, rfl, h⟩
      · rintro (⟨n, r, range', heq, hrange', hcond, h⟩ | ⟨hno, -⟩)
        · cases heq
          rw [hrange] at hrange'
          cases hrange'
          exact ⟨hcond, h⟩
        · exact absurd (hno next rfl) hsome

theorem parseConditionParts_paramHeader {cond : ParamHeaderCondition} :
    parseConditionParts structured (part :: rest) = .ok (.paramHeader cond :: conds) ↔
      tryParseRequestCondition structured (trim part) = .ok (.paramHeader cond) ∧
        parseConditionParts structured rest = .ok conds := by
  rw [parseConditionParts_cons]
  constructor
  · rintro (⟨next, rest', range, -, -, h, -⟩ | ⟨-, h⟩)
    · cases h
    · exact h
  · rintro ⟨h, hrest⟩
    refine .inr ⟨?_, h, hrest⟩
    intro next hnext
    by_contra hsome
    obtain ⟨range, hrange⟩ := Option.ne_none_iff_exists'.mp hsome
    obtain ⟨a, b, ha, -⟩ := tryParseTimeRangePair_some.mp hrange
    rw [tryParse_time ha] at h
    cases h

end Loop

/-! ## Conditions on parameters and headers -/

section ParamHeader

variable {structured : Text → Option Text} {cond : ParamHeaderCondition}

theorem trim_part {text : Text} (h : Part text) : trim text = text := trimBy_eq_self h.tight

theorem escape_plain {t : Text} : escape t = t ↔ t.all isPlain = true := by
  rw [escape_eq_self_iff, List.all_eq_true]

theorem isArg_of_plain {t : Text} (hne : t ≠ []) (h : t.all isPlain = true) : IsArg t where
  nonempty := hne
  noQuote := by
    intro hmem
    have hquote := List.all_eq_true.mp h '"' hmem
    revert hquote
    decide

/-- The texts that a condition on a parameter or a header can be written as. -/
theorem ParamHeaderCondition.parts_cases (cond : ParamHeaderCondition) : (cond.mode ≠ .exists ∧ cond.mode ≠ .contains ∧
      cond.parts = [cond.source.name ++ (quotedArg (escape (trim cond.path)) ++
        (" == ".toList ++ buildExprLiteral .eq cond.value))]) ∨ (cond.source = .header ∧ cond.mode = .exists ∧
      cond.parts = [Source.header.name ++ (quotedArg (escape (trim cond.path)) ++ " != \"\"".toList)]) ∨
    (cond.source = .param ∧ cond.mode = .exists ∧ cond.parts = [presentText (escape (trim cond.path))]) ∨
    (cond.source = .header ∧ cond.mode = .contains ∧
      cond.parts = [hasText .header (escape (trim cond.path)) (trim cond.value)]) ∨
    (cond.source = .param ∧ cond.mode ≠ .exists ∧ cond.mode ≠ .eq ∧
      ∃ second, cond.parts = [presentText (escape (trim cond.path)), second]) := by
  cases hm : cond.mode <;> cases hs : cond.source <;>
    simp [ParamHeaderCondition.parts, ParamHeaderCondition.normalize, hm, hs, Source.matchOptions, MatchMode.order?]

/-- Every text of a condition on a parameter or a header starts with its call. -/
theorem ParamHeaderCondition.build_start (h : cond.complete = true) :
    ∃ t, buildParamHeaderExpr cond = cond.source.name ++ t ∨ buildParamHeaderExpr cond = "has(".toList ++ t := by
  rw [ParamHeaderCondition.build_eq h]
  rcases cond.parts_cases with ⟨-, -, hparts⟩ | ⟨hs, -, hparts⟩ | ⟨hs, -, hparts⟩ | ⟨-, -, hparts⟩ |
    ⟨hs, -, -, second, hparts⟩
  · exact ⟨_, .inl (by rw [hparts, List.intercalate_singleton])⟩
  · exact ⟨_, .inl (by rw [hparts, List.intercalate_singleton, hs])⟩
  · exact ⟨_, .inl (by rw [hparts, List.intercalate_singleton, hs]; rfl)⟩
  · exact ⟨_, .inr (by rw [hparts, List.intercalate_singleton]; rfl)⟩
  · refine ⟨quotedArg (escape (trim cond.path)) ++ (" != nil".toList ++ (" && ".toList ++ second)), .inl ?_⟩
    rw [hparts, hs]
    simp [presentText]

theorem ParamHeaderCondition.readTimeFunc_build (h : cond.complete = true) (tail : Text) :
    readTimeFunc (buildParamHeaderExpr cond ++ tail) = none := by
  obtain ⟨t, ht | ht⟩ := ParamHeaderCondition.build_start h
  · rw [ht, List.append_assoc]
    cases cond.source with
    | param => exact readTimeFunc_param _
    | header => exact readTimeFunc_header _
  · rw [ht, List.append_assoc]
    exact readTimeFunc_has _

theorem ParamHeaderCondition.tryParseTime_build (h : cond.complete = true) (tail : Text) :
    tryParseTimeCondition (buildParamHeaderExpr cond ++ tail) = none := by
  obtain ⟨t, ht | ht⟩ := ParamHeaderCondition.build_start h
  · rw [ht, List.append_assoc]
    exact tryParseTimeCondition_source _ _
  · rw [ht, List.append_assoc]
    exact tryParseTimeCondition_has _

variable {conds : List RequestCondition}

theorem ParamHeaderCondition.parse_parts (h : cond.complete = true) {rest : List Text} :
    parseConditionParts structured (cond.parts ++ rest) = .ok (.paramHeader cond.trimmed :: conds) ↔
      cond.reopens = true ∧ parseConditionParts structured rest = .ok conds := by
  have hpath : trim cond.path ≠ [] := by
    unfold ParamHeaderCondition.complete at h
    rw [Bool.and_eq_true] at h
    exact of_decide_eq_true h.1
  have hpart := ParamHeaderCondition.part h
  by_cases hq : '"' ∈ trim cond.path
  · -- no path with a quote is read, and such a path is not plain
    refine iff_of_false ?_ ?_
    · intro hparse
      obtain ⟨first, more, hmore⟩ := List.exists_cons_of_ne_nil
        (RequestCondition.parts_ne_nil (.paramHeader cond))
      have hparts : cond.parts = first :: more := hmore
      rw [hparts, List.cons_append, parseConditionParts_paramHeader] at hparse
      exact (tryParse_paramHeader_isArg hparse.1).noQuote hq
    · rintro ⟨hreopens, -⟩
      unfold ParamHeaderCondition.reopens at hreopens
      rw [Bool.and_eq_true] at hreopens
      exact (isArg_of_plain hpath hreopens.1).noQuote hq
  · have ha := isArg_escape hpath hq
    have hplain := escape_plain (t := trim cond.path)
    have hnil : [] = trim cond.value ↔ trim cond.value = [] := eq_comm
    have hexists (hm : cond.mode ≠ .exists) (more : List Text) :
        parseConditionParts structured (presentText (escape (trim cond.path)) :: more) ≠
          .ok (.paramHeader cond.trimmed :: conds) := by
      intro hparse
      rw [parseConditionParts_paramHeader, trim_part (part_present _)] at hparse
      have hread : tryParseRequestCondition structured (presentText (escape (trim cond.path))) = _ :=
        tryParse_paramExists ha
      rw [hread] at hparse
      have hmode := hparse.1
      simp only [ParamHeaderCondition.trimmed, Except.ok.injEq, RequestCondition.paramHeader.injEq,
        ParamHeaderCondition.mk.injEq] at hmode
      exact hm hmode.2.2.1.symm
    unfold ParamHeaderCondition.reopens
    rcases cond.parts_cases with ⟨hm₁, hm₂, hparts⟩ | ⟨hs, hm, hparts⟩ | ⟨hs, hm, hparts⟩ |
      ⟨hs, hm, hparts⟩ | ⟨hs, hm₁, hm₂, second, hparts⟩
    · rw [hparts] at hpart ⊢
      rw [List.singleton_append, parseConditionParts_paramHeader,
        trim_part (hpart _ List.mem_cons_self), tryParse_eq ha]
      refine and_congr_left' ?_
      by_cases hsep : ((trim cond.value).all fun c => !isSeparator c) = true
      · rw [if_pos hsep]
        unfold ParamHeaderCondition.trimmed
        revert hm₁ hm₂
        cases hm : cond.mode <;> simp [hsep, ← hplain]
      · rw [if_neg hsep]
        refine iff_of_false (fun h => nomatch h) ?_
        intro hreopens
        revert hm₁ hm₂ hreopens
        cases hm : cond.mode <;> simp_all
    · rw [hparts] at hpart ⊢
      rw [List.singleton_append, parseConditionParts_paramHeader,
        trim_part (hpart _ List.mem_cons_self), tryParse_headerExists ha]
      refine and_congr_left' ?_
      simp [ParamHeaderCondition.trimmed, hs, hm, ← hplain, hnil]
    · rw [hparts] at hpart ⊢
      rw [List.singleton_append, parseConditionParts_paramHeader, trim_part (part_present _)]
      have hread : tryParseRequestCondition structured (presentText (escape (trim cond.path))) = _ :=
        tryParse_paramExists ha
      rw [hread]
      refine and_congr_left' ?_
      simp [ParamHeaderCondition.trimmed, hs, hm, ← hplain, hnil]
    · rw [hparts] at hpart ⊢
      rw [List.singleton_append, parseConditionParts_paramHeader, trim_part (hpart _ List.mem_cons_self)]
      have hread : tryParseRequestCondition structured
          (hasText .header (escape (trim cond.path)) (trim cond.value)) = _ := tryParse_has ha _
      rw [hread]
      refine and_congr_left' ?_
      simp [ParamHeaderCondition.trimmed, hs, hm, ← hplain]
    · rw [hparts]
      refine iff_of_false (hexists hm₁ _) ?_
      rintro ⟨hreopens, -⟩
      revert hreopens
      cases hm : cond.mode <;> simp_all

theorem ParamHeaderCondition.includes_build (h : cond.complete = true) (hreopens : cond.reopens = true) :
    includes (buildParamHeaderExpr cond) " || ".toList = !RequestCondition.quiet (.paramHeader cond) := by
  have hquiet : (!RequestCondition.quiet (.paramHeader cond)) =
      (includes (trim cond.path) " || ".toList || includes (trim cond.value) " || ".toList) := by
    simp [RequestCondition.quiet]
  have hnone : includes [] " || ".toList = false := by decide
  unfold ParamHeaderCondition.reopens at hreopens
  rw [Bool.and_eq_true] at hreopens
  rw [hquiet, ParamHeaderCondition.build_eq h]
  rcases cond.parts_cases with ⟨-, -, hparts⟩ | ⟨-, hm, hparts⟩ | ⟨-, hm, hparts⟩ | ⟨-, -, hparts⟩ |
    ⟨hs, hm₁, hm₂, -⟩
  · rw [hparts, List.intercalate_singleton, includes_eqText, includes_escape]
  · have hvalue : trim cond.value = [] := by simpa [hm] using hreopens.2
    have htail : includes (')' :: " != \"\"".toList) " || ".toList = false := by decide
    rw [hparts, List.intercalate_singleton, includes_call (bar_notMem_source .header), includes_escape,
      hvalue, hnone, htail]
  · have hvalue : trim cond.value = [] := by simpa [hm] using hreopens.2
    have htail : includes (')' :: " != nil".toList) " || ".toList = false := by decide
    rw [hparts, List.intercalate_singleton]
    unfold presentText
    rw [includes_call (bar_notMem_source .param), includes_escape, hvalue, hnone, htail]
  · rw [hparts, List.intercalate_singleton, includes_hasText, includes_escape]
  · exfalso
    have hmode := hreopens.2
    revert hmode
    cases hm : cond.mode <;> simp_all

/-- A condition on a parameter or a header is read back, alone or next to others. -/
theorem ParamHeaderCondition.parse_textParts (alone : Bool) (h : cond.complete = true) {rest : List Text} :
    parseConditionParts structured ((RequestCondition.paramHeader cond).textParts alone ++ rest) =
        .ok (.paramHeader cond.trimmed :: conds) ↔
      (cond.reopens = true ∧ (alone = false → RequestCondition.quiet (.paramHeader cond) = true)) ∧
        parseConditionParts structured rest = .ok conds := by
  by_cases hwrap : alone = false ∧ includes (buildParamHeaderExpr cond) " || ".toList = true
  · have htext : (RequestCondition.paramHeader cond).textParts alone =
        ['(' :: (buildParamHeaderExpr cond ++ [')'])] := if_pos hwrap
    have hcomplete : (RequestCondition.paramHeader cond).complete = true := h
    have hpart : Part ('(' :: (buildParamHeaderExpr cond ++ [')'])) :=
      RequestCondition.textPart alone hcomplete _ (htext ▸ List.mem_cons_self)
    rw [htext]
    refine iff_of_false ?_ ?_
    · intro hparse
      rw [List.singleton_append, parseConditionParts_paramHeader, trim_part hpart] at hparse
      have hread : tryParseRequestCondition structured ('(' :: (buildParamHeaderExpr cond ++ [')'])) =
          .error .null := by
        refine tryParse_paren (tryParseTimeCondition_none (readTimeFunc_paren _) ?_)
        intro inner hinner
        cases hinner
        exact ParamHeaderCondition.readTimeFunc_build h [')']
      rw [hread] at hparse
      cases hparse.1
    · rintro ⟨⟨hreopens, hquiet⟩, -⟩
      have hin := hwrap.2
      rw [ParamHeaderCondition.includes_build h hreopens, hquiet hwrap.1] at hin
      cases hin
  · have htext : (RequestCondition.paramHeader cond).textParts alone = cond.parts := if_neg hwrap
    rw [htext, ParamHeaderCondition.parse_parts h]
    refine and_congr_left' ?_
    constructor
    · intro hreopens
      refine ⟨hreopens, ?_⟩
      intro halone
      by_contra hquiet
      refine hwrap ⟨halone, ?_⟩
      rw [ParamHeaderCondition.includes_build h hreopens, Bool.not_eq_true _ |>.mp hquiet]
      rfl
    · exact And.left

end ParamHeader

/-! ## Times -/

section Time

variable {structured : Text → Option Text} {cond : TimeCondition} {rest : List Text}
  {conds : List RequestCondition}

/-- A text that is read as an upper bound of the same time. -/
def TimeCondition.Follows (cond : TimeCondition) (next : Text) : Prop :=
  cond.mode = .gte ∧ ∃ b, tryParseTimeCondition next = some b ∧ cond.timeFunc = b.timeFunc ∧
    cond.timezone = b.timezone ∧ b.mode = .lt

theorem parse_time_isArg {part : Text}
    (h : parseConditionParts structured (part :: rest) = .ok (.time cond :: conds)) : IsArg cond.timezone := by
  rcases parseConditionParts_cons.mp h with ⟨next, rest', range, -, hpair, hcond, -⟩ | ⟨-, hparse, -⟩
  · cases hcond
    obtain ⟨a, b, ha, -, -, rfl⟩ := tryParseTimeRangePair_some.mp hpair
    have hzone := tryParseTimeCondition_isArg ha
    exact hzone
  · exact tryParseTimeCondition_isArg (tryParse_time_inv hparse)

theorem TimeCondition.isArg_of_reopens (h : cond.reopens = true) : IsArg cond.timezone := by
  unfold TimeCondition.reopens at h
  simp only [Bool.and_eq_true, decide_eq_true_eq] at h
  exact isArg_of_plain h.1.1 h.1.2

theorem TimeCondition.normalize_timezone (h : IsArg cond.timezone) :
    cond.normalize.timezone = cond.timezone := if_neg h.nonempty

/-- A text that is read as a time and does not merge with what follows. -/
theorem parse_single {part : Text} {found : TimeCondition} (hpart : trim part = part)
    (hfound : tryParseTimeCondition part = some found) (hmode : cond.mode ≠ .range ∨ found.mode ≠ .gte) :
    parseConditionParts structured (part :: rest) = .ok (.time cond :: conds) ↔
      found = cond ∧ (∀ next ∈ rest.head?, ¬cond.Follows (trim next)) ∧
        parseConditionParts structured rest = .ok conds := by
  have hpair : ∀ next range, tryParseTimeRangePair (trim part) (trim next) = some range ↔
      found.Follows (trim next) ∧ ∃ b, tryParseTimeCondition (trim next) = some b ∧
        range = ⟨found.timeFunc, found.timezone, .range, [], found.value, b.value⟩ := by
    intro next range
    rw [tryParseTimeRangePair_some, hpart, hfound]
    constructor
    · rintro ⟨a, b, ha, hb, ⟨hf, hz, hgte, hlt⟩, rfl⟩
      cases ha
      exact ⟨⟨hgte, b, hb, hf, hz, hlt⟩, b, hb, rfl⟩
    · rintro ⟨⟨hgte, b, hb, hf, hz, hlt⟩, b', hb', rfl⟩
      rw [hb] at hb'
      cases hb'
      exact ⟨found, b, rfl, hb, ⟨hf, hz, hgte, hlt⟩, rfl⟩
  have hnone : ∀ next, tryParseTimeRangePair (trim part) (trim next) = none ↔ ¬found.Follows (trim next) := by
    intro next
    rw [Option.eq_none_iff_forall_ne_some]
    constructor
    · intro hno hfollows
      obtain ⟨-, b, hb, -⟩ := id hfollows
      exact hno _ ((hpair next _).mpr ⟨hfollows, b, hb, rfl⟩)
    · intro hno range hrange
      exact hno ((hpair next range).mp hrange).1
  rw [parseConditionParts_cons]
  constructor
  · rintro (⟨next, rest', range, -, hrange, hcond, -⟩ | ⟨hno, hparse, hrest⟩)
    · exfalso
      cases hcond
      obtain ⟨hfollows, b, -, hmk⟩ := (hpair next cond).mp hrange
      rcases hmode with hmode | hmode
      · exact hmode (hmk ▸ rfl)
      · exact hmode hfollows.1
    · have heq := tryParse_time_inv hparse
      rw [hpart, hfound] at heq
      cases heq
      exact ⟨rfl, fun next hnext => (hnone next).mp (hno next hnext), hrest⟩
  · rintro ⟨rfl, hno, hrest⟩
    refine .inr ⟨fun next hnext => (hnone next).mpr (hno next hnext), ?_, hrest⟩
    rw [hpart]
    exact tryParse_time hfound

/-- The bounds that are read are those of the condition exactly when it reopens. -/
theorem TimeCondition.found_bound (hmode : cond.mode ≠ .range) :
    (⟨cond.timeFunc, escape cond.timezone, cond.normalize.mode, trim cond.value, [], []⟩ : TimeCondition) =
        cond.trimmed ∧ cond.timezone ≠ [] ↔ cond.reopens = true := by
  have hs : [] = trim cond.rangeStart ↔ trim cond.rangeStart = [] := eq_comm
  have he : [] = trim cond.rangeEnd ↔ trim cond.rangeEnd = [] := eq_comm
  have hplain := escape_plain (t := cond.timezone)
  unfold TimeCondition.reopens TimeCondition.trimmed TimeCondition.normalize
  simp only [TimeCondition.mk.injEq, hplain, hs, he]
  revert hmode
  cases hm : cond.mode <;> simp [timeMatchOptions] <;> tauto

theorem TimeCondition.found_range (hmode : cond.mode = .range) :
    (⟨cond.timeFunc, escape cond.timezone, .range, [], trim cond.rangeStart, trim cond.rangeEnd⟩ :
        TimeCondition) = cond.trimmed ∧ cond.timezone ≠ [] ↔ cond.reopens = true := by
  have hv : [] = trim cond.value ↔ trim cond.value = [] := eq_comm
  have hplain := escape_plain (t := cond.timezone)
  unfold TimeCondition.reopens TimeCondition.trimmed
  simp only [TimeCondition.mk.injEq, hplain, hv, hmode]
  simp
  tauto

theorem TimeCondition.normalize_scalar (hmode : cond.mode ≠ .range) :
    cond.normalize.mode = .eq ∨ cond.normalize.mode = .gte ∨ cond.normalize.mode = .lt := by
  unfold TimeCondition.normalize
  revert hmode
  cases hm : cond.mode <;> simp [timeMatchOptions]

theorem TimeCondition.build_range (h : cond.complete = true) (hmode : cond.mode = .range) :
    ∃ sep, (sep = " && ".toList ∨ sep = " || ".toList) ∧ buildTimeConditionExpr cond =
      rangeText cond.timeFunc (escape cond.normalize.timezone) sep (trim cond.rangeStart) (trim cond.rangeEnd) := by
  rw [TimeCondition.build_eq h]
  unfold TimeCondition.parts
  dsimp only
  rw [if_pos (cond.normalize_range.mpr hmode)]
  split_ifs
  · exact ⟨_, .inr rfl, List.intercalate_singleton⟩
  · refine ⟨_, .inl rfl, ?_⟩
    simp [boundText, rangeText, timeOperator]

theorem TimeCondition.build_bound (h : cond.complete = true) (hmode : cond.mode ≠ .range) :
    buildTimeConditionExpr cond = boundText cond.timeFunc (escape cond.normalize.timezone)
      cond.normalize.mode (trim cond.value) := by
  rw [TimeCondition.build_eq h]
  unfold TimeCondition.parts
  dsimp only
  rw [if_neg fun hr => hmode (cond.normalize_range.mp hr), List.intercalate_singleton]

variable (alone : Bool)

theorem TimeCondition.trim_textParts (h : cond.complete = true) :
    ∀ text ∈ (RequestCondition.time cond).textParts alone, trim text = text := by
  intro text htext
  have hcomplete : (RequestCondition.time cond).complete = true := h
  exact trim_part (RequestCondition.textPart alone hcomplete text htext)

theorem TimeCondition.parse_range (h : cond.complete = true) (hmode : cond.mode = .range)
    (hzone : IsArg cond.timezone) :
    parseConditionParts structured ((RequestCondition.time cond).textParts alone ++ rest) =
        .ok (.time cond.trimmed :: conds) ↔ cond.reopens = true ∧ parseConditionParts structured rest = .ok conds := by
  have ha := isArg_escape hzone.nonempty hzone.noQuote
  have hcomplete := h
  unfold TimeCondition.complete at hcomplete
  rw [if_pos hmode, Bool.and_eq_true] at hcomplete
  obtain ⟨hs, he⟩ := hcomplete
  have hpart := TimeCondition.trim_textParts alone h
  have hnotGte : ∀ next, ¬cond.trimmed.Follows next := by
    rintro next ⟨hgte, -⟩
    rw [TimeCondition.trimmed, hmode] at hgte
    cases hgte
  have hfound := TimeCondition.found_range hmode
  rw [and_iff_left hzone.nonempty] at hfound
  have hsingle {text : Text} (htext : (RequestCondition.time cond).textParts alone = [text])
      (hread : tryParseTimeCondition text = some ⟨cond.timeFunc, escape cond.timezone, .range, [],
        trim cond.rangeStart, trim cond.rangeEnd⟩) :
      parseConditionParts structured ((RequestCondition.time cond).textParts alone ++ rest) =
          .ok (.time cond.trimmed :: conds) ↔
        cond.reopens = true ∧ parseConditionParts structured rest = .ok conds := by
    have htrim := hpart text (htext ▸ List.mem_cons_self)
    rw [htext, List.singleton_append, parse_single htrim hread (.inr (fun h => nomatch h)), hfound]
    refine and_congr_right' (and_iff_right ?_)
    exact fun next _ => hnotGte (trim next)
  by_cases hwrap : alone = false ∧ includes (buildTimeConditionExpr cond) " || ".toList = true
  · obtain ⟨sep, hsep, hbuild⟩ := TimeCondition.build_range h hmode
    refine hsingle (if_pos hwrap) ?_
    show tryParseTimeCondition ('(' :: (buildTimeConditionExpr cond ++ [')'])) = _
    rw [hbuild, TimeCondition.normalize_timezone hzone]
    exact tryParseTimeCondition_wrappedRange ha hs he hsep
  · have htext : (RequestCondition.time cond).textParts alone = cond.parts := if_neg hwrap
    have hparts : cond.parts = if cond.overnight then
        [rangeText cond.timeFunc (escape cond.timezone) " || ".toList (trim cond.rangeStart)
          (trim cond.rangeEnd)]
        else [boundText cond.timeFunc (escape cond.timezone) .gte (trim cond.rangeStart),
          boundText cond.timeFunc (escape cond.timezone) .lt (trim cond.rangeEnd)] := by
      unfold TimeCondition.parts
      dsimp only
      rw [if_pos (cond.normalize_range.mpr hmode), TimeCondition.normalize_timezone hzone]
    split_ifs at hparts
    · exact hsingle (htext.trans hparts) (tryParseTimeCondition_range ha hs he (.inr rfl))
    · have hlower := hpart _ (htext.trans hparts ▸ List.mem_cons_self)
      have hupper := hpart _ (htext.trans hparts ▸ List.mem_cons_of_mem _ List.mem_cons_self)
      have hpair : tryParseTimeRangePair
          (trim (boundText cond.timeFunc (escape cond.timezone) .gte (trim cond.rangeStart)))
          (trim (boundText cond.timeFunc (escape cond.timezone) .lt (trim cond.rangeEnd))) =
          some ⟨cond.timeFunc, escape cond.timezone, .range, [], trim cond.rangeStart,
            trim cond.rangeEnd⟩ := by
        rw [hlower, hupper, tryParseTimeRangePair_some]
        exact ⟨_, _, tryParseTimeCondition_bound ha hs (.inr (.inl rfl)),
          tryParseTimeCondition_bound ha he (.inr (.inr rfl)), ⟨rfl, rfl, rfl, rfl⟩, rfl⟩
      rw [htext, hparts, List.cons_append, List.singleton_append, parseConditionParts_pair hpair,
        bind_cons_ok, RequestCondition.time.injEq, hfound]

theorem TimeCondition.parse_bound (h : cond.complete = true) (hmode : cond.mode ≠ .range)
    (hzone : IsArg cond.timezone) :
    parseConditionParts structured ((RequestCondition.time cond).textParts alone ++ rest) =
        .ok (.time cond.trimmed :: conds) ↔
      (cond.reopens = true ∧ (alone = false → RequestCondition.quiet (.time cond) = true)) ∧
        (∀ next ∈ rest.head?, ¬cond.Follows (trim next)) ∧ parseConditionParts structured rest = .ok conds := by
  have ha := isArg_escape hzone.nonempty hzone.noQuote
  have hv := h
  unfold TimeCondition.complete at hv
  rw [if_neg hmode] at hv
  have hscalar := TimeCondition.normalize_scalar hmode
  have hfound := TimeCondition.found_bound hmode
  rw [and_iff_left hzone.nonempty] at hfound
  have hparts : cond.parts = [boundText cond.timeFunc (escape cond.timezone) cond.normalize.mode
      (trim cond.value)] := by
    unfold TimeCondition.parts
    dsimp only
    rw [if_neg fun hr => hmode (cond.normalize_range.mp hr), TimeCondition.normalize_timezone hzone]
  have hbuild := TimeCondition.build_bound h hmode
  rw [TimeCondition.normalize_timezone hzone] at hbuild
  have hquiet : RequestCondition.quiet (.time cond) = !includes (buildTimeConditionExpr cond) " || ".toList := by
    rw [hbuild, includes_boundText _ _ _ (isNumber_of_inRange hv), includes_escape]
    simp [RequestCondition.quiet, hmode]
  have hpart := TimeCondition.trim_textParts alone h
  by_cases hwrap : alone = false ∧ includes (buildTimeConditionExpr cond) " || ".toList = true
  · have htext : (RequestCondition.time cond).textParts alone =
        ['(' :: (buildTimeConditionExpr cond ++ [')'])] := if_pos hwrap
    have hread : tryParseTimeCondition ('(' :: (buildTimeConditionExpr cond ++ [')'])) = none := by
      rw [hbuild]
      exact tryParseTimeCondition_wrappedBound ha hv
    have htrim := hpart _ (htext ▸ List.mem_cons_self)
    refine iff_of_false ?_ ?_
    · rw [htext, List.singleton_append, parseConditionParts_cons, htrim]
      rintro (⟨next, rest', range, -, hpair, -⟩ | ⟨-, hparse, -⟩)
      · obtain ⟨a, b, hread', -⟩ := tryParseTimeRangePair_some.mp hpair
        rw [hread] at hread'
        cases hread'
      · rw [tryParse_paren hread] at hparse
        cases hparse
    · rintro ⟨⟨-, halone⟩, -⟩
      have hno := halone hwrap.1
      rw [hquiet, hwrap.2] at hno
      cases hno
  · have htext : (RequestCondition.time cond).textParts alone = cond.parts := if_neg hwrap
    have htrim := hpart _ (htext.trans hparts ▸ List.mem_cons_self)
    have hread := tryParseTimeCondition_bound ha hv hscalar
    have hquiet' : alone = false → RequestCondition.quiet (.time cond) = true := by
      intro halone
      rw [hquiet]
      by_contra hin
      exact hwrap ⟨halone, by simpa using hin⟩
    have hmode' : cond.trimmed.mode ≠ .range := hmode
    rw [htext, hparts, List.singleton_append, parse_single htrim hread (.inl hmode'), hfound, and_iff_left hquiet']
    exact Iff.rfl

/-- A time is read back, alone or next to others, if what follows does not make a range of it. -/
theorem TimeCondition.parse_textParts (h : cond.complete = true) :
    parseConditionParts structured ((RequestCondition.time cond).textParts alone ++ rest) =
        .ok (.time cond.trimmed :: conds) ↔
      (cond.reopens = true ∧ (alone = false → RequestCondition.quiet (.time cond) = true)) ∧
        (∀ next ∈ rest.head?, ¬cond.Follows (trim next)) ∧ parseConditionParts structured rest = .ok conds := by
  by_cases hzone : IsArg cond.timezone
  · by_cases hmode : cond.mode = .range
    · have hquiet : RequestCondition.quiet (.time cond) = true := by
        simp [RequestCondition.quiet, hmode]
      have hnotGte : ∀ next ∈ rest.head?, ¬cond.Follows (trim next) := by
        rintro next - ⟨hgte, -⟩
        rw [hmode] at hgte
        cases hgte
      rw [TimeCondition.parse_range alone h hmode hzone, and_iff_left (fun _ => hquiet), and_iff_right hnotGte]
    · exact TimeCondition.parse_bound alone h hmode hzone
  · refine iff_of_false ?_ ?_
    · intro hparse
      obtain ⟨first, more, hmore⟩ := List.exists_cons_of_ne_nil
        (RequestCondition.textParts_ne_nil alone (.time cond))
      rw [hmore, List.cons_append] at hparse
      have hzone' : IsArg cond.trimmed.timezone := parse_time_isArg hparse
      exact hzone hzone'
    · rintro ⟨⟨hreopens, -⟩, -⟩
      exact hzone (TimeCondition.isArg_of_reopens hreopens)

end Time

/-! ## The conditions of a group -/

section Conditions

variable {structured : Text → Option Text} {cond : RequestCondition} {conds : List RequestCondition}

def RequestCondition.Follows : RequestCondition → Text → Prop
  | .time cond, next => cond.Follows next
  | .paramHeader _, _ => False

/-- The condition is read back where it stands, whatever follows. -/
def RequestCondition.Kept (alone : Bool) (cond : RequestCondition) : Prop :=
  cond.reopens = true ∧ (alone = false → cond.quiet = true)

theorem RequestCondition.parse_textParts (alone : Bool) (h : cond.complete = true) {rest : List Text} :
    parseConditionParts structured (cond.textParts alone ++ rest) = .ok (cond.trimmed :: conds) ↔
      cond.Kept alone ∧ (∀ next ∈ rest.head?, ¬cond.Follows (trim next)) ∧
        parseConditionParts structured rest = .ok conds := by
  cases cond with
  | time cond => exact TimeCondition.parse_textParts alone h
  | paramHeader cond =>
    refine (ParamHeaderCondition.parse_textParts alone h).trans ?_
    have hfollows : ∀ next ∈ rest.head?, ¬(RequestCondition.paramHeader cond).Follows (trim next) :=
      fun _ _ hf => hf
    rw [and_iff_right hfollows]
    exact Iff.rfl

variable {next : RequestCondition}

/-- The first part of what is read back says whether a lower bound before it would merge. -/
theorem RequestCondition.follows_iff (alone : Bool) (h : next.complete = true) (hkept : next.Kept alone)
    {first : Text} {more : List Text} (hfirst : next.textParts alone = first :: more) :
    cond.Follows (trim first) ↔ cond.merges next = true := by
  have hparse : parseConditionParts (fun _ => none) (next.textParts alone ++ []) = .ok [next.trimmed] :=
    (RequestCondition.parse_textParts alone h).mpr ⟨hkept, (fun _ hn => nomatch hn), rfl⟩
  rw [hfirst, List.cons_append] at hparse
  cases cond with
  | paramHeader cond => exact iff_of_false (fun hf => hf) (fun hm => nomatch hm)
  | time cond =>
    show cond.Follows (trim first) ↔ _
    unfold TimeCondition.Follows
    cases next with
    | paramHeader next =>
      refine iff_of_false ?_ (fun hm => nomatch hm)
      rintro ⟨-, b, hb, -⟩
      rcases parseConditionParts_cons.mp hparse with ⟨_, _, _, -, -, hcond, -⟩ | ⟨-, hread, -⟩
      · cases hcond
      · rw [tryParse_time hb] at hread
        cases hread
    | time next =>
      have hread : ∃ b, tryParseTimeCondition (trim first) = some b ∧ b.timeFunc = next.timeFunc ∧
          b.timezone = next.timezone ∧ (b.mode = .lt ↔ next.mode = .lt) := by
        rcases parseConditionParts_cons.mp hparse with ⟨_, _, range, -, hpair, hcond, -⟩ | ⟨-, hread, -⟩
        · -- a range within a day is read from its two bounds, of which the lower is first
          obtain ⟨a, b, ha, -, ⟨-, -, hgte, -⟩, hrange⟩ := tryParseTimeRangePair_some.mp hpair
          rw [RequestCondition.trimmed, RequestCondition.time.injEq, hrange] at hcond
          simp only [TimeCondition.trimmed, TimeCondition.mk.injEq] at hcond
          refine ⟨a, ha, hcond.1, hcond.2.1, ?_⟩
          rw [hgte, ← hcond.2.2.1]
          decide
        · exact ⟨next.trimmed, tryParse_time_inv hread, rfl, rfl, Iff.rfl⟩
      obtain ⟨b, hb, hfunc, hzone, hlt⟩ := hread
      rw [hb]
      simp only [RequestCondition.merges, Bool.and_eq_true, decide_eq_true_eq, Option.some.injEq,
        exists_eq_left', hfunc, hzone, hlt]
      tauto

/-- The loop gives the conditions back exactly when each is kept and no two merge. -/
theorem parse_conditions (alone : Bool) (h : ∀ cond ∈ conds, cond.complete = true) :
    parseConditionParts structured (conds.flatMap (RequestCondition.textParts alone)) =
        .ok (conds.map RequestCondition.trimmed) ↔
      (∀ cond ∈ conds, cond.Kept alone) ∧ conds.IsChain fun a b => a.merges b = false := by
  induction conds with
  | nil => exact iff_of_true rfl ⟨List.forall_mem_nil _, .nil⟩
  | cons cond conds ih =>
    rw [List.forall_mem_cons] at h
    rw [List.flatMap_cons, List.map_cons, RequestCondition.parse_textParts alone h.1, ih h.2, List.forall_mem_cons]
    cases conds with
    | nil => simp
    | cons next conds =>
      obtain ⟨first, more, hfirst⟩ := List.exists_cons_of_ne_nil (next.textParts_ne_nil alone)
      have hhead : ((next :: conds).flatMap (RequestCondition.textParts alone)).head? = some first := by
        rw [List.flatMap_cons, hfirst]
        rfl
      rw [List.isChain_cons_cons, hhead]
      have hfollows (hkept : next.Kept alone) : (∀ text ∈ some first, ¬cond.Follows (trim text)) ↔
          cond.merges next = false := by
        have hiff : cond.Follows (trim first) ↔ cond.merges next = true :=
          RequestCondition.follows_iff alone (h.2 next List.mem_cons_self) hkept hfirst
        simp [hiff]
      constructor
      · rintro ⟨hkept, hno, hall, hchain⟩
        exact ⟨⟨hkept, hall⟩, (hfollows (hall next List.mem_cons_self)).mp hno, hchain⟩
      · rintro ⟨⟨hkept, hall⟩, hno, hchain⟩
        exact ⟨hkept, (hfollows (hall next List.mem_cons_self)).mpr hno, hall, hchain⟩

theorem time_call_inj {f g : TimeFunc} {a b x y : Text} (ha : IsArg a) (hb : IsArg b)
    (h : f.name ++ (quotedArg a ++ x) = g.name ++ (quotedArg b ++ y)) : f = g ∧ a = b ∧ x = y := by
  have hfunc : readTimeFunc (f.name ++ (quotedArg a ++ x)) = some (f, quotedArg a ++ x) :=
    readTimeFunc_name f x
  rw [h, readTimeFunc_name, Option.some.injEq, Prod.mk.injEq] at hfunc
  have harg := readArgument_quotedArg ha x
  rw [← hfunc.2, readArgument_quotedArg hb, Option.some.injEq, Prod.mk.injEq] at harg
  exact ⟨hfunc.1.symm, harg.1.symm, harg.2.symm⟩

theorem RequestCondition.upper_of_text {f : TimeFunc} {a more e : Text} (ha : IsArg a)
    (h : cond.complete = true) (hkept : cond.Kept false)
    (htext : wrapOr (buildRequestConditionExpr cond) ++ more = f.name ++ (quotedArg a ++ (" < ".toList ++ e))) :
    ∃ upper, cond = .time upper ∧ upper.timeFunc = f ∧ upper.timezone = a ∧ upper.mode = .lt := by
  unfold wrapOr at htext
  split_ifs at htext
  · exact absurd htext.symm (name_ne_paren f _ _)
  cases cond with
  | paramHeader cond =>
    have hread := ParamHeaderCondition.readTimeFunc_build h more
    rw [show buildParamHeaderExpr cond ++ more = _ from htext, readTimeFunc_name] at hread
    cases hread
  | time cond =>
    have hzone := TimeCondition.isArg_of_reopens hkept.1
    have ha' := isArg_escape hzone.nonempty hzone.noQuote
    by_cases hmode : cond.mode = .range
    · exfalso
      obtain ⟨sep, -, hbuild⟩ := TimeCondition.build_range h hmode
      rw [TimeCondition.normalize_timezone hzone] at hbuild
      rw [show buildRequestConditionExpr (.time cond) = _ from hbuild] at htext
      unfold rangeText at htext
      rw [List.append_assoc, List.append_assoc] at htext
      obtain ⟨-, -, hop⟩ := time_call_inj ha' ha htext
      cases hop
    · have hfound := (TimeCondition.found_bound hmode).mpr hkept.1
      simp only [TimeCondition.trimmed, TimeCondition.mk.injEq] at hfound
      have hbuild := TimeCondition.build_bound h hmode
      rw [TimeCondition.normalize_timezone hzone] at hbuild
      rw [show buildRequestConditionExpr (.time cond) = _ from hbuild] at htext
      unfold boundText at htext
      rw [List.append_assoc, List.append_assoc] at htext
      obtain ⟨hfunc, harg, hop⟩ := time_call_inj ha' ha htext
      refine ⟨cond, rfl, hfunc, hfound.1.2.1.symm.trans harg, ?_⟩
      rw [hfound.1.2.2.1] at hop
      revert hop
      cases cond.mode <;> simp [timeOperator]

/-- Two conditions that do not merge are not read as one time. -/
theorem tryParseTime_conditions (h : cond.complete = true) (hkept : cond.Kept false) (hnext : next.complete = true)
    (hkeptNext : next.Kept false) (hmerges : cond.merges next = false) (more : Text) :
    tryParseTimeCondition (wrapOr (buildRequestConditionExpr cond) ++
      (" && ".toList ++ (wrapOr (buildRequestConditionExpr next) ++ more))) = none := by
  have hupper {f : TimeFunc} {a e : Text} (ha : IsArg a)
      (htail : wrapOr (buildRequestConditionExpr next) ++ more = f.name ++ (quotedArg a ++ (" < ".toList ++ e))) :=
    RequestCondition.upper_of_text ha hnext hkeptNext htail
  generalize wrapOr (buildRequestConditionExpr next) ++ more = tail at hupper ⊢
  cases cond with
  | paramHeader cond =>
    have hquiet : ¬includes (buildRequestConditionExpr (.paramHeader cond)) " || ".toList = true := by
      show ¬includes (buildParamHeaderExpr cond) " || ".toList = true
      rw [ParamHeaderCondition.includes_build h hkept.1, hkept.2 rfl]
      decide
    unfold wrapOr
    rw [if_neg hquiet]
    exact ParamHeaderCondition.tryParseTime_build h _
  | time cond =>
    have hzone := TimeCondition.isArg_of_reopens hkept.1
    have ha := isArg_escape hzone.nonempty hzone.noQuote
    have hcomplete : cond.complete = true := h
    unfold TimeCondition.complete at hcomplete
    by_cases hmode : cond.mode = .range
    · rw [if_pos hmode, Bool.and_eq_true] at hcomplete
      obtain ⟨sep, hsep, hbuild⟩ := TimeCondition.build_range h hmode
      rw [TimeCondition.normalize_timezone hzone] at hbuild
      rw [show buildRequestConditionExpr (.time cond) = _ from hbuild]
      unfold wrapOr
      split_ifs
      · exact tryParseTimeCondition_wrappedRange_and ha hcomplete.1 hcomplete.2 hsep
      · exact tryParseTimeCondition_range_and ha hcomplete.1 hcomplete.2 hsep
    · rw [if_neg hmode] at hcomplete
      have hbuild := TimeCondition.build_bound h hmode
      rw [TimeCondition.normalize_timezone hzone] at hbuild
      have hquiet := hkept.2 rfl
      simp only [RequestCondition.quiet, hmode, decide_false, Bool.false_or, Bool.not_eq_true'] at hquiet
      have hfound := (TimeCondition.found_bound hmode).mpr hkept.1
      simp only [TimeCondition.trimmed, TimeCondition.mk.injEq] at hfound
      rw [show buildRequestConditionExpr (.time cond) = _ from hbuild]
      unfold wrapOr
      rw [includes_boundText _ _ _ (isNumber_of_inRange hcomplete), includes_escape, hquiet, if_neg Bool.false_ne_true]
      refine tryParseTimeCondition_bound_and ha hcomplete (TimeCondition.normalize_scalar hmode) ?_
      intro hgte e htail
      obtain ⟨upper, rfl, hfunc, hzoneUpper, hlt⟩ := hupper ha htail
      have hmode' : cond.mode = .gte := hfound.1.2.2.1.symm.trans hgte
      simp [RequestCondition.merges, hfunc, hzoneUpper, hlt, hmode', hfound.1.2.1] at hmerges

end Conditions

/-! ## Factors -/

section Factor

variable {structured : Text → Option Text} {group : RequestRuleGroup}

theorem RequestRuleGroup.kept_iff : group.Reopens ↔ group.conditions ≠ [] ∧
      (∀ cond ∈ group.conditions, cond.Kept (group.conditions.length = 1)) ∧
      group.conditions.IsChain fun a b => a.merges b = false := by
  unfold RequestRuleGroup.Reopens RequestCondition.Kept
  refine and_congr_right ?_
  intro hne
  have hpos : 0 < group.conditions.length := List.length_pos_iff.mpr hne
  have hlen : decide (group.conditions.length = 1) = false ↔ 1 < group.conditions.length := by
    rw [decide_eq_false_iff_not]
    omega
  rw [hlen]
  constructor
  · rintro ⟨hreopens, hquiet, hchain⟩
    exact ⟨fun cond hcond => ⟨hreopens cond hcond, fun hlt => hquiet hlt cond hcond⟩, hchain⟩
  · rintro ⟨hkept, hchain⟩
    exact ⟨fun cond hcond => (hkept cond hcond).1, fun hlt cond hcond => (hkept cond hcond).2 hlt, hchain⟩

theorem join_ne_nil {sep part : Text} (h : part ≠ []) (parts : List Text) : sep.intercalate (part :: parts) ≠ [] := by
  cases parts with
  | nil =>
    rw [List.intercalate_singleton]
    exact h
  | cons next parts =>
    rw [List.intercalate_cons_cons, List.append_assoc]
    exact List.append_ne_nil_of_left_ne_nil h _

theorem tight_join {sep : Text} {parts : List Text} (hne : parts ≠ []) (h : ∀ part ∈ parts, Part part) :
    Tight isSpace (sep.intercalate parts) := by
  induction parts with
  | nil => exact absurd rfl hne
  | cons part parts ih =>
    rw [List.forall_mem_cons] at h
    cases parts with
    | nil =>
      rw [List.intercalate_singleton]
      exact h.1.tight
    | cons next parts =>
      have htail := ih (List.cons_ne_nil _ _) h.2
      have hnil : sep.intercalate (next :: parts) ≠ [] :=
        join_ne_nil (h.2 next List.mem_cons_self).nonempty parts
      rw [List.intercalate_cons_cons]
      refine tight_append ?_ ?_ hnil htail.right
      · exact List.append_ne_nil_of_left_ne_nil h.1.nonempty _
      · intro c hc
        rw [List.head?_append_of_ne_nil _ h.1.nonempty] at hc
        exact h.1.tight.left c hc

theorem tryParseTime_build {cond found : TimeCondition} (h : cond.complete = true)
    (hfound : tryParseTimeCondition (buildTimeConditionExpr cond) = some found) :
    found = cond.trimmed ↔ cond.reopens = true := by
  by_cases hzone : IsArg cond.timezone
  · have ha := isArg_escape hzone.nonempty hzone.noQuote
    have hcomplete := h
    unfold TimeCondition.complete at hcomplete
    by_cases hmode : cond.mode = .range
    · rw [if_pos hmode, Bool.and_eq_true] at hcomplete
      obtain ⟨sep, hsep, hbuild⟩ := TimeCondition.build_range h hmode
      rw [hbuild, TimeCondition.normalize_timezone hzone,
        tryParseTimeCondition_range ha hcomplete.1 hcomplete.2 hsep] at hfound
      cases hfound
      rw [← TimeCondition.found_range hmode, and_iff_left hzone.nonempty]
    · rw [if_neg hmode] at hcomplete
      rw [TimeCondition.build_bound h hmode, TimeCondition.normalize_timezone hzone,
        tryParseTimeCondition_bound ha hcomplete (TimeCondition.normalize_scalar hmode)] at hfound
      cases hfound
      rw [← TimeCondition.found_bound hmode, and_iff_left hzone.nonempty]
  · refine iff_of_false ?_ ?_
    · rintro rfl
      have hzone' : IsArg cond.trimmed.timezone := tryParseTimeCondition_isArg hfound
      exact hzone hzone'
    · intro hreopens
      exact hzone (TimeCondition.isArg_of_reopens hreopens)

variable {conds : List RequestCondition}

theorem tryParseTime_combine (h : ∀ cond ∈ conds, cond.complete = true) {found : TimeCondition}
    (hfound : tryParseTimeCondition (combineConditions (conds.map buildRequestConditionExpr)) = some found) :
    [.time found] = conds.map RequestCondition.trimmed ↔
      (∀ cond ∈ conds, cond.Kept (conds.length = 1)) ∧ conds.IsChain fun a b => a.merges b = false := by
  match conds with
  | [] => cases hfound
  | [.paramHeader cond] =>
    have hnone := ParamHeaderCondition.tryParseTime_build (h _ List.mem_cons_self) []
    rw [List.append_nil, show buildParamHeaderExpr cond = _ from rfl] at hnone
    rw [show tryParseTimeCondition (buildParamHeaderExpr cond) = _ from hfound] at hnone
    cases hnone
  | [.time cond] =>
    have hiff := tryParseTime_build (h _ List.mem_cons_self) hfound
    simpa [RequestCondition.trimmed, RequestCondition.Kept, RequestCondition.reopens] using hiff
  | cond :: next :: conds =>
    refine iff_of_false (by simp) ?_
    rintro ⟨hkept, hchain⟩
    have hlen : decide ((cond :: next :: conds).length = 1) = false := by simp
    rw [hlen] at hkept
    rw [List.isChain_cons_cons] at hchain
    have hnext : next ∈ cond :: next :: conds := List.mem_cons_of_mem _ List.mem_cons_self
    have hnone := tryParseTime_conditions (h cond List.mem_cons_self) (hkept cond List.mem_cons_self)
      (h next hnext) (hkept next hnext) hchain.1
    have htext : ∃ more, combineConditions ((cond :: next :: conds).map buildRequestConditionExpr) =
        wrapOr (buildRequestConditionExpr cond) ++
          (" && ".toList ++ (wrapOr (buildRequestConditionExpr next) ++ more)) := by
      cases conds with
      | nil => exact ⟨[], by simp [combineConditions]⟩
      | cons third conds => exact ⟨_, by simp [combineConditions]; rfl⟩
    obtain ⟨more, hmore⟩ := htext
    rw [hmore, hnone] at hfound
    cases hfound

theorem tryParseRequestConditions_combine (hne : conds ≠ []) (h : ∀ cond ∈ conds, cond.complete = true) :
    tryParseRequestConditions structured (combineConditions (conds.map buildRequestConditionExpr)) =
        .ok (conds.map RequestCondition.trimmed) ↔
      (∀ cond ∈ conds, cond.Kept (conds.length = 1)) ∧ conds.IsChain fun a b => a.merges b = false := by
  have hpart : ∀ part ∈ conds.flatMap (RequestCondition.textParts (conds.length = 1)), Part part := by
    intro part hpart
    obtain ⟨cond, hcond, hpart⟩ := List.mem_flatMap.mp hpart
    exact RequestCondition.textPart _ (h cond hcond) part hpart
  have hparts : conds.flatMap (RequestCondition.textParts (conds.length = 1)) ≠ [] := by
    obtain ⟨cond, conds', rfl⟩ := List.exists_cons_of_ne_nil hne
    rw [List.flatMap_cons]
    exact List.append_ne_nil_of_left_ne_nil (cond.textParts_ne_nil _) _
  have htext := combineConditions_eq h
  have hsplit : splitExpressionAtTopLevel (combineConditions (conds.map buildRequestConditionExpr))
      "&&".toList = conds.flatMap (RequestCondition.textParts (conds.length = 1)) := by
    rw [htext]
    exact splitExpressionAtTopLevel_join (.inr rfl) hparts hpart
  have htrim : trim (combineConditions (conds.map buildRequestConditionExpr)) =
      combineConditions (conds.map buildRequestConditionExpr) := by
    rw [htext]
    exact trimBy_eq_self (tight_join hparts hpart)
  unfold tryParseRequestConditions
  rw [htrim]
  cases hfound : tryParseTimeCondition (combineConditions (conds.map buildRequestConditionExpr)) with
  | some found =>
    rw [← tryParseTime_combine h hfound]
    show Except.ok [.time found] = Except.ok (conds.map RequestCondition.trimmed) ↔ _
    rw [Except.ok.injEq]
  | none =>
    dsimp only
    rw [hsplit, ← parse_conditions (conds.length = 1) h]
    cases parseConditionParts structured (conds.flatMap (RequestCondition.textParts (conds.length = 1))) with
    | error e => exact iff_of_false (fun h => by cases h) (fun h => by cases h)
    | ok found =>
      show (if found = [] then Except.error ParseFailure.null else Except.ok found) = _ ↔ _
      split_ifs with hnil
      · refine iff_of_false (fun h => by cases h) ?_
        rintro hok
        rw [hnil, Except.ok.injEq] at hok
        exact hne (List.map_eq_nil_iff.mp hok.symm)
      · exact Iff.rfl

theorem matchFactor_factor {text multiplier : Text} (htext : text ≠ []) (hmul : IsNumber multiplier) :
    matchFactor ('(' :: (text ++ " ? ".toList ++ multiplier ++ " : 1)".toList)) = some (text, multiplier) := by
  have hrev : (text ++ " ? ".toList ++ multiplier ++ " : 1)".toList).reverse =
      " : 1)".toList.reverse ++ (multiplier.reverse ++ (" ? ".toList.reverse ++ text.reverse)) := by
    simp
  have hrun : run1 isNumberChar (multiplier.reverse ++ (" ? ".toList.reverse ++ text.reverse)) =
      some (multiplier.reverse, " ? ".toList.reverse ++ text.reverse) := by
    refine run1_append ?_ ?_ (stops_cons.mpr (by decide))
    · exact fun c hc => hmul.chars c (List.mem_reverse.mp hc)
    · exact fun hnil => hmul.nonempty (List.reverse_eq_nil_iff.mp hnil)
  have hopen : ('(' :: (text ++ " ? ".toList ++ multiplier ++ " : 1)".toList)).dropPrefix? "(".toList =
      some (text ++ " ? ".toList ++ multiplier ++ " : 1)".toList) := dropPrefix?_append ['('] _
  unfold matchFactor
  rw [hopen]
  simp only [Option.bind_eq_bind, Option.bind_some, hrev, dropPrefix?_append, hrun]
  simp [guard, htext]

theorem RequestRuleGroup.factor_eq (h : group.complete = true) (hne : group.conditions ≠ []) :
    buildRuleGroupFactor group = '(' :: (combineConditions (group.conditions.map buildRequestConditionExpr) ++
      " ? ".toList ++ trim group.multiplier ++ " : 1)".toList) := by
  unfold RequestRuleGroup.complete at h
  rw [Bool.and_eq_true, List.all_eq_true] at h
  have hfilter : (group.conditions.map buildRequestConditionExpr).filter (· ≠ []) =
      group.conditions.map buildRequestConditionExpr := by
    rw [List.filter_eq_self]
    intro text htext
    obtain ⟨cond, hcond, rfl⟩ := List.mem_map.mp htext
    refine decide_eq_true ?_
    intro hnil
    obtain ⟨part, parts, hparts⟩ := List.exists_cons_of_ne_nil cond.parts_ne_nil
    have hpart := RequestCondition.part (h.2 cond hcond) part (hparts ▸ List.mem_cons_self)
    rw [RequestCondition.build_eq (h.2 cond hcond), hparts] at hnil
    exact join_ne_nil hpart.nonempty parts hnil
  have hnonempty : group.conditions.map buildRequestConditionExpr ≠ [] :=
    fun hnil => hne (List.map_eq_nil_iff.mp hnil)
  unfold buildRuleGroupFactor
  dsimp only
  rw [if_neg (not_not.mpr h.1), hfilter, if_neg hnonempty]

theorem RequestRuleGroup.parse_factor (h : group.complete = true) (hne : group.conditions ≠ []) :
    tryParseRuleGroupFactor structured (buildRuleGroupFactor group) = .ok group.trimmed ↔ group.Reopens := by
  have hgroup := h
  unfold RequestRuleGroup.complete at hgroup
  rw [Bool.and_eq_true, List.all_eq_true] at hgroup
  have htext : combineConditions (group.conditions.map buildRequestConditionExpr) ≠ [] := by
    obtain ⟨cond, conds, hconds⟩ := List.exists_cons_of_ne_nil hne
    obtain ⟨part, parts, hparts⟩ := List.exists_cons_of_ne_nil
      (cond.textParts_ne_nil (group.conditions.length = 1))
    have hpart := RequestCondition.textPart _ (hgroup.2 cond (hconds ▸ List.mem_cons_self)) part
      (hparts ▸ List.mem_cons_self)
    rw [combineConditions_eq hgroup.2]
    generalize decide (group.conditions.length = 1) = alone at hparts ⊢
    rw [hconds, List.flatMap_cons, hparts, List.cons_append]
    exact join_ne_nil hpart.nonempty _
  rw [RequestRuleGroup.kept_iff, and_iff_right hne, ← tryParseRequestConditions_combine hne hgroup.2,
    RequestRuleGroup.factor_eq h hne]
  unfold tryParseRuleGroupFactor
  rw [matchFactor_factor htext (isNumber_of_isNumeric hgroup.1)]
  dsimp only
  cases tryParseRequestConditions structured
      (combineConditions (group.conditions.map buildRequestConditionExpr)) with
  | error e => exact iff_of_false (fun h => nomatch h) (fun h => nomatch h)
  | ok conds =>
    show Except.ok (RequestRuleGroup.mk conds (trim group.multiplier)) = Except.ok group.trimmed ↔ _
    simp [RequestRuleGroup.trimmed]

theorem RequestRuleGroup.part_factor (h : group.complete = true) (hne : group.conditions ≠ []) :
    Part (buildRuleGroupFactor group) := by
  have hgroup := h
  unfold RequestRuleGroup.complete at hgroup
  rw [Bool.and_eq_true, List.all_eq_true] at hgroup
  have hpart : ∀ part ∈ group.conditions.flatMap (RequestCondition.textParts (group.conditions.length = 1)),
      Part part := by
    intro part hpart
    obtain ⟨cond, hcond, hpart⟩ := List.mem_flatMap.mp hpart
    exact RequestCondition.textPart _ (hgroup.2 cond hcond) part hpart
  have hconds : Balanced false (combineConditions (group.conditions.map buildRequestConditionExpr)) := by
    rw [combineConditions_eq hgroup.2]
    exact balanced_intercalate hpart
  have hmul : Balanced false (trim group.multiplier) :=
    (balanced_number (isNumber_of_isNumeric hgroup.1)).inside
  have hask : Balanced false " ? ".toList := .of_all (by decide)
  have helse : Balanced false " : 1".toList := .of_all (by decide)
  have hfactor : buildRuleGroupFactor group = '(' ::
      ((combineConditions (group.conditions.map buildRequestConditionExpr) ++ " ? ".toList ++
        trim group.multiplier ++ " : 1".toList) ++ [')']) := by
    rw [RequestRuleGroup.factor_eq h hne]
    simp
  rw [hfactor]
  refine ⟨(((hconds.append hask).append hmul).append helse).wrap true, ?_, List.cons_ne_nil _ _⟩
  rw [← List.cons_append]
  exact tight_append (List.cons_ne_nil _ _) (stops_cons.mpr (by decide)) (List.cons_ne_nil _ _)
    (stops_cons.mpr (by decide))

end Factor

/-! ## Rules -/

section Rules

variable {structured : Text → Option Text} {groups : List RequestRuleGroup}

theorem parseFactors_groups {text pre : Text} {cursor : ℕ}
    (htext : text.drop cursor = pre ++ " * ".toList.intercalate (groups.map buildRuleGroupFactor)) :
    (parseFactors structured text cursor (groups.map buildRuleGroupFactor)).map
        (List.map ParsedRequestRuleGroup.toRequestRuleGroup) = .ok (groups.map RequestRuleGroup.trimmed) ↔
      ∀ group ∈ groups, tryParseRuleGroupFactor structured (buildRuleGroupFactor group) = .ok group.trimmed := by
  induction groups generalizing cursor pre with
  | nil => exact iff_of_true rfl (List.forall_mem_nil _)
  | cons group groups ih =>
    generalize hpart : buildRuleGroupFactor group = part at htext
    obtain ⟨post, hpost, hnext⟩ : ∃ post, text.drop cursor = pre ++ part ++ post ∧
        ∃ pad, post = pad ++ " * ".toList.intercalate (groups.map buildRuleGroupFactor) := by
      rw [List.map_cons, hpart] at htext
      cases groups with
      | nil => exact ⟨[], by simpa using htext, [], rfl⟩
      | cons next groups =>
        rw [List.map_cons, List.intercalate_cons_cons] at htext
        exact ⟨_, by rw [htext]; simp; rfl, " * ".toList, by simp⟩
    obtain ⟨pad, hpad⟩ := hnext
    obtain ⟨k, hk, hle⟩ := indexOf_append pre part post
    have hdrop : text.drop (cursor + k + part.length) = ((pre ++ part).drop (k + part.length) ++ pad) ++
          " * ".toList.intercalate (groups.map buildRuleGroupFactor) := by
      have hlen : k + part.length ≤ (pre ++ part).length := by
        rw [List.length_append]
        omega
      rw [Nat.add_assoc, ← List.drop_drop, hpost, List.drop_append_of_le_length hlen, hpad, List.append_assoc]
    have hrest := ih hdrop
    rw [List.forall_mem_cons, ← hrest, List.map_cons, hpart, List.map_cons]
    rw [parseFactors, hpost, hk]
    dsimp only
    cases tryParseRuleGroupFactor structured part with
    | error e => exact iff_of_false (fun h => nomatch h) (fun h => nomatch h.1)
    | ok found =>
      cases parseFactors structured text (cursor + k + part.length) (groups.map buildRuleGroupFactor) with
      | error e => exact iff_of_false (fun h => nomatch h) (fun h => nomatch h.2)
      | ok found' =>
        show Except.ok (found :: found'.map ParsedRequestRuleGroup.toRequestRuleGroup) = _ ↔
          Except.ok found = _ ∧ Except.ok (found'.map ParsedRequestRuleGroup.toRequestRuleGroup) = _
        simp

theorem buildRuleGroupFactor_nil {group : RequestRuleGroup} (h : group.conditions = []) :
    buildRuleGroupFactor group = [] := by
  unfold buildRuleGroupFactor
  rw [h]
  dsimp only
  split_ifs with hnumeric hnil
  · rfl
  · exact absurd rfl hnil
  · rfl

/-- The product of the written groups is cut into their factors. -/
theorem tryParse_written (h : ∀ group ∈ groups, group.complete = true) (hne : ∀ group ∈ groups, group.conditions ≠ []) :
    tryParseRequestRuleExpr structured (" * ".toList.intercalate (groups.map buildRuleGroupFactor)) =
      parseFactors structured (" * ".toList.intercalate (groups.map buildRuleGroupFactor)) 0
        (groups.map buildRuleGroupFactor) := by
  have hpart : ∀ part ∈ groups.map buildRuleGroupFactor, Part part := by
    intro part hpart
    obtain ⟨group, hgroup, rfl⟩ := List.mem_map.mp hpart
    exact RequestRuleGroup.part_factor (h group hgroup) (hne group hgroup)
  generalize groups.map buildRuleGroupFactor = parts at hpart ⊢
  cases parts with
  | nil => rfl
  | cons part parts =>
    have htrim : trim (" * ".toList.intercalate (part :: parts)) = " * ".toList.intercalate (part :: parts) :=
      trimBy_eq_self (tight_join (List.cons_ne_nil _ _) hpart)
    have hsplit : splitExpressionAtTopLevel (" * ".toList.intercalate (part :: parts)) "*".toList =
        part :: parts := splitExpressionAtTopLevel_join (.inl rfl) (List.cons_ne_nil _ _) hpart
    unfold tryParseRequestRuleExpr
    dsimp only
    rw [htrim, if_neg (join_ne_nil (hpart part List.mem_cons_self).nonempty parts), hsplit]

theorem parseFactors_length {parts : List Text} {text : Text} {cursor : ℕ}
    {found : List ParsedRequestRuleGroup} (h : parseFactors structured text cursor parts = .ok found) :
    found.length = parts.length := by
  induction parts generalizing cursor found with
  | nil =>
    cases h
    rfl
  | cons part parts ih =>
    rw [parseFactors] at h
    split at h
    · cases h
    · obtain ⟨group, -, h⟩ := except_bind_ok h
      obtain ⟨groups, hgroups, h⟩ := except_bind_ok h
      cases h
      exact congrArg (· + 1) (ih hgroups)

end Rules

/-- Rule groups that are filled in come back from the editor exactly when each of them reopens. -/
theorem request_rules_round_trip (structured : Text → Option Text) (groups : List RequestRuleGroup)
    (h : ∀ group ∈ groups, group.complete = true) :
    (tryParseRequestRuleExpr structured (buildRequestRuleExpr groups)).map
        (List.map ParsedRequestRuleGroup.toRequestRuleGroup) = .ok (groups.map RequestRuleGroup.trimmed) ↔
      ∀ group ∈ groups, group.Reopens := by
  -- only the groups with a condition are written
  have hfilter : (groups.map buildRuleGroupFactor).filter (· ≠ []) =
      (groups.filter (·.conditions ≠ [])).map buildRuleGroupFactor := by
    rw [List.filter_map]
    congr 1
    refine List.filter_congr ?_
    intro group hgroup
    refine decide_eq_decide.mpr (not_congr ?_)
    constructor
    · intro hnil
      by_contra hne
      exact (RequestRuleGroup.part_factor (h group hgroup) hne).nonempty hnil
    · exact buildRuleGroupFactor_nil
  have hwritten : ∀ group ∈ groups.filter (·.conditions ≠ []), group.complete = true ∧
      group.conditions ≠ [] := by
    intro group hgroup
    obtain ⟨hmem, hne⟩ := List.mem_filter.mp hgroup
    exact ⟨h group hmem, of_decide_eq_true hne⟩
  unfold buildRequestRuleExpr
  rw [hfilter, tryParse_written (fun group hgroup => (hwritten group hgroup).1)
    (fun group hgroup => (hwritten group hgroup).2)]
  by_cases hne : ∀ group ∈ groups, group.conditions ≠ []
  · have hall : groups.filter (·.conditions ≠ []) = groups := by
      rw [List.filter_eq_self]
      exact fun group hgroup => decide_eq_true (hne group hgroup)
    rw [hall]
    have hstart : (" * ".toList.intercalate (groups.map buildRuleGroupFactor)).drop 0 =
        [] ++ " * ".toList.intercalate (groups.map buildRuleGroupFactor) := rfl
    rw [parseFactors_groups hstart]
    exact forall₂_congr fun group hgroup => RequestRuleGroup.parse_factor (h group hgroup) (hne group hgroup)
  · refine iff_of_false ?_ fun hreopens => hne fun group hgroup => (hreopens group hgroup).1
    intro hparse
    refine hne fun group hgroup => ?_
    cases hfound : parseFactors structured (" * ".toList.intercalate
        ((groups.filter (·.conditions ≠ [])).map buildRuleGroupFactor)) 0
        ((groups.filter (·.conditions ≠ [])).map buildRuleGroupFactor) with
    | error e =>
      rw [hfound] at hparse
      cases hparse
    | ok found =>
      rw [hfound] at hparse
      have hlen := parseFactors_length hfound
      have hlen' := congrArg List.length (Except.ok.inj hparse)
      rw [List.length_map, List.length_map, hlen, List.length_map] at hlen'
      exact of_decide_eq_true (List.length_filter_eq_length_iff.mp hlen' group hgroup)

/-- A header, a parameter and a range over midnight come back. -/
theorem request_rules_round_trip_night : ∃ group : RequestRuleGroup, group.complete = true ∧
    (tryParseRequestRuleExpr (fun _ => none) (buildRequestRuleExpr [group])).map
      (List.map ParsedRequestRuleGroup.toRequestRuleGroup) = .ok [group.trimmed] := by
  let group : RequestRuleGroup := ⟨[.paramHeader ⟨.header, "x-tier".toList, .contains, "pro".toList⟩,
    .paramHeader ⟨.param, "n".toList, .eq, " 2 ".toList⟩,
    .time ⟨.hour, "UTC".toList, .range, [], "22".toList, "6".toList⟩], "0.5".toList⟩
  have hcomplete : ∀ g ∈ [group], g.complete = true := by decide
  have hreopens : ∀ g ∈ [group], g.Reopens := by decide
  exact ⟨group, by decide, (request_rules_round_trip (fun _ => none) [group] hcomplete).mpr hreopens⟩

/-- A parameter that is compared with a number is written, and nothing is read. -/
theorem compared_param_not_reopened : ∃ group : RequestRuleGroup, group.complete = true ∧
    ∀ structured, tryParseRequestRuleExpr structured (buildRequestRuleExpr [group]) = .error .null :=
  ⟨⟨[.paramHeader ⟨.param, "n".toList, .gt, "5".toList⟩], "2".toList⟩, by decide, fun _ => rfl⟩

end Vancine.Pricing
