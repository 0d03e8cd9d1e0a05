import Vancine.Pricing.RequestRules

/-!
# What the parser makes of the texts the editor writes

Each text that `buildRequestConditionExpr` can write is read here once, for an argument in quotes that is
not empty and holds no quote itself: those are the arguments that `([^"]+)` takes whole. The parser never
returns a path or a time zone with a quote in it, so for the other arguments there is nothing to know.
-/

namespace Vancine.Pricing

open Lib

/-! ## Arguments -/

/-- A text between `("` and `")`. -/
def quotedArg (a : Text) : Text := "(\"".toList ++ (a ++ "\")".toList)

theorem call_eq (name t : Text) : call name t = name ++ quotedArg (escape t) := by
  simp [call, quotedArg, stringify]

/-- What `([^"]+)` takes whole. -/
structure IsArg (a : Text) : Prop where
  nonempty : a ≠ []
  noQuote : '"' ∉ a

theorem readArgument_quotedArg {a : Text} (ha : IsArg a) (rest : Text) :
    readArgument (quotedArg a ++ rest) = some (a, rest) := by
  have happ : quotedArg a ++ rest = "(\"".toList ++ (a ++ ("\")".toList ++ rest)) := by
    simp [quotedArg]
  have hrun : run1 (· ≠ '"') (a ++ ("\")".toList ++ rest)) = some (a, "\")".toList ++ rest) := by
    refine run1_append ?_ ha.nonempty (stops_cons.mpr (by decide))
    intro c hc
    refine decide_eq_true ?_
    rintro rfl
    exact ha.noQuote hc
  unfold readArgument
  rw [happ, dropPrefix?_append]
  show (run1 (· ≠ '"') (a ++ ("\")".toList ++ rest))).bind _ = _
  rw [hrun]
  show (("\")".toList ++ rest).dropPrefix? "\")".toList).bind _ = _
  rw [dropPrefix?_append]
  rfl

theorem readArgument_isArg {text a rest : Text} (h : readArgument text = some (a, rest)) : IsArg a := by
  unfold readArgument at h
  obtain ⟨t₁, -, h⟩ := Option.bind_eq_some_iff.mp h
  obtain ⟨⟨b, t₂⟩, hrun, h⟩ := Option.bind_eq_some_iff.mp h
  obtain ⟨t₃, -, h⟩ := Option.bind_eq_some_iff.mp h
  cases h
  obtain ⟨-, hne, hall, -⟩ := run1_eq_some hrun
  exact ⟨hne, fun hmem => of_decide_eq_true (hall _ hmem) rfl⟩

theorem isArg_escape {t : Text} (hne : t ≠ []) (hq : '"' ∉ t) : IsArg (escape t) where
  nonempty := by
    intro h
    have hlen := length_le_escape t
    rw [h] at hlen
    exact hne (List.eq_nil_of_length_eq_zero (Nat.le_zero.mp hlen))
  noQuote := by
    intro hmem
    obtain ⟨c, hc, hmem⟩ := List.mem_flatMap.mp hmem
    refine escapeChar_rec (P := fun c text => c ≠ '"' → '"' ∉ text) (fun h => absurd rfl h) ?_ ?_ ?_ ?_ ?_ ?_ ?_ ?_ c
      (fun h => hq (h ▸ hc)) hmem
    any_goals (intro _; decide)
    · intro c hlow _
      have hhex : ∀ n < 16, '"' ≠ hexDigit n := by decide
      have h16 := hhex (c.toNat / 16) (by omega)
      have h0 := hhex (c.toNat % 16) (by omega)
      simp [h16, h0]
    · exact fun c _ h => by simpa using h.symm

/-! ## Times -/

section Time

variable {f : TimeFunc} {a rest : Text}

theorem readTimeFunc_name (f : TimeFunc) (rest : Text) :
    readTimeFunc (f.name ++ (quotedArg a ++ rest)) = some (f, quotedArg a ++ rest) := by
  cases f <;> rfl

/-- No name of a time function starts with a parenthesis, nor like the other calls. -/
theorem readTimeFunc_paren (rest : Text) : readTimeFunc ('(' :: rest) = none := rfl

theorem readTimeFunc_param (rest : Text) : readTimeFunc ("param".toList ++ rest) = none := rfl

theorem readTimeFunc_header (rest : Text) : readTimeFunc ("header".toList ++ rest) = none := rfl

theorem readTimeFunc_has (rest : Text) : readTimeFunc ("has(".toList ++ rest) = none := rfl

theorem tryParseTimeCondition_none {text : Text} (h : readTimeFunc text = none)
    (hparen : ∀ inner, text = '(' :: inner → readTimeFunc inner = none) : tryParseTimeCondition text = none := by
  have hrange : ∀ t, readTimeFunc t = none → readTimeRange t = none := by
    intro t ht
    unfold readTimeRange
    rw [ht]
    rfl
  have hbound : matchTimeBound text = none := by
    unfold matchTimeBound
    rw [h]
    rfl
  have hmatch : matchTimeRange text = none := by
    unfold matchTimeRange
    rw [hrange text h]
    dsimp only
    split
    · rename_i inner
      rw [hrange inner (hparen inner rfl)]
    · rfl
  unfold tryParseTimeCondition
  rw [hmatch, hbound]

variable {range : TimeFunc × Text × Text × Text}

variable {text : Text} {tail : Text}

theorem readTimeRange_isArg (h : readTimeRange text = some (range, rest)) : IsArg range.2.1 := by
  unfold readTimeRange at h
  obtain ⟨⟨f, t₁⟩, -, h⟩ := Option.bind_eq_some_iff.mp h
  obtain ⟨⟨a, t₂⟩, harg, h⟩ := Option.bind_eq_some_iff.mp h
  obtain ⟨t₃, -, h⟩ := Option.bind_eq_some_iff.mp h
  obtain ⟨⟨s, t₄⟩, -, h⟩ := Option.bind_eq_some_iff.mp h
  obtain ⟨t₅, -, h⟩ := Option.bind_eq_some_iff.mp h
  obtain ⟨t₆, -, h⟩ := Option.bind_eq_some_iff.mp h
  obtain ⟨t₇, -, h⟩ := Option.bind_eq_some_iff.mp h
  obtain ⟨⟨e, t₈⟩, -, h⟩ := Option.bind_eq_some_iff.mp h
  cases h
  exact readArgument_isArg harg

theorem matchTimeRange_isArg (h : matchTimeRange text = some range) : IsArg range.2.1 := by
  unfold matchTimeRange at h
  split at h
  · rename_i hread
    cases h
    exact readTimeRange_isArg hread
  · split at h
    · split at h
      · rename_i hread
        cases h
        exact readTimeRange_isArg hread
      · cases h
    · cases h

theorem tryParseTimeCondition_isArg {cond : TimeCondition} (h : tryParseTimeCondition text = some cond) :
    IsArg cond.timezone := by
  unfold tryParseTimeCondition at h
  split at h
  · rename_i hmatch
    split_ifs at h
    cases h
    exact matchTimeRange_isArg hmatch
  · split at h
    · rename_i hmatch
      split_ifs at h
      cases h
      unfold matchTimeBound at hmatch
      obtain ⟨⟨f, t₁⟩, -, hmatch⟩ := Option.bind_eq_some_iff.mp hmatch
      obtain ⟨⟨a, t₂⟩, harg, hmatch⟩ := Option.bind_eq_some_iff.mp hmatch
      obtain ⟨⟨m, t₃⟩, -, hmatch⟩ := Option.bind_eq_some_iff.mp hmatch
      obtain ⟨⟨v, t₄⟩, -, hmatch⟩ := Option.bind_eq_some_iff.mp hmatch
      obtain ⟨-, -, hmatch⟩ := Option.bind_eq_some_iff.mp hmatch
      cases hmatch
      exact readArgument_isArg harg
    · cases h

/-- The texts that a number in a comparison is made of. -/
structure IsNumber (v : Text) : Prop where
  nonempty : v ≠ []
  chars : ∀ c ∈ v, isNumberChar c = true

theorem isNumber_of_isNumeric {v : Text} (h : isNumeric v = true) : IsNumber v :=
  ⟨(isNumeric_chars h).1, (isNumeric_chars h).2⟩

theorem isNumber_of_inRange {v : Text} (h : isTimeValueInRange f v = true) : IsNumber v := by
  refine isNumber_of_isNumeric ?_
  unfold isTimeValueInRange integer? at h
  unfold isNumeric
  cases hlit : numericLiteral v with
  | none => rw [hlit] at h; cases h
  | some x => rfl

/-- The operator of a comparison with one bound. -/
def timeOperator : MatchMode → Text
  | .gte => " >= ".toList
  | .lt => " < ".toList
  | _ => " == ".toList

/-- A comparison with one bound. -/
def boundText (f : TimeFunc) (a : Text) (mode : MatchMode) (v : Text) : Text :=
  f.name ++ (quotedArg a ++ (timeOperator mode ++ v))

/-- A comparison with two bounds. -/
def rangeText (f : TimeFunc) (a sep s e : Text) : Text :=
  f.name ++ (quotedArg a ++ (" >= ".toList ++ (s ++ (sep ++
    (f.name ++ (quotedArg a ++ (" < ".toList ++ e)))))))

variable {mode : MatchMode} {v s e sep : Text}

theorem readTimeRange_rangeText (ha : IsArg a) (hs : IsNumber s) (he : IsNumber e)
    (hsep : sep = " && ".toList ∨ sep = " || ".toList) (hrest : Stops isNumberChar rest) :
    readTimeRange (rangeText f a sep s e ++ rest) = some ((f, a, s, e), rest) := by
  have happ : rangeText f a sep s e ++ rest = f.name ++ (quotedArg a ++ (" >= ".toList ++ (s ++ (sep ++
        ((f.name ++ "(\"".toList ++ a ++ "\")".toList) ++ (" < ".toList ++ (e ++ rest))))))) := by
    simp [rangeText, quotedArg]
  have hstops : Stops isNumberChar (sep ++ ((f.name ++ "(\"".toList ++ a ++ "\")".toList) ++
      (" < ".toList ++ (e ++ rest)))) := by
    rcases hsep with rfl | rfl <;> exact stops_cons.mpr (by decide)
  have hor (t : Text) : ((sep ++ t).dropPrefix? " && ".toList).or
      ((sep ++ t).dropPrefix? " || ".toList) = some t := by
    rcases hsep with rfl | rfl
    · rw [dropPrefix?_append]
      rfl
    · have hno : (" || ".toList ++ t).dropPrefix? " && ".toList = none := rfl
      rw [hno, dropPrefix?_append]
      rfl
  unfold readTimeRange
  rw [happ, readTimeFunc_name]
  simp only [Option.bind_eq_bind, Option.bind_some, readArgument_quotedArg ha, dropPrefix?_append,
    run1_append hs.chars hs.nonempty hstops, hor, run1_append he.chars he.nonempty hrest]
  rfl

theorem readTimeRange_bound (ha : IsArg a) (hv : IsNumber v) (hrest : Stops isNumberChar rest) {rest' : Text}
    (h : readTimeRange (boundText f a mode v ++ rest) = some (range, rest')) :
    mode = .gte ∧ ∃ t e, ((rest.dropPrefix? " && ".toList).or (rest.dropPrefix? " || ".toList)) = some t ∧
      t = f.name ++ (quotedArg a ++ (" < ".toList ++ e)) := by
  have happ : boundText f a mode v ++ rest =
      f.name ++ (quotedArg a ++ (timeOperator mode ++ (v ++ rest))) := by
    simp [boundText]
  unfold readTimeRange at h
  rw [happ, readTimeFunc_name] at h
  simp only [Option.bind_eq_bind, Option.bind_some, readArgument_quotedArg ha] at h
  obtain ⟨t₃, h₃, hnext⟩ := Option.bind_eq_some_iff.mp h
  have hmode : mode = .gte := by
    cases mode with
    | gte => rfl
    | _ => cases h₃
  subst hmode
  have ht₃ : t₃ = v ++ rest := List.append_cancel_left (eq_of_dropPrefix? h₃).symm
  rw [ht₃, run1_append hv.chars hv.nonempty hrest, Option.bind_some] at hnext
  obtain ⟨t, ht, hnext⟩ := Option.bind_eq_some_iff.mp hnext
  obtain ⟨t₆, h₆, hnext⟩ := Option.bind_eq_some_iff.mp hnext
  obtain ⟨t₇, h₇, -⟩ := Option.bind_eq_some_iff.mp hnext
  refine ⟨rfl, t, t₇, ht, ?_⟩
  rw [eq_of_dropPrefix? h₆, eq_of_dropPrefix? h₇]
  simp [quotedArg]

theorem readTimeOperator_timeOperator (hmode : mode = .eq ∨ mode = .gte ∨ mode = .lt) (t : Text) :
    readTimeOperator (timeOperator mode ++ t) = some (mode, t) := by
  rcases hmode with rfl | rfl | rfl <;> simp [readTimeOperator, timeOperator, List.dropPrefix?]

theorem matchTimeBound_boundText (ha : IsArg a) (hv : IsNumber v)
    (hmode : mode = .eq ∨ mode = .gte ∨ mode = .lt) (hrest : Stops isNumberChar rest) :
    matchTimeBound (boundText f a mode v ++ rest) = if rest = [] then some (f, a, mode, v) else none := by
  have happ : boundText f a mode v ++ rest =
      f.name ++ (quotedArg a ++ (timeOperator mode ++ (v ++ rest))) := by
    simp [boundText]
  unfold matchTimeBound
  rw [happ, readTimeFunc_name]
  simp only [Option.bind_eq_bind, Option.bind_some, readArgument_quotedArg ha,
    readTimeOperator_timeOperator hmode, run1_append hv.chars hv.nonempty hrest]
  by_cases hnil : rest = []
  · rw [if_pos hnil, hnil]
    rfl
  · rw [if_neg hnil]
    simp [hnil, guard]

theorem name_ne_paren (f : TimeFunc) (t inner : Text) : f.name ++ t ≠ '(' :: inner := by
  cases f <;> exact fun h => nomatch h

theorem matchTimeRange_of_name {t : Text}
    (h : ∀ range rest, readTimeRange (f.name ++ t) = some (range, rest) → rest ≠ []) :
    matchTimeRange (f.name ++ t) = none := by
  unfold matchTimeRange
  split
  · rename_i range hread
    exact absurd rfl (h range [] hread)
  · split
    · rename_i inner heq
      exact absurd heq (name_ne_paren f t inner)
    · rfl

theorem tryParseTimeCondition_bound (ha : IsArg a) (hv : isTimeValueInRange f v = true)
    (hmode : mode = .eq ∨ mode = .gte ∨ mode = .lt) :
    tryParseTimeCondition (boundText f a mode v) = some ⟨f, a, mode, v, [], []⟩ := by
  have hnumber := isNumber_of_inRange hv
  have hrange : matchTimeRange (boundText f a mode v) = none := by
    refine matchTimeRange_of_name ?_
    intro range rest hread
    have hread' : readTimeRange (boundText f a mode v ++ []) = some (range, rest) := by
      rw [List.append_nil]
      exact hread
    obtain ⟨-, t, e, ht, -⟩ := readTimeRange_bound ha hnumber stops_nil hread'
    cases ht
  have hbound : matchTimeBound (boundText f a mode v ++ []) = if [] = [] then some (f, a, mode, v) else none :=
    matchTimeBound_boundText ha hnumber hmode stops_nil
  rw [List.append_nil, if_pos rfl] at hbound
  unfold tryParseTimeCondition
  rw [hrange, hbound]
  dsimp only
  rw [if_neg (not_not.mpr hv)]

theorem tryParseTimeCondition_range (ha : IsArg a) (hs : isTimeValueInRange f s = true)
    (he : isTimeValueInRange f e = true) (hsep : sep = " && ".toList ∨ sep = " || ".toList) :
    tryParseTimeCondition (rangeText f a sep s e) = some ⟨f, a, .range, [], s, e⟩ := by
  have hread : readTimeRange (rangeText f a sep s e ++ []) = some ((f, a, s, e), []) :=
    readTimeRange_rangeText ha (isNumber_of_inRange hs) (isNumber_of_inRange he) hsep stops_nil
  rw [List.append_nil] at hread
  unfold tryParseTimeCondition matchTimeRange
  rw [hread]
  dsimp only
  rw [if_neg (not_or.mpr ⟨not_not.mpr hs, not_not.mpr he⟩)]

theorem matchTimeRange_paren (inner : Text) : matchTimeRange ('(' :: inner) =
      match readTimeRange inner with
      | some (range, [')']) => some range
      | _ => none := by
  have hnone : readTimeRange ('(' :: inner) = none := by
    unfold readTimeRange
    rw [readTimeFunc_paren]
    rfl
  unfold matchTimeRange
  rw [hnone]
  rfl

theorem tryParseTimeCondition_wrappedRange (ha : IsArg a) (hs : isTimeValueInRange f s = true)
    (he : isTimeValueInRange f e = true) (hsep : sep = " && ".toList ∨ sep = " || ".toList) :
    tryParseTimeCondition ('(' :: (rangeText f a sep s e ++ [')'])) = some ⟨f, a, .range, [], s, e⟩ := by
  have hread : readTimeRange (rangeText f a sep s e ++ [')']) = some ((f, a, s, e), [')']) :=
    readTimeRange_rangeText ha (isNumber_of_inRange hs) (isNumber_of_inRange he) hsep
      (stops_cons.mpr (by decide))
  have hmatch : matchTimeRange ('(' :: (rangeText f a sep s e ++ [')'])) = some (f, a, s, e) := by
    rw [matchTimeRange_paren, hread]
    rfl
  unfold tryParseTimeCondition
  rw [hmatch]
  dsimp only
  rw [if_neg (not_or.mpr ⟨not_not.mpr hs, not_not.mpr he⟩)]

/-- Parentheses, around anything that is not a range and no more than it. -/
theorem tryParseTimeCondition_paren {inner : Text}
    (h : ∀ range rest, readTimeRange inner = some (range, rest) → rest ≠ [')']) :
    tryParseTimeCondition ('(' :: inner) = none := by
  have hbound : matchTimeBound ('(' :: inner) = none := by
    unfold matchTimeBound
    rw [readTimeFunc_paren]
    rfl
  have hmatch : matchTimeRange ('(' :: inner) = none := by
    rw [matchTimeRange_paren]
    split
    · rename_i range hread
      exact absurd rfl (h range [')'] hread)
    · rfl
  unfold tryParseTimeCondition
  rw [hmatch, hbound]

theorem tryParseTimeCondition_wrappedBound (ha : IsArg a) (hv : isTimeValueInRange f v = true) :
    tryParseTimeCondition ('(' :: (boundText f a mode v ++ [')'])) = none := by
  refine tryParseTimeCondition_paren ?_
  intro range rest hread
  obtain ⟨-, t, e, ht, -⟩ := readTimeRange_bound ha (isNumber_of_inRange hv)
    (stops_cons.mpr (by decide)) hread
  cases ht

/-! ## Times before other conditions -/

theorem stops_and (tail : Text) : Stops isNumberChar (" && ".toList ++ tail) :=
  stops_cons.mpr (by decide)

theorem tryParseTimeCondition_bound_and (ha : IsArg a) (hv : isTimeValueInRange f v = true)
    (hmode : mode = .eq ∨ mode = .gte ∨ mode = .lt)
    (htail : mode = .gte → ∀ e, tail ≠ f.name ++ (quotedArg a ++ (" < ".toList ++ e))) :
    tryParseTimeCondition (boundText f a mode v ++ (" && ".toList ++ tail)) = none := by
  have hnumber := isNumber_of_inRange hv
  have happ : boundText f a mode v ++ (" && ".toList ++ tail) =
      f.name ++ (quotedArg a ++ (timeOperator mode ++ v) ++ (" && ".toList ++ tail)) := by
    simp [boundText]
  have hrange : matchTimeRange (boundText f a mode v ++ (" && ".toList ++ tail)) = none := by
    rw [happ]
    refine matchTimeRange_of_name ?_
    intro range rest hread
    rw [← happ] at hread
    obtain ⟨hgte, t, e, ht, heq⟩ := readTimeRange_bound ha hnumber (stops_and tail) hread
    rw [dropPrefix?_append] at ht
    cases ht
    exact absurd heq (htail hgte e)
  have hbound := matchTimeBound_boundText (f := f) ha hnumber hmode (stops_and tail)
  rw [if_neg (by simp)] at hbound
  unfold tryParseTimeCondition
  rw [hrange, hbound]

theorem tryParseTimeCondition_range_and (ha : IsArg a) (hs : isTimeValueInRange f s = true)
    (he : isTimeValueInRange f e = true) (hsep : sep = " && ".toList ∨ sep = " || ".toList) :
    tryParseTimeCondition (rangeText f a sep s e ++ (" && ".toList ++ tail)) = none := by
  have hread := readTimeRange_rangeText (f := f) ha (isNumber_of_inRange hs) (isNumber_of_inRange he)
    hsep (stops_and tail)
  have hrange : matchTimeRange (rangeText f a sep s e ++ (" && ".toList ++ tail)) = none := by
    have happ : rangeText f a sep s e ++ (" && ".toList ++ tail) =
        f.name ++ (quotedArg a ++ (" >= ".toList ++ (s ++ (sep ++
          (f.name ++ (quotedArg a ++ (" < ".toList ++ e)))))) ++ (" && ".toList ++ tail)) := by
      simp [rangeText]
    rw [happ] at hread ⊢
    refine matchTimeRange_of_name ?_
    intro range rest hread'
    rw [hread] at hread'
    cases hread'
    simp
  have hbound : matchTimeBound (rangeText f a sep s e ++ (" && ".toList ++ tail)) = none := by
    have happ : rangeText f a sep s e ++ (" && ".toList ++ tail) =
        boundText f a .gte s ++ (sep ++ (f.name ++ (quotedArg a ++ (" < ".toList ++ e))) ++
          (" && ".toList ++ tail)) := by
      simp [rangeText, boundText, timeOperator]
    have hstops : Stops isNumberChar (sep ++ (f.name ++ (quotedArg a ++ (" < ".toList ++ e))) ++
        (" && ".toList ++ tail)) := by
      rcases hsep with rfl | rfl <;> exact stops_cons.mpr (by decide)
    rw [happ, matchTimeBound_boundText ha (isNumber_of_inRange hs) (.inr (.inl rfl)) hstops, if_neg (by simp)]
  unfold tryParseTimeCondition
  rw [hrange, hbound]

theorem tryParseTimeCondition_wrappedRange_and (ha : IsArg a) (hs : isTimeValueInRange f s = true)
    (he : isTimeValueInRange f e = true) (hsep : sep = " && ".toList ∨ sep = " || ".toList) :
    tryParseTimeCondition ('(' :: (rangeText f a sep s e ++ [')']) ++ (" && ".toList ++ tail)) = none := by
  have happ : '(' :: (rangeText f a sep s e ++ [')']) ++ (" && ".toList ++ tail) =
      '(' :: (rangeText f a sep s e ++ (')' :: (" && ".toList ++ tail))) := by
    simp
  rw [happ]
  refine tryParseTimeCondition_paren ?_
  intro range rest hread
  rw [readTimeRange_rangeText ha (isNumber_of_inRange hs) (isNumber_of_inRange he) hsep
    (stops_cons.mpr (by decide))] at hread
  cases hread
  simp

end Time

/-! ## Literals -/

/-- The line and paragraph separators, which `JSON.stringify` leaves and `.` does not match. -/
def isSeparator (c : Char) : Bool := c = '\u2028' || c = '\u2029'

theorem readLiteralBody_plain {c : Char} (hc : isPlain c = true) (rest : Text) :
    readLiteralBody (c :: rest) = (readLiteralBody rest).map fun (body, rest) => (c :: body, rest) := by
  unfold isPlain at hc
  simp only [Bool.and_eq_true, decide_eq_true_eq] at hc
  rw [readLiteralBody.eq_def]
  split
  · simp_all
  · simp_all
  · simp_all
  · rename_i heq
    cases heq
    rewrite [Option.map_eq_bind, guard, if_pos hc.1.2]
    rfl

theorem readLiteralBody_chars (w rest : Text) (hw : ∀ c ∈ w, isPlain c = true) :
    readLiteralBody (w ++ rest) = (readLiteralBody rest).map fun (body, rest) => (w ++ body, rest) := by
  induction w with
  | nil => simp
  | cons c w ih =>
    rw [List.forall_mem_cons] at hw
    rw [List.cons_append, readLiteralBody_plain hw.1, ih hw.2, Option.map_map]
    rfl

theorem readLiteralBody_escape (t rest : Text) :
    readLiteralBody (escape t ++ '"' :: rest) = some (escape t ++ ['"'], rest) := by
  induction t with
  | nil => rfl
  | cons c t ih =>
    have happ : escape (c :: t) = escapeChar c ++ escape t := rfl
    rw [happ, List.append_assoc]
    rcases escapeChar_cases c with ⟨hc, h⟩ | ⟨-, e, w, h, he, hw⟩
    · rw [h, List.singleton_append, readLiteralBody_plain hc, ih]
      rfl
    · have hslash (t : Text) : readLiteralBody ('\\' :: e :: t) =
          (readLiteralBody t).map fun (body, rest) => ('\\' :: e :: body, rest) := by
        rewrite [readLiteralBody, Option.map_eq_bind, guard, if_pos he]
        rfl
      rw [h, List.cons_append, List.cons_append, hslash, readLiteralBody_chars w _ hw, ih]
      simp

theorem readLiteral_stringify (t rest : Text) : readLiteral (stringify t ++ rest) = some (stringify t, rest) := by
  have happ : stringify t ++ rest = '"' :: (escape t ++ '"' :: rest) := by
    simp [stringify]
  rw [happ, readLiteral, readLiteralBody_escape]
  rfl

theorem isSeparator_of_plain {c : Char} (hc : isPlain c = true) : isLineTerminator c = isSeparator c := by
  have hlow : ∀ d : Char, d.toNat < 32 → c ≠ d := by
    rintro d hd rfl
    unfold isPlain at hc
    simp only [Bool.and_eq_true, decide_eq_true_eq] at hc
    omega
  have hn := hlow '\n' (by decide)
  have hr := hlow '\r' (by decide)
  unfold isLineTerminator isSeparator
  simp [hn, hr]

theorem escapeChar_separator (c : Char) : ((escapeChar c).all fun d => !isLineTerminator d) = !isSeparator c := by
  refine escapeChar_rec (P := fun c text => (text.all fun d => !isLineTerminator d) = !isSeparator c)
    (by decide) (by decide) (by decide) (by decide) (by decide) (by decide) (by decide) ?_ ?_ c
  · intro c hlow
    have hhex : ∀ n < 16, isLineTerminator (hexDigit n) = false := by decide
    have h16 := hhex (c.toNat / 16) (by omega)
    have h0 := hhex (c.toNat % 16) (by omega)
    have hslash : isLineTerminator '\\' = false := by decide
    have hu : isLineTerminator 'u' = false := by decide
    have hzero : isLineTerminator '0' = false := by decide
    have hnot : isSeparator c = false := by
      by_contra hsep
      unfold isSeparator at hsep
      simp only [Bool.not_eq_false, Bool.or_eq_true, decide_eq_true_eq] at hsep
      rcases hsep with rfl | rfl <;> exact absurd hlow (by decide)
    simp [h16, h0, hslash, hu, hzero, hnot]
  · intro c hc
    simp [isSeparator_of_plain hc]

theorem stringify_separator (t : Text) :
    ((stringify t).all fun d => !isLineTerminator d) = t.all fun c => !isSeparator c := by
  have hquote : isLineTerminator '"' = false := by decide
  have hescape : ((escape t).all fun d => !isLineTerminator d) = t.all fun c => !isSeparator c := by
    induction t with
    | nil => rfl
    | cons c t ih =>
      show ((escapeChar c ++ escape t).all fun d => !isLineTerminator d) = _
      rw [List.all_append, escapeChar_separator, ih]
      rfl
  unfold stringify
  rw [List.all_cons, List.all_append, hescape, hquote]
  simp [hquote]

theorem stringify_ne_nil (t : Text) : stringify t ≠ [] := List.cons_ne_nil _ _

theorem tight_stringify (t : Text) : Tight isSpace (stringify t) where
  left := stops_cons.mpr (by decide)
  right := by
    have hrev : (stringify t).reverse = '"' :: (stringify t).tail.dropLast.reverse ++ ['"'] := by
      simp [stringify]
    rw [hrev]
    exact stops_cons.mpr (by decide)

theorem isNumeric_stringify (t : Text) : isNumeric (stringify t) = false := rfl

theorem isNumber_separator {v : Text} (hv : IsNumber v) :
    (v.all fun d => !isLineTerminator d) = true ∧ (v.all fun c => !isSeparator c) = true := by
  have hno : ∀ d, isLineTerminator d = true → isNumberChar d = false := by
    intro d hd
    unfold isLineTerminator at hd
    simp only [List.mem_cons, List.not_mem_nil, or_false, decide_eq_true_eq] at hd
    rcases hd with rfl | rfl | rfl | rfl <;> decide
  have hsep : ∀ d, isSeparator d = true → isLineTerminator d = true := by
    intro d hd
    unfold isSeparator at hd
    simp only [Bool.or_eq_true, decide_eq_true_eq] at hd
    rcases hd with rfl | rfl <;> decide
  have hline : ∀ d ∈ v, isLineTerminator d = false := by
    intro d hd
    by_contra h
    have hnum := hno d (by simpa using h)
    rw [hv.chars d hd] at hnum
    cases hnum
  constructor
  · rw [List.all_eq_true]
    intro d hd
    rw [hline d hd]
    rfl
  · rw [List.all_eq_true]
    intro d hd
    by_contra h
    have hd' := hsep d (by simpa using h)
    rw [hline d hd] at hd'
    cases hd'

section Literal

variable (structured : Text → Option Text)

/-- The literal that is written for a value, and what is read from it. -/
theorem buildExprLiteral_spec (v : Text) : buildExprLiteral .eq v ≠ [] ∧
      ((buildExprLiteral .eq v).all fun d => !isLineTerminator d) = ((trim v).all fun c => !isSeparator c) ∧
      parseExprLiteral structured (buildExprLiteral .eq v) = some (trim v) := by
  have hcontains : ¬(MatchMode.eq = .contains) := by decide
  have htrim : trim (trim v) = trim v := trim_trim v
  unfold buildExprLiteral
  dsimp only
  rw [if_neg hcontains]
  split_ifs with hbool hnum
  · refine ⟨?_, ?_, ?_⟩
    · rintro h
      rw [h] at hbool
      rcases hbool with hbool | hbool <;> cases hbool
    · rcases hbool with hbool | hbool <;> rw [hbool] <;> rfl
    · unfold parseExprLiteral
      dsimp only
      rw [htrim, if_pos hbool]
  · have hv := isNumber_of_isNumeric hnum
    obtain ⟨hline, hsep⟩ := isNumber_separator hv
    refine ⟨hv.nonempty, hline.trans hsep.symm, ?_⟩
    unfold parseExprLiteral
    dsimp only
    rw [htrim, if_neg hbool, if_pos hnum]
  · refine ⟨stringify_ne_nil _, stringify_separator _, ?_⟩
    have hquote : trim (stringify (trim v)) = stringify (trim v) := trimBy_eq_self (tight_stringify _)
    have hnotBool : ¬(stringify (trim v) = "true".toList ∨ stringify (trim v) = "false".toList) := by
      rintro (h | h) <;> cases h
    unfold parseExprLiteral
    dsimp only
    rw [hquote, if_neg hnotBool, isNumeric_stringify, if_neg Bool.false_ne_true]
    exact parseString_stringify (trim v)

end Literal

/-! ## Parameters and headers -/

section ParamHeader

variable {structured : Text → Option Text} {a rest : Text}

theorem matchHeaderExists_header (ha : IsArg a) (rest : Text) :
    matchHeaderExists ("header".toList ++ (quotedArg a ++ rest)) =
      if rest = " != \"\"".toList then some a else none := by
  unfold matchHeaderExists
  rw [dropPrefix?_append]
  simp only [Option.bind_eq_bind, Option.bind_some, readArgument_quotedArg ha]
  split_ifs with h
  · rw [h]
    rfl
  · simp only [guard, if_neg h]
    rfl

theorem matchParamExists_param (ha : IsArg a) (rest : Text) :
    matchParamExists ("param".toList ++ (quotedArg a ++ rest)) = if rest = " != nil".toList then some a else none := by
  unfold matchParamExists
  rw [dropPrefix?_append]
  simp only [Option.bind_eq_bind, Option.bind_some, readArgument_quotedArg ha]
  split_ifs with h
  · rw [h]
    rfl
  · simp only [guard, if_neg h]
    rfl

theorem readParamGuard_param (ha : IsArg a) (rest : Text) : readParamGuard ("param".toList ++ (quotedArg a ++ rest)) =
      (rest.dropPrefix? " != nil && ".toList).map (a, ·) := by
  unfold readParamGuard
  rw [dropPrefix?_append]
  simp only [Option.bind_eq_bind, Option.bind_some, readArgument_quotedArg ha]
  rw [Option.map_eq_bind]
  rfl

variable {text : Text}

theorem matchParamContains_none (h : readParamGuard text = none) : matchParamContains text = none := by
  unfold matchParamContains
  rw [h]
  rfl

theorem matchParamOrder_none (h : readParamGuard text = none) : matchParamOrder text = none := by
  unfold matchParamOrder
  rw [h]
  rfl

theorem tryParseTimeCondition_source (source : Source) (rest : Text) :
    tryParseTimeCondition (source.name ++ rest) = none := by
  cases source with
  | param => exact tryParseTimeCondition_none (readTimeFunc_param rest) fun _ h => nomatch h
  | header => exact tryParseTimeCondition_none (readTimeFunc_header rest) fun _ h => nomatch h

theorem tryParseTimeCondition_has (rest : Text) : tryParseTimeCondition ("has(".toList ++ rest) = none :=
  tryParseTimeCondition_none (readTimeFunc_has rest) fun _ h => nomatch h

theorem tryParse_headerExists (ha : IsArg a) :
    tryParseRequestCondition structured (Source.header.name ++ (quotedArg a ++ " != \"\"".toList)) =
      .ok (.paramHeader ⟨.header, a, .exists, []⟩) := by
  have h : matchHeaderExists (Source.header.name ++ (quotedArg a ++ " != \"\"".toList)) = some a :=
    (matchHeaderExists_header ha _).trans (if_pos rfl)
  unfold tryParseRequestCondition
  rw [tryParseTimeCondition_source]
  dsimp only
  rw [h]

theorem tryParse_paramExists (ha : IsArg a) :
    tryParseRequestCondition structured (Source.param.name ++ (quotedArg a ++ " != nil".toList)) =
      .ok (.paramHeader ⟨.param, a, .exists, []⟩) := by
  have h : matchParamExists (Source.param.name ++ (quotedArg a ++ " != nil".toList)) = some a :=
    (matchParamExists_param ha _).trans (if_pos rfl)
  have hheader : matchHeaderExists (Source.param.name ++ (quotedArg a ++ " != nil".toList)) = none := rfl
  unfold tryParseRequestCondition
  rw [tryParseTimeCondition_source]
  dsimp only
  rw [hheader]
  dsimp only
  rw [h]

theorem matchHas_header (ha : IsArg a) (v : Text) :
    matchHas .header ("has(".toList ++ ("header".toList ++ (quotedArg a ++
      (", ".toList ++ (stringify v ++ [')']))))) = some (a, stringify v) := by
  have happ : "has(".toList ++ ("header".toList ++ (quotedArg a ++ (", ".toList ++
      (stringify v ++ [')'])))) = ("has(".toList ++ Source.header.name) ++ (quotedArg a ++
        (", ".toList ++ (stringify v ++ [')']))) := (List.append_assoc _ _ _).symm
  unfold matchHas
  rw [happ, dropPrefix?_append]
  simp only [Option.bind_eq_bind, Option.bind_some, readArgument_quotedArg ha, dropPrefix?_append,
    readLiteral_stringify]
  rfl

theorem tryParse_has (ha : IsArg a) (v : Text) :
    tryParseRequestCondition structured ("has(".toList ++ ("header".toList ++ (quotedArg a ++
      (", ".toList ++ (stringify v ++ [')']))))) = .ok (.paramHeader ⟨.header, a, .contains, v⟩) := by
  have hliteral : parseLiteral (stringify v) = .ok v := by
    unfold parseLiteral
    rw [parseString_stringify]
  have hheader (t : Text) : matchHeaderExists ("has(".toList ++ t) = none := rfl
  have hparam (t : Text) : matchParamExists ("has(".toList ++ t) = none := rfl
  unfold tryParseRequestCondition
  rw [tryParseTimeCondition_has]
  dsimp only
  rw [hheader]
  dsimp only
  rw [hparam]
  dsimp only
  rw [matchHas_header ha]
  dsimp only
  rw [hliteral]
  rfl

theorem matchEq_source (ha : IsArg a) (source : Source) {raw : Text} (hne : raw ≠ []) :
    matchEq (source.name ++ (quotedArg a ++ (" == ".toList ++ raw))) =
      if (raw.all fun c => !isLineTerminator c) = true then some (source, a, raw) else none := by
  have hsource : ([Source.param, .header].findSome? fun s =>
      ((source.name ++ (quotedArg a ++ (" == ".toList ++ raw))).dropPrefix? s.name).map (s, ·)) =
      some (source, quotedArg a ++ (" == ".toList ++ raw)) := by
    cases source <;> rfl
  unfold matchEq
  rw [hsource]
  simp only [Option.bind_eq_bind, Option.bind_some, readArgument_quotedArg ha, dropPrefix?_append]
  by_cases hline : (raw.all fun c => !isLineTerminator c) = true
  · rw [if_pos hline]
    simp [hline, hne, guard]
  · rw [if_neg hline]
    simp [hline, guard]

theorem tryParse_eq (ha : IsArg a) (source : Source) (v : Text) :
    tryParseRequestCondition structured (source.name ++ (quotedArg a ++ (" == ".toList ++ buildExprLiteral .eq v))) =
      if ((trim v).all fun c => !isSeparator c) = true then .ok (.paramHeader ⟨source, a, .eq, trim v⟩)
      else .error .null := by
  obtain ⟨hne, hline, hparse⟩ := buildExprLiteral_spec structured v
  have heq := matchEq_source ha source hne
  rw [hline] at heq
  have hfirst : ∀ t : Text, " == ".toList ++ t ≠ " != \"\"".toList ∧ " == ".toList ++ t ≠ " != nil".toList ∧
      (" == ".toList ++ t).dropPrefix? " != nil && ".toList = none :=
    fun t => ⟨(fun h => nomatch h), (fun h => nomatch h), rfl⟩
  have hbefore : matchHeaderExists (source.name ++ (quotedArg a ++ (" == ".toList ++ buildExprLiteral .eq v))) = none ∧
      matchParamExists (source.name ++ (quotedArg a ++ (" == ".toList ++ buildExprLiteral .eq v))) = none ∧
      matchHas .header (source.name ++ (quotedArg a ++ (" == ".toList ++ buildExprLiteral .eq v))) = none ∧
      readParamGuard (source.name ++ (quotedArg a ++
        (" == ".toList ++ buildExprLiteral .eq v))) = none := by
    obtain ⟨hexists, hnil, hguard⟩ := hfirst (buildExprLiteral .eq v)
    cases source with
    | param =>
      refine ⟨rfl, ?_, rfl, ?_⟩
      · exact (matchParamExists_param ha _).trans (if_neg hnil)
      · refine (readParamGuard_param ha _).trans ?_
        rw [hguard]
        rfl
    | header =>
      refine ⟨?_, rfl, rfl, rfl⟩
      exact (matchHeaderExists_header ha _).trans (if_neg hexists)
  unfold tryParseRequestCondition
  rw [tryParseTimeCondition_source]
  dsimp only
  rw [hbefore.1]
  dsimp only
  rw [hbefore.2.1]
  dsimp only
  rw [hbefore.2.2.1]
  dsimp only
  rw [matchParamContains_none hbefore.2.2.2]
  dsimp only
  rw [matchParamOrder_none hbefore.2.2.2]
  dsimp only
  rw [heq]
  split_ifs with hsep
  · dsimp only
    rw [hparse]
  · rfl

theorem tryParse_paren {inner : Text} (h : tryParseTimeCondition ('(' :: inner) = none) :
    tryParseRequestCondition structured ('(' :: inner) = .error .null := by
  unfold tryParseRequestCondition
  rw [h]
  rfl

variable {cond : TimeCondition}

theorem tryParse_time (h : tryParseTimeCondition text = some cond) :
    tryParseRequestCondition structured text = .ok (.time cond) := by
  unfold tryParseRequestCondition
  rw [h]

/-! ## What is read holds no quote -/

theorem tryParse_time_inv (h : tryParseRequestCondition structured text = .ok (.time cond)) :
    tryParseTimeCondition text = some cond := by
  unfold tryParseRequestCondition at h
  split at h
  · rename_i found hfound
    cases h
    exact hfound
  split at h
  · cases h
  split at h
  · cases h
  split at h
  · obtain ⟨v, -, h⟩ := except_bind_ok h
    cases h
  split at h
  · obtain ⟨v, -, h⟩ := except_bind_ok h
    cases h
  split at h
  · cases h
  split at h
  · split at h <;> cases h
  · cases h

theorem matchHas_isArg {source : Source} {text literal : Text} (h : matchHas source text = some (a, literal)) :
    IsArg a := by
  unfold matchHas at h
  obtain ⟨t₁, -, h⟩ := Option.bind_eq_some_iff.mp h
  obtain ⟨⟨path, t₂⟩, harg, h⟩ := Option.bind_eq_some_iff.mp h
  obtain ⟨t₃, -, h⟩ := Option.bind_eq_some_iff.mp h
  obtain ⟨⟨l, t₄⟩, -, h⟩ := Option.bind_eq_some_iff.mp h
  obtain ⟨-, -, h⟩ := Option.bind_eq_some_iff.mp h
  cases h
  exact readArgument_isArg harg

theorem readParamGuard_isArg (h : readParamGuard text = some (a, rest)) : IsArg a := by
  unfold readParamGuard at h
  obtain ⟨t₁, -, h⟩ := Option.bind_eq_some_iff.mp h
  obtain ⟨⟨path, t₂⟩, harg, h⟩ := Option.bind_eq_some_iff.mp h
  obtain ⟨t₃, -, h⟩ := Option.bind_eq_some_iff.mp h
  cases h
  exact readArgument_isArg harg

theorem tryParse_paramHeader_isArg {cond : ParamHeaderCondition}
    (h : tryParseRequestCondition structured text = .ok (.paramHeader cond)) : IsArg cond.path := by
  unfold tryParseRequestCondition at h
  split at h
  · cases h
  split at h
  · rename_i hmatch
    cases h
    unfold matchHeaderExists at hmatch
    obtain ⟨t₁, -, hmatch⟩ := Option.bind_eq_some_iff.mp hmatch
    obtain ⟨⟨path, t₂⟩, harg, hmatch⟩ := Option.bind_eq_some_iff.mp hmatch
    obtain ⟨-, -, hmatch⟩ := Option.bind_eq_some_iff.mp hmatch
    cases hmatch
    exact readArgument_isArg harg
  split at h
  · rename_i hmatch
    cases h
    unfold matchParamExists at hmatch
    obtain ⟨t₁, -, hmatch⟩ := Option.bind_eq_some_iff.mp hmatch
    obtain ⟨⟨path, t₂⟩, harg, hmatch⟩ := Option.bind_eq_some_iff.mp hmatch
    obtain ⟨-, -, hmatch⟩ := Option.bind_eq_some_iff.mp hmatch
    cases hmatch
    exact readArgument_isArg harg
  split at h
  · rename_i hmatch
    obtain ⟨v, -, h⟩ := except_bind_ok h
    cases h
    exact matchHas_isArg hmatch
  split at h
  · rename_i hmatch
    obtain ⟨v, -, h⟩ := except_bind_ok h
    cases h
    unfold matchParamContains at hmatch
    obtain ⟨⟨path, t₁⟩, hguard, hmatch⟩ := Option.bind_eq_some_iff.mp hmatch
    obtain ⟨⟨again, l⟩, -, hmatch⟩ := Option.bind_eq_some_iff.mp hmatch
    obtain ⟨-, -, hmatch⟩ := Option.bind_eq_some_iff.mp hmatch
    cases hmatch
    exact readParamGuard_isArg hguard
  split at h
  · rename_i hmatch
    cases h
    unfold matchParamOrder at hmatch
    obtain ⟨⟨path, t₁⟩, hguard, hmatch⟩ := Option.bind_eq_some_iff.mp hmatch
    obtain ⟨t₂, -, hmatch⟩ := Option.bind_eq_some_iff.mp hmatch
    obtain ⟨⟨again, t₃⟩, -, hmatch⟩ := Option.bind_eq_some_iff.mp hmatch
    obtain ⟨⟨m, t₄⟩, -, hmatch⟩ := Option.bind_eq_some_iff.mp hmatch
    obtain ⟨⟨v, t₅⟩, -, hmatch⟩ := Option.bind_eq_some_iff.mp hmatch
    obtain ⟨-, -, hmatch⟩ := Option.bind_eq_some_iff.mp hmatch
    cases hmatch
    exact readParamGuard_isArg hguard
  split at h
  · rename_i hmatch
    split at h
    · cases h
      unfold matchEq at hmatch
      obtain ⟨⟨source, t₁⟩, -, hmatch⟩ := Option.bind_eq_some_iff.mp hmatch
      obtain ⟨⟨path, t₂⟩, harg, hmatch⟩ := Option.bind_eq_some_iff.mp hmatch
      obtain ⟨raw, -, hmatch⟩ := Option.bind_eq_some_iff.mp hmatch
      obtain ⟨-, -, hmatch⟩ := Option.bind_eq_some_iff.mp hmatch
      cases hmatch
      exact readArgument_isArg harg
    · cases h
  · cases h

end ParamHeader

end Vancine.Pricing
