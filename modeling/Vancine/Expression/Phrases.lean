import Vancine.Expression.Lexing

/-!
# Writing an expression

A phrase is a text with the node that it is read as, by how strongly its operators bind. Phrases are put
together as the expressions of the grammar are, so that what an editor writes is read back without running
the parser.
-/

namespace Vancine.Expression

open Lib
open Pricing (Text Decimal isDigit isNumeric numericLiteral mantissaPart exponentPart stringify escape escapeChar
  escapeChar_rec hexDigit hexValue hexValue_hexDigit joinUnits joinUnits_toNat isPlain)

section Loop

variable {α : Type} {depth minimum minimum' : ℕ} {left node : ExpressionNode α} {tokens rest : List (Lexeme α)}

/-- What is taken is taken before anything that does not go on with it. -/
theorem Parses.extend {goal : Goal α} {rest' : List (Lexeme α)} (h : Parses depth goal tokens node rest)
    (hcloses : closes goal.minimum rest' = true) : Parses depth goal (tokens ++ rest') node (rest ++ rest') := by
  have hfollow : MayFollow goal rest (rest ++ rest') := by
    cases rest with
    | nil => exact .inr hcloses
    | cons t rest => exact .inl rfl
  obtain ⟨taken, rfl, -, htaken⟩ := h.replace hfollow
  rw [List.append_assoc]
  exact htaken

/-- A loop that takes weaker operators as well takes the same ones, when none of them follows. -/
theorem Parses.weaken (h : Parses depth (.operators minimum left) tokens node rest) (hle : minimum' ≤ minimum)
    (hrest : continues minimum' rest = false) : Parses depth (.operators minimum' left) tokens node rest := by
  generalize hgoal : (Goal.operators minimum left : Goal α) = goal at h
  induction h generalizing left with
  | stop hstop =>
    cases hgoal
    exact .stop hrest
  | step hmin hright hnode _ ih =>
    cases hgoal
    exact .step (hle.trans hmin) hright (ih hrest rfl)
  | _ => cases hgoal

theorem Parses.snoc {operator : BinaryOp} {right : ExpressionNode α} {tokens' : List (Lexeme α)}
    (h : Parses depth (.operators operator.precedence left) tokens node [])
    (hright : Parses depth (.expression (operator.precedence + 1)) tokens' right []) :
    Parses depth (.operators operator.precedence left) (tokens ++ .symbol (.op operator) :: tokens')
      (.binary operator node right) [] := by
  generalize hgoal : (Goal.operators operator.precedence left : Goal α) = goal at h
  generalize hrest : ([] : List (Lexeme α)) = rest at h
  induction h generalizing left with
  | stop hstop =>
    cases hgoal
    subst hrest
    exact .step le_rfl hright (.stop rfl)
  | @step depth minimum operator' left' right' node tokens middle rest hmin hright' hnode _ ih =>
    cases hgoal
    exact .step hmin (hright'.extend (decide_eq_true (Nat.lt_succ_of_le hmin))) (ih hright rfl hrest)
  | _ => cases hgoal

end Loop

section Phrases

variable {α : Type} [DecimalNumbers α]

/-- The text is read as the node where operators bind at least as strongly as the minimum, with at most so many
tokens. -/
def Phrase (depth size minimum : ℕ) (text : Text) (node : ExpressionNode α) : Prop :=
  ∃ tokens, Lexes text tokens ∧ tokens.length ≤ size ∧ Parses depth (.expression minimum) tokens node []

variable {depth depth' size size' minimum minimum' : ℕ} {text text' : Text} {node left right : ExpressionNode α}

theorem Phrase.mono (h : Phrase depth size minimum text node) (hdepth : depth ≤ depth') (hsize : size ≤ size') :
    Phrase depth' size' minimum text node := by
  obtain ⟨tokens, hlexes, hlength, hparses⟩ := h
  exact ⟨tokens, hlexes, hlength.trans hsize, hparses.mono hdepth⟩

/-- Where weaker operators may stand, a phrase stands as well. -/
theorem Phrase.weaken (h : Phrase depth size minimum text node) (hle : minimum' ≤ minimum) (hpos : 0 < minimum) :
    Phrase depth size minimum' text node := by
  obtain ⟨tokens, hlexes, hlength, hparses⟩ := h
  refine ⟨tokens, hlexes, hlength, ?_⟩
  cases hparses with
  | expression hleft hnode hend => exact .expression hleft (hnode.weaken hle rfl) fun _ => nofun
  | conditional => exact absurd hpos (lt_irrefl 0)

variable {tokens : List (Lexeme α)}

theorem Phrase.of_primary (hlexes : Lexes text tokens) (hlength : tokens.length ≤ size)
    (h : Parses depth .primary tokens node []) : Phrase (depth + 1) size minimum text node :=
  ⟨tokens, hlexes, hlength, .expression h (.stop rfl) fun _ => nofun⟩

/-! ## Operators -/

theorem lexes_operator (operator : BinaryOp) {q : Text} (h : Lexes q tokens) :
    Lexes (' ' :: (operator.text ++ ' ' :: q)) (.symbol (.op operator) :: tokens) := by
  cases operator <;> exact .space (.punctuation rfl rfl (.space h))

theorem Phrase.binary (operator : BinaryOp) (hl : Phrase (depth + 1) size operator.precedence text left)
    (hr : Phrase depth size' (operator.precedence + 1) text' right) :
    Phrase (depth + 1) (size + size' + 1) operator.precedence (text ++ ' ' :: (operator.text ++ ' ' :: text'))
      (.binary operator left right) := by
  obtain ⟨tokens, hlexes, hlength, hparses⟩ := hl
  obtain ⟨tokens', hlexes', hlength', hparses'⟩ := hr
  refine ⟨tokens ++ .symbol (.op operator) :: tokens', ?_, ?_, ?_⟩
  · exact Lexes.append (stops_cons.mpr rfl) (lexes_operator operator hlexes') hlexes
  · simp only [List.length_append, List.length_cons]
    omega
  · generalize hminimum : operator.precedence = minimum at hparses
    cases hparses with
    | @expression _ _ primary _ _ middle _ hleft hnode hend =>
      subst hminimum
      exact .expression (hleft.extend (decide_eq_true (precedence_lt operator))) (hnode.snoc hparses') fun _ => nofun
    | conditional => exact absurd hminimum (by cases operator <;> decide)

theorem Phrase.conditional {size₁ size₂ size₃ : ℕ} {condition yes no : Text} {c y n : ExpressionNode α}
    (hc : Phrase (depth + 1) size₁ 1 condition c) (hy : Phrase depth size₂ 0 yes y) (hn : Phrase depth size₃ 0 no n) :
    Phrase (depth + 1) (size₁ + size₂ + size₃ + 2) 0
      (condition ++ ' ' :: '?' :: ' ' :: (yes ++ ' ' :: ':' :: ' ' :: no)) (.conditional c y n) := by
  obtain ⟨ts₁, hlexes₁, hlength₁, hparses₁⟩ := hc
  obtain ⟨ts₂, hlexes₂, hlength₂, hparses₂⟩ := hy
  obtain ⟨ts₃, hlexes₃, hlength₃, hparses₃⟩ := hn
  refine ⟨ts₁ ++ .symbol .question :: (ts₂ ++ .symbol .colon :: ts₃), ?_, ?_, ?_⟩
  · have hcolon : Lexes (' ' :: ':' :: ' ' :: no) (.symbol .colon :: ts₃) :=
      .space (.char rfl rfl rfl (.space hlexes₃))
    have hyes := Lexes.append (stops_cons.mpr rfl) hcolon hlexes₂
    exact Lexes.append (stops_cons.mpr rfl) (.space (.char rfl rfl rfl (.space hyes))) hlexes₁
  · simp only [List.length_append, List.length_cons]
    omega
  · have hyes : Parses depth (.expression 0) (ts₂ ++ .symbol .colon :: ts₃) y (.symbol .colon :: ts₃) :=
      hparses₂.extend rfl
    cases hparses₁ with
    | expression hleft hnode hend =>
      exact .conditional (hleft.extend rfl) ((hnode.extend rfl).weaken (Nat.zero_le 1) rfl) hyes hparses₃

/-! ## What stands by itself -/

theorem Phrase.parens (h : Phrase depth size 0 text node) :
    Phrase (depth + 1) (size + 2) minimum ('(' :: (text ++ [')'])) node := by
  obtain ⟨tokens, hlexes, hlength, hparses⟩ := h
  have hnode : Parses depth (.expression 0) (tokens ++ [.symbol .rparen]) node [.symbol .rparen] := hparses.extend rfl
  have hclose : Lexes [')'] ([.symbol .rparen] : List (Lexeme α)) := .rparen (.nil rfl)
  refine .of_primary (.lparen (Lexes.append (stops_cons.mpr rfl) hclose hlexes)) ?_ (.parens hnode)
  simp only [List.length_append, List.length_cons, List.length_nil]
  omega

theorem lexes_func (name : Func) : Lexes name.name ([.name name.name] : List (Lexeme α)) := by
  cases name with
  | one name =>
    cases name with
    | time name => cases name <;> exact .cons rfl rfl (.nil rfl)
    | _ => exact .cons rfl rfl (.nil rfl)
  | two name => cases name <;> exact .cons rfl rfl (.nil rfl)

omit [DecimalNumbers α] in
theorem namedLiteral_func (name : Func) : (namedLiteral name.name : Option (Literal α)) = none := by
  cases name with
  | one name =>
    cases name with
    | time name => cases name <;> rfl
    | _ => rfl
  | two name => cases name <;> rfl

theorem ofName_func (name : Func) : Func.ofName name.name = some name := by
  cases name with
  | one name =>
    cases name with
    | time name => cases name <;> decide
    | _ => decide
  | two name => cases name <;> decide

theorem Phrase.call₁ (name : Func₁) (h : Phrase depth size 0 text node) :
    Phrase (depth + 1) (size + 3) minimum (name.name ++ '(' :: (text ++ [')'])) (.call₁ name node) := by
  obtain ⟨tokens, hlexes, hlength, hparses⟩ := h
  have hnode : Parses depth (.expression 0) (tokens ++ [.symbol .rparen]) node [.symbol .rparen] := hparses.extend rfl
  have hclose : Lexes [')'] ([.symbol .rparen] : List (Lexeme α)) := .rparen (.nil rfl)
  have hargs := Lexes.lparen (Lexes.append (stops_cons.mpr rfl) hclose hlexes)
  refine .of_primary (Lexes.append (stops_cons.mpr rfl) hargs (lexes_func (.one name))) ?_
    (.call₁ (namedLiteral_func (.one name)) (ofName_func (.one name)) hnode (.inl rfl))
  simp only [List.length_append, List.length_cons, List.length_nil]
  omega

theorem Phrase.call₂ (name : Func₂) (hl : Phrase depth size 0 text left) (hr : Phrase depth size' 0 text' right) :
    Phrase (depth + 1) (size + size' + 4) minimum (name.name ++ '(' :: (text ++ ',' :: ' ' :: (text' ++ [')'])))
      (.call₂ name left right) := by
  obtain ⟨tokens, hlexes, hlength, hparses⟩ := hl
  obtain ⟨tokens', hlexes', hlength', hparses'⟩ := hr
  have hright : Parses depth (.expression 0) (tokens' ++ [.symbol .rparen]) right [.symbol .rparen] :=
    hparses'.extend rfl
  have hleft : Parses depth (.expression 0) (tokens ++ .symbol .comma :: (tokens' ++ [.symbol .rparen])) left
      (.symbol .comma :: (tokens' ++ [.symbol .rparen])) := hparses.extend rfl
  have hclose : Lexes [')'] ([.symbol .rparen] : List (Lexeme α)) := .rparen (.nil rfl)
  have hcomma : Lexes (',' :: ' ' :: (text' ++ [')'])) (.symbol .comma :: (tokens' ++ [.symbol .rparen])) :=
    .char rfl rfl rfl (.space (Lexes.append (stops_cons.mpr rfl) hclose hlexes'))
  have hargs := Lexes.lparen (Lexes.append (stops_cons.mpr rfl) hcomma hlexes)
  refine .of_primary (Lexes.append (stops_cons.mpr rfl) hargs (lexes_func (.two name))) ?_
    (.call₂ (namedLiteral_func (.two name)) (ofName_func (.two name)) hleft hright (.inl rfl))
  simp only [List.length_append, List.length_cons, List.length_nil]
  omega

/-! ## Literals -/

omit [DecimalNumbers α] in
theorem stringBody_escapeChar (c : Char) (text : Text) :
    stringBody '"' (escapeChar c ++ text) = stringBody '"' text >>= fun r => .ok (c.toNat :: r.1, r.2) := by
  have hquote : '\\' ≠ '"' := by decide
  refine escapeChar_rec (P := fun c w => stringBody '"' (w ++ text) =
    stringBody '"' text >>= fun r => .ok (c.toNat :: r.1, r.2)) ?_ ?_ ?_ ?_ ?_ ?_ ?_ ?_ ?_ c
  any_goals exact stringBody_escape hquote rfl
  · intro c hlow
    have hunit : hexDigits ['0', '0', hexDigit (c.toNat / 16), hexDigit (c.toNat % 16)] = some c.toNat := by
      have hzero : hexValue '0' = some 0 := by decide
      have hhigh := hexValue_hexDigit (c.toNat / 16) (by omega)
      have hlow' := hexValue_hexDigit (c.toNat % 16) (by omega)
      simp only [hexDigits, List.foldlM_cons, List.foldlM_nil, hzero, hhigh, hlow', Option.map_some,
        Option.bind_eq_bind, Option.bind_some, Option.pure_def, Option.some.injEq]
      omega
    exact stringBody_u hquote hunit
  · intro c hplain
    simp only [isPlain, Bool.and_eq_true, decide_eq_true_eq] at hplain
    have hline : ¬(c = '\n' ∨ c = '\r') := by
      rintro (rfl | rfl) <;> exact absurd hplain.2 (by decide)
    exact stringBody_plain hplain.1.1 hline hplain.1.2

omit [DecimalNumbers α] in
theorem stringBody_stringify (value rest : Text) :
    stringBody '"' (escape value ++ '"' :: rest) = .ok (value.map Char.toNat, rest) := by
  induction value with
  | nil => exact stringBody_quote
  | cons c value ih =>
    show stringBody '"' ((escapeChar c ++ escape value) ++ '"' :: rest) = _
    rw [List.append_assoc, stringBody_escapeChar, ih]
    rfl

theorem lexes_stringify (value : Text) :
    Lexes (stringify value) ([.string (stringify value) value] : List (Lexeme α)) := by
  have hbody := stringBody_stringify value []
  have hstring : stringLexeme (α := α) '"' (escape value ++ ['"']) = (.string (stringify value) value, []) := by
    unfold stringLexeme
    rw [hbody]
    simp only [joinUnits_toNat, List.length_nil, Nat.sub_zero, List.take_length]
    rfl
  have hend : nextLexeme (α := α) [] = none := rfl
  refine .cons ?_ rfl (.nil hend)
  show some (firstLexeme '"' (escape value ++ ['"'])) = _
  unfold firstLexeme
  rw [readNumber_eq_none rfl (by decide)]
  exact congrArg some hstring

theorem Phrase.string (value : Text) :
    Phrase (depth + 1) 1 minimum (stringify value) (.literal (.string value) : ExpressionNode α) :=
  .of_primary (lexes_stringify value) le_rfl .string

theorem Phrase.named {name : Text} {value : Literal α} (h : namedLiteral name = some value) :
    Phrase (depth + 1) 1 minimum name (.literal value) := by
  suffices hlexes : Lexes name ([.name name] : List (Lexeme α)) from .of_primary hlexes le_rfl (.namedLiteral h)
  unfold namedLiteral at h
  split_ifs at h with hnil htrue hfalse
  · subst hnil
    exact .cons rfl rfl (.nil rfl)
  · subst htrue
    exact .cons rfl rfl (.nil rfl)
  · subst hfalse
    exact .cons rfl rfl (.nil rfl)

/-! ## Numbers -/

omit [DecimalNumbers α] in
theorem readExponent_eq {e : ℤ} (h : exponentPart text = some e) : readExponent text = (text, []) := by
  cases text with
  | nil => rfl
  | cons c rest =>
    have hdigits (sign digits : Text) (hd : digits ≠ [] ∧ digits.all isDigit = true) :
        (if digits.takeWhile isDigit = [] then (([] : Text), c :: rest)
          else (c :: (sign ++ digits.takeWhile isDigit), digits.dropWhile isDigit)) = (c :: (sign ++ digits), []) := by
      have hall : ∀ d ∈ digits, isDigit d = true := List.all_eq_true.mp hd.2
      rw [List.takeWhile_eq_self_iff.mpr hall, List.dropWhile_eq_nil_iff.mpr hall, if_neg hd.1]
    unfold exponentPart at h
    unfold readExponent
    by_cases hc : c = 'e' ∨ c = 'E'
    · simp only [if_pos hc] at h ⊢
      split at h
      · split_ifs at h with hd
        exact hdigits ['+'] _ hd
      · split_ifs at h with hd
        exact hdigits ['-'] _ hd
      · rename_i hplus hminus
        split_ifs at h with hd
        have hsign : readSign rest = ([], rest) := by
          unfold readSign
          split
          · exact absurd rfl (hplus _)
          · exact absurd rfl (hminus _)
          · rfl
        rw [hsign]
        exact hdigits [] _ hd
    · simp only [if_neg hc] at h
      cases h

omit [DecimalNumbers α] in
theorem readNumber_eq {negative : Bool} {x : Decimal} (h : mantissaPart negative text = some x) :
    readNumber text = some (text, []) := by
  have hsplit : text.takeWhile isDigit ++ text.dropWhile isDigit = text := List.takeWhile_append_dropWhile
  unfold mantissaPart at h
  unfold readNumber
  dsimp only at h ⊢
  have hwhole (rest : Text) (hrest : text.takeWhile isDigit ++ rest = text)
      (h : (if text.takeWhile isDigit = [] then none
        else (exponentPart rest).map fun e => (⟨negative, text.takeWhile isDigit, [], e⟩ : Decimal)) = some x) :
      readInteger (text.takeWhile isDigit) rest = some (text, []) := by
    split_ifs at h with hempty
    obtain ⟨e, he, -⟩ := Option.map_eq_some_iff.mp h
    rw [readInteger, if_neg hempty, readExponent_eq he]
    exact congrArg (fun t => some (t, [])) hrest
  cases hdrop : text.dropWhile isDigit with
  | nil =>
    rw [hdrop] at h hsplit
    exact hwhole [] hsplit h
  | cons d rest =>
    rw [hdrop] at h hsplit
    by_cases hd : d = '.'
    · subst hd
      simp only at h
      split_ifs at h with hempty
      obtain ⟨e, he, -⟩ := Option.map_eq_some_iff.mp h
      simp only [if_pos, if_neg hempty, readExponent_eq he, List.takeWhile_append_dropWhile]
      exact congrArg (fun t => some (t, [])) hsplit
    · simp only [if_neg hd]
      split at h
      · rename_i hdot
        exact absurd (List.cons.inj hdot).1 hd
      · exact hwhole _ hsplit h

/-- A number that may leave a node of the evaluator. -/
def Storable (value : α) (integer : Bool) : Prop :=
  isFinite value = true ∧ (integer = true → isSafeInteger value = true)

/-- A numeric literal without its sign. -/
def unsigned : Text → Text
  | '-' :: digits => digits
  | digits => digits

/-- What a numeric literal is read as: its sign is an operator. -/
def numberNode : Text → ExpressionNode α
  | '-' :: digits => .unary .minus (.literal (.number (numberValue digits) (isIntegerText digits)))
  | digits => .literal (.number (numberValue digits) (isIntegerText digits))

/-- The value of a numeric literal. -/
def literalNumber : Text → α
  | '-' :: digits => Numbers.neg (numberValue digits)
  | digits => numberValue digits

variable (α) in
/-- Neither the lexer nor the evaluator rejects the number. -/
def Readable (text : Text) : Prop :=
  Storable (numberValue (unsigned text) : α) (isIntegerText (unsigned text)) ∧
    Storable (literalNumber text : α) (isIntegerText (unsigned text))

theorem numberLexeme_eq (h : Storable (numberValue text : α) (isIntegerText text)) :
    (numberLexeme text : Lexeme α) = .number text (numberValue text) (isIntegerText text) := by
  have hinteger : ¬(isIntegerText text = true ∧ ¬isSafeInteger (numberValue text : α) = true) :=
    fun hand => hand.2 (h.2 hand.1)
  unfold numberLexeme
  rw [if_neg (not_not.mpr h.1), if_neg hinteger]

theorem lexes_number {negative : Bool} {x : Decimal} (h : mantissaPart negative text = some x)
    (hs : Storable (numberValue text : α) (isIntegerText text)) :
    Lexes text [.number text (numberValue text : α) (isIntegerText text)] := by
  have hread := readNumber_eq h
  cases text with
  | nil => cases hread
  | cons c rest =>
    have hspace : Pricing.isSpace c = false := by
      by_contra hsp
      have hcont := continuesToken_of_isSpace (Bool.eq_true_of_not_eq_false hsp)
      have hdigit : isDigit c = false := by
        by_contra hd
        rw [continuesToken, isWord_of_isDigit (Bool.eq_true_of_not_eq_false hd)] at hcont
        cases hcont
      have hdot : c ≠ '.' := by
        rintro rfl
        exact absurd hcont (by decide)
      rw [readNumber_eq_none hdigit hdot] at hread
      cases hread
    have hend : nextLexeme (α := α) [] = none := rfl
    refine .cons ?_ rfl (.nil hend)
    unfold nextLexeme firstLexeme
    rw [List.dropWhile_cons, hspace]
    simp only [Bool.false_eq_true, if_false, hread, numberLexeme_eq hs]

/-- A numeric literal has a sign, or it is read as one number. -/
theorem sign_cases (text : Text) : (∃ digits, text = '-' :: digits) ∨
      numericLiteral text = mantissaPart false text ∧ unsigned text = text ∧
        (numberNode text : ExpressionNode α) = .literal (.number (numberValue text) (isIntegerText text)) ∧
        (literalNumber text : α) = numberValue text := by
  cases text with
  | nil => exact .inr ⟨rfl, rfl, rfl, rfl⟩
  | cons c digits =>
    by_cases hc : c = '-'
    · exact .inl ⟨digits, by rw [hc]⟩
    · exact .inr ⟨by simp [numericLiteral, hc], by simp [unsigned, hc], by simp [numberNode, hc],
        by simp [literalNumber, hc]⟩

theorem Phrase.number (h : isNumeric text = true) (hs : Readable α text) :
    Phrase (depth + 2) 2 minimum text (numberNode text : ExpressionNode α) := by
  obtain ⟨x, hx⟩ := Option.isSome_iff_exists.mp h
  rcases sign_cases (α := α) text with ⟨digits, rfl⟩ | ⟨hliteral, hunsigned, hnode, -⟩
  · refine .of_primary (.char rfl rfl rfl (lexes_number hx hs.1)) le_rfl ?_
    exact Parses.unary (rfl : (Symbol.op .sub).unary? = some .minus) (.expression .number (.stop rfl) fun _ => nofun)
  · have hstorable := hs.1
    rw [hunsigned] at hstorable
    rw [hliteral] at hx
    rw [hnode]
    exact .of_primary (lexes_number hx hstorable) (Nat.le_succ 1) .number

end Phrases

end Vancine.Expression
