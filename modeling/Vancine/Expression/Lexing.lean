import Vancine.Expression.Grammar

/-!
# Tokens of joined texts

`Lexes` says which tokens a text has, without the limit on their number. A token ends where a character
stands that goes on with none, so the tokens of two texts joined there are those of the one and of the
other.
-/

namespace Vancine.Expression

open Lib (Stops stops_cons takeWhile_append_stops dropWhile_append_stops)
open Pricing (Text isSpace isDigit hexValue)

variable {α : Type} [DecimalNumbers α]

/-! ## The tokens of a text -/

inductive Lexes : Text → List (Lexeme α) → Prop
  | nil {text : Text} (hend : nextLexeme (α := α) text = none) : Lexes text []
  | cons {text rest : Text} {token : Lexeme α} {tokens : List (Lexeme α)}
      (hnext : nextLexeme text = some (token, rest)) (hvalid : token.isInvalid = false)
      (hrest : Lexes rest tokens) : Lexes text (token :: tokens)

variable {text : Text} {tokens : List (Lexeme α)} {node : ExpressionNode α}

theorem Lexes.lexemes (h : Lexes text tokens) : ∀ {n : ℕ}, tokens.length < n → lexemes n text = tokens := by
  induction h with
  | nil hend =>
    intro n hn
    obtain ⟨n, rfl⟩ : ∃ k, n = k + 1 := ⟨n - 1, by simp only [List.length_nil] at hn; omega⟩
    simp only [Expression.lexemes, hend]
  | cons hnext hvalid _ ih =>
    intro n hn
    obtain ⟨n, rfl⟩ : ∃ k, n = k + 1 := ⟨n - 1, by omega⟩
    rw [List.length_cons] at hn
    have hrest := ih (Nat.lt_of_succ_lt_succ hn)
    simp only [Expression.lexemes, hnext, hvalid, Bool.false_eq_true, if_false, hrest]

theorem lexes_of_valid : ∀ {n : ℕ} {text : Text}, Valid (lexemes (α := α) n text) →
    Lexes text (lexemes (α := α) n text) ∧ (lexemes (α := α) n text).length < n := by
  intro n
  induction n with
  | zero =>
    intro text h
    exact nomatch h _ (List.mem_cons_self ..)
  | succ n ih =>
    intro text
    unfold lexemes
    split
    case h_1 hend => exact fun _ => ⟨.nil hend, Nat.succ_pos n⟩
    case h_2 token rest hnext =>
      split_ifs with hinvalid
      · exact fun h => absurd (h token (List.mem_cons_self ..)) (by rw [hinvalid]; decide)
      · intro h
        obtain ⟨hlexes, hlength⟩ := ih h.tail
        exact ⟨.cons hnext (by simpa using hinvalid) hlexes, Nat.succ_lt_succ hlength⟩

theorem Lexes.unique {tokens tokens' : List (Lexeme α)} (h : Lexes text tokens) (h' : Lexes text tokens') :
    tokens = tokens' := by
  rw [← h.lexemes (n := tokens.length + tokens'.length + 1) (by omega), h'.lexemes (by omega)]

/-! ## Where a token ends -/

/-- Characters that may go on with a token. -/
def continuesToken (c : Char) : Bool := isWord c || c ∈ ['.', '+', '-', '=', '&', '|']

section

omit [DecimalNumbers α]

variable {q : Text}

theorem stops_isWord (hq : Stops continuesToken q) : Stops isWord q := by
  intro c hc
  have h := hq c hc
  rw [continuesToken, Bool.or_eq_false_iff] at h
  exact h.1

theorem isWord_of_isDigit {c : Char} (h : isDigit c = true) : isWord c = true := by
  have hdigit : c.isDigit = true := h
  simp [isWord, Char.isAlphanum, hdigit]

theorem stops_isDigit (hq : Stops continuesToken q) : Stops isDigit q := by
  intro c hc
  by_contra hdigit
  rw [Bool.not_eq_false] at hdigit
  exact absurd (isWord_of_isDigit hdigit) (by rw [stops_isWord hq c hc]; decide)

theorem head_ne (hq : Stops continuesToken q) {c : Char} (hc : continuesToken c = true) (rest : Text) :
    q ≠ c :: rest := by
  rintro rfl
  rw [stops_cons, hc] at hq
  cases hq

theorem readSign_append (hq : Stops continuesToken q) (text : Text) :
    readSign (text ++ q) = ((readSign text).1, (readSign text).2 ++ q) := by
  cases text with
  | nil =>
    unfold readSign
    split
    case h_1 heq => exact absurd heq (head_ne hq (by decide) _)
    case h_2 heq => exact absurd heq (head_ne hq (by decide) _)
    case h_3 => rfl
  | cons c text =>
    by_cases hplus : c = '+'
    · rw [hplus]
      rfl
    · by_cases hminus : c = '-'
      · rw [hminus]
        rfl
      · have h : ∀ text : Text, readSign (c :: text) = ([], c :: text) := by
          intro text
          unfold readSign
          split
          case h_1 heq => exact absurd (List.cons.inj heq).1 hplus
          case h_2 heq => exact absurd (List.cons.inj heq).1 hminus
          case h_3 => rfl
        rw [List.cons_append, h, h]
        rfl

theorem readExponent_append (hq : Stops continuesToken q) (text : Text) :
    readExponent (text ++ q) = ((readExponent text).1, (readExponent text).2 ++ q) := by
  have hdigits := stops_isDigit hq
  cases text with
  | nil =>
    cases q with
    | nil => rfl
    | cons c q =>
      have hc : ¬(c = 'e' ∨ c = 'E') := by
        rintro (rfl | rfl) <;> exact nomatch stops_cons.mp hq
      simp only [List.nil_append, readExponent, if_neg hc]
  | cons e rest =>
    by_cases he : e = 'e' ∨ e = 'E'
    · simp only [List.cons_append, readExponent, if_pos he, readSign_append hq,
        takeWhile_append_stops _ hdigits, dropWhile_append_stops _ hdigits]
      split_ifs <;> rfl
    · simp only [List.cons_append, readExponent, if_neg he]

theorem readInteger_append (hq : Stops continuesToken q) (whole rest : Text) :
    readInteger whole (rest ++ q) = (readInteger whole rest).map fun r => (r.1, r.2 ++ q) := by
  unfold readInteger
  rw [readExponent_append hq]
  split_ifs <;> rfl

theorem readNumber_append (hq : Stops continuesToken q) (c : Char) (text : Text) :
    readNumber (c :: (text ++ q)) = (readNumber (c :: text)).map fun r => (r.1, r.2 ++ q) := by
  have hdigits := stops_isDigit hq
  have happ : c :: (text ++ q) = (c :: text) ++ q := rfl
  unfold readNumber
  simp only [happ, takeWhile_append_stops _ hdigits, dropWhile_append_stops _ hdigits]
  cases (c :: text).dropWhile isDigit with
  | nil =>
    rw [← readInteger_append hq, List.nil_append]
    cases q with
    | nil => rfl
    | cons d q =>
      have hd : d ≠ '.' := fun h => nomatch h ▸ stops_cons.mp hq
      simp only [if_neg hd]
  | cons d rest =>
    by_cases hd : d = '.'
    · simp only [List.cons_append, if_pos hd, takeWhile_append_stops _ hdigits,
        dropWhile_append_stops _ hdigits, readExponent_append hq]
      split_ifs <;> rfl
    · simp only [List.cons_append, if_neg hd]
      exact readInteger_append hq _ (d :: rest)

section

variable {quote c e a b d : Char} {text : Text} {unit : ℕ}

theorem stringBody_plain (hq : c ≠ quote) (hn : ¬(c = '\n' ∨ c = '\r')) (hs : c ≠ '\\') : stringBody quote (c :: text)
      = stringBody quote text >>= fun r => .ok (c.toNat :: r.1, r.2) := by
  rw [stringBody.eq_def]
  simp only [if_neg hq, if_neg hn, if_pos hs]
  rfl

theorem stringBody_escape (hq : '\\' ≠ quote) (he : escapeValue e = some c) : stringBody quote ('\\' :: e :: text)
      = stringBody quote text >>= fun r => .ok (c.toNat :: r.1, r.2) := by
  rw [stringBody.eq_def]
  simp only [if_neg hq, he]
  rfl

theorem stringBody_u (hq : '\\' ≠ quote) (hunit : hexDigits [a, b, c, d] = some unit) :
    stringBody quote ('\\' :: 'u' :: a :: b :: c :: d :: text)
      = stringBody quote text >>= fun r => .ok (unit :: r.1, r.2) := by
  have he : escapeValue 'u' = none := rfl
  rw [stringBody.eq_def]
  simp only [if_neg hq, he, hunit]
  rfl

theorem stringBody_x (hq : '\\' ≠ quote) (hunit : hexDigits [a, b] = some unit) :
    stringBody quote ('\\' :: 'x' :: a :: b :: text) = stringBody quote text >>= fun r => .ok (unit :: r.1, r.2) := by
  have he : escapeValue 'x' = none := rfl
  rw [stringBody.eq_def]
  simp only [if_neg hq, he, hunit]
  rfl

end

theorem stringBody_append (quote : Char) (q : Text) (text : Text) :
    ∀ {units : List ℕ} {rest : Text}, stringBody quote text = .ok (units, rest) →
      stringBody quote (text ++ q) = .ok (units, rest ++ q) := by
  fun_induction stringBody quote text <;> intro units rest h
  case case2 text =>
    cases h
    exact stringBody_quote
  case case4 c text hq hn hs ih =>
    obtain ⟨⟨units', rest'⟩, h₁, h⟩ := ok_of_bind h
    cases h
    rw [List.cons_append, stringBody_plain hq hn hs, ih h₁]
    rfl
  case case6 c hq hn hs e text c' he ih =>
    obtain ⟨⟨units', rest'⟩, h₁, h⟩ := ok_of_bind h
    cases h
    rw [not_not.mp hs] at hq ⊢
    rw [List.cons_append, List.cons_append, stringBody_escape hq he, ih h₁]
    rfl
  case case7 c₀ hq hn hs a b c d text unit hunit he ih =>
    obtain ⟨⟨units', rest'⟩, h₁, h⟩ := ok_of_bind h
    cases h
    rw [not_not.mp hs] at hq ⊢
    simp only [List.cons_append, stringBody_u hq hunit, ih h₁]
    rfl
  case case10 c₀ hq hn hs a b text unit hunit he _ ih =>
    obtain ⟨⟨units', rest'⟩, h₁, h⟩ := ok_of_bind h
    cases h
    rw [not_not.mp hs] at hq ⊢
    simp only [List.cons_append, stringBody_x hq hunit, ih h₁]
    rfl
  all_goals cases h

theorem pairSymbol_eq_none (c : Char) {d : Char} (hd : continuesToken d = false) : pairSymbol c d = none := by
  have h : ∀ e, continuesToken e = true → d ≠ e := by
    rintro e he rfl
    rw [hd] at he
    cases he
  rw [pairSymbol, if_neg (h _ (by decide)), if_neg (h _ (by decide)), if_neg (h _ (by decide))]

theorem readSymbol_append (hq : Stops continuesToken q) (c : Char) (text : Text) :
    readSymbol c (text ++ q) = (readSymbol c text).map fun r => (r.1, r.2 ++ q) := by
  cases text with
  | nil =>
    cases q with
    | nil =>
      simp only [List.nil_append, readSymbol, Option.map_map]
      rfl
    | cons d q =>
      simp only [List.nil_append, readSymbol, pairSymbol_eq_none c (stops_cons.mp hq), Option.map_map]
      rfl
  | cons d text =>
    simp only [List.cons_append, readSymbol]
    cases pairSymbol c d with
    | some symbol => rfl
    | none => simp only [Option.map_map]; rfl

end

section

variable {q text rest : Text} {c : Char} {token : Lexeme α} {tokens tokens' : List (Lexeme α)}

omit [DecimalNumbers α] in
theorem stringLexeme_append (h : stringLexeme c text = (token, rest)) (hvalid : token.isInvalid = false) :
    stringLexeme c (text ++ q) = (token, rest ++ q) := by
  unfold stringLexeme at h ⊢
  cases hbody : stringBody c text with
  | error diagnostic =>
    simp only [hbody] at h
    cases h
    cases hvalid
  | ok r =>
    simp only [hbody] at h
    simp only [stringBody_append c q text hbody]
    split at h
    case h_1 value hvalue =>
      cases h
      simp only [List.length_append, Nat.add_sub_add_right, List.take_append_of_le_length (Nat.sub_le text.length _)]
    case h_2 =>
      cases h
      cases hvalid

theorem firstLexeme_append (hq : Stops continuesToken q) (h : firstLexeme c text = (token, rest))
    (hvalid : token.isInvalid = false) : firstLexeme c (text ++ q) = (token, rest ++ q) := by
  unfold firstLexeme at h ⊢
  rw [readNumber_append hq]
  cases hnumber : readNumber (c :: text) with
  | some r =>
    simp only [hnumber] at h
    cases h
    rfl
  | none =>
    simp only [hnumber, Option.map_none] at h ⊢
    split_ifs at h ⊢ with hquote hname
    · exact stringLexeme_append h hvalid
    · cases h
      rw [takeWhile_append_stops _ (stops_isWord hq), dropWhile_append_stops _ (stops_isWord hq)]
    · rw [readSymbol_append hq]
      cases hsymbol : readSymbol c text with
      | some r =>
        simp only [hsymbol] at h
        cases h
        rfl
      | none =>
        simp only [hsymbol] at h
        cases h
        cases hvalid

theorem nextLexeme_spaces (hspace : ∀ c ∈ text, isSpace c = true) : nextLexeme (α := α) (text ++ q) = nextLexeme q := by
  unfold nextLexeme
  rw [List.dropWhile_append_of_pos hspace]

theorem nextLexeme_append (hq : Stops continuesToken q) (h : nextLexeme text = some (token, rest))
    (hvalid : token.isInvalid = false) : nextLexeme (text ++ q) = some (token, rest ++ q) := by
  unfold nextLexeme at h ⊢
  split at h
  case h_1 => cases h
  case h_2 c text' htext =>
    have happ : (text ++ q).dropWhile isSpace = c :: (text' ++ q) := by
      rw [List.dropWhile_append, htext]
      rfl
    rw [happ]
    exact congrArg some (firstLexeme_append hq (Option.some.inj h) hvalid)

theorem Lexes.spaces (hspace : ∀ c ∈ text, isSpace c = true) (h : Lexes q tokens) : Lexes (text ++ q) tokens := by
  cases h with
  | nil hend => exact .nil ((nextLexeme_spaces hspace).trans hend)
  | cons hnext hvalid hrest => exact .cons ((nextLexeme_spaces hspace).trans hnext) hvalid hrest

theorem spaces_of_end (h : nextLexeme (α := α) text = none) : ∀ c ∈ text, isSpace c = true := by
  unfold nextLexeme at h
  split at h
  case h_1 htext => exact List.dropWhile_eq_nil_iff.mp htext
  case h_2 => cases h

/-- The tokens of two texts, the second of which does not go on with a token. -/
theorem Lexes.append (hq : Stops continuesToken q) (h' : Lexes q tokens') (h : Lexes text tokens) :
    Lexes (text ++ q) (tokens ++ tokens') := by
  induction h with
  | nil hend => exact h'.spaces (spaces_of_end hend)
  | cons hnext hvalid _ ih => exact .cons (nextLexeme_append hq hnext hvalid) hvalid ih

end

/-! ## Where no string ends -/

section

omit [DecimalNumbers α]

theorem continuesToken_of_isSpace {c : Char} (h : isSpace c = true) : continuesToken c = false := by
  by_cases hlow : c.toNat < 128
  · have hall : ∀ n < 128, isSpace (Char.ofNat n) = true → continuesToken (Char.ofNat n) = false := by
      decide
    have hc := hall c.toNat hlow
    rw [Char.ofNat_toNat] at hc
    exact hc h
  · have hne : ∀ d : Char, d.toNat < 128 → c ≠ d := by
      rintro d hd rfl
      exact hlow hd
    have hword : isWord c = false := by
      by_contra hword
      rw [Bool.not_eq_false] at hword
      simp only [isWord, Char.isAlphanum, Char.isAlpha, Char.isUpper, Char.isLower, Char.isDigit,
        Bool.or_eq_true, Bool.and_eq_true, decide_eq_true_eq] at hword
      rcases hword with ((⟨-, h⟩ | ⟨-, h⟩) | ⟨-, h⟩) | rfl
      · exact hlow (lt_of_le_of_lt h (by decide))
      · exact hlow (lt_of_le_of_lt h (by decide))
      · exact hlow (lt_of_le_of_lt h (by decide))
      · exact hlow (by decide)
    simp [continuesToken, hword, hne '.' (by decide), hne '+' (by decide), hne '-' (by decide),
      hne '=' (by decide), hne '&' (by decide), hne '|' (by decide)]

end

/-! ## Single tokens -/

section

variable {text rest : Text} {c d : Char} {tokens : List (Lexeme α)}

omit [DecimalNumbers α] in
theorem readNumber_eq_none (hdigit : isDigit c = false) (hdot : c ≠ '.') : readNumber (c :: text) = none := by
  unfold readNumber
  simp only [List.takeWhile_cons, List.dropWhile_cons, hdigit, Bool.false_eq_true, if_false, if_neg hdot]
  rfl

/-- What is neither a number nor a string nor a name nor white space. -/
def isPunctuation (c : Char) : Bool :=
  !isSpace c && !isDigit c && c ≠ '.' && c ≠ '"' && c ≠ '\'' && !isNameStart c

variable {sym : Symbol}

theorem nextLexeme_punctuation (hc : isPunctuation c = true) (h : readSymbol c text = some (sym, rest)) :
    nextLexeme (α := α) (c :: text) = some (.symbol sym, rest) := by
  simp only [isPunctuation, Bool.and_eq_true, Bool.not_eq_true', decide_eq_true_eq] at hc
  obtain ⟨⟨⟨⟨⟨hspace, hdigit⟩, hdot⟩, hquote⟩, hquote'⟩, hname⟩ := hc
  unfold nextLexeme
  simp only [List.dropWhile_cons, hspace, Bool.false_eq_true, if_false]
  unfold firstLexeme
  simp only [readNumber_eq_none hdigit hdot, hquote, hquote', or_self, if_false, hname, Bool.false_eq_true, h]

theorem Lexes.punctuation (hc : isPunctuation c = true) (h : readSymbol c text = some (sym, rest))
    (hrest : Lexes rest tokens) : Lexes (c :: text) (.symbol sym :: tokens) :=
  .cons (nextLexeme_punctuation hc h) rfl hrest

/-- A character that no symbol of two starts with. -/
def standsAlone (c : Char) : Bool := c ∉ ['&', '|', '=', '!', '<', '>']

omit [DecimalNumbers α] in
theorem readSymbol_alone (hc : standsAlone c = true) (h : charSymbol c = some sym) (text : Text) :
    readSymbol c text = some (sym, text) := by
  cases text with
  | nil => simp only [readSymbol, h, Option.map_some]
  | cons d text =>
    have hpair : pairSymbol c d = none := by
      simp only [standsAlone, List.mem_cons, List.not_mem_nil, or_false, not_or, decide_eq_true_eq] at hc
      simp [pairSymbol, hc]
    simp only [readSymbol, hpair, h, Option.map_some]

theorem Lexes.char (hc : isPunctuation c = true) (halone : standsAlone c = true) (h : charSymbol c = some sym)
    (hrest : Lexes text tokens) : Lexes (c :: text) (.symbol sym :: tokens) :=
  .punctuation hc (readSymbol_alone halone h text) hrest

theorem Lexes.space (h : Lexes text tokens) : Lexes (' ' :: text) tokens :=
  Lexes.spaces (List.forall_mem_singleton.mpr rfl) h

theorem Lexes.lparen (h : Lexes text tokens) : Lexes ('(' :: text) (.symbol .lparen :: tokens) :=
  .char rfl rfl rfl h

theorem Lexes.rparen (h : Lexes text tokens) : Lexes (')' :: text) (.symbol .rparen :: tokens) :=
  .char rfl rfl rfl h

end

/-! ## Numbers -/

def Lexeme.validNumber : Lexeme α → Bool
  | .number _ value integer => (Literal.number value integer).valid
  | _ => true

theorem isNonnegative_numberValue (h : isFinite (numberValue (α := α) text) = true) :
    isNonnegative (numberValue (α := α) text) = true := by
  unfold numberValue at h ⊢
  split at h
  case h_1 x hx =>
    have hnegative : x.negative = false := by
      unfold Pricing.mantissaPart at hx
      dsimp only at hx
      split at hx
      · split_ifs at hx
        obtain ⟨e, -, rfl⟩ := Option.map_eq_some_iff.mp hx
        rfl
      · split_ifs at hx
        obtain ⟨e, -, rfl⟩ := Option.map_eq_some_iff.mp hx
        rfl
    exact DecimalNumbers.isNonnegative_ofDecimal x hnegative h
  case h_2 => exact isNonnegative_ofInt le_rfl

theorem validNumber_numberLexeme (text : Text) : (numberLexeme (α := α) text).validNumber = true := by
  unfold numberLexeme
  dsimp only
  split_ifs with hfinite hsafe
  · rfl
  · have hinteger : (!isIntegerText text || isSafeInteger (numberValue (α := α) text)) = true := by
      by_contra hnot
      simp_all
    simp only [Lexeme.validNumber, Literal.valid, hfinite, isNonnegative_numberValue hfinite, hinteger, Bool.and_self]
  · rfl

theorem Lexes.validNumber (h : Lexes text tokens) : ∀ t ∈ tokens, t.validNumber = true := by
  induction h with
  | nil _ => exact nofun
  | @cons text rest token tokens hnext _ _ ih =>
    refine List.forall_mem_cons.mpr ⟨?_, ih⟩
    unfold nextLexeme at hnext
    split at hnext
    case h_1 => cases hnext
    case h_2 c text' _ =>
      have hfirst : (firstLexeme (α := α) c text').1.validNumber = true := by
        unfold firstLexeme stringLexeme
        split
        · exact validNumber_numberLexeme _
        · split_ifs
          · split
            · rfl
            · split <;> rfl
          · rfl
          · split <;> rfl
      rw [Option.some.inj hnext] at hfirst
      exact hfirst

/-- The operand that a part has already read. -/
def Goal.validLeft : Goal α → Prop
  | .operators _ left => left.valid = true
  | _ => True

theorem Parses.valid_node {depth : ℕ} {goal : Goal α} {tokens rest : List (Lexeme α)}
    (h : Parses depth goal tokens node rest) :
    (∀ t ∈ tokens, t.validNumber = true) → goal.validLeft → node.valid = true := by
  -- What is left after a part is a part of the tokens.
  have hsuffix : ∀ {depth : ℕ} {goal : Goal α} {tokens rest : List (Lexeme α)} {node : ExpressionNode α},
      Parses depth goal tokens node rest → (∀ t ∈ tokens, t.validNumber = true) →
        ∀ t ∈ rest, t.validNumber = true := by
    intro depth goal tokens rest node h htokens
    obtain ⟨taken, rfl, -⟩ := h.taken
    exact (List.forall_mem_append.mp htokens).2
  induction h with
  | number => exact fun htokens _ => htokens _ (List.mem_cons_self ..)
  | string => exact fun _ _ => rfl
  | @namedLiteral depth text value rest hname =>
    intro _ _
    unfold Expression.namedLiteral at hname
    split_ifs at hname <;> cases hname <;> rfl
  | var => exact fun _ _ => rfl
  | call₁ _ _ _ _ ih =>
    intro htokens _
    simp only [List.forall_mem_cons] at htokens
    exact ih htokens.2.2 trivial
  | call₂ _ _ harg₁ _ _ ih₁ ih₂ =>
    intro htokens _
    simp only [List.forall_mem_cons] at htokens
    have hmiddle := (List.forall_mem_cons.mp (hsuffix harg₁ htokens.2.2)).2
    simp only [ExpressionNode.valid, ih₁ htokens.2.2 trivial, ih₂ hmiddle trivial, Bool.and_self]
  | parens _ ih =>
    intro htokens _
    exact ih (List.forall_mem_cons.mp htokens).2 trivial
  | unary _ _ ih =>
    intro htokens _
    exact ih (List.forall_mem_cons.mp htokens).2 trivial
  | stop _ => exact fun _ hleft => hleft
  | step _ hright _ ihr ihn =>
    intro htokens hleft
    have htail := (List.forall_mem_cons.mp htokens).2
    refine ihn (hsuffix hright htail) ?_
    have hleft' : ExpressionNode.valid _ = true := hleft
    simp only [Goal.validLeft, ExpressionNode.valid, hleft', ihr htail trivial, Bool.and_self]
  | expression hleft _ _ ihl ihn =>
    intro htokens _
    exact ihn (hsuffix hleft htokens) (ihl htokens trivial)
  | conditional hleft hcondition hyes _ ihl ihc ihy ihn =>
    intro htokens _
    have hmiddle := hsuffix hleft htokens
    have hafter := (List.forall_mem_cons.mp (hsuffix hcondition hmiddle)).2
    have hafterYes := (List.forall_mem_cons.mp (hsuffix hyes hafter)).2
    simp only [ExpressionNode.valid, ihc hmiddle (ihl htokens trivial), ihy hafter trivial,
      ihn hafterYes trivial, Bool.and_self]

/-! ## Sources -/

theorem parseSource_eq_ok_iff {source : Text} :
    parseSource source = .ok node ↔ (utf16 source).length ≤ maxLength ∧ ∃ body tokens,
      versionBody source = .ok body ∧ Lexes body tokens ∧ tokens.length < maxTokens ∧
        Parses maxNesting (.expression 0) tokens node [] := by
  unfold parseSource
  constructor
  · intro h
    split_ifs at h with hlength
    obtain ⟨body, hbody, h⟩ := ok_of_bind h
    rw [parseTokens_eq_ok_iff] at h
    obtain ⟨hlexes, hcount⟩ := lexes_of_valid h.valid
    exact ⟨not_lt.mp hlength, body, _, hbody, hlexes, hcount, h⟩
  · rintro ⟨hlength, body, tokens, hbody, hlexes, hcount, hparses⟩
    rw [if_neg (not_lt.mpr hlength), hbody, ok_bind, hlexes.lexemes hcount]
    exact parseTokens_eq_ok_iff.mpr hparses

theorem valid_of_parseSource {source : Text} (h : parseSource source = .ok node) : node.valid = true := by
  obtain ⟨-, body, tokens, -, hlexes, -, hparses⟩ := parseSource_eq_ok_iff.mp h
  exact hparses.valid_node hlexes.validNumber trivial

end Vancine.Expression
