import Vancine.Expression.Syntax

/-!
# Tokens of an expression

What `BillingParser.next` makes of a source: white space is passed over, and each token is as long as it can
be. A token that the lexer rejects stands in the list as `invalid`, since the parser meets the tokens one at
a time and may stop before it. A lone surrogate is no character here; an escape that makes one is rejected.
-/

namespace Vancine.Expression

open Pricing (Text Decimal isSpace isDigit digitsValue hexValue joinUnits mantissaPart)

/-! ## Numbers in a source -/

/-- Numbers that are written in decimal: `Number(text)`. -/
class DecimalNumbers (α : Type) extends Numbers α where
  ofDecimal : Decimal → α
  isNonnegative_ofDecimal (x : Decimal) : x.negative = false → isFinite (ofDecimal x) = true →
    isNonnegative (ofDecimal x) = true

export DecimalNumbers (ofDecimal)

/-- The digits of a decimal as one number, and the power of ten that it is divided by. -/
def scaledDigits (x : Decimal) : ℕ × ℕ :=
  let e : ℤ := x.exponent - x.fraction.length
  (digitsValue (x.whole ++ x.fraction) * 10 ^ e.toNat, 10 ^ (-e).toNat)

/-- What is rounded to infinity is not finite. -/
instance : DecimalNumbers Exact where
  ofDecimal x :=
    let (n, d) := scaledDigits x
    if n < (2 ^ 1024 - 2 ^ 970) * d then
      if x.negative then .finite (-mkRat n d) else .finite (mkRat n d)
    else .notFinite
  isNonnegative_ofDecimal x hx := by
    simp only [hx, Bool.false_eq_true, if_false]
    split_ifs with hlt
    · intro _
      have hnonneg : (0 : ℚ) ≤ mkRat (scaledDigits x).1 (scaledDigits x).2 :=
        Rat.mkRat_nonneg (Int.natCast_nonneg _) _
      exact decide_eq_true (by exact_mod_cast hnonneg)
    · exact fun h => nomatch h

/-! ## Tokens -/

inductive Symbol
  | op (operator : BinaryOp)
  | not
  | lparen
  | rparen
  | question
  | colon
  | comma
  deriving DecidableEq

def Symbol.text : Symbol → Text
  | .op operator => operator.text
  | .not => "!".toList
  | .lparen => "(".toList
  | .rparen => ")".toList
  | .question => "?".toList
  | .colon => ":".toList
  | .comma => ",".toList

inductive Lexeme (α : Type)
  | number (text : Text) (value : α) (integer : Bool)
  | string (text : Text) (value : Text)
  | name (text : Text)
  | symbol (sym : Symbol)
  | invalid (diagnostic : Diagnostic)

def Lexeme.text {α : Type} : Lexeme α → Text
  | .number text _ _ | .string text _ | .name text => text
  | .symbol sym => sym.text
  | .invalid _ => []

/-- `[+-]?`: what it takes, and what follows. -/
def readSign : Text → Text × Text
  | '+' :: rest => (['+'], rest)
  | '-' :: rest => (['-'], rest)
  | rest => ([], rest)

/-- `(?:[eE][+-]?\d+)?`. -/
def readExponent (text : Text) : Text × Text :=
  match text with
  | e :: rest =>
    if e = 'e' ∨ e = 'E' then
      let (sign, digits) := readSign rest
      if digits.takeWhile isDigit = [] then ([], text)
      else (e :: (sign ++ digits.takeWhile isDigit), digits.dropWhile isDigit)
    else ([], text)
  | [] => ([], [])

/-- Digits without a dot after them. -/
def readInteger (whole rest : Text) : Option (Text × Text) :=
  if whole = [] then none
  else
    let (exponent, rest) := readExponent rest
    some (whole ++ exponent, rest)

/-- `^(?:\d+(?:\.\d*)?|\.\d+)(?:[eE][+-]?\d+)?`. -/
def readNumber (text : Text) : Option (Text × Text) :=
  let whole := text.takeWhile isDigit
  match text.dropWhile isDigit with
  | [] => readInteger whole []
  | d :: rest =>
    if d = '.' then
      let fraction := rest.takeWhile isDigit
      if whole = [] ∧ fraction = [] then none
      else
        let (exponent, rest) := readExponent (rest.dropWhile isDigit)
        some (whole ++ '.' :: (fraction ++ exponent), rest)
    else readInteger whole (d :: rest)

section
variable {α : Type} [DecimalNumbers α]

/-- `Number` of what `readNumber` takes. -/
def numberValue (text : Text) : α :=
  match mantissaPart false text with
  | some x => ofDecimal x
  | none => zero

/-- Without `[.eE]`. -/
def isIntegerText (text : Text) : Bool := text.all fun c => c ≠ '.' && c ≠ 'e' && c ≠ 'E'

def numberLexeme (text : Text) : Lexeme α :=
  let value := numberValue text
  let integer := isIntegerText text
  if ¬isFinite value then .invalid ⟨.number, text⟩
  else if integer ∧ ¬isSafeInteger value then .invalid ⟨.unsupported, "integer precision".toList⟩
  else .number text value integer

end

def unterminated : Diagnostic := ⟨.syntaxError, "unterminated string".toList⟩

def escapeUnsupported : Diagnostic := ⟨.unsupported, "string escape".toList⟩

/-- What stands after a backslash for one character. -/
def escapeValue (c : Char) : Option Char :=
  if c = 'n' then some '\n'
  else if c = 'r' then some '\r'
  else if c = 't' then some '\t'
  else if c = 'b' then some '\x08'
  else if c = 'f' then some '\x0c'
  else if c = 'v' then some '\x0b'
  else if c = '\\' then some '\\'
  else if c = '"' then some '"'
  else if c = '\'' then some '\''
  else if c = '/' then some '/'
  else none

/-- The value of hexadecimal digits. -/
def hexDigits (digits : Text) : Option ℕ :=
  digits.foldlM (fun n c => (hexValue c).map (16 * n + ·)) 0

/-- The code units of a string up to its closing quote, and what follows. -/
def stringBody (quote : Char) : Text → Except Diagnostic (List ℕ × Text)
  | [] => .error unterminated
  | c :: text =>
    if c = quote then .ok ([], text)
    else if c = '\n' ∨ c = '\r' then .error unterminated
    else if c ≠ '\\' then do
      let (units, rest) ← stringBody quote text
      return (c.toNat :: units, rest)
    else
      match text with
      | [] => .error escapeUnsupported
      | e :: text =>
        match escapeValue e with
        | some c => do
          let (units, rest) ← stringBody quote text
          return (c.toNat :: units, rest)
        | none =>
          if e = 'u' then
            match text with
            | a :: b :: c :: d :: text =>
              match hexDigits [a, b, c, d] with
              | some unit => do
                let (units, rest) ← stringBody quote text
                return (unit :: units, rest)
              | none => .error unterminated
            | _ => .error unterminated
          else if e = 'x' then
            match text with
            | a :: b :: text =>
              match hexDigits [a, b] with
              | some unit => do
                let (units, rest) ← stringBody quote text
                return (unit :: units, rest)
              | none => .error unterminated
            | _ => .error unterminated
          else .error escapeUnsupported

theorem stringBody_quote {quote : Char} {text : Text} : stringBody quote (quote :: text) = .ok ([], text) := by
  rw [stringBody.eq_def]
  exact if_pos rfl

/-- `[A-Za-z_]`. -/
def isNameStart (c : Char) : Bool := c.isAlpha || c = '_'

/-- `\w`. -/
def isWord (c : Char) : Bool := c.isAlphanum || c = '_'

/-- `&&|\|\||==|!=|<=|>=`. -/
def pairSymbol (c d : Char) : Option Symbol :=
  if d = '&' then if c = '&' then some (.op .and) else none
  else if d = '|' then if c = '|' then some (.op .or) else none
  else if d = '=' then
    if c = '=' then some (.op .eq)
    else if c = '!' then some (.op .ne)
    else if c = '<' then some (.op .le)
    else if c = '>' then some (.op .ge)
    else none
  else none

/-- `[+\-*/%<>()!?:,]`. -/
def charSymbol (c : Char) : Option Symbol :=
  if c = '+' then some (.op .add)
  else if c = '-' then some (.op .sub)
  else if c = '*' then some (.op .mul)
  else if c = '/' then some (.op .div)
  else if c = '%' then some (.op .mod)
  else if c = '<' then some (.op .lt)
  else if c = '>' then some (.op .gt)
  else if c = '(' then some .lparen
  else if c = ')' then some .rparen
  else if c = '!' then some .not
  else if c = '?' then some .question
  else if c = ':' then some .colon
  else if c = ',' then some .comma
  else none

/-- The symbol that a text starts with, of two characters if there is one, and what follows. -/
def readSymbol (c : Char) (text : Text) : Option (Symbol × Text) :=
  match text with
  | [] => (charSymbol c).map (·, [])
  | d :: rest =>
    match pairSymbol c d with
    | some symbol => some (symbol, rest)
    | none => (charSymbol c).map (·, d :: rest)

section
variable {α : Type} [DecimalNumbers α]

/-- The string that starts with a quote. -/
def stringLexeme (quote : Char) (text : Text) : Lexeme α × Text :=
  match stringBody quote text with
  | .error diagnostic => (.invalid diagnostic, [])
  | .ok (units, rest) =>
    match joinUnits units with
    | some value => (.string (quote :: text.take (text.length - rest.length)) value, rest)
    | none => (.invalid escapeUnsupported, [])

/-- The token that a text without white space in front starts with, and what follows it. -/
def firstLexeme (c : Char) (text : Text) : Lexeme α × Text :=
  match readNumber (c :: text) with
  | some (number, rest) => (numberLexeme number, rest)
  | none =>
    if c = '"' ∨ c = '\'' then stringLexeme c text
    else if isNameStart c then (.name (c :: text.takeWhile isWord), text.dropWhile isWord)
    else
      match readSymbol c text with
      | some (sym, rest) => (.symbol sym, rest)
      | none => (.invalid ⟨.unsupported, [c]⟩, [])

/-- `next`; none at the end. -/
def nextLexeme (text : Text) : Option (Lexeme α × Text) :=
  match text.dropWhile isSpace with
  | [] => none
  | c :: text => some (firstLexeme c text)

def Lexeme.isInvalid : Lexeme α → Bool
  | .invalid _ => true
  | _ => false

/-- The tokens of a text, in at most `n` calls of `next`; the last call finds the end. -/
def lexemes : ℕ → Text → List (Lexeme α)
  | 0, _ => [.invalid ⟨.limit, "expression tokens".toList⟩]
  | n + 1, text =>
    match nextLexeme text with
    | none => []
    | some (token, rest) => if token.isInvalid then [token] else token :: lexemes n rest

end

end Vancine.Expression
