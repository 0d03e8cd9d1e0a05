import Vancine.Expression.Lexer
import Vancine.Expression.Runtime

/-!
# Parsing an expression

`BillingParser` over the tokens of a source, by precedence. The parser looks at one token ahead; taking a
token reads the next one, which may fail. How deep calls of `expression` are nested is limited, and that
limit is what the recursion goes down on.
-/

namespace Vancine.Expression

open Lib (run1)
open Pricing (Text isSpace isDigit)

/-! ## Names -/

/-- `PRECEDENCE`. -/
def BinaryOp.precedence : BinaryOp → ℕ
  | .or => 1
  | .and => 2
  | .eq | .ne => 3
  | .lt | .le | .gt | .ge => 4
  | .add | .sub => 5
  | .mul | .div | .mod => 6

def Variable.all : List Variable :=
  [.p, .c, .len, .cr, .cc, .cc1h, .img, .img_cr, .img_o, .ai, .ao, .image_count]

def Variable.ofName (text : Text) : Option Variable := Variable.all.find? fun name => name.name = text

def Func.all : List Func :=
  [.two .tier, .one .fixed, .one .param, .one .header, .two .has, .one .u, .one (.time .hour),
    .one (.time .minute), .one (.time .weekday), .one (.time .month), .one (.time .day), .two .min, .two .max,
    .one .abs, .one .ceil, .one .floor]

def Func.name : Func → Text
  | .one name => name.name
  | .two name => name.name

def Func.ofName (text : Text) : Option Func := Func.all.find? fun name => name.name = text

/-! ## The parser -/

section
variable {α : Type}

/-- A part of the parser: a node, and the tokens after it. -/
abbrev Parser (α : Type) := List (Lexeme α) → Except Diagnostic (ExpressionNode α × List (Lexeme α))

/-- The tokens after one that was taken. -/
def advance : List (Lexeme α) → Except Diagnostic (List (Lexeme α))
  | .invalid diagnostic :: _ => .error diagnostic
  | tokens => .ok tokens

def expect (symbol : Symbol) : List (Lexeme α) → Except Diagnostic (List (Lexeme α))
  | .symbol current :: rest =>
    if current = symbol then advance rest
    else .error ⟨.syntaxError, "expected ".toList ++ symbol.text⟩
  | _ => .error ⟨.syntaxError, "expected ".toList ++ symbol.text⟩

/-- The arguments of a call, up to its closing parenthesis; a comma may stand before that. There are no
more arguments than tokens. -/
def arguments (expression : Parser α) :
    ℕ → List (Lexeme α) → Except Diagnostic (List (ExpressionNode α) × List (Lexeme α))
  | 0, tokens => .ok ([], tokens)
  | n + 1, tokens =>
    match tokens with
    | .symbol .rparen :: _ => .ok ([], tokens)
    | _ => do
      let (arg, rest) ← expression tokens
      match rest with
      | .symbol .comma :: rest =>
        let rest ← advance rest
        let (args, rest) ← arguments expression n rest
        return (arg :: args, rest)
      | _ => return ([arg], rest)

/-- A node for a call with its arguments, if there are as many as the function has. -/
def callNode : Func → List (ExpressionNode α) → Option (ExpressionNode α)
  | .one name, [arg] => some (.call₁ name arg)
  | .two name, [arg₁, arg₂] => some (.call₂ name arg₁ arg₂)
  | _, _ => none

/-- `nil`, `true` and `false`. -/
def namedLiteral (text : Text) : Option (Literal α) :=
  if text = "nil".toList then some .nil
  else if text = "true".toList then some (.boolean true)
  else if text = "false".toList then some (.boolean false)
  else none

/-- A name, with the tokens after it. -/
def named (expression : ℕ → Parser α) (text : Text) (tokens : List (Lexeme α)) :
    Except Diagnostic (ExpressionNode α × List (Lexeme α)) :=
  match namedLiteral text with
  | some value => .ok (.literal value, tokens)
  | none =>
    match tokens with
    | .symbol .lparen :: rest =>
      match Func.ofName text with
      | none => .error ⟨.unsupported, text⟩
      | some name => do
        let rest ← advance rest
        let (args, rest) ← arguments (expression 0) (rest.length + 1) rest
        let rest ← expect .rparen rest
        match callNode name args with
        | some node => return (node, rest)
        | none => .error ⟨.type, text⟩
    | _ =>
      match Variable.ofName text with
      | some name => .ok (.var name, tokens)
      | none => .error ⟨.unsupported, text⟩

/-- The binding power of a unary operator: above all binary ones. -/
def unaryMinimum : ℕ := 7

def Symbol.unary? : Symbol → Option UnaryOp
  | .not => some .not
  | .op .add => some .plus
  | .op .sub => some .minus
  | _ => none

def primary (expression : ℕ → Parser α) : Parser α
  | [] => .error ⟨.syntaxError, []⟩
  | token :: rest => do
    let rest ← advance rest
    match token with
    | .number _ value integer => return (.literal (.number value integer), rest)
    | .string _ value => return (.literal (.string value), rest)
    | .symbol .lparen =>
      let (node, rest) ← expression 0 rest
      let rest ← expect .rparen rest
      return (node, rest)
    | .symbol symbol =>
      match symbol.unary? with
      | some operator =>
        let (operand, rest) ← expression unaryMinimum rest
        return (.unary operator operand, rest)
      | none => .error ⟨.syntaxError, symbol.text⟩
    | .name text => named expression text rest
    | .invalid diagnostic => .error diagnostic

/-- The loop over operators that bind at least as strongly as `minimum`; each takes a token. -/
def operators (expression : ℕ → Parser α) (minimum : ℕ) : ℕ → ExpressionNode α → Parser α
  | 0, left, tokens => .ok (left, tokens)
  | n + 1, left, tokens =>
    match tokens with
    | .symbol (.op operator) :: rest =>
      if minimum ≤ operator.precedence then do
        let rest ← advance rest
        let (right, rest) ← expression (operator.precedence + 1) rest
        operators expression minimum n (.binary operator left right) rest
      else .ok (left, tokens)
    | _ => .ok (left, tokens)

/-- `expression(minimum)`, at most `depth` calls deep. -/
def expression : ℕ → ℕ → Parser α
  | 0, _, _ => .error ⟨.limit, "expression depth".toList⟩
  | depth + 1, minimum, tokens => do
    let (left, rest) ← primary (expression depth) tokens
    let (left, rest) ← operators (expression depth) minimum rest.length left rest
    match rest with
    | .symbol .question :: after =>
      if minimum = 0 then
        let after ← advance after
        let (yes, after) ← expression depth 0 after
        let after ← expect .colon after
        let (no, after) ← expression depth 0 after
        return (.conditional left yes no, after)
      else return (left, rest)
    | _ => return (left, rest)

def maxNesting : ℕ := 128

def maxTokens : ℕ := 10000

def maxLength : ℕ := 65536

/-- `parse` of the tokens: nothing is left at the end. -/
def parseTokens (tokens : List (Lexeme α)) : Except Diagnostic (ExpressionNode α) := do
  let tokens ← advance tokens
  let (node, rest) ← expression maxNesting 0 tokens
  match rest with
  | [] => return node
  | token :: _ => .error ⟨.unsupported, token.text⟩

/-- `^\s*v(\d+):`: the digits, and what follows. -/
def readVersion (source : Text) : Option (Text × Text) := do
  let text ← (source.dropWhile isSpace).dropPrefix? "v".toList
  let (version, text) ← run1 isDigit text
  let text ← text.dropPrefix? ":".toList
  return (version, text)

/-- The source after its version, which must be 1. -/
def versionBody (source : Text) : Except Diagnostic Text :=
  match readVersion source with
  | none => .ok source
  | some (version, body) =>
    if version = "1".toList then .ok body
    else .error ⟨.unsupported, source.take (source.length - body.length)⟩

variable [DecimalNumbers α]

def parseSource (source : Text) : Except Diagnostic (ExpressionNode α) :=
  if (utf16 source).length > maxLength then .error ⟨.limit, "expression length".toList⟩
  else do
    let body ← versionBody source
    parseTokens (lexemes maxTokens body)

def compileBillingExpression [DecidableEq α] (source : Text) : Except Diagnostic (Compiled α) := do
  let ast ← parseSource source
  compileTree ast

end

end Vancine.Expression
