import Mathlib
import Vancine.Lib.Json
import Vancine.Lib.Text

/-!
# Function calls of Gemini in pieces

A stream of Gemini may bring the arguments of a call in pieces, each with the path of its place. The pieces of a
candidate are put together until the call is complete.
-/

namespace Vancine.Streams.Gemini

open Lib

/-! ## Calls -/

structure GeminiPartialArg where
  jsonPath : String
  numberValue : Option ℚ := none
  stringValue : Option String := none
  boolValue : Option Bool := none
  /-- There is a `nullValue`. -/
  nullValue : Bool := false

/-- `dto.FunctionCall`. -/
structure FunctionCall where
  id : String := ""
  functionName : String := ""
  arguments : Json := .null
  partialArgs : List GeminiPartialArg := []
  willContinue : Option Bool := none

/-- What the language gives: `%q`, and the string that a quoted one stands for. -/
structure Quoting where
  quoted : String → String
  unmarshal : String → Except String String

variable (quoting : Quoting)

/-! ## Paths -/

inductive PathSegment
  | member (member : String)
  | index (index : ℕ)

def maxGeminiPartialArgArrayIndex : ℕ := 4095

/-- A quoted member up to its closing quote, and what comes after. A backslash keeps the character behind it. -/
def scanMember (quote : Char) : List Char → Option (List Char × List Char)
  | [] => none
  | c :: rest =>
    if c = '\\' then
      match rest with
      | [] => none
      | c' :: rest => (scanMember quote rest).map fun r => (c :: c' :: r.1, r.2)
    else if c = quote then some ([], rest)
    else (scanMember quote rest).map fun r => (c :: r.1, r.2)

/-- `strings.ReplaceAll` of an escaped single quote by the quote. -/
def replaceSingleQuotes : List Char → List Char
  | '\\' :: '\'' :: rest => '\'' :: replaceSingleQuotes rest
  | c :: rest => c :: replaceSingleQuotes rest
  | [] => []

def replaceDoubleQuotes (chars : List Char) : List Char := chars.flatMap fun c => if c = '"' then ['\\', '"'] else [c]

/-- The member after its opening quote, and what comes after its closing quote. -/
def parseGeminiPartialArgMember (quote : Char) (chars : List Char) : Except String (String × List Char) :=
  match scanMember quote chars with
  | none => .error "unterminated quoted member"
  | some (inner, rest) =>
    let inner := if quote = '\'' then replaceSingleQuotes (replaceDoubleQuotes inner) else inner
    (quoting.unmarshal (String.ofList ('"' :: inner ++ ['"']))).map fun member => (member, rest)

theorem length_scanMember {quote : Char} {chars inner rest : List Char} (h : scanMember quote chars = some (inner, rest)) :
    rest.length ≤ chars.length := by
  fun_induction scanMember quote chars generalizing inner with
  | case1 => exact absurd h nofun
  | case2 => exact absurd h nofun
  | case3 c' rest' ih =>
    obtain ⟨⟨inner', rest''⟩, h', heq⟩ := Option.map_eq_some_iff.mp h
    obtain ⟨-, rfl⟩ := Prod.mk.inj heq
    exact (ih h').trans (by simp; omega)
  | case4 rest' hquote =>
    obtain ⟨-, rfl⟩ := Prod.mk.inj (Option.some.inj h)
    simp
  | case5 c rest' hc hquote ih =>
    obtain ⟨⟨inner', rest''⟩, h', heq⟩ := Option.map_eq_some_iff.mp h
    obtain ⟨-, rfl⟩ := Prod.mk.inj heq
    exact (ih h').trans (by simp)

theorem length_parseMember {quote : Char} {chars rest : List Char} {member : String}
    (h : parseGeminiPartialArgMember quoting quote chars = .ok (member, rest)) : rest.length ≤ chars.length := by
  unfold parseGeminiPartialArgMember at h
  cases hscan : scanMember quote chars with
  | none => exact absurd (hscan ▸ h) nofun
  | some r =>
    rw [hscan] at h
    have hrest : ∀ {x : Except String String}, x.map (fun m => (m, r.2)) = .ok (member, rest) → rest = r.2 := by
      intro x hx
      cases x with
      | error e => exact absurd hx nofun
      | ok m => exact (Prod.mk.inj (Except.ok.inj hx)).2.symm
    rw [hrest h]
    exact length_scanMember hscan

def isDigit (c : Char) : Bool := '0' ≤ c && c ≤ '9'

/-- `strconv.Atoi` of digits. -/
def atoi (digits : List Char) : Except String ℕ :=
  let n := digits.foldl (fun n c => 10 * n + (c.toNat - '0'.toNat)) 0
  if n < 2 ^ 63 then .ok n
  else .error ("strconv.Atoi: parsing " ++ quoting.quoted (String.ofList digits) ++ ": value out of range")

def indexSegment (jsonPath : String) (digits : List Char) : Except String PathSegment :=
  match atoi quoting digits with
  | .error e => .error ("invalid array index in Gemini partial argument path " ++ quoting.quoted jsonPath ++ ": " ++ e)
  | .ok index =>
    if index > maxGeminiPartialArgArrayIndex then
      .error ("array index " ++ toString index ++ " exceeds Gemini partial argument materialization limit " ++
        toString maxGeminiPartialArgArrayIndex)
    else .ok (.index index)

def byteLength (chars : List Char) : ℕ := (String.ofList chars).utf8ByteSize

/-- The segments from an offset of the path on. -/
def parseSegments (jsonPath path : String) : List Char → Except String (List PathSegment)
  | [] => .ok []
  | c :: rest =>
    if c = '.' then
      let member := rest.takeWhile fun c => c ≠ '.' && c ≠ '['
      if member = [] then .error ("empty member in Gemini partial argument path " ++ quoting.quoted jsonPath)
      else if member.any fun c => c = ']' || c = '*' || c = '?' then
        .error ("unsupported member " ++ quoting.quoted (String.ofList member) ++ " in Gemini partial argument path")
      else
        (parseSegments jsonPath path (rest.dropWhile fun c => c ≠ '.' && c ≠ '[')).map
          (.member (String.ofList member) :: ·)
    else if c = '[' then
      match rest with
      | [] => .error ("unterminated selector in Gemini partial argument path " ++ quoting.quoted jsonPath)
      | quote :: inner =>
        if quote = '\'' || quote = '"' then
          match _h : parseGeminiPartialArgMember quoting quote inner with
          | .error e => .error ("invalid Gemini partial argument path " ++ quoting.quoted jsonPath ++ ": " ++ e)
          | .ok (member, ']' :: rest) => (parseSegments jsonPath path rest).map (.member member :: ·)
          | .ok _ => .error ("unterminated member selector in Gemini partial argument path " ++ quoting.quoted jsonPath)
        else
          let digits := (quote :: inner).takeWhile isDigit
          match _h : (quote :: inner).dropWhile isDigit with
          | ']' :: rest =>
            if digits = [] then .error ("unsupported selector in Gemini partial argument path " ++ quoting.quoted jsonPath)
            else
              match indexSegment quoting jsonPath digits with
              | .error e => .error e
              | .ok segment => (parseSegments jsonPath path rest).map (segment :: ·)
          | _ => .error ("unsupported selector in Gemini partial argument path " ++ quoting.quoted jsonPath)
    else
      .error ("unsupported selector at offset " ++ toString (path.utf8ByteSize - byteLength (c :: rest)) ++
        " in Gemini partial argument path " ++ quoting.quoted jsonPath)
termination_by chars => chars.length
decreasing_by
  · exact Nat.lt_succ_of_le (List.dropWhile_suffix _).length_le
  · have := length_parseMember quoting _h
    simp at this ⊢
    omega
  · have := (List.dropWhile_suffix (l := quote :: inner) isDigit).length_le
    rw [_h] at this
    simp at this ⊢
    omega

def parseGeminiPartialArgPath (jsonPath : String) : Except String (List PathSegment) :=
  let path := trimSpace jsonPath
  match path.toList with
  | '$' :: rest =>
    match parseSegments quoting jsonPath path rest with
    | .error e => .error e
    | .ok [] => .error ("Gemini partial argument path " ++ quoting.quoted jsonPath ++ " targets the arguments root")
    | .ok segments => .ok segments
  | _ => .error ("unsupported Gemini partial argument path " ++ quoting.quoted jsonPath)

/-! ## Values -/

def geminiPartialArgValue (arg : GeminiPartialArg) : Option Json :=
  (arg.stringValue.map .string) <|> (arg.numberValue.map .number) <|> (arg.boolValue.map .bool) <|>
    (if arg.nullValue then some .null else none)

/-- `%T` of a decoded value. -/
def typeName : Json → String
  | .null => "<nil>"
  | .bool _ => "bool"
  | .number _ => "float64"
  | .string _ => "string"
  | .array _ => "[]interface {}"
  | .object _ => "map[string]interface {}"

/-- The items with room for an index. -/
def padded (index : ℕ) (items : List Json) : List Json := items ++ List.replicate (index + 1 - items.length) .null

def setGeminiPartialArgValue (current : Json) (path : List PathSegment) (value : Json) (appendString : Bool) :
    Except String Json :=
  match path with
  | [] =>
    match appendString, current, value with
    | true, .string existing, .string fragment => .ok (.string (existing ++ fragment))
    | _, _, _ => .ok value
  | .index index :: path =>
    let set (items : List Json) : Except String Json :=
      (setGeminiPartialArgValue ((padded index items)[index]?.getD .null) path value appendString).map fun updated =>
        .array ((padded index items).set index updated)
    match current with
    | .null => set []
    | .array items => set items
    | _ => .error ("array index " ++ toString index ++ " traverses " ++ typeName current)
  | .member member :: path =>
    let set (fields : Json.Fields) : Except String Json :=
      (setGeminiPartialArgValue ((fields.lookup member).getD .null) path value appendString).map fun updated =>
        .object (Json.setField member updated fields)
    match current with
    | .null => set []
    | .object fields => set fields
    | _ => .error ("member " ++ quoting.quoted member ++ " traverses " ++ typeName current)

/-! ## Calls that go on -/

structure GeminiPartialToolCall where
  id : String := ""
  name : String := ""
  arguments : Json.Fields := []

/-- The call in pieces of each candidate. -/
abbrev PartialTools := AList fun _ : ℤ => GeminiPartialToolCall

/-- The id or the name after a piece says it again, which may not change it. -/
def agreeOn (field : String) (candidateIndex : ℤ) (known said : String) : Except String String :=
  if said = "" then .ok known
  else if known ≠ "" ∧ known ≠ said then
    .error ("candidate " ++ toString candidateIndex ++ " function call changed " ++ field ++ " from " ++
      quoting.quoted known ++ " to " ++ quoting.quoted said)
  else .ok said

def setPartialArg (arguments : Json.Fields) (arg : GeminiPartialArg) : Except String Json.Fields :=
  match parseGeminiPartialArgPath quoting arg.jsonPath with
  | .error e => .error e
  | .ok path =>
    match geminiPartialArgValue arg with
    | none => .ok arguments
    | some value =>
      match setGeminiPartialArgValue quoting (.object arguments) path value arg.stringValue.isSome with
      | .error e => .error ("set partial argument " ++ quoting.quoted arg.jsonPath ++ ": " ++ e)
      | .ok (.object arguments) => .ok arguments
      | .ok _ =>
        .error ("partial argument path " ++ quoting.quoted arg.jsonPath ++ " replaced the arguments object")

/-- The complete call, if this piece is the last one. -/
def appendPartialFunctionCall (tools : PartialTools) (candidateIndex : ℤ) (call : FunctionCall) :
    Except String (PartialTools × Option FunctionCall) := do
  let current := (tools.lookup candidateIndex).getD {}
  let id ← agreeOn quoting "id" candidateIndex current.id (trimSpace call.id)
  let name ← agreeOn quoting "name" candidateIndex current.name (trimSpace call.functionName)
  let arguments ← call.partialArgs.foldlM (setPartialArg quoting) current.arguments
  if call.willContinue = some true then
    return (tools.insert candidateIndex ⟨id, name, arguments⟩, none)
  if name = "" then
    .error ("candidate " ++ toString candidateIndex ++ " completed a partial function call without a name")
  else return (tools.erase candidateIndex, some { id := id, functionName := name, arguments := .object arguments })

/-- The call is not one in pieces. -/
def isComplete (tools : PartialTools) (candidateIndex : ℤ) (call : FunctionCall) : Bool :=
  (tools.lookup candidateIndex).isNone && call.willContinue.isNone && call.partialArgs.isEmpty

end Vancine.Streams.Gemini
