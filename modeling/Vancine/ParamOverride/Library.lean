import Mathlib.Data.List.AList
import Mathlib.Algebra.Order.Ring.Unbundled.Rat
import Vancine.Lib.Json
import Vancine.Lib.Text

/-!
# Values of a parameter override

The settings of an override and the body of a request are JSON. A body is held as its value, without the spaces of its
text, and a number as the float64 that both `encoding/json` and `gjson` read. The fields of an object stand in the
order in which `range` happens to visit the map.

`gjson`, `sjson` and `regexp` are parameters, and so are the Unicode tables behind `strings.ToLower` and the shortest
digits of a float.
-/

namespace Vancine.ParamOverride

open Lib Lib.Json

/-- `map[string]any` with texts only. -/
abbrev Headers := AList fun _ : String => String

/-- What the code takes from outside the repository. -/
structure Library where
  /-- `gjson.GetBytes`; none when the result does not exist. -/
  get : Json → String → Option Json
  /-- The text of a number, an array or an object inside a document. -/
  raw : Json → String
  /-- `sjson.SetBytes`. -/
  set : Json → String → Json → Except String Json
  /-- `sjson.DeleteBytes`. -/
  delete : Json → String → Except String Json
  /-- `common.UnmarshalJsonStr` into `any`. -/
  unmarshal : String → Option Json
  /-- `unicode.ToLower` and `unicode.ToUpper` outside ASCII. -/
  lowerRune : Char → Char
  upperRune : Char → Char
  /-- One letter for all that differ in their case only. -/
  foldRune : Char → Char
  /-- `%v` of a float64. -/
  formatFloat : ℚ → String
  /-- `regexp.Compile` and `ReplaceAllString`, of a pattern, a text and a replacement. -/
  regexReplace : String → String → String → Except String String

/-! ## Texts -/

/-- `strings.ToLower`. -/
def Library.toLower (lib : Library) (s : String) : String :=
  String.ofList (s.toList.map fun c => if c.toNat < 128 then c.toLower else lib.lowerRune c)

/-- `strings.ToUpper`. -/
def Library.toUpper (lib : Library) (s : String) : String :=
  String.ofList (s.toList.map fun c => if c.toNat < 128 then c.toUpper else lib.upperRune c)

/-- `strings.EqualFold`. -/
def Library.equalFold (lib : Library) (s t : String) : Bool := s.toList.map lib.foldRune = t.toList.map lib.foldRune

def hasPrefix (s p : String) : Bool := p.toList.isPrefixOf s.toList

def hasSuffix (s p : String) : Bool := p.toList.isSuffixOf s.toList

def containsText (s p : String) : Bool := decide (p.toList <:+: s.toList)

/-- `strings.Split` at one character. -/
def splitAt (separator : Char) (s : String) : List String := (s.toList.splitOn separator).map String.ofList

/-- `strings.TrimPrefix`. -/
def trimPrefix (s p : String) : String := if hasPrefix s p then String.ofList (s.toList.drop p.toList.length) else s

/-- `strings.TrimSuffix`. -/
def trimSuffix (s p : String) : String :=
  if hasSuffix s p then String.ofList (s.toList.take (s.toList.length - p.toList.length)) else s

/-- `strings.Replace` of the first occurrence. -/
def replaceFirst (part replacement : List Char) (s : List Char) : List Char :=
  match indexOf part s with
  | none => s
  | some i => s.take i ++ replacement ++ s.drop (i + part.length)

/-- `strings.ReplaceAll` of a text that is not empty: `skip` characters are still covered by an occurrence. -/
def replaceAllFrom (part replacement : List Char) : ℕ → List Char → List Char
  | _, [] => []
  | skip + 1, _ :: rest => replaceAllFrom part replacement skip rest
  | 0, c :: rest =>
    if part.isPrefixOf (c :: rest) then replacement ++ replaceAllFrom part replacement (part.length - 1) rest
    else c :: replaceAllFrom part replacement 0 rest

def replaceAll (s part replacement : String) : String :=
  String.ofList (replaceAllFrom part.toList replacement.toList 0 s.toList)

/-- A number without a sign. -/
def digits? (s : List Char) : Option ℕ :=
  if s ≠ [] ∧ s.all Char.isDigit then some (s.foldl (fun n c => 10 * n + (c.toNat - '0'.toNat)) 0) else none

/-- `strconv.Atoi`. -/
def atoi (s : String) : Option ℤ :=
  match s.toList with
  | '-' :: rest => (digits? rest).map fun n => -(n : ℤ)
  | '+' :: rest => (digits? rest).map fun n => (n : ℤ)
  | rest => (digits? rest).map fun n => (n : ℤ)

/-! ## What `gjson` finds -/

/-- `gjson.Type`. -/
inductive Kind
  | null | false | number | string | true | json
  deriving DecidableEq

def Kind.text : Kind → String
  | .null => "Null"
  | .false => "False"
  | .number => "Number"
  | .string => "String"
  | .true => "True"
  | .json => "JSON"

def kind : Json → Kind
  | .null => .null
  | .bool b => if b then .true else .false
  | .number _ => .number
  | .string _ => .string
  | .array _ | .object _ => .json

/-- `gjson.Result.String`. -/
def gjsonText (lib : Library) : Json → String
  | .null => ""
  | .bool b => boolText b
  | .string s => s
  | v => lib.raw v

end Vancine.ParamOverride
