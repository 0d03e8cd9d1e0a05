import Mathlib.Data.List.Sort
import Mathlib.Data.Rat.Defs

/-!
# JSON values

A JSON value with its numbers as the rationals that they stand for. The fields of an object are a list, in whatever
order a map of them is visited; a key is written in place.
-/

namespace Lib

inductive Json
  | null
  | bool (b : Bool)
  | number (n : ℚ)
  | string (s : String)
  | array (items : List Json)
  | object (fields : List (String × Json))

namespace Json

abbrev Fields := List (String × Json)

def string? : Json → Option String
  | .string s => some s
  | _ => none

def bool? : Json → Option Bool
  | .bool b => some b
  | _ => none

def stringField (fields : Fields) (key : String) : Option String := (fields.lookup key).bind string?

def boolField (fields : Fields) (key : String) : Option Bool := (fields.lookup key).bind bool?

/-- Write a key of a map. -/
def setField (key : String) (value : Json) (fields : Fields) : Fields :=
  if (fields.lookup key).isSome then fields.map fun f => if f.1 = key then (key, value) else f
  else fields ++ [(key, value)]

def boolText (b : Bool) : String := if b then "true" else "false"

mutual

/-- `%v` of a value. Maps are printed in the order of their keys. -/
def printed (formatFloat : ℚ → String) : Json → String
  | .null => "<nil>"
  | .bool b => boolText b
  | .number n => formatFloat n
  | .string s => s
  | .array items => "[" ++ " ".intercalate (printedItems formatFloat items) ++ "]"
  | .object fields =>
    let entries := (printedFields formatFloat fields).insertionSort fun a b => a.1 ≤ b.1
    "map[" ++ " ".intercalate (entries.map fun e => e.1 ++ ":" ++ e.2) ++ "]"

def printedItems (formatFloat : ℚ → String) : List Json → List String
  | [] => []
  | item :: items => item.printed formatFloat :: printedItems formatFloat items

def printedFields (formatFloat : ℚ → String) : Fields → List (String × String)
  | [] => []
  | field :: fields => (field.1, field.2.printed formatFloat) :: printedFields formatFloat fields

end

end Json

end Lib
