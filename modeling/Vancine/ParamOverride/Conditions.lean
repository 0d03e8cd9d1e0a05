import Vancine.ParamOverride.Library

/-!
# Conditions of an operation

A condition reads a path of the body, or of the context when the body has nothing there, and compares what it finds.
-/

namespace Vancine.ParamOverride

open Lib Lib.Json

structure ConditionOperation where
  path : String
  mode : String
  value : Json
  invert : Bool
  passMissingKey : Bool

/-! ## Negative indices -/

/-- Where a search for `\.(-\d+)` stands; `digits` has read the minus sign and some digits, last first. -/
inductive IndexScan
  | start
  | dot
  | digits (reversed : List Char)

/-- The capture is complete when there is a digit in it. -/
def IndexScan.captured : IndexScan → List (List Char)
  | .digits reversed => if 1 < reversed.length then [reversed.reverse] else []
  | _ => []

def IndexScan.restart (c : Char) : IndexScan := if c = '.' then .dot else .start

/-- What the groups of all matches capture. -/
def negativeIndices : IndexScan → List Char → List (List Char)
  | scan, [] => scan.captured
  | .start, c :: rest => negativeIndices (.restart c) rest
  | .dot, c :: rest => negativeIndices (if c = '-' then .digits [c] else .restart c) rest
  | .digits reversed, c :: rest =>
    if c.isDigit then negativeIndices (.digits (c :: reversed)) rest
    else (IndexScan.digits reversed).captured ++ negativeIndices (.restart c) rest

/-- What `\d+` counts to, below zero. -/
def negativeIndexValue (negIndex : List Char) : ℤ := (atoi (String.ofList negIndex)).getD 0

/-- One match: `path` is the path as it was given, `result` the path so far. -/
def resolveNegativeIndex (lib : Library) (data : Json) (path : List Char) (result negIndex : List Char) : List Char :=
  let before := match indexOf negIndex path with
    | none => path
    | some i => path.take i
  let arrayPath := if before.getLast? = some '.' then before.dropLast else before
  match lib.get data (String.ofList arrayPath) with
  | some (.array items) =>
    let actualIndex := items.length + negativeIndexValue negIndex
    if 0 ≤ actualIndex ∧ actualIndex < items.length then
      replaceFirst ('.' :: negIndex) ('.' :: (toString actualIndex).toList) result
    else result
  | _ => result

def processNegativeIndex (lib : Library) (data : Json) (path : String) : String :=
  String.ofList ((negativeIndices .start path.toList).foldl (resolveNegativeIndex lib data path.toList) path.toList)

/-! ## Comparing -/

def compareEqual (lib : Library) (jsonValue targetValue : Json) : Except String Bool :=
  if kind jsonValue = .null ∨ kind targetValue = .null then
    .ok (decide (kind jsonValue = .null ∧ kind targetValue = .null))
  else
    match jsonValue, targetValue with
    | .bool a, .bool b => .ok (a = b)
    | .number a, .number b => .ok (a = b)
    | .string a, .string b => .ok (a = b)
    | a, b =>
      if kind a ≠ kind b then
        .error ("compare for different types, got " ++ (kind a).text ++ " and " ++ (kind b).text)
      else .ok (gjsonText lib a = gjsonText lib b)

/-- `test` is the operator at the two numbers. -/
def compareNumeric (test : ℚ → ℚ → Bool) (jsonValue targetValue : Json) : Except String Bool :=
  match jsonValue, targetValue with
  | .number a, .number b => .ok (test a b)
  | a, b => .error ("numeric comparison requires both values to be numbers, got " ++ (kind a).text ++ " and " ++ (kind b).text)

def compareGjsonValues (lib : Library) (jsonValue targetValue : Json) (mode : String) : Except String Bool :=
  match mode with
  | "full" => compareEqual lib jsonValue targetValue
  | "prefix" => .ok (hasPrefix (gjsonText lib jsonValue) (gjsonText lib targetValue))
  | "suffix" => .ok (hasSuffix (gjsonText lib jsonValue) (gjsonText lib targetValue))
  | "contains" => .ok (containsText (gjsonText lib jsonValue) (gjsonText lib targetValue))
  | "gt" => compareNumeric (fun a b => b < a) jsonValue targetValue
  | "gte" => compareNumeric (fun a b => b ≤ a) jsonValue targetValue
  | "lt" => compareNumeric (fun a b => a < b) jsonValue targetValue
  | "lte" => compareNumeric (fun a b => a ≤ b) jsonValue targetValue
  | _ => .error ("unsupported comparison mode: " ++ mode)

/-! ## Checking -/

def checkSingleCondition (lib : Library) (data context : Json) (condition : ConditionOperation) : Except String Bool :=
  match lib.get data (processNegativeIndex lib data condition.path) <|> lib.get context condition.path with
  | none => .ok condition.passMissingKey
  | some value =>
    match compareGjsonValues lib value condition.value (lib.toLower condition.mode) with
    | .error e => .error ("comparison failed for path " ++ condition.path ++ ": " ++ e)
    | .ok result => .ok (result != condition.invert)

def checkConditions (lib : Library) (data context : Json) (conditions : List ConditionOperation) (logic : String) :
    Except String Bool :=
  if conditions = [] then .ok true
  else do
    let results ← conditions.mapM (checkSingleCondition lib data context)
    pure (if lib.toUpper logic = "AND" then results.all id else results.any id)

/-! ## Parsing -/

/-- A field of an object that must equal the value. -/
def fullCondition (path : String) (value : Json) : ConditionOperation := ⟨path, "full", value, false, false⟩

def parseConditionOperation : Json → Except String ConditionOperation
  | .object item =>
    let path := (stringField item "path").getD ""
    let mode := (stringField item "mode").getD ""
    if trimSpace path = "" ∨ trimSpace mode = "" then .error "condition path/mode is required"
    else .ok {
      path, mode
      value := (item.lookup "value").getD .null
      invert := (boolField item "invert").getD false
      passMissingKey := (boolField item "pass_missing_key").getD false }
  | _ => .error "condition must be object"

def parseConditionOperations : Json → Except String (List ConditionOperation)
  | .object fields =>
    let conditions := fields.filterMap fun field =>
      let path := trimSpace field.1
      if path = "" then none else some (fullCondition path field.2)
    if conditions = [] then .error "conditions object must contain at least one key" else .ok conditions
  | .array items => items.mapM parseConditionOperation
  | _ => .error "conditions must be an array or object"

end Vancine.ParamOverride
