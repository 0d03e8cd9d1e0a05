import Vancine.Pricing.Structure

/-!
# Request rules in the editor

A rule group is a list of conditions and a multiplier. `buildRequestRuleExpr` writes the groups as a product
of factors `(condition ? multiplier : 1)`, and `tryParseRequestRuleExpr` reads such a product back.

The parser reads with regular expressions. None of them needs backtracking: a run of one class is always
followed by a character outside the class. They are written here as the steps they take from the left, and
the one for a factor from the right.
-/

namespace Vancine.Pricing

open Lib

/-! ## Conditions -/

inductive TimeFunc
  | hour
  | minute
  | weekday
  | month
  | day
  deriving DecidableEq

inductive MatchMode
  | eq
  | contains
  | gt
  | gte
  | lt
  | lte
  | exists
  | range
  deriving DecidableEq

inductive Source
  | param
  | header
  deriving DecidableEq

structure ParamHeaderCondition where
  source : Source
  path : Text
  mode : MatchMode
  value : Text
  deriving DecidableEq

structure TimeCondition where
  timeFunc : TimeFunc
  timezone : Text
  mode : MatchMode
  value : Text
  rangeStart : Text
  rangeEnd : Text
  deriving DecidableEq

inductive RequestCondition
  | time (cond : TimeCondition)
  | paramHeader (cond : ParamHeaderCondition)
  deriving DecidableEq

structure RequestRuleGroup where
  conditions : List RequestCondition
  multiplier : Text
  deriving DecidableEq

structure ParsedRequestRuleGroup extends RequestRuleGroup where
  sourceOffset : ℕ

def TimeFunc.name : TimeFunc → Text
  | .hour => "hour".toList
  | .minute => "minute".toList
  | .weekday => "weekday".toList
  | .month => "month".toList
  | .day => "day".toList

def Source.name : Source → Text
  | .param => "param".toList
  | .header => "header".toList

/-- `TIME_FUNC_RANGES`. -/
def TimeFunc.range : TimeFunc → ℤ × ℤ
  | .hour => (0, 23)
  | .minute => (0, 59)
  | .weekday => (0, 6)
  | .month => (1, 12)
  | .day => (1, 31)

def isTimeValueInRange (timeFunc : TimeFunc) (text : Text) : Bool :=
  match integer? text with
  | none => false
  | some value => timeFunc.range.1 ≤ value && value ≤ timeFunc.range.2

/-- `getRequestRuleMatchOptions` for the time. -/
def timeMatchOptions : List MatchMode := [.eq, .gte, .lt, .range]

/-- `getRequestRuleMatchOptions` for a parameter or a header. -/
def Source.matchOptions : Source → List MatchMode
  | .header => [.eq, .contains, .exists]
  | .param => [.eq, .contains, .exists, .gt, .gte, .lt, .lte]

/-- `normalizeCondition` of a time condition. -/
def TimeCondition.normalize (cond : TimeCondition) : TimeCondition :=
  { cond with
    timezone := if cond.timezone = [] then "Asia/Shanghai".toList else cond.timezone
    mode := if cond.mode ∈ timeMatchOptions then cond.mode else .gte }

/-- `normalizeCondition` of a condition on a parameter or a header. -/
def ParamHeaderCondition.normalize (cond : ParamHeaderCondition) : ParamHeaderCondition :=
  { cond with mode := if cond.mode ∈ cond.source.matchOptions then cond.mode else .eq }

/-! ## Building -/

def buildExprLiteral (mode : MatchMode) (value : Text) : Text :=
  let text := trim value
  if mode = .contains then stringify text
  else if text = "true".toList ∨ text = "false".toList then text
  else if isNumeric text then text
  else stringify text

/-- `fn(tz)`, with its argument in quotes. -/
def call (name argument : Text) : Text := name ++ '(' :: (stringify argument ++ [')'])

def buildTimeConditionExpr (cond : TimeCondition) : Text :=
  let normalized := cond.normalize
  let fn := call normalized.timeFunc.name normalized.timezone
  if normalized.mode = .range then
    let s := trim normalized.rangeStart
    let e := trim normalized.rangeEnd
    if ¬isTimeValueInRange normalized.timeFunc s ∨ ¬isTimeValueInRange normalized.timeFunc e then []
    else if (integer? s).getD 0 > (integer? e).getD 0 then
      fn ++ " >= ".toList ++ s ++ " || ".toList ++ fn ++ " < ".toList ++ e
    else fn ++ " >= ".toList ++ s ++ " && ".toList ++ fn ++ " < ".toList ++ e
  else
    let v := trim normalized.value
    if ¬isTimeValueInRange normalized.timeFunc v then []
    else
      let op := match normalized.mode with
        | .gte => " >= "
        | .lt => " < "
        | _ => " == "
      fn ++ op.toList ++ v

/-- The operator of an ordered comparison. -/
def MatchMode.order? : MatchMode → Option Text
  | .gt => some " > ".toList
  | .gte => some " >= ".toList
  | .lt => some " < ".toList
  | .lte => some " <= ".toList
  | _ => none

def buildParamHeaderExpr (cond : ParamHeaderCondition) : Text :=
  let normalized := cond.normalize
  let path := trim normalized.path
  if path = [] then []
  else
    let sourceExpr := call normalized.source.name path
    match normalized.mode with
    | .exists =>
      match normalized.source with
      | .header => sourceExpr ++ " != \"\"".toList
      | .param => sourceExpr ++ " != nil".toList
    | .contains =>
      let has := "has(".toList ++ sourceExpr ++ ", ".toList ++
        buildExprLiteral .contains normalized.value ++ ")".toList
      match normalized.source with
      | .header => has
      | .param => sourceExpr ++ " != nil && ".toList ++ has
    | mode =>
      match mode.order? with
      | some op =>
        let numText := trim normalized.value
        if ¬isNumeric numText then []
        else sourceExpr ++ " != nil && ".toList ++ sourceExpr ++ op ++ numText
      | none => sourceExpr ++ " == ".toList ++ buildExprLiteral mode normalized.value

def buildRequestConditionExpr : RequestCondition → Text
  | .time cond => buildTimeConditionExpr cond
  | .paramHeader cond => buildParamHeaderExpr cond

/-- The parentheses that a condition with a disjunction gets next to others. -/
def wrapOr (expr : Text) : Text :=
  if includes expr " || ".toList then '(' :: (expr ++ [')']) else expr

/-- The conditions of a group as one text. -/
def combineConditions : List Text → Text
  | [expr] => expr
  | exprs => " && ".toList.intercalate (exprs.map wrapOr)

def buildRuleGroupFactor (group : RequestRuleGroup) : Text :=
  let multiplier := trim group.multiplier
  if ¬isNumeric multiplier then []
  else
    let condExprs := (group.conditions.map buildRequestConditionExpr).filter (· ≠ [])
    if condExprs = [] then []
    else '(' :: (combineConditions condExprs ++ " ? ".toList ++ multiplier ++ " : 1)".toList)

def buildRequestRuleExpr (groups : List RequestRuleGroup) : Text :=
  " * ".toList.intercalate ((groups.map buildRuleGroupFactor).filter (· ≠ []))

/-! ## Parsing -/

/-- `null`, or an exception of `JSON.parse` that nothing catches. -/
inductive ParseFailure
  | null
  | syntaxError

/-- `([^"]+)` between `("` and `")`. -/
def readArgument (text : Text) : Option (Text × Text) := do
  let text ← text.dropPrefix? "(\"".toList
  let (argument, text) ← run1 (· ≠ '"') text
  let text ← text.dropPrefix? "\")".toList
  return (argument, text)

/-- `(hour|minute|weekday|month|day)`. -/
def readTimeFunc (text : Text) : Option (TimeFunc × Text) :=
  [TimeFunc.hour, .minute, .weekday, .month, .day].findSome? fun timeFunc =>
    (text.dropPrefix? timeFunc.name).map (timeFunc, ·)

/-- `fn("tz") >= a && fn("tz") < b` or the same with `||`, and what follows. -/
def readTimeRange (text : Text) : Option ((TimeFunc × Text × Text × Text) × Text) := do
  let (timeFunc, text) ← readTimeFunc text
  let (timezone, text) ← readArgument text
  let text ← text.dropPrefix? " >= ".toList
  let (rangeStart, text) ← run1 isNumberChar text
  let text ← (text.dropPrefix? " && ".toList).or (text.dropPrefix? " || ".toList)
  let text ← text.dropPrefix? (timeFunc.name ++ "(\"".toList ++ timezone ++ "\")".toList)
  let text ← text.dropPrefix? " < ".toList
  let (rangeEnd, text) ← run1 isNumberChar text
  return ((timeFunc, timezone, rangeStart, rangeEnd), text)

/-- The whole text is a range, perhaps in parentheses. -/
def matchTimeRange (expr : Text) : Option (TimeFunc × Text × Text × Text) :=
  match readTimeRange expr with
  | some (range, []) => some range
  | _ =>
    match expr with
    | '(' :: inner =>
      match readTimeRange inner with
      | some (range, [')']) => some range
      | _ => none
    | _ => none

/-- `(==|>=|<)` between spaces. -/
def readTimeOperator (text : Text) : Option (MatchMode × Text) :=
  [(MatchMode.eq, " == "), (.gte, " >= "), (.lt, " < ")].findSome? fun (mode, op) =>
    (text.dropPrefix? op.toList).map (mode, ·)

/-- The whole text is one comparison of a time. -/
def matchTimeBound (expr : Text) : Option (TimeFunc × Text × MatchMode × Text) := do
  let (timeFunc, text) ← readTimeFunc expr
  let (timezone, text) ← readArgument text
  let (mode, text) ← readTimeOperator text
  let (value, text) ← run1 isNumberChar text
  guard (text = [])
  return (timeFunc, timezone, mode, value)

def tryParseTimeCondition (expr : Text) : Option TimeCondition :=
  match matchTimeRange expr with
  | some (timeFunc, timezone, rangeStart, rangeEnd) =>
    if ¬isTimeValueInRange timeFunc rangeStart ∨ ¬isTimeValueInRange timeFunc rangeEnd then none
    else some { timeFunc, timezone, mode := .range, value := [], rangeStart, rangeEnd }
  | none =>
    match matchTimeBound expr with
    | some (timeFunc, timezone, mode, value) =>
      if ¬isTimeValueInRange timeFunc value then none
      else some { timeFunc, timezone, mode, value, rangeStart := [], rangeEnd := [] }
    | none => none

/-- `"(?:[^"\\]|\\.)*"` after its first quote: the literal with its quotes, and what follows. -/
def readLiteralBody : Text → Option (Text × Text)
  | [] => none
  | '"' :: rest => some (['"'], rest)
  | '\\' :: c :: rest => do
    guard (isLineTerminator c = false)
    let (body, rest) ← readLiteralBody rest
    return ('\\' :: c :: body, rest)
  | c :: rest => do
    guard (c ≠ '\\')
    let (body, rest) ← readLiteralBody rest
    return (c :: body, rest)

def readLiteral : Text → Option (Text × Text)
  | '"' :: rest => (readLiteralBody rest).map fun (body, rest) => ('"' :: body, rest)
  | _ => none

/-- `^header\("([^"]+)"\) != ""$`. -/
def matchHeaderExists (expr : Text) : Option Text := do
  let text ← expr.dropPrefix? "header".toList
  let (path, text) ← readArgument text
  guard (text = " != \"\"".toList)
  return path

/-- `^param\("([^"]+)"\) != nil$`. -/
def matchParamExists (expr : Text) : Option Text := do
  let text ← expr.dropPrefix? "param".toList
  let (path, text) ← readArgument text
  guard (text = " != nil".toList)
  return path

/-- `has(source("path"), "literal")` to the end. -/
def matchHas (source : Source) (expr : Text) : Option (Text × Text) := do
  let text ← expr.dropPrefix? ("has(".toList ++ source.name)
  let (path, text) ← readArgument text
  let text ← text.dropPrefix? ", ".toList
  let (literal, text) ← readLiteral text
  guard (text = [')'])
  return (path, literal)

/-- `param("path") != nil && ` and what follows. -/
def readParamGuard (expr : Text) : Option (Text × Text) := do
  let text ← expr.dropPrefix? "param".toList
  let (path, text) ← readArgument text
  let text ← text.dropPrefix? " != nil && ".toList
  return (path, text)

def matchParamContains (expr : Text) : Option (Text × Text) := do
  let (path, text) ← readParamGuard expr
  let (again, literal) ← matchHas .param text
  guard (path = again)
  return (path, literal)

def readOrder (text : Text) : Option (MatchMode × Text) :=
  [MatchMode.gt, .gte, .lt, .lte].findSome? fun mode =>
    mode.order?.bind fun op => (text.dropPrefix? op).map (mode, ·)

def matchParamOrder (expr : Text) : Option (Text × MatchMode × Text) := do
  let (path, text) ← readParamGuard expr
  let text ← text.dropPrefix? "param".toList
  let (again, text) ← readArgument text
  let (mode, text) ← readOrder text
  let (value, text) ← run1 isNumberChar text
  guard (text = [] ∧ path = again)
  return (path, mode, value)

/-- `^(param|header)\("([^"]+)"\) == (.+)$`. -/
def matchEq (expr : Text) : Option (Source × Text × Text) := do
  let (source, text) ← [Source.param, .header].findSome? fun source =>
    (expr.dropPrefix? source.name).map (source, ·)
  let (path, text) ← readArgument text
  let raw ← text.dropPrefix? " == ".toList
  guard (raw ≠ [] ∧ raw.all fun c => !isLineTerminator c)
  return (source, path, raw)

section Parse

/- What `String` shows of the value that `JSON.parse` makes of a text that starts like an array or an
object; none when it throws. -/
variable (structured : Text → Option Text)

def parseExprLiteral (raw : Text) : Option Text :=
  let text := trim raw
  if text = "true".toList ∨ text = "false".toList then some text
  else if isNumeric text then some text
  else
    match text with
    | '[' :: _ => structured text
    | '{' :: _ => structured text
    | text => parseString text

/-- `JSON.parse` of a literal, which may throw. -/
def parseLiteral (literal : Text) : Except ParseFailure Text :=
  match parseString literal with
  | some value => .ok value
  | none => .error .syntaxError

def tryParseRequestCondition (expr : Text) : Except ParseFailure RequestCondition :=
  match tryParseTimeCondition expr with
  | some cond => .ok (.time cond)
  | none =>
  match matchHeaderExists expr with
  | some path => .ok (.paramHeader ⟨.header, path, .exists, []⟩)
  | none =>
  match matchParamExists expr with
  | some path => .ok (.paramHeader ⟨.param, path, .exists, []⟩)
  | none =>
  match matchHas .header expr with
  | some (path, literal) => do
    let value ← parseLiteral literal
    return .paramHeader ⟨.header, path, .contains, value⟩
  | none =>
  match matchParamContains expr with
  | some (path, literal) => do
    let value ← parseLiteral literal
    return .paramHeader ⟨.param, path, .contains, value⟩
  | none =>
  match matchParamOrder expr with
  | some (path, mode, value) => .ok (.paramHeader ⟨.param, path, mode, value⟩)
  | none =>
  match matchEq expr with
  | some (source, path, raw) =>
    match parseExprLiteral structured raw with
    | some value => .ok (.paramHeader ⟨source, path, .eq, value⟩)
    | none => .error .null
  | none => .error .null

def tryParseTimeRangePair (lower upper : Text) : Option TimeCondition := do
  let a ← tryParseTimeCondition lower
  let b ← tryParseTimeCondition upper
  guard (a.timeFunc = b.timeFunc ∧ a.timezone = b.timezone ∧ a.mode = .gte ∧ b.mode = .lt)
  return {
    timeFunc := a.timeFunc
    timezone := a.timezone
    mode := .range
    value := []
    rangeStart := a.value
    rangeEnd := b.value }

/-- The loop of `tryParseRequestConditions`. -/
def parseConditionParts : List Text → Except ParseFailure (List RequestCondition)
  | [] => .ok []
  | [part] => do
    let cond ← tryParseRequestCondition structured (trim part)
    return [cond]
  | part :: next :: rest =>
    match tryParseTimeRangePair (trim part) (trim next) with
    | some merged => do
      let conditions ← parseConditionParts rest
      return .time merged :: conditions
    | none => do
      let cond ← tryParseRequestCondition structured (trim part)
      let conditions ← parseConditionParts (next :: rest)
      return cond :: conditions

def tryParseRequestConditions (conditionStr : Text) : Except ParseFailure (List RequestCondition) :=
  match tryParseTimeCondition (trim conditionStr) with
  | some cond => .ok [.time cond]
  | none => do
    let conditions ← parseConditionParts structured
      (splitExpressionAtTopLevel conditionStr "&&".toList)
    if conditions = [] then .error .null else .ok conditions

/-- `^\((.+) \? ([\d.eE+-]+) : 1\)$`, read from the end. -/
def matchFactor (part : Text) : Option (Text × Text) := do
  let text ← part.dropPrefix? "(".toList
  let text ← text.reverse.dropPrefix? " : 1)".toList.reverse
  let (multiplier, text) ← run1 isNumberChar text
  let text ← text.dropPrefix? " ? ".toList.reverse
  guard (text ≠ [])
  return (text.reverse, multiplier.reverse)

def tryParseRuleGroupFactor (part : Text) : Except ParseFailure RequestRuleGroup :=
  match matchFactor part with
  | none => .error .null
  | some (conditionStr, multiplier) => do
    let conditions ← tryParseRequestConditions structured conditionStr
    return { conditions, multiplier }

/-- The loop of `tryParseRequestRuleExpr`. -/
def parseFactors (text : Text) : ℕ → List Text → Except ParseFailure (List ParsedRequestRuleGroup)
  | _, [] => .ok []
  | cursor, part :: parts =>
    match indexOf part (text.drop cursor) with
    | none => .error .null
    | some k => do
      let group ← tryParseRuleGroupFactor structured part
      let groups ← parseFactors text (cursor + k + part.length) parts
      return { group with sourceOffset := cursor + k } :: groups

def tryParseRequestRuleExpr (expr : Text) : Except ParseFailure (List ParsedRequestRuleGroup) :=
  let trimmed := trim expr
  if trimmed = [] then .ok []
  else parseFactors structured trimmed 0 (splitExpressionAtTopLevel trimmed "*".toList)

end Parse

end Vancine.Pricing
