import Vancine.ParamOverride.Headers

/-!
# Applying an override

`ApplyParamOverride` reads the settings of a channel as a list of operations, or as plain fields of the body. An
operation whose conditions fail is skipped, and the first error ends the whole override.

The lines of the audit recorder are left out; that there is a recorder shows in the context.
-/

namespace Vancine.ParamOverride

open Lib Lib.Json

structure ParamOperation where
  path : String
  mode : String
  value : Json
  keepOrigin : Bool
  source : String
  target : String
  conditions : List ConditionOperation
  logic : String

/-! ## Parsing -/

/-- None when the operation is not well formed. -/
def parseOperation : Json → Option ParamOperation
  | .object opMap => do
    let mode ← stringField opMap "mode"
    let conditions ← match opMap.lookup "conditions" with
      | none => some []
      | some conditions => (parseConditionOperations conditions).toOption
    pure {
      path := (stringField opMap "path").getD ""
      mode
      value := (opMap.lookup "value").getD .null
      keepOrigin := (boolField opMap "keep_origin").getD false
      source := (stringField opMap "from").getD ""
      target := (stringField opMap "to").getD ""
      conditions
      logic := (stringField opMap "logic").getD "OR" }
  | _ => none

def tryParseOperations (paramOverride : Fields) : Option (List ParamOperation) :=
  match paramOverride.lookup "operations" with
  | some (.array ops) => ops.mapM parseOperation
  | _ => none

def buildLegacyParamOverride (lib : Library) (paramOverride : Fields) : Fields :=
  paramOverride.filter fun field => !lib.equalFold (trimSpace field.1) "operations"

/-! ## The audit recorder -/

def paramOverrideSensitivePathPrefixes : List String :=
  ["model", "original_model", "upstream_model", "reasoning", "reasoning_effort", "output_config",
    "generationConfig.thinkingConfig", "generation_config.thinking_config", "service_tier", "inference_geo", "speed",
    "messages", "input", "instructions", "system", "contents", "systemInstruction", "system_instruction"]

def shouldAuditParamPath (debugEnabled : Bool) (path : String) : Bool :=
  let path := trimSpace path
  path ≠ "" && (debugEnabled || paramOverrideSensitivePathPrefixes.any fun p => path = p || hasPrefix path (p ++ "."))

def shouldEnableParamOverrideAudit (lib : Library) (debugEnabled : Bool) (paramOverride : Fields) : Bool :=
  let audited (field : String × Json) : Bool := shouldAuditParamPath debugEnabled (trimSpace field.1)
  debugEnabled || paramOverride ≠ [] &&
    match tryParseOperations paramOverride with
    | some operations =>
      operations.any (fun op => [op.path, op.source, op.target].any (shouldAuditParamPath debugEnabled)) ||
        (buildLegacyParamOverride lib paramOverride).any audited
    | none => paramOverride.any audited

/-! ## return_error -/

/-- A float must be a whole number. -/
def parseOverrideInt : Json → Option ℤ
  | .number n => if n.den = 1 then some n.num else none
  | _ => none

/-- What stands in the text, unless that is blank. -/
def textOr (default : String) (text : Option String) : String :=
  match text.map trimSpace with
  | none | some "" => default
  | some text => text

def returnErrorOfFields (lib : Library) (raw : Fields) : Except String ReturnError := do
  let message := textOr ((stringField raw "msg").elim "" trimSpace) (stringField raw "message")
  let statusCode ← match raw.lookup "status_code", raw.lookup "status" with
    | some statusCodeRaw, _ =>
      (parseOverrideInt statusCodeRaw).elim (.error "return_error status_code must be an integer") .ok
    | none, some statusRaw => (parseOverrideInt statusRaw).elim (.error "return_error status must be an integer") .ok
    | none, none => .ok 400
  pure {
    message
    statusCode
    code := textOr "invalid_request" ((raw.lookup "code").map (Json.printed lib.formatFloat))
    type := textOr "invalid_request_error" (stringField raw "type")
    skipRetry := (boolField raw "skip_retry").getD true }

def parseParamOverrideReturnError (lib : Library) (value : Json) : Except String ReturnError := do
  let result ← match value with
    | .null => .error "return_error value is required"
    | .string raw => pure ⟨trimSpace raw, 400, "invalid_request", "invalid_request_error", true⟩
    | .object raw => returnErrorOfFields lib raw
    | _ => .error "return_error value must be string or object"
  if result.message = "" then .error "return_error message is required"
  else if result.statusCode < 100 ∨ 511 < result.statusCode then
    .error ("return_error status code out of range: " ++ toString result.statusCode)
  else pure result

/-! ## Operations -/

/-- A path-based operation at one path. -/
def applyAtPath (lib : Library) (op : ParamOperation) (context : Json) (data : Json) (path : String) :
    Except String Json :=
  match op.mode with
  | "delete" => deleteValue lib data path
  | "set" => if op.keepOrigin && (lib.get data path).isSome then .ok data else lib.set data path op.value
  | "prepend" => modifyValue lib data path op.value op.keepOrigin true
  | "append" => modifyValue lib data path op.value op.keepOrigin false
  | "trim_prefix" => trimStringValue lib data path op.value true
  | "trim_suffix" => trimStringValue lib data path op.value false
  | "ensure_prefix" => ensureStringAffix lib data path op.value true
  | "ensure_suffix" => ensureStringAffix lib data path op.value false
  | "trim_space" => transformStringValue lib data path trimSpace
  | "to_lower" => transformStringValue lib data path lib.toLower
  | "to_upper" => transformStringValue lib data path lib.toUpper
  | "replace" => replaceStringValue lib data path op.source op.target
  | "regex_replace" => regexReplaceStringValue lib data path op.source op.target
  | _ => pruneObjects lib data path context op.value

/-- `operation %s failed`. -/
def wrapped {α : Type} (mode : String) : Except OverrideError α → Except OverrideError α
  | .ok a => .ok a
  | .error e => .error (.message ("operation " ++ mode ++ " failed: " ++ e.text))

/-- `From` and `To` of a header operation, which default to the path. -/
def headerNames (op : ParamOperation) : String × String :=
  let orPath (name : String) : String := if trimSpace name = "" then trimSpace op.path else trimSpace name
  (orPath op.source, orPath op.target)

/-- The body of the loop of `applyOperations`, once the conditions hold. -/
def applyOperation (lib : Library) (op : ParamOperation) (data : Json) (context : Context) :
    Except OverrideError (Json × Context) :=
  let changed (result : Except String Json) : Except OverrideError (Json × Context) :=
    wrapped op.mode ((plain result).map fun data => (data, context))
  let headers (result : Except OverrideError Context) : Except OverrideError (Json × Context) :=
    wrapped op.mode (result.map fun context => (data, context))
  if isPathBasedOperation op.mode then
    changed ((resolveOperationPaths data (processNegativeIndex lib data op.path)).foldlM
      (applyAtPath lib op context.json) data)
  else
    match op.mode with
    | "move" =>
      changed (moveValue lib data (processNegativeIndex lib data op.source) (processNegativeIndex lib data op.target))
    | "copy" =>
      if op.source = "" ∨ op.target = "" then .error (.message "copy from/to is required")
      else changed
        (copyValue lib data (processNegativeIndex lib data op.source) (processNegativeIndex lib data op.target))
    | "return_error" =>
      match parseParamOverrideReturnError lib op.value with
      | .error e => .error (.message e)
      | .ok e => .error (.returnError e)
    | "set_header" => headers (setHeaderOverrideInContext lib context op.path op.value op.keepOrigin)
    | "delete_header" => headers (deleteHeaderOverrideInContext lib context op.path)
    | "copy_header" =>
      let (sourceHeader, targetHeader) := headerNames op
      headers (skipMissing context (copyHeaderInContext lib context sourceHeader targetHeader op.keepOrigin))
    | "move_header" =>
      let (sourceHeader, targetHeader) := headerNames op
      headers (skipMissing context (moveHeaderInContext lib context sourceHeader targetHeader op.keepOrigin))
    | "pass_headers" =>
      match parseHeaderPassThroughNames lib op.value with
      | .error e => .error (.message e)
      | .ok names => headers (passHeaders lib context names op.keepOrigin)
    | "sync_fields" => wrapped op.mode (syncFieldsBetweenTargets lib data context op.source op.target)
    | _ => .error (.message ("unknown operation: " ++ op.mode))

def applyOperations (lib : Library) (operations : List ParamOperation) (data : Json) (context : Context) :
    Except OverrideError (Json × Context) :=
  operations.foldlM (fun (data, context) op => do
    let ok ← plain (checkConditions lib data context.json op.conditions op.logic)
    if ok then applyOperation lib op data context else pure (data, context)) (data, context)

/-- A key that `sjson` reads as one name. -/
def escapeSjsonLiteralKey (key : String) : String :=
  String.ofList (key.toList.flatMap fun c => if c ∈ ['.', '*', '?', '\\'] then ['\\', c] else [c])

def applyOperationsLegacy (lib : Library) (paramOverride : Fields) (data : Json) : Except OverrideError Json :=
  paramOverride.foldlM (fun data field => plain (lib.set data (escapeSjsonLiteralKey field.1) field.2)) data

def applyParamOverride (lib : Library) (data : Json) (paramOverride : Fields) (context : Context) :
    Except OverrideError (Json × Context) :=
  if paramOverride = [] then .ok (data, context)
  else
    match tryParseOperations paramOverride with
    | some operations => do
      let workingJSON ← applyOperationsLegacy lib (buildLegacyParamOverride lib paramOverride) data
      applyOperations lib operations workingJSON context
    | none => do
      let result ← applyOperationsLegacy lib paramOverride data
      pure (result, context)

end Vancine.ParamOverride
