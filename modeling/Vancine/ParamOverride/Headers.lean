import Vancine.ParamOverride.Body

/-!
# Operations on the headers

The context of an override holds what conditions may read, the headers of the request, and the header overrides that
the operations write. A later operation reads what an earlier one wrote.
-/

namespace Vancine.ParamOverride

open Lib Lib.Json

structure ReturnError where
  message : String
  statusCode : ℤ
  code : String
  type : String
  skipRetry : Bool
  deriving DecidableEq

inductive OverrideError
  | returnError (e : ReturnError)
  | sourceHeaderNotFound (header : String)
  | message (text : String)

def OverrideError.text : OverrideError → String
  | .returnError e => if e.message = "" then "param override return error" else e.message
  | .sourceHeaderNotFound header => "source header does not exist: " ++ header
  | .message text => text

/-- An error of the body operations. -/
def plain {α : Type} : Except String α → Except OverrideError α
  | .ok a => .ok a
  | .error e => .error (.message e)

/-- `base` is everything but the two maps of headers. -/
structure Context where
  base : Fields
  requestHeaders : Headers
  headerOverride : Headers

def headersValue (headers : Headers) : Json := .object (headers.entries.map fun e => (e.1, .string e.2))

/-- The context as conditions read it. -/
def Context.json (context : Context) : Json :=
  .object (context.base ++
    [("request_headers", headersValue context.requestHeaders), ("header_override", headersValue context.headerOverride)])

def normalizeHeaderContextKey (lib : Library) (key : String) : String := trimSpace (lib.toLower key)

/-- The override of a header, else the header of the request. -/
def getHeaderValueFromContext (lib : Library) (context : Context) (headerName : String) : Option String :=
  let headerName := normalizeHeaderContextKey lib headerName
  if headerName = "" then none
  else
    let found (source : Headers) : Option String :=
      ((source.lookup headerName).map trimSpace).filter (· ≠ "")
    found context.headerOverride <|> found context.requestHeaders

/-! ## Rewriting a list of tokens -/

def splitHeaderListValue (raw : String) : List String := ((splitAt ',' raw).map trimSpace).filter (· ≠ "")

mutual

def parseHeaderReplacementTokens (lib : Library) : Json → Except String (List String)
  | .null => .ok []
  | .string raw => .ok (splitHeaderListValue raw)
  | .array items => do
    let tokens ← replacementTokensOfItems lib items
    pure tokens.eraseDups
  | .object _ => .error "header replacement value must be string, array or null"
  | .bool b => .ok [boolText b]
  | .number n =>
    let token := trimSpace (lib.formatFloat n)
    .ok (if token = "" then [] else [token])

def replacementTokensOfItems (lib : Library) : List Json → Except String (List String)
  | [] => .ok []
  | item :: items => do
    let tokens ← parseHeaderReplacementTokens lib item
    let rest ← replacementTokensOfItems lib items
    pure (tokens ++ rest)

end

/-- What becomes of one token of the header. -/
def replaceToken (lib : Library) (mapping : Fields) (keepOnlyDeclared : Bool) (token : String) :
    Except String (List String) :=
  let wildcard := if keepOnlyDeclared then none else mapping.lookup "*"
  match mapping.lookup token <|> wildcard with
  | some replacement => parseHeaderReplacementTokens lib replacement
  | none => .ok (if keepOnlyDeclared then [] else [token])

/-- None when no token is left. -/
def resolveHeaderOverrideValueByMapping (lib : Library) (context : Context) (headerName : String) (mapping : Fields) :
    Except String (Option String) :=
  if mapping = [] then .error "header value mapping cannot be empty"
  else do
    let appendTokens ← match mapping.lookup "$append" with
      | none => pure []
      | some appendRaw => parseHeaderReplacementTokens lib appendRaw
    let keepOnlyDeclared := (boolField mapping "$keep_only_declared").getD false
    let sourceTokens := match getHeaderValueFromContext lib context headerName with
      | none => []
      | some sourceValue => splitHeaderListValue sourceValue
    let replaced ← sourceTokens.mapM (replaceToken lib mapping keepOnlyDeclared)
    let resultTokens := (replaced.flatten ++ appendTokens).eraseDups
    pure (if resultTokens = [] then none else some (",".intercalate resultTokens))

def resolveHeaderOverrideValue (lib : Library) (context : Context) (headerName : String) :
    Json → Except String (Option String)
  | .null => .error "header value is required"
  | .object mapping => resolveHeaderOverrideValueByMapping lib context headerName mapping
  | value =>
    let headerValue := trimSpace (value.printed lib.formatFloat)
    .ok (if headerValue = "" then none else some headerValue)

/-! ## Writing -/

def setHeaderOverrideInContext (lib : Library) (context : Context) (headerName : String) (value : Json)
    (keepOrigin : Bool) : Except OverrideError Context :=
  let headerName := normalizeHeaderContextKey lib headerName
  if headerName = "" then .error (.message "header name is required")
  else if keepOrigin && (context.headerOverride.lookup headerName).any (fun existing => trimSpace existing ≠ "") then
    .ok context
  else
    match resolveHeaderOverrideValue lib context headerName value with
    | .error e => .error (.message e)
    | .ok none => .ok { context with headerOverride := context.headerOverride.erase headerName }
    | .ok (some headerValue) =>
      .ok { context with headerOverride := context.headerOverride.insert headerName headerValue }

def deleteHeaderOverrideInContext (lib : Library) (context : Context) (headerName : String) :
    Except OverrideError Context :=
  let headerName := normalizeHeaderContextKey lib headerName
  if headerName = "" then .error (.message "header name is required")
  else .ok { context with headerOverride := context.headerOverride.erase headerName }

def copyHeaderInContext (lib : Library) (context : Context) (fromHeader toHeader : String) (keepOrigin : Bool) :
    Except OverrideError Context :=
  let fromHeader := normalizeHeaderContextKey lib fromHeader
  let toHeader := normalizeHeaderContextKey lib toHeader
  if fromHeader = "" ∨ toHeader = "" then .error (.message "copy_header from/to is required")
  else
    match getHeaderValueFromContext lib context fromHeader with
    | none => .error (.sourceHeaderNotFound fromHeader)
    | some value => setHeaderOverrideInContext lib context toHeader (.string value) keepOrigin

def moveHeaderInContext (lib : Library) (context : Context) (fromHeader toHeader : String) (keepOrigin : Bool) :
    Except OverrideError Context :=
  let fromHeader := normalizeHeaderContextKey lib fromHeader
  let toHeader := normalizeHeaderContextKey lib toHeader
  if fromHeader = "" ∨ toHeader = "" then .error (.message "move_header from/to is required")
  else
    match copyHeaderInContext lib context fromHeader toHeader keepOrigin with
    | .error e => .error e
    | .ok copied =>
      if lib.equalFold fromHeader toHeader then .ok copied else deleteHeaderOverrideInContext lib copied fromHeader

/-- A missing source header is skipped. -/
def skipMissing (context : Context) : Except OverrideError Context → Except OverrideError Context
  | .error (.sourceHeaderNotFound _) => .ok context
  | result => result

/-! ## pass_headers -/

/-- Normalized names, without blank ones and repetitions. -/
def normalizeNames (lib : Library) (values : List String) : List String :=
  ((values.map (normalizeHeaderContextKey lib)).filter (· ≠ "")).eraseDups

def passHeaderNames (names : List String) : Except String (List String) :=
  if names = [] then .error "pass_headers value is invalid" else .ok names

/-- `depth` bounds how often texts and objects are opened. Each stands inside the one before. -/
def parseHeaderPassThroughNamesIn (lib : Library) : ℕ → Json → Except String (List String)
  | 0, _ => .error "pass_headers value is invalid"
  | depth + 1, value =>
    match value with
    | .null => .error "pass_headers value is required"
    | .string raw =>
      let trimmed := trimSpace raw
      if trimmed = "" then .error "pass_headers value is required"
      else
        let parsed := if hasPrefix trimmed "[" || hasPrefix trimmed "\x7b" then lib.unmarshal trimmed else none
        match parsed with
        | some parsed => parseHeaderPassThroughNamesIn lib depth parsed
        | none => passHeaderNames (normalizeNames lib (splitAt ',' trimmed))
    | .array items => passHeaderNames (normalizeNames lib (items.map (Json.printed lib.formatFloat)))
    | .object fields =>
      let candidates (key : String) : List String := match fields.lookup key with
        | none => []
        | some raw => (parseHeaderPassThroughNamesIn lib depth raw).toOption.getD []
      passHeaderNames (normalizeNames lib (candidates "headers" ++ candidates "names" ++ candidates "header"))
    | _ => .error "pass_headers value must be string, array or object"

def parseHeaderPassThroughNames (lib : Library) (value : Json) : Except String (List String) :=
  parseHeaderPassThroughNamesIn lib ((value.printed lib.formatFloat).length + 1) value

def passHeaders (lib : Library) (context : Context) (names : List String) (keepOrigin : Bool) :
    Except OverrideError Context :=
  names.foldlM (fun context name => skipMissing context (copyHeaderInContext lib context name name keepOrigin)) context

/-! ## sync_fields -/

inductive SyncTarget
  | json (key : String)
  | header (key : String)

def parseSyncTarget (lib : Library) (spec : String) : Except String SyncTarget :=
  let raw := trimSpace spec
  if raw = "" then .error "sync_fields target is required"
  else
    match indexOf [':'] raw.toList with
    | none => .ok (.json raw)
    | some i =>
      let kind := lib.toLower (trimSpace (String.ofList (raw.toList.take i)))
      let key := trimSpace (String.ofList (raw.toList.drop (i + 1)))
      if key = "" then .error ("sync_fields target key is required: " ++ raw)
      else if kind = "json" ∨ kind = "body" then .ok (.json key)
      else if kind = "header" then .ok (.header key)
      else .error ("sync_fields target prefix is invalid: " ++ raw)

def readSyncTargetValue (lib : Library) (data : Json) (context : Context) : SyncTarget → Option Json
  | .json key =>
    match lib.get data (processNegativeIndex lib data key) with
    | none | some .null => none
    | some (.string s) => if trimSpace s = "" then none else some (.string s)
    | some value => some value
  | .header key =>
    match getHeaderValueFromContext lib context key with
    | none => none
    | some value => if trimSpace value = "" then none else some (.string value)

def writeSyncTargetValue (lib : Library) (data : Json) (context : Context) (value : Json) :
    SyncTarget → Except OverrideError (Json × Context)
  | .json key => do
    let nextJSON ← plain (lib.set data (processNegativeIndex lib data key) value)
    pure (nextJSON, context)
  | .header key => do
    let context ← setHeaderOverrideInContext lib context key value false
    pure (data, context)

/-- The side that is there is written to the side that is missing. -/
def syncFieldsBetweenTargets (lib : Library) (data : Json) (context : Context) (fromSpec toSpec : String) :
    Except OverrideError (Json × Context) := do
  let fromTarget ← plain (parseSyncTarget lib fromSpec)
  let toTarget ← plain (parseSyncTarget lib toSpec)
  match readSyncTargetValue lib data context fromTarget, readSyncTargetValue lib data context toTarget with
  | some fromValue, none => writeSyncTargetValue lib data context fromValue toTarget
  | none, some toValue => writeSyncTargetValue lib data context toValue fromTarget
  | _, _ => pure (data, context)

end Vancine.ParamOverride
