import Vancine.ParamOverride.Conditions

/-!
# Operations on the body

The operations of an override that change the body at one path, the expansion of wildcards, and `prune_objects`.
-/

namespace Vancine.ParamOverride

open Lib Lib.Json

/-! ## Paths -/

def isPathBasedOperation (mode : String) : Bool :=
  mode ∈ ["delete", "set", "prepend", "append", "trim_prefix", "trim_suffix", "ensure_prefix", "ensure_suffix",
    "trim_space", "to_lower", "to_upper", "replace", "regex_replace", "prune_objects"]

def joinPath (segments : List String) : String := ".".intercalate segments

def collectWildcardPaths : List String → Json → List String → List String
  | [], _, path => [joinPath path]
  | raw :: rest, node, path =>
    let segment := trimSpace raw
    if segment = "" then []
    else if segment = "*" then
      match node with
      | .object fields =>
        ((fields.map Prod.fst).insertionSort (· ≤ ·)).flatMap fun key =>
          collectWildcardPaths rest ((fields.lookup key).getD .null) (path ++ [key])
      | .array items =>
        (List.range items.length).flatMap fun i =>
          collectWildcardPaths rest (items.getD i .null) (path ++ [toString i])
      | _ => []
    else
      match node with
      | .object fields =>
        if rest = [] then [joinPath (path ++ [segment])]
        else
          match fields.lookup segment with
          | none => []
          | some next => collectWildcardPaths rest next (path ++ [segment])
      | .array items =>
        match atoi segment with
        | none => []
        | some index =>
          if index < 0 ∨ (items.length : ℤ) ≤ index then []
          else if rest = [] then [joinPath (path ++ [segment])]
          else collectWildcardPaths rest (items.getD index.toNat .null) (path ++ [segment])
      | _ => []

def resolveOperationPaths (data : Json) (path : String) : List String :=
  if !containsText path "*" then [path]
  else (collectWildcardPaths (splitAt '.' path) data []).eraseDups

/-! ## Single paths -/

def deleteValue (lib : Library) (data : Json) (path : String) : Except String Json :=
  if trimSpace path = "" then .ok data else lib.delete data path

def moveValue (lib : Library) (data : Json) (fromPath toPath : String) : Except String Json :=
  match lib.get data fromPath with
  | none => .error ("source path does not exist: " ++ fromPath)
  | some source => do
    let result ← lib.set data toPath source
    lib.delete result fromPath

def copyValue (lib : Library) (data : Json) (fromPath toPath : String) : Except String Json :=
  match lib.get data fromPath with
  | none => .error ("source path does not exist: " ++ fromPath)
  | some source => lib.set data toPath source

def modifyArray (lib : Library) (data : Json) (path : String) (value : Json) (current : List Json)
    (isPrepend : Bool) : Except String Json :=
  let added := match value with
    | .array items => items
    | value => [value]
  lib.set data path (.array (if isPrepend then added ++ current else current ++ added))

def modifyString (lib : Library) (data : Json) (path : String) (value : Json) (current : String)
    (isPrepend : Bool) : Except String Json :=
  let valueStr := value.printed lib.formatFloat
  lib.set data path (.string (if isPrepend then valueStr ++ current else current ++ valueStr))

def mergeObjects (lib : Library) (data : Json) (path : String) (value : Json) (current : Fields)
    (keepOrigin : Bool) : Except String Json :=
  let isNil (key : String) (fields : Fields) : Bool := match fields.lookup key with
    | none | some .null => true
    | _ => false
  let merge (newMap : Fields) : Except String Json :=
    lib.set data path <| .object <|
      newMap.foldl (fun result f => if !keepOrigin || isNil f.1 result then setField f.1 f.2 result else result) current
  match value with
  | .object newMap => merge newMap
  | .null => merge []
  | _ => .error "json: cannot unmarshal into Go value of type map[string]interface {}"

def unsupported (kind : Kind) : String := "operation not supported for type: " ++ kind.text

/-- The kind of what `gjson` found; a missing value is of kind null. -/
def foundKind (value : Option Json) : Kind := (value.map kind).getD .null

def modifyValue (lib : Library) (data : Json) (path : String) (value : Json) (keepOrigin isPrepend : Bool) :
    Except String Json :=
  match lib.get data path with
  | some (.array current) => modifyArray lib data path value current isPrepend
  | some (.string current) => modifyString lib data path value current isPrepend
  | some (.object current) => mergeObjects lib data path value current keepOrigin
  | other => .error (unsupported (foundKind other))

/-- An operation on the text at a path. -/
def modifyText (lib : Library) (data : Json) (path : String) (change : String → Except String String) :
    Except String Json :=
  match lib.get data path with
  | some (.string current) => do
    let changed ← change current
    lib.set data path (.string changed)
  | other => .error (unsupported (foundKind other))

def trimStringValue (lib : Library) (data : Json) (path : String) (value : Json) (isPrefix : Bool) :
    Except String Json :=
  modifyText lib data path fun current =>
    match value with
    | .null => .error "trim value is required"
    | value =>
      let valueStr := value.printed lib.formatFloat
      .ok (if isPrefix then trimPrefix current valueStr else trimSuffix current valueStr)

/-- A text that has the affix already is not written. -/
def ensureStringAffix (lib : Library) (data : Json) (path : String) (value : Json) (isPrefix : Bool) :
    Except String Json :=
  match lib.get data path with
  | some (.string current) =>
    match value with
    | .null => .error "ensure value is required"
    | value =>
      let valueStr := value.printed lib.formatFloat
      if valueStr = "" then .error "ensure value is required"
      else if isPrefix then
        if hasPrefix current valueStr then .ok data else lib.set data path (.string (valueStr ++ current))
      else if hasSuffix current valueStr then .ok data
      else lib.set data path (.string (current ++ valueStr))
  | other => .error (unsupported (foundKind other))

def transformStringValue (lib : Library) (data : Json) (path : String) (transform : String → String) :
    Except String Json :=
  modifyText lib data path fun current => .ok (transform current)

def replaceStringValue (lib : Library) (data : Json) (path source replacement : String) : Except String Json :=
  modifyText lib data path fun current =>
    if source = "" then .error "replace from is required" else .ok (replaceAll current source replacement)

def regexReplaceStringValue (lib : Library) (data : Json) (path pattern replacement : String) :
    Except String Json :=
  modifyText lib data path fun current =>
    if pattern = "" then .error "regex pattern is required" else lib.regexReplace pattern current replacement

/-! ## prune_objects -/

structure PruneObjectsOptions where
  conditions : List ConditionOperation
  logic : String
  recursive : Bool

def whereCondition (field : String × Json) : Option ConditionOperation :=
  let key := trimSpace field.1
  if key = "" then none else some (fullCondition key field.2)

def parsePruneObjectsOptions : Json → Except String PruneObjectsOptions
  | .null => .error "prune_objects value is required"
  | .string s =>
    let v := trimSpace s
    if v = "" then .error "prune_objects value is required"
    else .ok ⟨[fullCondition "type" (.string v)], "AND", true⟩
  | .object fields => do
    let logic := match stringField fields "logic" with
      | some logic => if trimSpace logic = "" then "AND" else logic
      | none => "AND"
    let recursive := (boolField fields "recursive").getD true
    let conditions ← match fields.lookup "conditions" with
      | none => pure []
      | some raw => parseConditionOperations raw
    let whereConditions ← match fields.lookup "where" with
      | none => pure []
      | some (.object whereMap) => pure (whereMap.filterMap whereCondition)
      | some _ => .error "prune_objects where must be object"
    let typed := match fields.lookup "type" with
      | none => []
      | some matchType => [fullCondition "type" matchType]
    let wanted := conditions ++ whereConditions ++ typed
    if wanted = [] then .error "prune_objects conditions are required" else pure ⟨wanted, logic, recursive⟩
  | _ => .error "prune_objects value must be string or object"

def shouldPruneObject (lib : Library) (node : Fields) (options : PruneObjectsOptions) (context : Json) :
    Except String Bool :=
  checkConditions lib (.object node) context options.conditions options.logic

mutual

/-- The value without the objects that match, and whether it is one of them. -/
def pruneObjectsNode (lib : Library) (options : PruneObjectsOptions) (context : Json) :
    Json → Bool → Except String (Json × Bool)
  | .array items, _ => do
    let result ← pruneItems lib options context items
    pure (.array result, false)
  | .object fields, isRoot => do
    let shouldDrop ← shouldPruneObject lib fields options context
    if shouldDrop && !isRoot then pure (.null, true)
    else if !options.recursive then pure (.object fields, false)
    else do
      let result ← pruneFields lib options context fields
      pure (.object result, false)
  | node, _ => .ok (node, false)

def pruneItems (lib : Library) (options : PruneObjectsOptions) (context : Json) :
    List Json → Except String (List Json)
  | [] => .ok []
  | item :: items => do
    let (next, drop) ← pruneObjectsNode lib options context item false
    let rest ← pruneItems lib options context items
    pure (if drop then rest else next :: rest)

def pruneFields (lib : Library) (options : PruneObjectsOptions) (context : Json) :
    Fields → Except String Fields
  | [] => .ok []
  | field :: fields => do
    let (next, drop) ← pruneObjectsNode lib options context field.2 false
    let rest ← pruneFields lib options context fields
    pure (if drop then rest else (field.1, next) :: rest)

end

def pruneObjects (lib : Library) (data : Json) (path : String) (context value : Json) : Except String Json := do
  let options ← parsePruneObjectsOptions value
  if path = "" then
    let (cleaned, _) ← pruneObjectsNode lib options context data true
    pure cleaned
  else
    match lib.get data path with
    | none => pure data
    | some target =>
      let (cleaned, _) ← pruneObjectsNode lib options context target true
      lib.set data path cleaned

end Vancine.ParamOverride
