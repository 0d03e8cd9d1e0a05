import Vancine.Lib.Fields
import Vancine.Lib.Float64

/-!
# A JSON result in pieces

The result of a stream is built by changes: a value is set, appended to an array, or a text to a text. Each node keeps
the size of what it stands for, so that a change costs no more than the way to it.

A change works in place; here the nodes on the way to it are built again. Values of the JavaScript runtime reach only
`json.clone`, and the texts of errors leave out what they quote.
-/

namespace Vancine.JsonState

open Lib

/-! ## Values -/

/-- A `float64`. -/
inductive Number
  | finite (q : ℚ)
  | negZero
  | infinite (negative : Bool)
  | nan

/-- A text as `range` reads it: a character, or a byte that begins none. -/
abbrev GoText := List (Option Char)

def goText (s : String) : GoText := s.toList.map some

def GoText.len (s : GoText) : ℕ := (s.map fun c => c.elim 1 Char.utf8Size).sum

/-- `string([]rune(s))`, which is `s` where it is valid. -/
def GoText.runes (s : GoText) : List Char := s.map fun c => c.getD '\uFFFD'

def GoText.valid? (s : GoText) : Option (List Char) := if none ∈ s then none else some s.runes

inductive Leaf
  | null
  | nilArray
  | nilObject
  | bool (b : Bool)
  /-- An `int` or an `int64`. -/
  | integer (n : ℤ)
  | float (x : Number)
  | text (s : GoText)
  | other

/-- An `any`. A map is a list of its fields in the order of a visit. -/
inductive GoValue
  | leaf (l : Leaf)
  | array (items : List GoValue)
  | object (fields : List (GoText × GoValue))

inductive Scalar
  | null
  | bool (b : Bool)
  | number (x : Number)
  | text (s : List Char)

/-- A plain JSON tree. -/
inductive Tree
  | scalar (s : Scalar)
  | array (items : List Tree)
  | object (fields : List (List Char × Tree))

/-! ## The codec -/

/-- How a character is written in a string, and a number. -/
structure Codec where
  char : Char → List UInt8
  number : Number → List UInt8

def ascii (s : String) : List UInt8 := s.toList.map fun c => UInt8.ofNat c.toNat

/-- A string is written as the concatenation of its characters. -/
def Codec.quoted (c : Codec) (s : List Char) : List UInt8 := ascii "\"" ++ s.flatMap c.char ++ ascii "\""

def Codec.marshalScalar (c : Codec) : Scalar → List UInt8
  | .null => ascii "null"
  | .bool b => ascii (if b then "true" else "false")
  | .number x => c.number x
  | .text s => c.quoted s

mutual

/-- `common.Marshal`. The order of the fields has no part in the length. -/
def Codec.marshal (c : Codec) : Tree → List UInt8
  | .scalar s => c.marshalScalar s
  | .array items => ascii "[" ++ (ascii ",").intercalate (c.marshalItems items) ++ ascii "]"
  | .object fields => ascii "\x7b" ++ (ascii ",").intercalate (c.marshalFields fields) ++ ascii "\x7d"

def Codec.marshalItems (c : Codec) : List Tree → List (List UInt8)
  | [] => []
  | item :: items => c.marshal item :: c.marshalItems items

def Codec.marshalFields (c : Codec) : List (List Char × Tree) → List (List UInt8)
  | [] => []
  | field :: fields => (c.quoted field.1 ++ ascii ":" ++ c.marshal field.2) :: c.marshalFields fields

end

/-! ## Nodes -/

/-- A node with the bytes and the nodes of its subtree; `text` is what was appended to a text, from its beginning. -/
inductive Node
  | scalar (s : Scalar) (text : Option (List Char)) (bytes nodes : ℤ)
  | array (items : List Node) (bytes nodes : ℤ)
  | object (fields : List (List Char × Node)) (bytes nodes : ℤ)

def Node.bytes : Node → ℤ
  | .scalar _ _ b _ | .array _ b _ | .object _ b _ => b

def Node.nodes : Node → ℤ
  | .scalar _ _ _ n | .array _ _ n | .object _ _ n => n

mutual

def Node.value : Node → Tree
  | .scalar s text _ _ => .scalar (text.elim s .text)
  | .array items _ _ => .array (valueItems items)
  | .object fields _ _ => .object (valueFields fields)

def valueItems : List Node → List Tree
  | [] => []
  | item :: items => item.value :: valueItems items

def valueFields : List (List Char × Node) → List (List Char × Tree)
  | [] => []
  | field :: fields => (field.1, field.2.value) :: valueFields fields

end

def maxJSONToolBytes : ℤ := 2 ^ 20
def maxJSONToolDepth : ℕ := 32
def maxJSONToolNodes : ℤ := 32768
def maxJSONChanges : ℕ := 256

/-- How often `ctx.Err` still answers nil, if it ever stops to. -/
abbrev Context := Option ℕ

def Context.err : Context → Except String Context
  | none => .ok none
  | some 0 => .error "context canceled"
  | some (n + 1) => .ok (some n)

structure Budget where
  ctx : Context
  bytes : ℤ
  nodes : ℤ

def Budget.spend (b : Budget) (bytes nodes : ℤ) : Except String Budget := do
  let ctx ← b.ctx.err
  if b.bytes < bytes ∨ b.nodes < nodes then .error "JSON state exceeds size or node limit"
  else .ok ⟨ctx, b.bytes - bytes, b.nodes - nodes⟩

/-- What any value goes through first. -/
def Budget.enter (b : Budget) (depth : ℕ) : Except String Budget :=
  if maxJSONToolDepth < depth then .error "JSON state exceeds depth limit" else b.spend 0 1

def Leaf.scalar (budget : Budget) : Leaf → Except String Scalar
  | .null | .nilArray | .nilObject => .ok .null
  | .bool b => .ok (.bool b)
  | .integer n => .ok (.number (.finite (float64 n)))
  | .float (.infinite _) | .float .nan => .error "JSON numbers must be finite"
  | .float x => .ok (.number x)
  | .text s => if budget.bytes < s.len then .error "JSON string exceeds size limit" else .ok (.text s.runes)
  | .other => .error "value must contain only JSON objects, arrays and scalars"

/-- A key, its colon, and a comma unless the object is empty. -/
def Codec.keyCost (c : Codec) (key : List Char) (first : Bool) : ℤ :=
  (c.quoted key).length + 1 + if first then 0 else 1

mutual

def newJSONStateNode (c : Codec) : GoValue → ℕ → Budget → Except String (Node × Budget)
  | .leaf leaf, depth, before => do
    let budget ← before.enter depth
    let scalar ← leaf.scalar budget
    let after ← budget.spend (c.marshalScalar scalar).length 0
    .ok (.scalar scalar none (before.bytes - after.bytes) (before.nodes - after.nodes), after)
  | .array items, depth, before => do
    let budget ← before.enter depth
    if budget.nodes < items.length then .error "JSON array exceeds node limit"
    else
      let budget ← budget.spend (2 + (items.length - 1 : ℕ)) 0
      let (array, after) ← newItems c items (depth + 1) budget
      .ok (.array array (before.bytes - after.bytes) (before.nodes - after.nodes), after)
  | .object fields, depth, before => do
    let budget ← before.enter depth
    if budget.nodes < fields.length then .error "JSON object exceeds node limit"
    else
      let budget ← budget.spend 2 0
      let (object, after) ← newFields c fields true (depth + 1) budget
      .ok (.object object (before.bytes - after.bytes) (before.nodes - after.nodes), after)

def newItems (c : Codec) : List GoValue → ℕ → Budget → Except String (List Node × Budget)
  | [], _, budget => .ok ([], budget)
  | item :: items, depth, budget => do
    let (node, budget) ← newJSONStateNode c item depth budget
    let (nodes, budget) ← newItems c items depth budget
    .ok (node :: nodes, budget)

def newFields (c : Codec) :
    List (GoText × GoValue) → Bool → ℕ → Budget → Except String (List (List Char × Node) × Budget)
  | [], _, _, budget => .ok ([], budget)
  | field :: fields, first, depth, budget =>
    match field.1.valid? with
    | none => .error "invalid or oversized JSON object key"
    | some key => do
      if budget.bytes < field.1.len then .error "invalid or oversized JSON object key"
      else
        let budget ← budget.spend (c.keyCost key first) 0
        let (node, budget) ← newJSONStateNode c field.2 depth budget
        let (nodes, budget) ← newFields c fields false depth budget
        .ok ((key, node) :: nodes, budget)

end

/-! ## Changes -/

inductive Op
  | set | append | appendText
  deriving DecidableEq

structure Change where
  op : Op
  path : List GoValue
  value : GoValue

def GoValue.asArray? : GoValue → Option (List GoValue)
  | .array items => some items
  | .leaf .nilArray => some []
  | _ => none

def readOp : GoValue → Option Op
  | .leaf (.text s) =>
    if s = goText "set" then some .set
    else if s = goText "append" then some .append
    else if s = goText "appendText" then some .appendText
    else none
  | _ => none

def readChange : GoValue → Except String Change
  | .object change =>
    if change.length ≠ 3 then .error "each change must contain only op, path and value"
    else
      match (change.lookup (goText "path")).bind GoValue.asArray?, change.lookup (goText "value") with
      | some path, some value =>
        if maxJSONToolDepth < path.length then
          .error "change requires a JSON value and a path of at most 32 segments"
        else
          match (change.lookup (goText "op")).bind readOp with
          | some op => .ok ⟨op, path, value⟩
          | none => .error "unsupported JSON change operation"
      | _, _ => .error "change requires a JSON value and a path of at most 32 segments"
  | _ => .error "each change must contain only op, path and value"

inductive Step
  | key (k : List Char)
  | index (i : ℕ)

/-- Where a path ends: at a node, or at a new key of an object. -/
inductive Target
  | found (node : Node)
  | missing (fields : List (List Char × Node)) (key : List Char)

def GoValue.number? : GoValue → Option Number
  | .leaf (.integer n) => some (.finite (float64 n))
  | .leaf (.float x) => some x
  | _ => none

/-- A whole number from zero on. -/
def Number.index? : Number → Option ℕ
  | .finite q => if 0 ≤ q.num ∧ q.den = 1 then some q.num.toNat else none
  | .negZero => some 0
  | .infinite _ | .nan => none

/-- The loop over the path, for one segment. -/
def Node.child (limit : ℤ) (segment : GoValue) : Node → Except String (Step × Target)
  | .object fields _ _ =>
    match segment with
    | .leaf (.text s) =>
      match s.valid? with
      | none => .error "JSON object paths require valid string keys"
      | some key =>
        if limit < s.len then .error "JSON object paths require valid string keys"
        else .ok (.key key, (fields.lookup key).elim (.missing fields key) .found)
    | _ => .error "JSON object paths require valid string keys"
  | .array items _ _ =>
    match segment.number? with
    | none => .error "JSON array paths require integer indices"
    | some x =>
      match x.index?.bind fun i => items[i]?.map fun node => (i, node) with
      | none => .error "JSON array index is out of range"
      | some (i, node) => .ok (.index i, .found node)
  | .scalar .. => .error "JSON change path traverses a scalar"

/-- The loop over the path: the ancestors with the steps that are taken from them, and the target. -/
def walk (limit : ℤ) (op : Op) : List GoValue → Node → Except String (List (Node × Step) × Target)
  | [], node => .ok ([], .found node)
  | segment :: path, node => do
    let (step, target) ← node.child limit segment
    match target with
    | .found child =>
      let (ancestors, target) ← walk limit op path child
      .ok ((node, step) :: ancestors, target)
    | .missing fields key =>
      if path.isEmpty ∧ op = .set then .ok ([(node, step)], .missing fields key)
      else .error "JSON change target does not exist"

/-- A child is put in place, and what it adds is counted. -/
def Node.put (step : Step) (child : Node) (addedBytes addedNodes : ℤ) : Node → Node
  | .object fields b n =>
    match step with
    | .key k => .object (Fields.put k child fields) (b + addedBytes) (n + addedNodes)
    | .index _ => .object fields b n
  | .array items b n =>
    match step with
    | .index i => .array (items.set i child) (b + addedBytes) (n + addedNodes)
    | .key _ => .array items b n
  | .scalar s text b n => .scalar s text b n

def rebuild (ancestors : List (Node × Step)) (next : Node) (addedBytes addedNodes : ℤ) : Node :=
  ancestors.foldr (fun a child => Node.put a.2 child addedBytes addedNodes a.1) next

def Target.bytes : Target → ℤ
  | .found node => node.bytes
  | .missing _ _ => 0

def Target.nodes : Target → ℤ
  | .found node => node.nodes
  | .missing _ _ => 0

def Target.keyCost (c : Codec) : Target → ℤ
  | .found _ => 0
  | .missing fields key => c.keyCost key fields.isEmpty

/-- A text is built from the first piece that is appended to it. -/
def appendBuilt (previous : List Char) (text : Option (List Char)) (piece : List Char) : Scalar × Option (List Char) :=
  if piece = [] then (.text previous, text)
  else
    match text with
    | none => (.text [], some (previous ++ piece))
    | some built => (.text previous, some (built ++ piece))

def applyChange (c : Codec) (limit : ℤ) (root : Node) (ctx : Context) (change : Change) :
    Except String (Node × Context) := do
  let (ancestors, target) ← walk limit change.op change.path root
  match change.op with
  | .set =>
    let key := target.keyCost c
    let budget : Budget :=
      ⟨ctx, limit - root.bytes + target.bytes - key, maxJSONToolNodes - root.nodes + target.nodes⟩
    let (next, after) ← newJSONStateNode c change.value change.path.length budget
    .ok (rebuild ancestors next (key + (next.bytes - target.bytes)) (next.nodes - target.nodes), after.ctx)
  | .append =>
    match target with
    | .found (.array items b n) =>
      let comma : ℤ := if items.isEmpty then 0 else 1
      let budget : Budget := ⟨ctx, limit - root.bytes - comma, maxJSONToolNodes - root.nodes⟩
      let (next, after) ← newJSONStateNode c change.value (change.path.length + 1) budget
      let added := comma + next.bytes
      .ok (rebuild ancestors (.array (items ++ [next]) (b + added) (n + next.nodes)) added next.nodes, after.ctx)
    | _ => .error "append requires an array target"
  | .appendText =>
    match target, change.value with
    | .found (.scalar (.text previous) text b n), .leaf (.text s) =>
      let added : ℤ := (c.quoted s.runes).length - 2
      if limit - root.bytes < s.len then .error "appendText requires strings within the state size limit"
      else if limit - root.bytes < added then .error "JSON state exceeds size limit"
      else
        let (scalar, text) := appendBuilt previous text s.runes
        .ok (rebuild ancestors (.scalar scalar text (b + added) n) added 0, ctx)
    | _, _ => .error "appendText requires strings within the state size limit"

/-- The loop over the changes: the root as it was left, and the error that ended it. -/
def applyItems (c : Codec) (limit : ℤ) : List GoValue → Context → Node → Node × Option String
  | [], _, root => (root, none)
  | item :: items, ctx, root =>
    let next := do
      let ctx ← ctx.err
      let change ← readChange item
      applyChange c limit root ctx change
    match next with
    | .error e => (root, some e)
    | .ok (root, ctx) => applyItems c limit items ctx root

structure State where
  root : Node
  limit : ℤ
  failed : Option String

def newJSONState (limit : ℤ) : State := ⟨.scalar .null none 4 1, max 0 (min limit maxJSONToolBytes), none⟩

/-- `Apply`; what it returns is what the state has failed with. -/
def State.apply (c : Codec) (s : State) (ctx : Context) (changes : GoValue) : State :=
  if s.failed.isSome then s
  else
    match ctx.err, changes.asArray? with
    | .error e, _ => { s with failed := some e }
    | .ok _, none => { s with failed := some "changes must be an array of at most 256 operations" }
    | .ok ctx, some items =>
      if maxJSONChanges < items.length then
        { s with failed := some "changes must be an array of at most 256 operations" }
      else
        let (root, failed) := applyItems c s.limit items ctx s.root
        { s with root, failed }

/-- `Value`. -/
def State.value (c : Codec) (s : State) : Except String Tree :=
  match s.failed with
  | some e => .error e
  | none =>
    let value := s.root.value
    let encoded := c.marshal value
    if (encoded.length : ℤ) ≠ s.root.bytes ∨ s.limit < encoded.length then
      .error "JSON state encoded size does not match its bounded representation"
    else .ok value

end Vancine.JsonState
