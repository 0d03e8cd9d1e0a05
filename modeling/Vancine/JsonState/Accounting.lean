import Vancine.Lib.ListSum
import Vancine.Lib.Scan
import Vancine.JsonState.State

/-!
# The sizes of a JSON state

A change adds the same bytes and nodes to its target and to all its ancestors. What each node keeps is therefore the
size of its subtree, the document is the one that plain editing gives, and it stays within the limits. Only the first
null may be longer than the limit.
-/

namespace Vancine.JsonState

open Lib

variable {c : Codec}

/-! ## Lengths -/

variable {α : Type*}

theorem length_intercalate (a : α) (l : List (List α)) :
    ([a].intercalate l).length = (l.map List.length).sum + (l.length - 1) := by
  induction l with
  | nil => rfl
  | cons x l ih =>
    cases l with
    | nil => simp
    | cons y l =>
      rw [List.intercalate_cons_cons, List.length_append, List.length_append, ih]
      simp only [List.map_cons, List.sum_cons, List.length_cons, List.length_nil]
      omega

theorem marshalItems_eq (items : List Tree) : c.marshalItems items = items.map c.marshal := by
  induction items with
  | nil => rfl
  | cons item items ih => rw [Codec.marshalItems, ih, List.map_cons]

theorem marshalFields_eq (fields : List (List Char × Tree)) :
    c.marshalFields fields = fields.map fun f => c.quoted f.1 ++ ascii ":" ++ c.marshal f.2 := by
  induction fields with
  | nil => rfl
  | cons field fields ih => rw [Codec.marshalFields, ih, List.map_cons]

theorem valueItems_eq (items : List Node) : valueItems items = items.map Node.value := by
  induction items with
  | nil => rfl
  | cons item items ih => rw [valueItems, ih, List.map_cons]

theorem valueFields_eq (fields : List (List Char × Node)) :
    valueFields fields = fields.map fun f => (f.1, f.2.value) := by
  induction fields with
  | nil => rfl
  | cons field fields ih => rw [valueFields, ih, List.map_cons]

mutual

/-- The nodes of a tree. -/
def Tree.count : Tree → ℕ
  | .scalar _ => 1
  | .array items => 1 + countItems items
  | .object fields => 1 + countFields fields

def countItems : List Tree → ℕ
  | [] => 0
  | item :: items => item.count + countItems items

def countFields : List (List Char × Tree) → ℕ
  | [] => 0
  | field :: fields => field.2.count + countFields fields

end

mutual

/-- How deep the deepest node lies. -/
def Tree.depth : Tree → ℕ
  | .scalar _ => 0
  | .array items => depthItems items
  | .object fields => depthFields fields

def depthItems : List Tree → ℕ
  | [] => 0
  | item :: items => max (item.depth + 1) (depthItems items)

def depthFields : List (List Char × Tree) → ℕ
  | [] => 0
  | field :: fields => max (field.2.depth + 1) (depthFields fields)

end

theorem depthItems_le {items : List Tree} {d : ℕ} : depthItems items ≤ d ↔ ∀ item ∈ items, item.depth + 1 ≤ d := by
  induction items with
  | nil => simp [depthItems]
  | cons item items ih => rw [depthItems, max_le_iff, ih, List.forall_mem_cons]

theorem depthFields_le {fields : List (List Char × Tree)} {d : ℕ} :
    depthFields fields ≤ d ↔ ∀ f ∈ fields, f.2.depth + 1 ≤ d := by
  induction fields with
  | nil => simp [depthFields]
  | cons field fields ih => rw [depthFields, max_le_iff, ih, List.forall_mem_cons]

theorem depth_array_le {items : List Node} {depth d : ℕ} (hdepth : depth ≤ d)
    (h : ∀ item ∈ items, depth + 1 + item.value.depth ≤ d) : depth + depthItems (valueItems items) ≤ d := by
  have hle : depthItems (valueItems items) ≤ d - depth := by
    rw [valueItems_eq, depthItems_le, List.forall_mem_map]
    intro item hitem
    have := h item hitem
    omega
  omega

theorem depth_object_le {fields : List (List Char × Node)} {depth d : ℕ} (hdepth : depth ≤ d)
    (h : ∀ f ∈ fields, depth + 1 + f.2.value.depth ≤ d) : depth + depthFields (valueFields fields) ≤ d := by
  have hle : depthFields (valueFields fields) ≤ d - depth := by
    rw [valueFields_eq, depthFields_le, List.forall_mem_map]
    intro f hf
    have := h f hf
    show f.2.value.depth + 1 ≤ d - depth
    omega
  omega

/-! ## Counted nodes -/

def fieldBytes (c : Codec) (f : List Char × Node) : ℤ := c.keyCost f.1 true + f.2.bytes

/-- What each node keeps is what its children keep, and its own share. -/
inductive Counted (c : Codec) : Node → Prop
  | scalar {s text b n} (hbytes : b = ((c.marshalScalar (text.elim s .text)).length : ℤ)) (hnodes : n = 1) :
      Counted c (.scalar s text b n)
  | array {items b n} (hbytes : b = 2 + ((items.length - 1 : ℕ) : ℤ) + (items.map Node.bytes).sum)
      (hnodes : n = 1 + (items.map Node.nodes).sum) (hitems : ∀ item ∈ items, Counted c item) :
      Counted c (.array items b n)
  | object {fields b n} (hbytes : b = 2 + ((fields.length - 1 : ℕ) : ℤ) + (fields.map (fieldBytes c)).sum)
      (hnodes : n = 1 + (fields.map fun f => f.2.nodes).sum) (hfields : ∀ f ∈ fields, Counted c f.2) :
      Counted c (.object fields b n)

theorem sum_counts {l : List α} {f : α → ℕ} {g : α → ℤ} (h : ∀ x ∈ l, g x = f x) :
    ((l.map f).sum : ℤ) = (l.map g).sum := by
  induction l with
  | nil => rfl
  | cons x l ih =>
    obtain ⟨hx, hrest⟩ := List.forall_mem_cons.mp h
    simp only [List.map_cons, List.sum_cons, Nat.cast_add, ih hrest, hx]

theorem sum_lengths {l : List α} {f : α → List UInt8} {g : α → ℤ} (h : ∀ x ∈ l, g x = (f x).length) :
    (((l.map f).map List.length).sum : ℤ) = (l.map g).sum := by
  rw [List.map_map]
  exact sum_counts h

theorem Counted.bytes_eq {node : Node} (h : Counted c node) : node.bytes = (c.marshal node.value).length := by
  have hcomma : ascii "," = [44] := by decide
  have hbrackets : (ascii "[").length = 1 ∧ (ascii "]").length = 1 ∧ (ascii "\x7b").length = 1 ∧
      (ascii "\x7d").length = 1 ∧ (ascii ":").length = 1 := by decide
  obtain ⟨h₁, h₂, h₃, h₄, h₅⟩ := hbrackets
  induction h with
  | scalar hbytes hnodes => rw [Node.value, Codec.marshal, Node.bytes, hbytes]
  | @array items b n hbytes hnodes hitems ih =>
    have hsum := sum_lengths (f := fun item : Node => c.marshal item.value) ih
    rw [Node.value, Codec.marshal, marshalItems_eq, valueItems_eq, List.map_map, hcomma]
    simp only [List.length_append, length_intercalate, List.length_map, Nat.cast_add, h₁, h₂]
    rw [Node.bytes, hbytes, ← hsum, Nat.cast_one]
    simp only [Function.comp_def]
    omega
  | @object fields b n hbytes hnodes hfields ih =>
    have hfield : ∀ f ∈ fields, fieldBytes c f = (c.quoted f.1 ++ ascii ":" ++ c.marshal f.2.value).length := by
      intro f hf
      rw [fieldBytes, Codec.keyCost, ih f hf, List.length_append, List.length_append, h₅]
      simp
    have hsum := sum_lengths (f := fun f : List Char × Node => c.quoted f.1 ++ ascii ":" ++ c.marshal f.2.value) hfield
    rw [Node.value, Codec.marshal, marshalFields_eq, valueFields_eq, List.map_map, hcomma]
    simp only [List.length_append, length_intercalate, List.length_map, Nat.cast_add, h₃, h₄]
    rw [Node.bytes, hbytes, ← hsum, Nat.cast_one]
    simp only [Function.comp_def]
    omega

theorem countItems_eq (items : List Tree) : countItems items = (items.map Tree.count).sum := by
  induction items with
  | nil => rfl
  | cons item items ih => rw [countItems, ih, List.map_cons, List.sum_cons]

theorem countFields_eq (fields : List (List Char × Tree)) :
    countFields fields = (fields.map fun f => f.2.count).sum := by
  induction fields with
  | nil => rfl
  | cons field fields ih => rw [countFields, ih, List.map_cons, List.sum_cons]

theorem Counted.nodes_eq {node : Node} (h : Counted c node) : node.nodes = node.value.count := by
  induction h with
  | scalar hbytes hnodes => rw [Node.value, Tree.count, Node.nodes, hnodes, Nat.cast_one]
  | @array items b n hbytes hnodes hitems ih =>
    rw [Node.value, Tree.count, countItems_eq, valueItems_eq, List.map_map, Node.nodes, hnodes, Nat.cast_add,
      Nat.cast_one, ← sum_counts ih]
    rfl
  | @object fields b n hbytes hnodes hfields ih =>
    rw [Node.value, Tree.count, countFields_eq, valueFields_eq, List.map_map, Node.nodes, hnodes, Nat.cast_add,
      Nat.cast_one, ← sum_counts ih]
    rfl

/-! ## New nodes -/

/-- What a leaf is in JSON. -/
def Leaf.json : Leaf → Option Scalar
  | .null | .nilArray | .nilObject => some .null
  | .bool b => some (.bool b)
  | .integer n => some (.number (.finite (float64 n)))
  | .float (.infinite _) | .float .nan => none
  | .float x => some (.number x)
  | .text s => some (.text s.runes)
  | .other => none

mutual

/-- What a value is in JSON, if it is anything. -/
def GoValue.json : GoValue → Option Tree
  | .leaf leaf => leaf.json.map .scalar
  | .array items => (jsonItems items).map .array
  | .object fields => (jsonFields fields).map .object

def jsonItems : List GoValue → Option (List Tree)
  | [] => some []
  | item :: items => do
    let tree ← item.json
    let trees ← jsonItems items
    some (tree :: trees)

def jsonFields : List (GoText × GoValue) → Option (List (List Char × Tree))
  | [] => some []
  | field :: fields => do
    let key ← field.1.valid?
    let tree ← field.2.json
    let trees ← jsonFields fields
    some ((key, tree) :: trees)

end

section New

variable {before after budget : Budget} {depth : ℕ}

theorem Leaf.json_of_scalar {leaf : Leaf} {s : Scalar} (h : leaf.scalar budget = .ok s) : leaf.json = some s := by
  cases leaf with
  | float x => cases x <;> cases h <;> rfl
  | text t =>
    rw [Leaf.scalar] at h
    split at h
    · cases h
    · cases h
      rfl
  | _ => cases h <;> rfl

theorem spend_ok {bytes nodes : ℤ} (h : before.spend bytes nodes = .ok after) :
    after.bytes = before.bytes - bytes ∧ after.nodes = before.nodes - nodes ∧ 0 ≤ after.bytes ∧ 0 ≤ after.nodes := by
  obtain ⟨ctx, -, h⟩ := except_bind_ok h
  split at h
  · cases h
  · cases h
    dsimp only
    omega

theorem enter_ok (h : before.enter depth = .ok after) : depth ≤ maxJSONToolDepth ∧ after.bytes = before.bytes ∧
    after.nodes = before.nodes - 1 ∧ 0 ≤ after.bytes ∧ 0 ≤ after.nodes := by
  unfold Budget.enter at h
  split at h
  · cases h
  · obtain ⟨hbytes, hnodes, hrest⟩ := spend_ok h
    exact ⟨by omega, by omega, hnodes, hrest⟩

/-- What is built is worth what was spent. -/
structure Built (c : Codec) (depth : ℕ) (before after : Budget) (value : GoValue) (node : Node) : Prop where
  counted : Counted c node
  bytes : node.bytes = before.bytes - after.bytes
  nodes : node.nodes = before.nodes - after.nodes
  bytes_left : 0 ≤ after.bytes
  nodes_left : 0 ≤ after.nodes
  depth_le : depth + node.value.depth ≤ maxJSONToolDepth
  json : value.json = some node.value

structure BuiltItems (c : Codec) (depth : ℕ) (before after : Budget) (items : List GoValue) (built : List Node) :
    Prop where
  counted : ∀ node ∈ built, Counted c node
  length : built.length = items.length
  bytes : (built.map Node.bytes).sum = before.bytes - after.bytes
  nodes : (built.map Node.nodes).sum = before.nodes - after.nodes
  left : 0 ≤ before.bytes → 0 ≤ before.nodes → 0 ≤ after.bytes ∧ 0 ≤ after.nodes
  depth_le : ∀ node ∈ built, depth + node.value.depth ≤ maxJSONToolDepth
  json : jsonItems items = some (built.map Node.value)

structure BuiltFields (c : Codec) (first : Bool) (depth : ℕ) (before after : Budget)
    (fields : List (GoText × GoValue)) (built : List (List Char × Node)) : Prop where
  counted : ∀ f ∈ built, Counted c f.2
  bytes : (built.map (fieldBytes c)).sum + (if first then ((built.length - 1 : ℕ) : ℤ) else built.length) =
    before.bytes - after.bytes
  nodes : (built.map fun f => f.2.nodes).sum = before.nodes - after.nodes
  left : 0 ≤ before.bytes → 0 ≤ before.nodes → 0 ≤ after.bytes ∧ 0 ≤ after.nodes
  depth_le : ∀ f ∈ built, depth + f.2.value.depth ≤ maxJSONToolDepth
  json : jsonFields fields = some (built.map fun f => (f.1, f.2.value))

mutual

theorem built_of_ok {value : GoValue} {depth : ℕ} {before after : Budget} {node : Node}
    (h : newJSONStateNode c value depth before = .ok (node, after)) : Built c depth before after value node := by
  cases value with
  | leaf leaf =>
    obtain ⟨entered, henter, h⟩ := except_bind_ok h
    obtain ⟨s, hs, h⟩ := except_bind_ok h
    obtain ⟨spent, hspend, h⟩ := except_bind_ok h
    cases h
    obtain ⟨hdepth, hb, hn, -, -⟩ := enter_ok henter
    obtain ⟨hb', hn', hleft⟩ := spend_ok hspend
    refine ⟨.scalar ?_ ?_, rfl, rfl, hleft.1, hleft.2, hdepth, ?_⟩
    · show before.bytes - after.bytes = ((c.marshalScalar s).length : ℤ)
      omega
    · omega
    · rw [GoValue.json, Leaf.json_of_scalar hs]
      rfl
  | array items =>
    obtain ⟨entered, henter, h⟩ := except_bind_ok h
    split at h
    · cases h
    · obtain ⟨spent, hspend, h⟩ := except_bind_ok h
      obtain ⟨⟨nodes, rest⟩, hitems, h⟩ := except_bind_ok h
      cases h
      obtain ⟨hdepth, hb, hn, -, -⟩ := enter_ok henter
      obtain ⟨hb', hn', hleft⟩ := spend_ok hspend
      have hbuilt := builtItems_of_ok hitems
      have hbytes := hbuilt.bytes
      have hnodes := hbuilt.nodes
      obtain ⟨hbl, hnl⟩ := hbuilt.left hleft.1 hleft.2
      refine ⟨.array ?_ ?_ hbuilt.counted, rfl, rfl, hbl, hnl, ?_, ?_⟩
      · rw [hbytes, hbuilt.length]
        omega
      · omega
      · exact depth_array_le hdepth hbuilt.depth_le
      · rw [GoValue.json, hbuilt.json, Node.value, valueItems_eq]
        rfl
  | object fields =>
    obtain ⟨entered, henter, h⟩ := except_bind_ok h
    split at h
    · cases h
    · obtain ⟨spent, hspend, h⟩ := except_bind_ok h
      obtain ⟨⟨nodes, rest⟩, hfields, h⟩ := except_bind_ok h
      cases h
      obtain ⟨hdepth, hb, hn, -, -⟩ := enter_ok henter
      obtain ⟨hb', hn', hleft⟩ := spend_ok hspend
      have hbuilt := builtFields_of_ok hfields
      have hbytes := hbuilt.bytes
      have hnodes := hbuilt.nodes
      obtain ⟨hbl, hnl⟩ := hbuilt.left hleft.1 hleft.2
      rw [if_pos rfl] at hbytes
      refine ⟨.object ?_ ?_ hbuilt.counted, rfl, rfl, hbl, hnl, ?_, ?_⟩
      · omega
      · omega
      · exact depth_object_le hdepth hbuilt.depth_le
      · rw [GoValue.json, hbuilt.json, Node.value, valueFields_eq]
        rfl

theorem builtItems_of_ok {items : List GoValue} {depth : ℕ} {before after : Budget} {nodes : List Node}
    (h : newItems c items depth before = .ok (nodes, after)) : BuiltItems c depth before after items nodes := by
  cases items with
  | nil =>
    cases h
    exact ⟨List.forall_mem_nil _, rfl, by simp, by simp, fun hb hn => ⟨hb, hn⟩, List.forall_mem_nil _, rfl⟩
  | cons item items =>
    obtain ⟨⟨node, budget⟩, hitem, h⟩ := except_bind_ok h
    obtain ⟨⟨rest, last⟩, hrest, h⟩ := except_bind_ok h
    cases h
    have hhead := built_of_ok hitem
    have htail := builtItems_of_ok hrest
    have hb := hhead.bytes
    have hn := hhead.nodes
    refine ⟨List.forall_mem_cons.mpr ⟨hhead.counted, htail.counted⟩, congrArg Nat.succ htail.length, ?_, ?_,
      fun _ _ => htail.left hhead.bytes_left hhead.nodes_left,
      List.forall_mem_cons.mpr ⟨hhead.depth_le, htail.depth_le⟩, ?_⟩
    · rw [List.map_cons, List.sum_cons, htail.bytes, hb]
      omega
    · rw [List.map_cons, List.sum_cons, htail.nodes, hn]
      omega
    · rw [jsonItems, hhead.json, htail.json]
      rfl

theorem builtFields_of_ok {fields : List (GoText × GoValue)} {first : Bool} {depth : ℕ} {before after : Budget}
    {nodes : List (List Char × Node)} (h : newFields c fields first depth before = .ok (nodes, after)) :
    BuiltFields c first depth before after fields nodes := by
  cases fields with
  | nil =>
    cases h
    exact ⟨List.forall_mem_nil _, by simp, by simp, fun hb hn => ⟨hb, hn⟩, List.forall_mem_nil _, rfl⟩
  | cons field fields =>
    obtain ⟨name, child⟩ := field
    unfold newFields at h
    split at h
    · cases h
    · next key hkey =>
      split at h
      · cases h
      · obtain ⟨spent, hspend, h⟩ := except_bind_ok h
        obtain ⟨⟨node, budget⟩, hitem, h⟩ := except_bind_ok h
        obtain ⟨⟨rest, last⟩, hrest, h⟩ := except_bind_ok h
        cases h
        obtain ⟨hb', hn', -⟩ := spend_ok hspend
        have hhead := built_of_ok hitem
        have htail := builtFields_of_ok hrest
        have hb := hhead.bytes
        have hn := hhead.nodes
        have htb := htail.bytes
        rw [if_neg Bool.false_ne_true] at htb
        refine ⟨List.forall_mem_cons.mpr ⟨hhead.counted, htail.counted⟩, ?_, ?_,
          fun _ _ => htail.left hhead.bytes_left hhead.nodes_left,
          List.forall_mem_cons.mpr ⟨hhead.depth_le, htail.depth_le⟩, ?_⟩
        · rw [List.map_cons, List.sum_cons, fieldBytes, List.length_cons]
          unfold Codec.keyCost at hb' ⊢
          cases first
          · simp only [Bool.false_eq_true, if_false, if_true] at hb' ⊢
            push_cast
            omega
          · simp only [if_true] at hb' ⊢
            push_cast
            omega
        · rw [List.map_cons, List.sum_cons, htail.nodes, hn]
          omega
        · rw [jsonFields, hkey, hhead.json, htail.json]
          rfl

end

end New

/-! ## The way to a target -/

def GoValue.step? (segment : GoValue) : Option Step :=
  match segment with
  | .leaf (.text s) => s.valid?.map .key
  | segment => (segment.number?.bind Number.index?).map .index

/-- Change a tree at the end of a path, which may lead to a new key. -/
def Tree.edit (f : Option Tree → Option Tree) : List Step → Option Tree → Option Tree
  | [], tree => f tree
  | .key k :: path, some (.object fields) =>
    (Tree.edit f path (fields.lookup k)).map fun tree => .object (Fields.put k tree fields)
  | .index i :: path, some (.array items) =>
    items[i]?.bind fun item => (Tree.edit f path (some item)).map fun tree => .array (items.set i tree)
  | _ :: _, _ => none

def Target.value? : Target → Option Tree
  | .found node => some node.value
  | .missing _ _ => none

section Way

variable {limit : ℤ} {op : Op} {segment : GoValue} {path : List GoValue} {node next : Node} {step : Step}
  {target : Target} {ancestors : List (Node × Step)} {bytes nodes : ℤ}

/-- A step leads to a field of an object, which may be new, or to an element of an array. -/
inductive Leads : Node → Step → Target → Prop
  | field {fields b n key child} (h : fields.lookup key = some child) :
      Leads (.object fields b n) (.key key) (.found child)
  | new {fields b n key} (h : fields.lookup key = none) :
      Leads (.object fields b n) (.key key) (.missing fields key)
  | element {items b n i child} (h : items[i]? = some child) :
      Leads (.array items b n) (.index i) (.found child)

theorem child_ok (h : node.child limit segment = .ok (step, target)) :
    segment.step? = some step ∧ Leads node step target := by
  cases node with
  | scalar => cases h
  | object fields b n =>
    simp only [Node.child] at h
    split at h
    · next s =>
      split at h
      · cases h
      · next key hkey =>
        split at h
        · cases h
        · cases h
          refine ⟨by rw [GoValue.step?, hkey]; rfl, ?_⟩
          cases hlookup : fields.lookup key with
          | none => exact .new hlookup
          | some child => exact .field hlookup
    · cases h
  | array items b n =>
    simp only [Node.child] at h
    split at h
    · cases h
    · next x hx =>
      split at h
      · cases h
      · next i child hi =>
        cases h
        obtain ⟨j, hj, hi⟩ := Option.bind_eq_some_iff.mp hi
        obtain ⟨found, hfound, heq⟩ := Option.map_eq_some_iff.mp hi
        cases heq
        refine ⟨?_, .element hfound⟩
        unfold GoValue.step?
        split
        · cases hx
        · rw [hx, Option.bind_some, hj]
          rfl

/-- A node whose child was replaced, by one that is worth so much more. -/
structure Replaced (c : Codec) (bytes nodes : ℤ) (depth : ℕ) (node after : Node) : Prop where
  counted : Counted c after
  bytes : after.bytes = node.bytes + bytes
  nodes : after.nodes = node.nodes + nodes
  depth_le : after.value.depth ≤ max node.value.depth depth

theorem replaced_put (h : Leads node step target) (hnode : Counted c node) (hnext : Counted c next)
    (hbytes : bytes = target.keyCost c + (next.bytes - target.bytes)) (hnodes : nodes = next.nodes - target.nodes) :
    Replaced c bytes nodes (next.value.depth + 1) node (Node.put step next bytes nodes node) := by
  subst hbytes hnodes
  cases h with
  | @field fields b n key child h =>
    cases hnode with
    | object hb hn hfields =>
      have hsum := Fields.sum_map_put (a := next) (fieldBytes c) h
      have hsum' := Fields.sum_map_put (a := next) (fun f => f.2.nodes) h
      have hdepth := depthFields_le.mp (le_refl (depthFields (valueFields fields)))
      rw [valueFields_eq, List.forall_mem_map] at hdepth
      refine ⟨.object ?_ ?_ ?_, rfl, rfl, ?_⟩
      · rw [hsum, Fields.length_put h, hb]
        simp only [fieldBytes, Target.keyCost, Target.bytes]
        omega
      · rw [hsum', hn]
        simp only [Target.nodes]
        omega
      · intro f hf
        rcases Fields.mem_put hf with rfl | hf
        · exact hnext
        · exact hfields f hf
      · show depthFields (valueFields (Fields.put key next fields)) ≤
          max (depthFields (valueFields fields)) (next.value.depth + 1)
        rw [valueFields_eq, depthFields_le, List.forall_mem_map]
        intro f hf
        rcases Fields.mem_put hf with rfl | hf
        · exact le_max_right _ _
        · exact le_max_of_le_left (by rw [valueFields_eq]; exact hdepth f hf)
  | @new fields b n key h =>
    cases hnode with
    | object hb hn hfields =>
      rw [Node.put, Fields.put_of_lookup_none h]
      have hdepth := depthFields_le.mp (le_refl (depthFields (valueFields fields)))
      rw [valueFields_eq, List.forall_mem_map] at hdepth
      refine ⟨.object ?_ ?_ ?_, rfl, rfl, ?_⟩
      · rw [List.map_append, List.sum_append, List.length_append, hb]
        simp only [fieldBytes, Target.keyCost, Target.bytes, Codec.keyCost, List.map_singleton, List.sum_singleton,
          List.length_singleton]
        cases fields with
        | nil => simp
        | cons f fields =>
          simp only [List.isEmpty_cons, Bool.false_eq_true, if_false, if_true, List.length_cons]
          push_cast
          omega
      · rw [List.map_append, List.sum_append, hn]
        simp only [Target.nodes, List.map_singleton, List.sum_singleton]
        omega
      · intro f hf
        rcases List.mem_append.mp hf with hf | hf
        · exact hfields f hf
        · exact List.mem_singleton.mp hf ▸ hnext
      · show depthFields (valueFields (fields ++ [(key, next)])) ≤
          max (depthFields (valueFields fields)) (next.value.depth + 1)
        rw [valueFields_eq, depthFields_le, List.forall_mem_map]
        intro f hf
        rcases List.mem_append.mp hf with hf | hf
        · exact le_max_of_le_left (by rw [valueFields_eq]; exact hdepth f hf)
        · exact List.mem_singleton.mp hf ▸ le_max_right _ _
  | @element items b n i child h =>
    cases hnode with
    | array hb hn hitems =>
      have hdepth := depthItems_le.mp (le_refl (depthItems (valueItems items)))
      rw [valueItems_eq, List.forall_mem_map] at hdepth
      refine ⟨.array ?_ ?_ ?_, rfl, rfl, ?_⟩
      · rw [sum_map_set h next, List.length_set, hb]
        simp only [Target.keyCost, Target.bytes]
        omega
      · rw [sum_map_set h next, hn]
        simp only [Target.nodes]
        omega
      · intro item hitem
        rcases List.mem_or_eq_of_mem_set hitem with hitem | rfl
        · exact hitems item hitem
        · exact hnext
      · show depthItems (valueItems (items.set i next)) ≤ max (depthItems (valueItems items)) (next.value.depth + 1)
        rw [valueItems_eq, depthItems_le, List.forall_mem_map]
        intro item hitem
        rcases List.mem_or_eq_of_mem_set hitem with hitem | rfl
        · exact le_max_of_le_left (by rw [valueItems_eq]; exact hdepth item hitem)
        · exact le_max_right _ _

theorem edit_put (h : Leads node step target) {f : Option Tree → Option Tree} {steps : List Step}
    (hedit : Tree.edit f steps target.value? = some next.value) :
    Tree.edit f (step :: steps) (some node.value) = some (Node.put step next bytes nodes node).value := by
  cases h with
  | @field fields b n key child h =>
    rw [Node.value, Node.put, Node.value, valueFields_eq, valueFields_eq, Tree.edit, Fields.lookup_map, h,
      Fields.map_put]
    exact congrArg (Option.map _) hedit
  | @new fields b n key h =>
    rw [Node.value, Node.put, Node.value, valueFields_eq, valueFields_eq, Tree.edit, Fields.lookup_map, h,
      Fields.map_put]
    exact congrArg (Option.map _) hedit
  | @element items b n i child h =>
    rw [Node.value, Node.put, Node.value, valueItems_eq, valueItems_eq, Tree.edit, List.getElem?_map, h, List.map_set]
    exact congrArg (Option.map _) hedit

theorem leads_found {child : Node} (h : Leads node step (.found child)) (hnode : Counted c node) :
    Counted c child ∧ child.value.depth + 1 ≤ node.value.depth := by
  cases h with
  | @field fields b n key child h =>
    cases hnode with
    | object hb hn hfields =>
      have hmem := Fields.mem_of_lookup h
      have hdepth := depthFields_le.mp (le_refl (depthFields (valueFields fields)))
      rw [valueFields_eq, List.forall_mem_map] at hdepth
      refine ⟨hfields _ hmem, ?_⟩
      rw [Node.value, Tree.depth, valueFields_eq]
      exact hdepth _ hmem
  | @element items b n i child h =>
    cases hnode with
    | array hb hn hitems =>
      have hmem := List.mem_of_getElem? h
      have hdepth := depthItems_le.mp (le_refl (depthItems (valueItems items)))
      rw [valueItems_eq, List.forall_mem_map] at hdepth
      refine ⟨hitems _ hmem, ?_⟩
      rw [Node.value, Tree.depth, valueItems_eq]
      exact hdepth _ hmem

/-- The target of a walk is a counted node as far below as the path is long. -/
theorem walk_found {found : Node} (h : walk limit op path node = .ok (ancestors, .found found))
    (hnode : Counted c node) : Counted c found ∧ path.length + found.value.depth ≤ node.value.depth := by
  induction path generalizing node ancestors with
  | nil =>
    cases h
    exact ⟨hnode, by simp⟩
  | cons segment path ih =>
    obtain ⟨⟨step, target⟩, hchild, h⟩ := except_bind_ok h
    have hleads := (child_ok hchild).2
    cases target with
    | missing fields key =>
      dsimp only at h
      split at h <;> cases h
    | found child =>
      obtain ⟨⟨ancestors', target'⟩, hwalk, h⟩ := except_bind_ok h
      cases h
      obtain ⟨hcounted, hdepth⟩ := leads_found hleads hnode
      obtain ⟨hfound, hrest⟩ := ih hwalk hcounted
      exact ⟨hfound, by rw [List.length_cons]; omega⟩

theorem rebuild_ok (hwalk : walk limit op path node = .ok (ancestors, target)) (hnode : Counted c node)
    (hnext : Counted c next) (hbytes : bytes = target.keyCost c + (next.bytes - target.bytes))
    (hnodes : nodes = next.nodes - target.nodes) :
    Replaced c bytes nodes (path.length + next.value.depth) node (rebuild ancestors next bytes nodes) ∧
      ∃ steps, path.mapM GoValue.step? = some steps ∧
        ∀ f : Option Tree → Option Tree, f target.value? = some next.value →
          Tree.edit f steps (some node.value) = some (rebuild ancestors next bytes nodes).value := by
  induction path generalizing node ancestors with
  | nil =>
    cases hwalk
    simp only [Target.keyCost, Target.bytes, Target.nodes] at hbytes hnodes
    refine ⟨⟨hnext, ?_, ?_, ?_⟩, [], rfl, fun f hf => hf⟩
    · show next.bytes = node.bytes + bytes
      omega
    · show next.nodes = node.nodes + nodes
      omega
    · exact le_max_of_le_right (by simp [rebuild])
  | cons segment path ih =>
    obtain ⟨⟨step, child⟩, hchild, h⟩ := except_bind_ok hwalk
    obtain ⟨hstep, hleads⟩ := child_ok hchild
    cases child with
    | missing fields key =>
      dsimp only at h
      split at h
      · next hlast =>
        cases h
        obtain rfl : path = [] := List.isEmpty_iff.mp hlast.1
        obtain ⟨hcounted, hb, hn, hdepth⟩ := replaced_put hleads hnode hnext hbytes hnodes
        refine ⟨⟨hcounted, hb, hn, hdepth.trans (by simp [add_comm])⟩, [step], ?_, fun f hf => edit_put hleads hf⟩
        simp [hstep]
      · cases h
    | found child =>
      obtain ⟨⟨ancestors', target'⟩, hrest, h⟩ := except_bind_ok h
      cases h
      obtain ⟨hcounted, hchilddepth⟩ := leads_found hleads hnode
      obtain ⟨hbelow, steps, hsteps, hedit⟩ := ih hrest hcounted
      have hchildbytes := hbelow.bytes
      have hchildnodes := hbelow.nodes
      obtain ⟨hput, hb, hn, hdepth⟩ :
          Replaced c bytes nodes ((rebuild ancestors' next bytes nodes).value.depth + 1) node
            (Node.put step (rebuild ancestors' next bytes nodes) bytes nodes node) :=
        replaced_put hleads hnode hbelow.counted (by simp only [Target.keyCost, Target.bytes]; omega)
          (by simp only [Target.nodes]; omega)
      have hdepth' := hbelow.depth_le
      refine ⟨⟨hput, hb, hn, ?_⟩, step :: steps, ?_, fun f hf => edit_put hleads (hedit f hf)⟩
      · refine hdepth.trans (max_le (le_max_left _ _) ?_)
        rw [List.length_cons]
        omega
      · rw [List.mapM_cons, hstep, hsteps]
        rfl

end Way

/-! ## One change -/

def appendItem (item : Tree) : Option Tree → Option Tree
  | some (.array items) => some (.array (items ++ [item]))
  | _ => none

def appendPiece (piece : List Char) : Option Tree → Option Tree
  | some (.scalar (.text s)) => some (.scalar (.text (s ++ piece)))
  | _ => none

/-- A change of a plain tree. -/
def Change.edit (change : Change) (tree : Tree) : Option Tree := do
  let path ← change.path.mapM GoValue.step?
  let value ← change.value.json
  match change.op with
  | .set => Tree.edit (fun _ => some value) path (some tree)
  | .append => Tree.edit (appendItem value) path (some tree)
  | .appendText =>
    match value with
    | .scalar (.text piece) => Tree.edit (appendPiece piece) path (some tree)
    | _ => none

/-- What holds of a root, whatever the limit of its bytes. -/
structure Sound (c : Codec) (root : Node) : Prop where
  counted : Counted c root
  nodes_le : root.nodes ≤ maxJSONToolNodes
  depth_le : root.value.depth ≤ maxJSONToolDepth

section OneChange

variable {limit : ℤ} {root next : Node} {ctx ctx' : Context} {change : Change}

theorem length_quoted_append (s t : List Char) :
    ((c.quoted (s ++ t)).length : ℤ) = (c.quoted s).length + ((c.quoted t).length - 2) := by
  have hquote : (ascii "\"").length = 1 := by decide
  simp only [Codec.quoted, List.length_append, List.flatMap_append, hquote]
  push_cast
  omega

theorem appendBuilt_value (previous : List Char) (text : Option (List Char)) (piece : List Char) :
    (appendBuilt previous text piece).2.elim (appendBuilt previous text piece).1 .text =
      .text (text.getD previous ++ piece) := by
  unfold appendBuilt
  split
  · next hempty =>
    subst hempty
    cases text <;> simp
  · cases text <;> rfl

theorem elim_text (previous : List Char) (text : Option (List Char)) :
    text.elim (Scalar.text previous) .text = .text (text.getD previous) := by
  cases text <;> rfl

theorem counted_append {items : List Node} {b n : ℤ} (h : Counted c (.array items b n)) (hnext : Counted c next) :
    Counted c (.array (items ++ [next]) (b + ((if items.isEmpty then 0 else 1) + next.bytes)) (n + next.nodes)) := by
  cases h with
  | array hb hn hitems =>
    refine .array ?_ ?_ (List.forall_mem_append.mpr ⟨hitems, List.forall_mem_singleton.mpr hnext⟩)
    · rw [List.map_append, List.sum_append, List.length_append, hb, List.map_singleton, List.sum_singleton]
      cases items with
      | nil => simp
      | cons item items =>
        simp only [List.isEmpty_cons, Bool.false_eq_true, if_false, List.length_cons, List.length_nil]
        push_cast
        omega
    · rw [List.map_append, List.sum_append, hn, List.map_singleton, List.sum_singleton]
      omega

theorem depth_append (items : List Node) (next : Node) :
    depthItems (valueItems (items ++ [next])) ≤ max (depthItems (valueItems items)) (next.value.depth + 1) := by
  have hdepth := depthItems_le.mp (le_refl (depthItems (valueItems items)))
  rw [valueItems_eq, List.map_append, depthItems_le, List.forall_mem_append]
  refine ⟨fun tree htree => le_max_of_le_left (hdepth tree (valueItems_eq items ▸ htree)), ?_⟩
  exact List.forall_mem_singleton.mpr (le_max_right _ _)

theorem counted_appendBuilt {previous : List Char} {text : Option (List Char)} {b n : ℤ}
    (h : Counted c (.scalar (.text previous) text b n)) (piece : List Char) :
    Counted c (.scalar (appendBuilt previous text piece).1 (appendBuilt previous text piece).2
      (b + ((c.quoted piece).length - 2)) n) := by
  cases h with
  | scalar hb hn =>
    refine .scalar ?_ hn
    rw [appendBuilt_value, hb, elim_text]
    exact (length_quoted_append _ _).symm

/-- A root stays sound as long as there is room for what is added. -/
theorem sound_rebuild {op : Op} {path : List GoValue} {ancestors : List (Node × Step)} {target : Target}
    (bytes nodes : ℤ) (hwalk : walk limit op path root = .ok (ancestors, target)) (hroot : Sound c root)
    (hnext : Counted c next) (hdepth : path.length + next.value.depth ≤ maxJSONToolDepth)
    (hbytes : bytes = target.keyCost c + (next.bytes - target.bytes)) (hnodes : nodes = next.nodes - target.nodes)
    (hroom : root.bytes + bytes ≤ limit) (hcount : root.nodes + nodes ≤ maxJSONToolNodes) :
    Sound c (rebuild ancestors next bytes nodes) ∧ (rebuild ancestors next bytes nodes).bytes ≤ limit ∧
      ∃ steps, path.mapM GoValue.step? = some steps ∧
        ∀ f : Option Tree → Option Tree, f target.value? = some next.value →
          Tree.edit f steps (some root.value) = some (rebuild ancestors next bytes nodes).value := by
  obtain ⟨hreplaced, hsteps⟩ := rebuild_ok hwalk hroot.counted hnext hbytes hnodes
  refine ⟨⟨hreplaced.counted, ?_, hreplaced.depth_le.trans (max_le hroot.depth_le hdepth)⟩, ?_, hsteps⟩
  · rw [hreplaced.nodes]
    exact hcount
  · rw [hreplaced.bytes]
    exact hroom

theorem applyChange_ok (h : applyChange c limit root ctx change = .ok (next, ctx')) (hroot : Sound c root) :
    Sound c next ∧ next.bytes ≤ limit ∧ change.edit root.value = some next.value := by
  obtain ⟨op, path, value⟩ := change
  obtain ⟨⟨ancestors, target⟩, hwalk, h⟩ := except_bind_ok h
  cases op with
  | set =>
    obtain ⟨⟨built, after⟩, hnew, h⟩ := except_bind_ok h
    obtain ⟨rfl, rfl⟩ := Prod.mk.inj (Except.ok.inj h)
    have hbuilt := built_of_ok hnew
    have hb : built.bytes = limit - root.bytes + target.bytes - target.keyCost c - after.bytes := hbuilt.bytes
    have hn : built.nodes = maxJSONToolNodes - root.nodes + target.nodes - after.nodes := hbuilt.nodes
    have hbl := hbuilt.bytes_left
    have hnl := hbuilt.nodes_left
    obtain ⟨hsound, hle, steps, hsteps, hedit⟩ := sound_rebuild _ _ hwalk hroot hbuilt.counted hbuilt.depth_le rfl rfl
      (by omega) (by omega)
    refine ⟨hsound, hle, ?_⟩
    rw [Change.edit, hsteps, Option.bind_eq_bind, Option.bind_some, hbuilt.json]
    exact hedit (fun _ => some built.value) rfl
  | append =>
    dsimp only at h
    split at h
    · next items b n =>
      obtain ⟨⟨built, after⟩, hnew, h⟩ := except_bind_ok h
      obtain ⟨rfl, rfl⟩ := Prod.mk.inj (Except.ok.inj h)
      have hbuilt := built_of_ok hnew
      have hb : built.bytes = limit - root.bytes - (if items.isEmpty then 0 else 1) - after.bytes := hbuilt.bytes
      have hn : built.nodes = maxJSONToolNodes - root.nodes - after.nodes := hbuilt.nodes
      have hbl := hbuilt.bytes_left
      have hnl := hbuilt.nodes_left
      obtain ⟨hfound, htarget⟩ := walk_found hwalk hroot.counted
      have hdepth : path.length + depthItems (valueItems (items ++ [built])) ≤ maxJSONToolDepth := by
        have hall : path.length + depthItems (valueItems items) ≤ maxJSONToolDepth := htarget.trans hroot.depth_le
        have hdeep : path.length + 1 + built.value.depth ≤ maxJSONToolDepth := hbuilt.depth_le
        have hmax := depth_append items built
        omega
      obtain ⟨hsound, hle, steps, hsteps, hedit⟩ := sound_rebuild ((if items.isEmpty then 0 else 1) + built.bytes)
        built.nodes hwalk hroot (counted_append hfound hbuilt.counted) hdepth
        (by simp only [Target.keyCost, Target.bytes, Node.bytes]; omega)
        (by simp only [Target.nodes, Node.nodes]; omega) (by omega) (by omega)
      refine ⟨hsound, hle, ?_⟩
      rw [Change.edit, hsteps, Option.bind_eq_bind, Option.bind_some, hbuilt.json]
      refine hedit (appendItem built.value) ?_
      simp [Target.value?, Node.value, appendItem, valueItems_eq]
    · cases h
  | appendText =>
    dsimp only at h
    split at h
    · next previous text b n s _ =>
      split at h
      · cases h
      · split at h
        · cases h
        · next hroom =>
          obtain ⟨rfl, rfl⟩ := Prod.mk.inj (Except.ok.inj h)
          obtain ⟨hfound, htarget⟩ := walk_found hwalk hroot.counted
          have hnodes := hroot.nodes_le
          obtain ⟨hsound, hle, steps, hsteps, hedit⟩ := sound_rebuild ((c.quoted s.runes).length - 2) 0 hwalk hroot
            (counted_appendBuilt hfound s.runes) (htarget.trans hroot.depth_le)
            (by simp only [Target.keyCost, Target.bytes, Node.bytes]; omega)
            (by simp only [Target.nodes, Node.nodes]; omega) (by omega) (by omega)
          refine ⟨hsound, hle, ?_⟩
          rw [Change.edit, hsteps, Option.bind_eq_bind, Option.bind_some, GoValue.json, Leaf.json, Option.map_some]
          refine hedit (appendPiece s.runes) ?_
          rw [Target.value?, Node.value, Node.value, appendBuilt_value, elim_text]
          rfl
    · cases h

end OneChange

/-! ## Runs -/

def editItems (items : List GoValue) (tree : Tree) : Option Tree :=
  items.foldlM (fun tree item => (readChange item).toOption.bind fun change => change.edit tree) tree

/-- The changes of all calls, one by one, to a plain tree. -/
def editAll (calls : List (Context × GoValue)) (tree : Tree) : Option Tree :=
  calls.foldlM (fun tree call => call.2.asArray?.bind fun items => editItems items tree) tree

def State.applyAll (c : Codec) (s : State) (calls : List (Context × GoValue)) : State :=
  calls.foldl (fun s call => s.apply c call.1 call.2) s

def Node.at? : List Step → Node → Option Node
  | [], node => some node
  | .key k :: path, .object fields _ _ => (fields.lookup k).bind (Node.at? path)
  | .index i :: path, .array items _ _ => items[i]?.bind (Node.at? path)
  | _ :: _, _ => none

/-- Within the limit, but for the first null. -/
structure Bounded (c : Codec) (s : State) : Prop where
  sound : Sound c s.root
  bytes_le : s.root.bytes ≤ s.limit ∨ s.root = .scalar .null none 4 1

section Runs

variable {limit : ℤ} {root next : Node} {ctx : Context} {s : State}

theorem counted_at? {path : List Step} {node : Node} (h : root.at? path = some node) (hroot : Counted c root) :
    Counted c node := by
  induction path generalizing root with
  | nil =>
    cases h
    exact hroot
  | cons step path ih =>
    cases hroot with
    | scalar => cases step <;> cases h
    | @array items b n hb hn hitems =>
      cases step with
      | key k => cases h
      | index i =>
        obtain ⟨child, hchild, h⟩ := Option.bind_eq_some_iff.mp h
        exact ih h (hitems child (List.mem_of_getElem? hchild))
    | @object fields b n hb hn hfields =>
      cases step with
      | index i => cases h
      | key k =>
        obtain ⟨child, hchild, h⟩ := Option.bind_eq_some_iff.mp h
        exact ih h (hfields (k, child) (Fields.mem_of_lookup hchild))

theorem applyItems_ok {items : List GoValue} (h : applyItems c limit items ctx root = (next, none))
    (hroot : Sound c root) : Sound c next ∧ (next = root ∨ next.bytes ≤ limit) ∧
      editItems items root.value = some next.value := by
  induction items generalizing root ctx with
  | nil =>
    cases h
    exact ⟨hroot, Or.inl rfl, rfl⟩
  | cons item items ih =>
    simp only [applyItems] at h
    split at h
    · cases h
    · next changed ctx' hchanged =>
      obtain ⟨ctx'', -, hchanged⟩ := except_bind_ok hchanged
      obtain ⟨change, hread, hchanged⟩ := except_bind_ok hchanged
      obtain ⟨hsound, hle, hedit⟩ := applyChange_ok hchanged hroot
      obtain ⟨hnext, hbytes, hrest⟩ := ih h hsound
      refine ⟨hnext, Or.inr (hbytes.elim (fun heq => heq ▸ hle) id), ?_⟩
      rw [editItems, List.foldlM_cons, hread]
      show (change.edit root.value).bind (editItems items) = some next.value
      rw [hedit]
      exact hrest

theorem apply_failed {e : String} (h : s.failed = some e) (ctx : Context) (changes : GoValue) :
    s.apply c ctx changes = s := by
  rw [State.apply, h, Option.isSome_some, if_pos rfl]

theorem applyAll_failed {e : String} (h : s.failed = some e) (calls : List (Context × GoValue)) :
    s.applyAll c calls = s := by
  induction calls with
  | nil => rfl
  | cons call calls ih => rw [State.applyAll, List.foldl_cons, apply_failed h]; exact ih

theorem apply_ok {changes : GoValue} (h : (s.apply c ctx changes).failed = none) (hs : Bounded c s) :
    Bounded c (s.apply c ctx changes) ∧ (s.apply c ctx changes).limit = s.limit ∧
      changes.asArray?.bind (fun items => editItems items s.root.value) = some (s.apply c ctx changes).root.value := by
  have hnone : s.failed = none := by
    cases hfailed : s.failed with
    | none => rfl
    | some e => rw [apply_failed hfailed, hfailed] at h; cases h
  simp only [State.apply, hnone, Option.isSome_none, Bool.false_eq_true, if_false] at h ⊢
  split at h
  · cases h
  · cases h
  · next ctx' items herr harray =>
    split at h
    · cases h
    · next hlength =>
      rw [harray]
      simp only [if_neg hlength, Option.bind_some]
      cases hrun : applyItems c s.limit items ctx' s.root with
      | mk next failed =>
        rw [hrun] at h
        obtain rfl : failed = none := h
        obtain ⟨hsound, hbytes, hedit⟩ := applyItems_ok hrun hs.sound
        refine ⟨⟨hsound, ?_⟩, trivial, hedit⟩
        rcases hbytes with rfl | hle
        · exact hs.bytes_le
        · exact Or.inl hle

theorem applyAll_ok {calls : List (Context × GoValue)} (h : (s.applyAll c calls).failed = none) (hs : Bounded c s) :
    Bounded c (s.applyAll c calls) ∧ (s.applyAll c calls).limit = s.limit ∧
      editAll calls s.root.value = some (s.applyAll c calls).root.value := by
  induction calls generalizing s with
  | nil => exact ⟨hs, rfl, rfl⟩
  | cons call calls ih =>
    have hfirst : (s.apply c call.1 call.2).failed = none := by
      cases hfailed : (s.apply c call.1 call.2).failed with
      | none => rfl
      | some e =>
        have hkept := applyAll_failed (c := c) hfailed calls
        rw [State.applyAll, List.foldl_cons] at h
        rw [State.applyAll] at hkept
        rw [hkept, hfailed] at h
        cases h
    obtain ⟨hbounded, hlimit, hedit⟩ := apply_ok hfirst hs
    obtain ⟨hrest, hlimit', hall⟩ := ih h hbounded
    refine ⟨hrest, hlimit'.trans hlimit, ?_⟩
    rw [editAll, List.foldlM_cons, hedit]
    exact hall

end Runs

/-! ## The document -/

/-- The state of a document: what each node keeps is the size of its subtree, and `Value` gives the document. -/
structure Holds (c : Codec) (s : State) (tree : Tree) : Prop where
  value_eq : s.root.value = tree
  counts : ∀ path node, s.root.at? path = some node →
    node.bytes = (c.marshal node.value).length ∧ node.nodes = node.value.count
  depth_le : tree.depth ≤ maxJSONToolDepth
  count_le : (tree.count : ℤ) ≤ maxJSONToolNodes
  fits : (c.marshal tree).length ≤ s.limit ∧ s.value c = .ok tree ∨ tree = .scalar .null ∧ s.limit < 4

theorem holds_of_bounded {s : State} (hs : Bounded c s) (h : s.failed = none) : Holds c s s.root.value := by
  have hcounted := hs.sound.counted
  refine ⟨rfl, fun path node hnode => ?_, hs.sound.depth_le, ?_, ?_⟩
  · have hnode' := counted_at? hnode hcounted
    exact ⟨hnode'.bytes_eq, hnode'.nodes_eq⟩
  · rw [← hcounted.nodes_eq]
    exact hs.sound.nodes_le
  · have heq := hcounted.bytes_eq
    by_cases hle : s.root.bytes ≤ s.limit
    · left
      rw [heq] at hle
      rw [State.value, h]
      exact ⟨hle, if_neg (not_or.mpr ⟨not_not.mpr heq.symm, not_lt.mpr hle⟩)⟩
    · right
      have hroot := hs.bytes_le.resolve_left hle
      rw [hroot] at hle ⊢
      exact ⟨rfl, not_le.mp hle⟩

/-- **Changes in pieces.** As long as no call fails, the document is the one that plain editing gives, counted exactly
and within the limits, and `Value` gives it; only the first null is longer than a limit below four. Once a call fails,
all do. -/
theorem applyAll_holds (c : Codec) (limit : ℤ) (calls : List (Context × GoValue)) :
    (((newJSONState limit).applyAll c calls).failed = none →
      ∃ tree, editAll calls (.scalar .null) = some tree ∧ Holds c ((newJSONState limit).applyAll c calls) tree) ∧
    ∀ e, ((newJSONState limit).applyAll c calls).failed = some e → ∀ later,
      (((newJSONState limit).applyAll c calls).applyAll c later).failed = some e ∧
        (((newJSONState limit).applyAll c calls).applyAll c later).value c = .error e := by
  constructor
  · intro h
    have hstart : Bounded c (newJSONState limit) :=
      ⟨⟨.scalar rfl rfl, show (1 : ℤ) ≤ maxJSONToolNodes by decide, Nat.zero_le _⟩, Or.inr rfl⟩
    obtain ⟨hbounded, -, hedit⟩ := applyAll_ok h hstart
    exact ⟨_, hedit, holds_of_bounded hbounded h⟩
  · intro e he later
    rw [applyAll_failed he, State.value, he]
    exact ⟨rfl, rfl⟩

/-- With no byte to spare even the first null is too long, though nothing has failed. -/
theorem first_null_too_long : ∃ c : Codec, (newJSONState 0).failed = none ∧
    (newJSONState 0).root.value = .scalar .null ∧ (newJSONState 0).limit < (c.marshal (.scalar .null)).length ∧
    (newJSONState 0).value c = .error "JSON state encoded size does not match its bounded representation" :=
  ⟨⟨fun _ => [], fun _ => []⟩, rfl, rfl, by decide, rfl⟩

end Vancine.JsonState
