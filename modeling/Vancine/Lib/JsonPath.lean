import Mathlib.Data.String.Basic
import Std.Data.String.ToNat
import Vancine.Lib.Json

/-!
# Paths and patterns of a JSON value

A path leads to one node. A pattern has wildcards and matches many: `mapMatched` changes exactly the nodes that it
matches. Changing them one after the other comes to the same (`foldl_matched`), as their paths have one length and no
path passes through another node.
-/

namespace Lib.Json

inductive Step
  | key (k : String)
  | index (i : ℕ)
  deriving DecidableEq

def Step.text : Step → String
  | .key k => k
  | .index i => toString i

/-- Change one child. -/
def updChild (f : Json → Json) : Step → Json → Json
  | .key k, .object fields => .object (fields.map fun e => if e.1 = k then (e.1, f e.2) else e)
  | .index i, .array items => .array (items.mapIdx fun j x => if j = i then f x else x)
  | _, v => v

/-- Change the node at the end of a path. -/
def updateAt (f : Json → Json) : List Step → Json → Json
  | [], v => f v
  | s :: path, v => updChild (updateAt f path) s v

def child? : Step → Json → Option Json
  | .key k, .object fields => fields.lookup k
  | .index i, .array items => items[i]?
  | _, _ => none

def getAt : List Step → Json → Option Json
  | [], v => some v
  | s :: path, v => (child? s v).bind (getAt path)

section Update

theorem updChild_comp (f g : Json → Json) (s : Step) (v : Json) :
    updChild f s (updChild g s v) = updChild (fun c => f (g c)) s v := by
  cases s with
  | key k =>
    cases v with
    | object fields =>
      simp only [updChild, List.map_map]
      refine congrArg Json.object (List.map_congr_left fun e _ => ?_)
      by_cases hk : e.1 = k <;> simp [hk]
    | _ => rfl
  | index i =>
    cases v with
    | array items =>
      simp only [updChild, List.mapIdx_mapIdx]
      congr 2
      funext j x
      by_cases hk : j = i <;> simp [hk]
    | _ => rfl

theorem updateAt_comp (f g : Json → Json) (path : List Step) (v : Json) :
    updateAt f path (updateAt g path v) = updateAt (fun c => f (g c)) path v := by
  induction path generalizing v with
  | nil => rfl
  | cons s path ih =>
    rw [updateAt, updateAt, updChild_comp, updateAt]
    congr 1
    funext c
    exact ih c

theorem lookup_cons_if (e : String × Json) (fields : Fields) (k : String) :
    List.lookup k (e :: fields) = if k = e.1 then some e.2 else fields.lookup k := by
  obtain ⟨a, v⟩ := e
  rw [List.lookup_cons]
  by_cases h : k = a
  · simp [h]
  · rw [show (k == a) = false by simpa using h, if_neg h]

theorem child?_updChild (f : Json → Json) (s s' : Step) (v : Json) :
    child? s' (updChild f s v) = if s' = s then (child? s v).map f else child? s' v := by
  cases v with
  | object fields =>
    cases s with
    | index i => cases s' <;> simp [updChild, child?]
    | key k =>
      cases s' with
      | index i => simp [updChild, child?]
      | key k' =>
        simp only [updChild, child?, Step.key.injEq]
        induction fields with
        | nil => simp
        | cons e fields ih =>
          rw [List.map_cons, lookup_cons_if, lookup_cons_if, lookup_cons_if, ih]
          by_cases he : e.1 = k
          · by_cases hk : k' = k <;> simp [he, hk]
          · by_cases hk : k' = k
            · have hke : k ≠ e.1 := fun h => he h.symm
              simp [he, hk, hke]
            · simp [he, hk]
  | array items =>
    cases s with
    | key k => cases s' <;> simp [updChild, child?]
    | index i =>
      cases s' with
      | key k => simp [updChild, child?]
      | index j =>
        simp only [updChild, child?, Step.index.injEq, List.getElem?_mapIdx]
        by_cases hj : j = i
        · subst hj
          simp
        · simp [hj]
  | _ => cases s <;> cases s' <;> simp [updChild, child?]

/-- A change is seen at the end of its path, and at no other path of its length. -/
theorem getAt_updateAt (f : Json → Json) {path path' : List Step} (hlength : path.length = path'.length) (v : Json) :
    getAt path' (updateAt f path v) = if path' = path then (getAt path v).map f else getAt path' v := by
  induction path generalizing path' v with
  | nil =>
    obtain rfl := List.length_eq_zero_iff.mp hlength.symm
    rfl
  | cons s path ih =>
    obtain ⟨s', rest, rfl⟩ := List.exists_cons_of_length_eq_add_one hlength.symm
    have hrest : path.length = rest.length := by simpa using hlength
    rw [updateAt, getAt, child?_updChild]
    by_cases hs : s' = s
    · subst hs
      rw [if_pos rfl, getAt, getAt]
      simp only [List.cons.injEq, true_and]
      cases child? s' v with
      | none => simp
      | some c =>
        simp only [Option.map_some, Option.bind_some]
        exact ih hrest c
    · rw [if_neg hs, if_neg fun h => hs (List.cons.inj h).1, getAt]

end Update

/-! ## Patterns -/

inductive Pattern
  | any
  | name (s : String)

def Pattern.matchesStep : Pattern → Step → Bool
  | .any, _ => true
  | .name s, step => step.text = s

/-- The children that a pattern matches, the keys in order. -/
def Pattern.children (p : Pattern) : Json → List (Step × Json)
  | .object fields =>
    match p with
    | .any => ((fields.map Prod.fst).insertionSort (· ≤ ·)).map fun k => (.key k, (fields.lookup k).getD .null)
    | .name k => (fields.lookup k).toList.map fun c => (.key k, c)
  | .array items =>
    ((List.range items.length).filter fun i : ℕ => p.matchesStep (.index i)).map fun i : ℕ =>
      (.index i, items.getD i .null)
  | _ => []

/-- The nodes that a list of patterns matches, with their paths. -/
def matched : List Pattern → Json → List (List Step × Json)
  | [], v => [([], v)]
  | p :: ps, v => (p.children v).flatMap fun child => (matched ps child.2).map fun m => (child.1 :: m.1, m.2)

/-- Change exactly the nodes that match. -/
def mapMatched (f : Json → Json) : List Pattern → Json → Json
  | [], v => f v
  | p :: ps, .object fields =>
    .object (fields.map fun e => if p.matchesStep (.key e.1) then (e.1, mapMatched f ps e.2) else e)
  | p :: ps, .array items =>
    .array (items.mapIdx fun i x => if p.matchesStep (.index i) then mapMatched f ps x else x)
  | _ :: _, v => v

/-- Something holds of every node that matches. -/
def AllMatched (P : Json → Prop) : List Pattern → Json → Prop
  | [], v => P v
  | p :: ps, .object fields => ∀ e ∈ fields, p.matchesStep (.key e.1) = true → AllMatched P ps e.2
  | p :: ps, .array items =>
    ∀ i x, items[i]? = some x → p.matchesStep (.index i) = true → AllMatched P ps x
  | _ :: _, _ => True

/-- The keys of the objects that the patterns pass through are distinct. -/
def DistinctAlong : List Pattern → Json → Prop
  | [], _ => True
  | p :: ps, .object fields =>
    (fields.map Prod.fst).Nodup ∧ ∀ e ∈ fields, p.matchesStep (.key e.1) = true → DistinctAlong ps e.2
  | p :: ps, .array items => ∀ i x, items[i]? = some x → p.matchesStep (.index i) = true → DistinctAlong ps x
  | _ :: _, _ => True

section Matched

theorem mapMatched_eq_iff (f g : Json → Json) (ps : List Pattern) (v : Json) :
    mapMatched f ps v = mapMatched g ps v ↔ AllMatched (fun n => f n = g n) ps v := by
  induction ps generalizing v with
  | nil => rfl
  | cons p ps ih =>
    cases v with
    | object fields =>
      simp only [mapMatched, AllMatched, Json.object.injEq, List.map_inj_left]
      refine forall₂_congr fun e _ => ?_
      by_cases hp : p.matchesStep (.key e.1) = true
      · simp [hp, ih]
      · simp [hp]
    | array items =>
      simp only [mapMatched, AllMatched, Json.array.injEq]
      constructor
      · intro h i x hx hp
        have hi := congrArg (·[i]?) h
        simp only [List.getElem?_mapIdx, hx, Option.map_some, if_pos hp, Option.some.injEq] at hi
        exact (ih x).mp hi
      · intro h
        refine List.ext_getElem? fun i => ?_
        rw [List.getElem?_mapIdx, List.getElem?_mapIdx]
        cases hx : items[i]? with
        | none => rfl
        | some x =>
          by_cases hp : p.matchesStep (.index i) = true
          · simp [hp, (ih x).mpr (h i x hx hp)]
          · simp [hp]
    | _ => simp [mapMatched, AllMatched]

theorem mapIdx_id (items : List Json) : items.mapIdx (fun _ x => x) = items :=
  List.ext_getElem? fun i => by simp

/-- Changes below one child, one after the other. -/
theorem foldl_updChild {α : Type} (l : List α) (g : α → Json → Json) (s : Step) (v : Json) :
    l.foldl (fun d a => updChild (g a) s d) v = updChild (fun c => l.foldl (fun d a => g a d) c) s v := by
  induction l generalizing v with
  | nil =>
    cases v <;> cases s <;> simp [updChild, mapIdx_id]
  | cons a l ih => rw [List.foldl_cons, ih, updChild_comp]; rfl

theorem foldl_updChild_object (F : String → Json → Json) {ks : List String} (hks : ks.Nodup) (fields : Fields) :
    ks.foldl (fun d k => updChild (F k) (.key k) d) (.object fields) =
      .object (fields.map fun e => if e.1 ∈ ks then (e.1, F e.1 e.2) else e) := by
  induction ks generalizing fields with
  | nil => simp
  | cons k ks ih =>
    obtain ⟨hk, hks⟩ := List.nodup_cons.mp hks
    rw [List.foldl_cons, updChild, ih hks, List.map_map]
    refine congrArg Json.object (List.map_congr_left fun e _ => ?_)
    by_cases he : e.1 = k
    · subst he
      simp [hk]
    · simp [he]

theorem foldl_updChild_array (F : ℕ → Json → Json) {is : List ℕ} (his : is.Nodup) (items : List Json) :
    is.foldl (fun d i => updChild (F i) (.index i) d) (.array items) =
      .array (items.mapIdx fun i x => if i ∈ is then F i x else x) := by
  induction is generalizing items with
  | nil => simp [mapIdx_id]
  | cons i is ih =>
    obtain ⟨hi, his⟩ := List.nodup_cons.mp his
    rw [List.foldl_cons, updChild, ih his, List.mapIdx_mapIdx]
    congr 2
    funext j x
    by_cases hj : j = i
    · subst hj
      simp [hi]
    · simp [hj]

theorem lookup_of_mem {fields : Fields} (hn : (fields.map Prod.fst).Nodup) {e : String × Json} (he : e ∈ fields) :
    fields.lookup e.1 = some e.2 := by
  induction fields with
  | nil => exact absurd he List.not_mem_nil
  | cons f fields ih =>
    obtain ⟨hf, hn⟩ := List.nodup_cons.mp hn
    rw [lookup_cons_if]
    rcases List.mem_cons.mp he with rfl | he
    · rw [if_pos rfl]
    · rw [if_neg fun h => hf (List.mem_map.mpr ⟨e, he, h⟩), ih hn he]

/-- Changing the nodes that match one after the other, each by what it was, changes exactly these. -/
theorem foldl_matched (h : Json → Json → Json) {ps : List Pattern} {v : Json} (hv : DistinctAlong ps v) :
    (matched ps v).foldl (fun d m => updateAt (h m.2) m.1 d) v = mapMatched (fun n => h n n) ps v := by
  induction ps generalizing v with
  | nil => rfl
  | cons p ps ih =>
    have hinner : ∀ d, (matched (p :: ps) v).foldl (fun d m => updateAt (h m.2) m.1 d) d =
        (p.children v).foldl (fun d child => updChild
          (fun c => (matched ps child.2).foldl (fun d m => updateAt (h m.2) m.1 d) c) child.1 d) d := by
      intro d
      rw [matched, List.foldl_flatMap]
      congr 1
      funext d child
      rw [List.foldl_map]
      exact foldl_updChild (matched ps child.2) (fun m => updateAt (h m.2) m.1) child.1 d
    rw [hinner]
    cases v with
    | object fields =>
      obtain ⟨hn, hv⟩ := hv
      cases p with
      | any =>
        have hsorted : ((fields.map Prod.fst).insertionSort (· ≤ ·)).Nodup :=
          (List.perm_insertionSort _ _).nodup_iff.mpr hn
        rw [Pattern.children, List.foldl_map, mapMatched,
          foldl_updChild_object (fun k c => (matched ps ((fields.lookup k).getD .null)).foldl
            (fun d m => updateAt (h m.2) m.1 d) c) hsorted]
        refine congrArg Json.object (List.map_congr_left fun e he => ?_)
        have hmem : e.1 ∈ (fields.map Prod.fst).insertionSort (· ≤ ·) :=
          (List.perm_insertionSort _ _).mem_iff.mpr (List.mem_map_of_mem he)
        have hmatch : Pattern.any.matchesStep (.key e.1) = true := rfl
        rw [if_pos hmem, if_pos hmatch, lookup_of_mem hn he, Option.getD_some, ih (hv e he hmatch)]
      | name k =>
        rw [Pattern.children, mapMatched]
        cases hk : fields.lookup k with
        | none =>
          refine congrArg Json.object ((List.map_id' _).symm.trans (List.map_congr_left fun e he => ?_))
          have hne : ¬Pattern.matchesStep (.name k) (.key e.1) = true := by
            intro hmatch
            have hek : e.1 = k := of_decide_eq_true hmatch
            rw [← hek, lookup_of_mem hn he] at hk
            cases hk
          rw [if_neg hne]
        | some c =>
          refine congrArg Json.object (List.map_congr_left fun e he => ?_)
          by_cases hek : e.1 = k
          · have hc := lookup_of_mem hn he
            rw [hek, hk] at hc
            cases hc
            have hmatch : (Pattern.name k).matchesStep (.key e.1) = true := decide_eq_true hek
            rw [if_pos hek, if_pos hmatch]
            exact congrArg (Prod.mk e.1) (ih (hv e he hmatch))
          · have hmatch : ¬(Pattern.name k).matchesStep (.key e.1) = true := fun h => hek (of_decide_eq_true h)
            rw [if_neg hek, if_neg hmatch]
    | array items =>
      have hn : ((List.range items.length).filter fun i : ℕ => p.matchesStep (.index i)).Nodup :=
        List.nodup_range.filter _
      rw [Pattern.children, List.foldl_map, mapMatched,
        foldl_updChild_array (fun i c => (matched ps (items.getD i .null)).foldl
          (fun d m => updateAt (h m.2) m.1 d) c) hn]
      refine congrArg Json.array (List.ext_getElem? fun i => ?_)
      rw [List.getElem?_mapIdx, List.getElem?_mapIdx]
      cases hx : items[i]? with
      | none => rfl
      | some x =>
        have hlt : i < items.length := (List.getElem?_eq_some_iff.mp hx).1
        by_cases hp : p.matchesStep (.index i) = true
        · have hget : items[i] = x := (List.getElem?_eq_some_iff.mp hx).2
          simp [hlt, hp, hget, ih (hv i x hx hp)]
        · simp [hp]
    | _ => rfl

end Matched

/-! ## The last step -/

/-- Delete one child. -/
def removeStep : Step → Json → Json
  | .key k, .object fields => .object (fields.filter fun e => e.1 ≠ k)
  | .index i, .array items => .array (items.eraseIdx i)
  | _, v => v

/-- Write one child; a key that is not there is added. -/
def setStep (value : Json) : Step → Json → Json
  | .key k, .object fields =>
    if (fields.lookup k).isSome then .object (fields.map fun e => if e.1 = k then (e.1, value) else e)
    else .object (fields ++ [(k, value)])
  | .index i, .array items => .array (items.mapIdx fun j x => if j = i then value else x)
  | _, v => v

/-- A step that fits the value: a key of an object or an index of an array. -/
def Fits : Step → Json → Prop
  | .key _, .object _ => True
  | .index _, .array _ => True
  | _, _ => False

/-- A key of an object or an index that an array has. -/
def Within : Step → Json → Prop
  | .key _, .object _ => True
  | .index i, .array items => i < items.length
  | _, _ => False

/-- Delete exactly the children that match. -/
def removeMatched (p : Pattern) : Json → Json
  | .object fields => .object (fields.filter fun e => !p.matchesStep (.key e.1))
  | .array items => .array ((items.zipIdx.filter fun x => !p.matchesStep (.index x.2)).map Prod.fst)
  | v => v

/-- The nodes that match, deleted. -/
def deleteMatched (ps : List Pattern) (last : Pattern) : Json → Json := mapMatched (removeMatched last) ps

/-- The nodes that match, replaced. -/
def setMatched (value : Json) (ps : List Pattern) (last : Pattern) : Json → Json :=
  mapMatched (mapMatched (fun _ => value) [last]) ps

section Last

/-- Indices deleted in ascending order miss an element, unless there is only one. -/
theorem foldl_eraseIdx_ne_nil {items : List Json} {n : ℕ} (h : 2 ≤ items.length) :
    (List.range n).foldl (fun l i => l.eraseIdx i) items ≠ [] := by
  have hlength : 0 < ((List.range n).foldl (fun l i => l.eraseIdx i) items).length := by
    induction n with
    | zero => exact Nat.lt_of_lt_of_le (by decide) h
    | succ n ih =>
      rw [List.range_succ, List.foldl_append, List.foldl_cons, List.foldl_nil, List.length_eraseIdx]
      rcases Nat.eq_zero_or_pos n with rfl | hn
      · have hlt : 0 < items.length := by omega
        rw [List.range_zero, List.foldl_nil, if_pos hlt]
        omega
      · split <;> omega
  exact List.ne_nil_of_length_pos hlength

theorem foldl_removeStep_keys (ks : List String) (fields : Fields) :
    ks.foldl (fun d k => removeStep (.key k) d) (.object fields) = .object (fields.filter fun e => e.1 ∉ ks) := by
  induction ks generalizing fields with
  | nil => simp
  | cons k ks ih =>
    rw [List.foldl_cons, removeStep, ih, List.filter_filter]
    refine congrArg Json.object (List.filter_congr fun e _ => ?_)
    by_cases hk : e.1 = k <;> simp [hk]

theorem foldl_removeStep_indices (is : List ℕ) (items : List Json) :
    is.foldl (fun d i => removeStep (.index i) d) (.array items) =
      .array (is.foldl (fun l i => l.eraseIdx i) items) := by
  induction is generalizing items with
  | nil => rfl
  | cons i is ih => rw [List.foldl_cons, removeStep, ih]; rfl

theorem matchesStep_index {s : String} {i : ℕ} (h : s = toString i) (j : ℕ) :
    (Pattern.name s).matchesStep (.index j) = (j == i) := by
  have hinj : toString j = toString i ↔ j = i := Nat.repr_inj
  show decide (toString j = s) = (j == i)
  rw [h, decide_eq_decide.mpr hinj]
  rfl

theorem filter_index {s : String} {i : ℕ} (h : s = toString i) (n : ℕ) :
    ((List.range n).filter fun j : ℕ => (Pattern.name s).matchesStep (.index j)) = if i < n then [i] else [] := by
  have hiff := matchesStep_index h
  induction n with
  | zero => simp
  | succ n ih =>
    rw [List.range_succ, List.filter_append, ih]
    rcases Nat.lt_trichotomy i n with hlt | rfl | hgt
    · simp [hiff, hlt, Nat.lt_succ_of_lt hlt, Nat.ne_of_gt hlt]
    · simp [hiff]
    · simp [hiff, show ¬i < n by omega, show ¬i < n + 1 by omega, Nat.ne_of_lt hgt]

theorem map_filter_zipIdx (items : List Json) (i n : ℕ) :
    ((items.zipIdx n).filter fun x => !(x.2 == n + i)).map Prod.fst = items.eraseIdx i := by
  induction items generalizing i n with
  | nil => simp
  | cons x items ih =>
    rw [List.zipIdx_cons]
    cases i with
    | zero =>
      have hkeep : (items.zipIdx (n + 1)).filter (fun x => !(x.2 == n + 0)) = items.zipIdx (n + 1) := by
        refine List.filter_eq_self.mpr fun y hy => ?_
        have := (List.mem_zipIdx hy).1
        simp
        omega
      rw [List.filter_cons_of_neg (by simp), hkeep, List.zipIdx_map_fst]
      rfl
    | succ i =>
      rw [List.filter_cons_of_pos (by simp), List.map_cons, List.eraseIdx_cons_succ, ← ih i (n + 1)]
      simp only [Nat.add_assoc, Nat.add_comm 1 i]

/-- The steps that delete and set take below one parent: what matches, and the name even where it is no key. -/
def Pattern.lastSteps (p : Pattern) (v : Json) : List Step :=
  match p, v with
  | .name k, .object _ => [.key k]
  | _, _ => (p.children v).map Prod.fst

theorem lastSteps_any_object (fields : Fields) :
    Pattern.any.lastSteps (.object fields) = ((fields.map Prod.fst).insertionSort (· ≤ ·)).map Step.key := by
  show (Pattern.any.children (.object fields)).map Prod.fst = _
  rw [Pattern.children, List.map_map]
  rfl

theorem lastSteps_array (p : Pattern) (items : List Json) : p.lastSteps (.array items) =
      ((List.range items.length).filter fun i : ℕ => p.matchesStep (.index i)).map Step.index := by
  have h : p.lastSteps (.array items) = (p.children (.array items)).map Prod.fst := by cases p <;> rfl
  rw [h, Pattern.children, List.map_map]
  rfl

theorem filter_any (n : ℕ) : ((List.range n).filter fun i : ℕ => Pattern.any.matchesStep (.index i)) = List.range n :=
  List.filter_eq_self.mpr fun _ _ => rfl

theorem within_lastSteps {p : Pattern} {v : Json} {s : Step} (hs : s ∈ p.lastSteps v) : Within s v := by
  cases v with
  | object fields =>
    cases p with
    | any =>
      rw [lastSteps_any_object] at hs
      obtain ⟨k, -, rfl⟩ := List.mem_map.mp hs
      trivial
    | name k =>
      rw [Pattern.lastSteps, List.mem_singleton] at hs
      rw [hs]
      trivial
  | array items =>
    rw [lastSteps_array] at hs
    obtain ⟨i, hi, rfl⟩ := List.mem_map.mp hs
    exact List.mem_range.mp (List.mem_filter.mp hi).1
  | _ => cases p <;> exact absurd hs List.not_mem_nil

theorem Within.fits {s : Step} {v : Json} (h : Within s v) : Fits s v := by
  cases s <;> cases v <;> trivial

/-- Deleting what matches below one parent, one after the other, misses something exactly when it is a wildcard over
an array of several elements. -/
theorem foldl_removeStep_iff (p : Pattern) (v : Json) :
    (p.lastSteps v).foldl (fun d s => removeStep s d) v = removeMatched p v ↔
      (p = .any → ∀ items, v = .array items → items.length ≤ 1) := by
  cases v with
  | object fields =>
    refine iff_of_true ?_ fun _ items h => by cases h
    cases p with
    | any =>
      rw [lastSteps_any_object, List.foldl_map, foldl_removeStep_keys, removeMatched]
      refine congrArg Json.object (List.filter_congr fun e he => ?_)
      have hmem : e.1 ∈ (fields.map Prod.fst).insertionSort (· ≤ ·) :=
        (List.perm_insertionSort _ _).mem_iff.mpr (List.mem_map_of_mem he)
      simp [hmem, Pattern.matchesStep]
    | name k =>
      rw [Pattern.lastSteps, List.foldl_cons, List.foldl_nil, removeStep, removeMatched]
      refine congrArg Json.object (List.filter_congr fun e _ => ?_)
      show decide (e.1 ≠ k) = !decide (e.1 = k)
      simp
  | array items =>
    rw [lastSteps_array, List.foldl_map, foldl_removeStep_indices, removeMatched]
    simp only [Json.array.injEq]
    cases p with
    | any =>
      have hnone : (items.zipIdx.filter fun x => !Pattern.any.matchesStep (.index x.2)) = [] :=
        List.filter_eq_nil_iff.mpr fun _ _ => by simp [Pattern.matchesStep]
      rw [filter_any, hnone, List.map_nil]
      constructor
      · rintro h - items' rfl
        by_contra hlong
        exact foldl_eraseIdx_ne_nil (by omega) h
      · intro h
        have hshort := h rfl items rfl
        match items, hshort with
        | [], _ => rfl
        | [x], _ => rfl
    | name s =>
      refine iff_of_true ?_ fun h => by cases h
      by_cases hs : ∃ i : ℕ, s = toString i
      · obtain ⟨i, hi⟩ := hs
        have hrest := map_filter_zipIdx items i 0
        rw [filter_index hi]
        simp only [matchesStep_index hi]
        simp only [Nat.zero_add] at hrest
        rw [hrest]
        split
        · rfl
        · next hge =>
          show items = items.eraseIdx i
          exact (List.eraseIdx_of_length_le (by omega)).symm
      · have hno : ∀ j : ℕ, (Pattern.name s).matchesStep (.index j) = false := fun j =>
          decide_eq_false fun h => hs ⟨j, h.symm⟩
        simp [hno]
  | _ => exact iff_of_true (by cases p <;> rfl) fun _ items h => by cases h

theorem isSome_lookup {fields : Fields} {k : String} : (fields.lookup k).isSome = true ↔ k ∈ fields.map Prod.fst := by
  induction fields with
  | nil => simp
  | cons e fields ih =>
    rw [lookup_cons_if, List.map_cons, List.mem_cons, ← ih]
    by_cases hk : k = e.1 <;> simp [hk]

theorem foldl_setStep_keys (value : Json) {ks : List String} {fields : Fields}
    (hks : ∀ k ∈ ks, k ∈ fields.map Prod.fst) : ks.foldl (fun d k => setStep value (.key k) d) (.object fields) =
      .object (fields.map fun e => if e.1 ∈ ks then (e.1, value) else e) := by
  induction ks generalizing fields with
  | nil => simp
  | cons k ks ih =>
    obtain ⟨hk, hks⟩ := List.forall_mem_cons.mp hks
    have hkeys : (fields.map fun e => if e.1 = k then (e.1, value) else e).map Prod.fst = fields.map Prod.fst := by
      rw [List.map_map]
      refine List.map_congr_left fun e _ => ?_
      by_cases he : e.1 = k <;> simp [he]
    rw [List.foldl_cons, setStep, if_pos (isSome_lookup.mpr hk), ih (hkeys ▸ hks), List.map_map]
    refine congrArg Json.object (List.map_congr_left fun e _ => ?_)
    by_cases he : e.1 = k <;> simp [he]

/-- Writing what matches below one parent, one after the other, writes something else exactly when it is a name that
the object does not have. -/
theorem foldl_setStep_iff (value : Json) (p : Pattern) (v : Json) :
    (p.lastSteps v).foldl (fun d s => setStep value s d) v = mapMatched (fun _ => value) [p] v ↔
      ∀ k fields, p = .name k → v = .object fields → k ∈ fields.map Prod.fst := by
  cases v with
  | object fields =>
    cases p with
    | any =>
      refine iff_of_true ?_ fun k fields h => by cases h
      rw [lastSteps_any_object, List.foldl_map,
        foldl_setStep_keys value fun k hk => (List.perm_insertionSort _ _).mem_iff.mp hk]
      refine congrArg Json.object (List.map_congr_left fun e he => ?_)
      have hmem : e.1 ∈ (fields.map Prod.fst).insertionSort (· ≤ ·) :=
        (List.perm_insertionSort _ _).mem_iff.mpr (List.mem_map_of_mem he)
      rw [if_pos hmem]
      rfl
    | name k =>
      rw [Pattern.lastSteps, List.foldl_cons, List.foldl_nil, setStep]
      by_cases hk : k ∈ fields.map Prod.fst
      · refine iff_of_true ?_ fun k' fields' hk' hfields => ?_
        · rw [if_pos (isSome_lookup.mpr hk)]
          refine congrArg Json.object (List.map_congr_left fun e _ => ?_)
          show _ = if decide (e.1 = k) = true then (e.1, value) else e
          by_cases he : e.1 = k <;> simp [he]
        · cases hk'
          cases hfields
          exact hk
      · refine iff_of_false ?_ fun h => hk (h k fields rfl rfl)
        rw [if_neg fun h => hk (isSome_lookup.mp h)]
        intro heq
        have hlength := congrArg List.length (Json.object.inj heq)
        rw [List.length_append, List.length_map] at hlength
        exact absurd hlength (by simp)
  | array items =>
    refine iff_of_true ?_ fun k fields _ h => by cases h
    have hn : ((List.range items.length).filter fun i : ℕ => p.matchesStep (.index i)).Nodup :=
      List.nodup_range.filter _
    have hfold := foldl_updChild_array (fun _ _ => value) hn items
    rw [lastSteps_array, List.foldl_map]
    have hset : (fun (d : Json) (i : ℕ) => setStep value (.index i) d) =
        fun d i => updChild (fun _ => value) (.index i) d := by
      funext d i
      cases d <;> rfl
    rw [hset, hfold, mapMatched]
    refine congrArg Json.array (List.ext_getElem? fun i => ?_)
    rw [List.getElem?_mapIdx, List.getElem?_mapIdx]
    cases hx : items[i]? with
    | none => rfl
    | some x =>
      have hlt : i < items.length := (List.getElem?_eq_some_iff.mp hx).1
      by_cases hp : p.matchesStep (.index i) = true <;> simp [hlt, hp, mapMatched]
  | _ => exact iff_of_true (by cases p <;> rfl) fun k fields _ h => by cases h

end Last

/-! ## One path after the other -/

/-- The paths below the parents that match: each with its last step. -/
def lastPaths (ps : List Pattern) (last : Pattern) (v : Json) : List (List Step × Step) :=
  (matched ps v).flatMap fun m => (last.lastSteps m.2).map fun s => (m.1, s)

section Paths

theorem foldl_updateAt {α : Type} (l : List α) (g : α → Json → Json) (path : List Step) (v : Json) :
    l.foldl (fun d a => updateAt (g a) path d) v = updateAt (fun c => l.foldl (fun d a => g a d) c) path v := by
  induction l generalizing v with
  | nil =>
    induction path generalizing v with
    | nil => rfl
    | cons s path ih =>
      have hid : updateAt (fun c => c) path = fun c => c := funext fun c => (ih c).symm
      show v = updChild (updateAt (fun c => c) path) s v
      rw [hid]
      exact foldl_updChild ([] : List Unit) (fun _ c => c) s v
  | cons a l ih => rw [List.foldl_cons, ih, updateAt_comp]; rfl

variable {v : Json}

/-- Operations below the parents, one path after the other, are all of a parent's at once. -/
theorem foldl_lastPaths (op : Step → Json → Json) {ps : List Pattern} (last : Pattern) (hv : DistinctAlong ps v) :
    (lastPaths ps last v).foldl (fun d q => updateAt (op q.2) q.1 d) v =
      mapMatched (fun n => (last.lastSteps n).foldl (fun d s => op s d) n) ps v := by
  rw [← foldl_matched (fun parent n => (last.lastSteps parent).foldl (fun d s => op s d) n) hv, lastPaths,
    List.foldl_flatMap]
  congr 1
  funext d m
  rw [List.foldl_map]
  exact foldl_updateAt (last.lastSteps m.2) op m.1 d

theorem lastPaths_cons (p : Pattern) (ps : List Pattern) (last : Pattern) (v : Json) : lastPaths (p :: ps) last v =
      (p.children v).flatMap fun child => (lastPaths ps last child.2).map fun q => (child.1 :: q.1, q.2) := by
  simp only [lastPaths, matched, List.flatMap_assoc, List.flatMap_map, List.map_flatMap, List.map_map]
  rfl

theorem matched_spec {ps : List Pattern} (hv : DistinctAlong ps v) {m : List Step × Json} (hm : m ∈ matched ps v) :
    m.1.length = ps.length ∧ getAt m.1 v = some m.2 := by
  induction ps generalizing v m with
  | nil =>
    obtain rfl := List.mem_singleton.mp hm
    exact ⟨rfl, rfl⟩
  | cons p ps ih =>
    obtain ⟨child, hchild, hm⟩ := List.mem_flatMap.mp hm
    obtain ⟨m', hm', rfl⟩ := List.mem_map.mp hm
    have hfind : child? child.1 v = some child.2 ∧ DistinctAlong ps child.2 := by
      cases v with
      | object fields =>
        obtain ⟨hn, hv⟩ := hv
        cases p with
        | any =>
          obtain ⟨k, hk, rfl⟩ := List.mem_map.mp hchild
          obtain ⟨e, he, rfl⟩ := List.mem_map.mp ((List.perm_insertionSort _ _).mem_iff.mp hk)
          have hlookup := lookup_of_mem hn he
          simp only [child?, hlookup, Option.getD_some]
          exact ⟨trivial, hv e he rfl⟩
        | name k =>
          cases hlookup : fields.lookup k with
          | none => rw [Pattern.children, hlookup] at hchild; exact absurd hchild List.not_mem_nil
          | some c =>
            rw [Pattern.children, hlookup] at hchild
            obtain rfl := List.mem_singleton.mp hchild
            obtain ⟨e, he, hek⟩ := List.mem_map.mp (isSome_lookup.mp (Option.isSome_of_eq_some hlookup))
            have hc := lookup_of_mem hn he
            rw [hek, hlookup] at hc
            cases hc
            exact ⟨hlookup, hv e he (decide_eq_true hek)⟩
      | array items =>
        obtain ⟨i, hi, rfl⟩ := List.mem_map.mp hchild
        obtain ⟨hlt, hp⟩ := List.mem_filter.mp hi
        have hget : items[i]? = some (items.getD i .null) := by
          rw [List.getD_eq_getElem?_getD, List.getElem?_eq_getElem (List.mem_range.mp hlt)]
          rfl
        exact ⟨hget, hv i _ hget hp⟩
      | _ => exact absurd hchild List.not_mem_nil
    obtain ⟨hlength, hget⟩ := ih hfind.2 hm'
    exact ⟨by rw [List.length_cons, hlength, List.length_cons], by rw [getAt, hfind.1]; exact hget⟩

/-- Operations that keep what a step needs keep all other paths in place. -/
theorem getAt_keeps {F : Step → Json → Prop} {op : Step → Json → Json} (hop : ∀ s t v, F t v → F t (op s v))
    {q r : List Step × Step} (hlength : q.1.length = r.1.length) (h : ∃ n, getAt r.1 v = some n ∧ F r.2 n) :
    ∃ n, getAt r.1 (updateAt (op q.2) q.1 v) = some n ∧ F r.2 n := by
  obtain ⟨n, hn, hfits⟩ := h
  rw [getAt_updateAt _ hlength]
  by_cases hsame : r.1 = q.1
  · rw [if_pos hsame, ← hsame, hn]
    exact ⟨_, rfl, hop _ _ _ hfits⟩
  · rw [if_neg hsame]
    exact ⟨n, hn, hfits⟩

theorem fits_removeStep (s t : Step) (v : Json) (h : Fits t v) : Fits t (removeStep s v) := by
  cases t <;> cases v <;> cases s <;> exact h

theorem within_setStep (value : Json) (s t : Step) (v : Json) (h : Within t v) : Within t (setStep value s v) := by
  cases v with
  | object fields =>
    cases s with
    | index i => exact h
    | key k =>
      cases t with
      | index i => exact absurd h id
      | key k' =>
        rw [setStep]
        split <;> trivial
  | array items =>
    cases s with
    | key k => exact h
    | index i =>
      cases t with
      | key k => exact absurd h id
      | index j =>
        rw [setStep]
        show j < (items.mapIdx _).length
        rw [List.length_mapIdx]
        exact h
  | _ => cases t <;> exact absurd h id

end Paths

end Lib.Json
