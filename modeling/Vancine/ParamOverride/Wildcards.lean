import Vancine.Lib.JsonPath
import Vancine.ParamOverride.Operations

/-!
# Wildcard operations

A path with wildcards is expanded to the paths that it matches, and the operation is applied to one after the other.
That deletes or sets exactly the nodes that match as long as no deletion renumbers a match, no name is missing, and the
keys of the document are not read as paths.
-/

namespace Vancine.ParamOverride

open Lib Lib.Json

/-! ## Plain paths -/

/-- The characters that mean something in a path. -/
def isPathCharacter (c : Char) : Bool := c ∈ ['.', '\\', '*', '?', '|', '#', '@', '!', '{', '[', '(', ':']

/-- A key that a path can name as it is. -/
def PlainKey (k : String) : Prop := trimSpace k ≠ "" ∧ ∀ c ∈ k.toList, isPathCharacter c = false

/-- A wildcard, or a plain name without blanks at its ends; a number is written as an index is. -/
def PlainSegment (s : String) : Prop :=
  s = "*" ∨ trimSpace s = s ∧ PlainKey s ∧ ∀ i : ℕ, atoi s = some (i : ℤ) → s = toString i

def pattern (s : String) : Pattern := if s = "*" then .any else .name s

/-- The keys that the patterns match are plain. -/
def PlainAlong : List Pattern → Json → Prop
  | [], _ => True
  | p :: ps, .object fields =>
    ∀ e ∈ fields, p.matchesStep (.key e.1) = true → PlainKey e.1 ∧ PlainAlong ps e.2
  | p :: ps, .array items => ∀ i x, items[i]? = some x → p.matchesStep (.index i) = true → PlainAlong ps x
  | _ :: _, _ => True

/-- What the documentation of `sjson` says of a path of plain names that leads to the parent of what is deleted or
written. -/
structure PathGrammar (lib : Library) : Prop where
  delete : ∀ data path s node, (∀ t ∈ path ++ [s], PlainKey (Step.text t)) → getAt path data = some node →
    Fits s node → lib.delete data (joinPath ((path ++ [s]).map Step.text)) = .ok (updateAt (removeStep s) path data)
  set : ∀ data path s node value, (∀ t ∈ path ++ [s], PlainKey (Step.text t)) → getAt path data = some node →
    Within s node →
      lib.set data (joinPath ((path ++ [s]).map Step.text)) value = .ok (updateAt (setStep value s) path data)

/-! ## Expansion -/

section Expansion

theorem atoi_toString (i : ℕ) : atoi (toString i) = some (i : ℤ) := by
  have hlist : (toString i).toList = Nat.toDigits 10 i := Nat.toList_repr
  have hdigit : ∀ c ∈ Nat.toDigits 10 i, c.isDigit = true := fun c hc =>
    Nat.isDigit_of_mem_toDigits (by decide) (by decide) hc
  have hdigits : digits? (Nat.toDigits 10 i) = some i := by
    have hne : Nat.toDigits 10 i ≠ [] := by
      have := @Nat.length_toDigits_pos 10 i
      exact List.ne_nil_of_length_pos this
    rw [digits?, if_pos ⟨hne, List.all_eq_true.mpr hdigit⟩]
    have h := @Nat.ofDigitChars_toDigits 10 i (by decide) (by decide)
    rw [Nat.ofDigitChars_eq_foldl] at h
    exact congrArg some h
  unfold atoi
  rw [hlist]
  split
  · next rest h =>
    have := hdigit '-' (h ▸ List.mem_cons_self)
    exact absurd this (by decide)
  · next rest h =>
    have := hdigit '+' (h ▸ List.mem_cons_self)
    exact absurd this (by decide)
  · rw [hdigits]
    rfl

theorem digit_toNat {c : Char} (h : c.isDigit = true) : 48 ≤ c.toNat ∧ c.toNat ≤ 57 := by
  simp only [Char.isDigit, Bool.and_eq_true, decide_eq_true_eq, ge_iff_le, UInt32.le_iff_toNat_le] at h
  exact h

theorem plainKey_toString (i : ℕ) : PlainKey (toString i) := by
  have hlist : (toString i).toList = Nat.toDigits 10 i := Nat.toList_repr
  have hdigit : ∀ c ∈ (toString i).toList, 48 ≤ c.toNat ∧ c.toNat ≤ 57 := fun c hc =>
    digit_toNat (Nat.isDigit_of_mem_toDigits (by decide) (by decide) (hlist ▸ hc))
  refine ⟨?_, fun c hc => ?_⟩
  · rw [trimSpace_of_no_space fun c hc => ?_]
    · intro hnil
      rw [hnil] at hlist
      exact Nat.toDigits_ne_nil hlist.symm
    · by_contra hspace
      have := isSpace_toNat (by simpa using hspace : isSpace c = true)
      have := hdigit c hc
      omega
  · by_contra hspecial
    have hmem : isPathCharacter c = true := by simpa using hspecial
    have := hdigit c hc
    simp only [isPathCharacter, List.mem_cons, List.not_mem_nil, or_false, decide_eq_true_eq] at hmem
    rcases hmem with rfl | rfl | rfl | rfl | rfl | rfl | rfl | rfl | rfl | rfl | rfl | rfl <;>
      exact absurd this (by decide)

theorem trimSpace_star : trimSpace "*" = "*" := trimSpace_of_all (by decide)

variable {s : String} {ps : List Pattern}

theorem pattern_of_ne (h : s ≠ "*") : pattern s = .name s := if_neg h

theorem plainKey_of_pattern {s k : String} (h : PlainSegment s) (hk : pattern s = .name k) : PlainKey k := by
  unfold pattern at hk
  split at hk
  · cases hk
  · next hs =>
    cases hk
    exact (h.resolve_left hs).2.1

/-- The names of a plain path on an array are its indices as `Atoi` reads them. -/
theorem atoi_iff (h : PlainSegment s) (hs : s ≠ "*") (i : ℕ) : atoi s = some (i : ℤ) ↔ s = toString i :=
  ⟨(h.resolve_left hs).2.2 i, fun hi => hi ▸ atoi_toString i⟩

theorem PlainSegment.trimSpace_eq (h : PlainSegment s) : trimSpace s = s := by
  rcases h with rfl | h
  · exact trimSpace_star
  · exact h.1

theorem PlainSegment.ne_empty (h : PlainSegment s) : s ≠ "" := by
  rcases h with rfl | h
  · decide
  · intro hs
    rw [hs] at h
    exact h.2.1.1 trimSpace_empty

/-- The indices that a name matches, as the code looks for them. -/
theorem filter_atoi (h : PlainSegment s) (hs : s ≠ "*") (n : ℕ) :
    ((List.range n).filter fun i : ℕ => (Pattern.name s).matchesStep (.index i)) =
      match atoi s with
      | none => []
      | some index => if index < 0 ∨ (n : ℤ) ≤ index then [] else [index.toNat] := by
  have hiff : ∀ i : ℕ, (Pattern.name s).matchesStep (.index i) = true ↔ atoi s = some (i : ℤ) := fun i =>
    decide_eq_true_iff.trans (eq_comm.trans (atoi_iff h hs i).symm)
  cases hatoi : atoi s with
  | none =>
    refine List.filter_eq_nil_iff.mpr fun i _ hi => ?_
    rw [(hiff i).mp hi] at hatoi
    cases hatoi
  | some index =>
    show _ = if index < 0 ∨ (n : ℤ) ≤ index then [] else [index.toNat]
    split
    · next hrange =>
      refine List.filter_eq_nil_iff.mpr fun i hi hmatch => ?_
      rw [(hiff i).mp hmatch] at hatoi
      cases hatoi
      have := List.mem_range.mp hi
      omega
    · next hrange =>
      obtain ⟨i, rfl⟩ : ∃ i : ℕ, index = i := ⟨index.toNat, by omega⟩
      rw [filter_index ((atoi_iff h hs i).mp hatoi), if_pos (by omega), Int.toNat_natCast]

/-- The last segment is expanded to the last steps below the parent. -/
theorem collect_last (hs : PlainSegment s) (v : Json) (path : List String) : collectWildcardPaths [s] v path =
      ((pattern s).lastSteps v).map fun step => joinPath (path ++ [step.text]) := by
  unfold collectWildcardPaths
  simp only [hs.trimSpace_eq, if_neg hs.ne_empty]
  by_cases hstar : s = "*"
  · subst hstar
    rw [if_pos rfl]
    show _ = (Pattern.any.lastSteps v).map _
    cases v with
    | object fields =>
      rw [lastSteps_any_object, List.map_map, List.map_eq_flatMap]
      rfl
    | array items =>
      rw [lastSteps_array, filter_any, List.map_map, List.map_eq_flatMap]
      rfl
    | _ => rfl
  · rw [if_neg hstar, pattern_of_ne hstar]
    cases v with
    | object fields => rfl
    | array items =>
      rw [lastSteps_array, filter_atoi hs hstar]
      cases hatoi : atoi s with
      | none => rfl
      | some index =>
        dsimp only
        split
        · rfl
        · next hrange =>
          obtain ⟨i, rfl⟩ : ∃ i : ℕ, index = i := ⟨index.toNat, by omega⟩
          rw [if_pos trivial, (atoi_iff hs hstar i).mp hatoi]
          rfl
    | _ => rfl

/-- A segment before the last is expanded to the children that it matches. -/
theorem collect_cons (hs : PlainSegment s) {rest : List String} (hrest : rest ≠ []) (v : Json) (path : List String) :
    collectWildcardPaths (s :: rest) v path = ((pattern s).children v).flatMap fun child =>
        collectWildcardPaths rest child.2 (path ++ [child.1.text]) := by
  rw [collectWildcardPaths.eq_def]
  simp only [hs.trimSpace_eq, if_neg hs.ne_empty]
  by_cases hstar : s = "*"
  · subst hstar
    rw [if_pos rfl]
    show _ = (Pattern.any.children v).flatMap _
    cases v with
    | object fields =>
      rw [Pattern.children, List.flatMap_map]
      rfl
    | array items =>
      rw [Pattern.children, filter_any, List.flatMap_map]
      rfl
    | _ => rfl
  · rw [if_neg hstar, pattern_of_ne hstar]
    cases v with
    | object fields =>
      dsimp only
      rw [if_neg hrest, Pattern.children]
      cases fields.lookup s with
      | none => rfl
      | some c => simp [Step.text]
    | array items =>
      rw [Pattern.children, filter_atoi hs hstar, List.flatMap_map]
      cases hatoi : atoi s with
      | none => rfl
      | some index =>
        dsimp only
        split
        · rfl
        · next hrange =>
          obtain ⟨i, rfl⟩ : ∃ i : ℕ, index = i := ⟨index.toNat, by omega⟩
          rw [(atoi_iff hs hstar i).mp hatoi, List.flatMap_singleton, Int.toNat_natCast]
          rfl
    | _ => rfl

theorem collect_eq {segments : List String} {last : String} (hplain : ∀ s ∈ segments ++ [last], PlainSegment s)
    (v : Json) (path : List String) : collectWildcardPaths (segments ++ [last]) v path =
      (lastPaths (segments.map pattern) (pattern last) v).map fun q =>
        joinPath (path ++ (q.1 ++ [q.2]).map Step.text) := by
  induction segments generalizing v path with
  | nil =>
    rw [List.nil_append, collect_last (hplain last List.mem_cons_self)]
    simp [lastPaths, matched, List.map_map, Function.comp_def]
  | cons s segments ih =>
    obtain ⟨hs, hplain⟩ := List.forall_mem_cons.mp hplain
    rw [List.cons_append, collect_cons hs (by simp)]
    simp only [ih hplain, lastPaths, List.map_cons, matched, List.flatMap_assoc, List.map_flatMap, List.map_map,
      List.flatMap_map]
    refine List.flatMap_congr fun child _ => List.flatMap_congr fun m _ => List.map_congr_left fun step _ => ?_
    simp [List.append_assoc]

variable {texts : List String} {v : Json} {child : Step × Json}

theorem splitAt_joinPath (hne : texts ≠ []) (hplain : ∀ k ∈ texts, PlainKey k) :
    splitAt '.' (joinPath texts) = texts := by
  have hdot : ∀ l ∈ texts.map String.toList, '.' ∉ l := by
    intro l hl hmem
    obtain ⟨k, hk, rfl⟩ := List.mem_map.mp hl
    exact absurd ((hplain k hk).2 '.' hmem) (by decide)
  have hlist : (joinPath texts).toList = ['.'].intercalate (texts.map String.toList) := String.toList_intercalate
  have hsplit := List.splitOn_intercalate '.' hdot (mt List.map_eq_nil_iff.mp hne)
  rw [splitAt, hlist, hsplit, List.map_map]
  exact (List.map_congr_left fun k _ => String.ofList_toList).trans (List.map_id texts)

theorem joinPath_ne_blank (hne : texts ≠ []) (hplain : ∀ k ∈ texts, PlainKey k) : trimSpace (joinPath texts) ≠ "" := by
  intro hblank
  obtain ⟨k, rest, rfl⟩ := List.exists_cons_of_ne_nil hne
  have hspace : ∀ c ∈ k.toList, isSpace c = true := by
    intro c hc
    refine isSpace_of_trimSpace_eq_empty hblank ?_
    rw [joinPath, String.toList_intercalate, List.intercalate, List.map_cons]
    refine List.mem_flatten.mpr ⟨k.toList, ?_, hc⟩
    cases rest <;> exact List.mem_cons_self
  refine (hplain k List.mem_cons_self).1 ?_
  have hfront : k.toList.dropWhile isSpace = [] := List.dropWhile_eq_nil_iff.mpr hspace
  rw [trimSpace, hfront]
  rfl

theorem plainKey_children {p : Pattern} (hname : ∀ k, p = .name k → PlainKey k) (hv : PlainAlong (p :: ps) v)
    (hchild : child ∈ p.children v) : PlainKey child.1.text := by
  cases v with
  | object fields =>
    cases p with
    | any =>
      obtain ⟨k, hk, rfl⟩ := List.mem_map.mp hchild
      obtain ⟨e, he, rfl⟩ := List.mem_map.mp ((List.perm_insertionSort _ _).mem_iff.mp hk)
      exact (hv e he rfl).1
    | name k =>
      obtain ⟨c, -, rfl⟩ := List.mem_map.mp hchild
      exact hname k rfl
  | array items =>
    obtain ⟨i, -, rfl⟩ := List.mem_map.mp hchild
    exact plainKey_toString i
  | _ => exact absurd hchild List.not_mem_nil

theorem plainAlong_children {p : Pattern} (hv : PlainAlong (p :: ps) v) (hchild : child ∈ p.children v)
    (hd : DistinctAlong (p :: ps) v) : PlainAlong ps child.2 ∧ DistinctAlong ps child.2 := by
  cases v with
  | object fields =>
    have hkey : ∀ k c, fields.lookup k = some c → p.matchesStep (.key k) = true →
        PlainAlong ps c ∧ DistinctAlong ps c := by
      intro k c hk hmatch
      obtain ⟨e, he, rfl⟩ := List.mem_map.mp (isSome_lookup.mp (Option.isSome_of_eq_some hk))
      rw [lookup_of_mem hd.1 he] at hk
      cases hk
      exact ⟨(hv e he hmatch).2, hd.2 e he hmatch⟩
    cases p with
    | any =>
      obtain ⟨k, hk, rfl⟩ := List.mem_map.mp hchild
      have hsome := isSome_lookup.mpr ((List.perm_insertionSort _ _).mem_iff.mp hk)
      obtain ⟨c, hc⟩ := Option.isSome_iff_exists.mp hsome
      rw [hc]
      exact hkey k c hc rfl
    | name k =>
      obtain ⟨c, hc, rfl⟩ := List.mem_map.mp hchild
      exact hkey k c (Option.mem_toList.mp hc) (decide_eq_true rfl)
  | array items =>
    obtain ⟨i, hi, rfl⟩ := List.mem_map.mp hchild
    obtain ⟨hlt, hp⟩ := List.mem_filter.mp hi
    have hget : items[i]? = some (items.getD i .null) := by
      rw [List.getD_eq_getElem?_getD, List.getElem?_eq_getElem (List.mem_range.mp hlt)]
      rfl
    exact ⟨hv i _ hget hp, hd i _ hget hp⟩
  | _ => exact absurd hchild List.not_mem_nil

theorem lastPaths_plain {last : Pattern} (hnames : ∀ k, .name k ∈ ps ++ [last] → PlainKey k)
    (hv : PlainAlong (ps ++ [last]) v) (hd : DistinctAlong (ps ++ [last]) v) {q : List Step × Step}
    (hq : q ∈ lastPaths ps last v) : ∀ t ∈ q.1 ++ [q.2], PlainKey t.text := by
  induction ps generalizing v q with
  | nil =>
    obtain ⟨step, hstep, rfl⟩ : ∃ step, step ∈ last.lastSteps v ∧ ([], step) = q := by
      simpa [lastPaths, matched] using hq
    refine List.forall_mem_singleton.mpr ?_
    have hchildren : ∀ step ∈ (last.children v).map Prod.fst, PlainKey step.text := by
      intro step hstep
      obtain ⟨child, hchild, rfl⟩ := List.mem_map.mp hstep
      exact plainKey_children (fun k hk => hnames k (hk ▸ List.mem_singleton_self _)) hv hchild
    cases last with
    | any => exact hchildren step hstep
    | name k =>
      cases v with
      | object fields =>
        rw [Pattern.lastSteps, List.mem_singleton] at hstep
        rw [hstep]
        exact hnames k (List.mem_singleton_self _)
      | _ => exact hchildren step hstep
  | cons p ps ih =>
    rw [lastPaths_cons] at hq
    obtain ⟨child, hchild, hq⟩ := List.mem_flatMap.mp hq
    obtain ⟨below, hbelow, rfl⟩ := List.mem_map.mp hq
    obtain ⟨hplain, hdistinct⟩ := plainAlong_children hv hchild hd
    have hrest := ih (fun k hk => hnames k (List.mem_cons_of_mem _ hk)) hplain hdistinct hbelow
    refine List.forall_mem_cons.mpr ⟨?_, hrest⟩
    exact plainKey_children (fun k hk => hnames k (hk ▸ List.mem_cons_self)) hv hchild

theorem nodup_children (p : Pattern) (ps : List Pattern) (hd : DistinctAlong (p :: ps) v) :
    ((p.children v).map fun child => child.1.text).Nodup := by
  cases v with
  | object fields =>
    cases p with
    | any =>
      rw [Pattern.children, List.map_map]
      exact (List.map_id _).symm ▸ (List.perm_insertionSort _ _).nodup_iff.mpr hd.1
    | name k =>
      rw [Pattern.children]
      cases fields.lookup k with
      | none => exact List.nodup_nil
      | some c => exact List.nodup_singleton _
  | array items =>
    rw [Pattern.children, List.map_map]
    exact (List.nodup_range.filter _).map fun i j h => Nat.repr_inj.mp h
  | _ => exact List.nodup_nil

theorem nodup_lastPaths {last : Pattern} (hv : PlainAlong (ps ++ [last]) v) (hd : DistinctAlong (ps ++ [last]) v) :
    ((lastPaths ps last v).map fun q => (q.1 ++ [q.2]).map Step.text).Nodup := by
  induction ps generalizing v with
  | nil =>
    have htexts : ((lastPaths [] last v).map fun q => (q.1 ++ [q.2]).map Step.text) =
        ((last.lastSteps v).map Step.text).map fun text => [text] := by
      simp [lastPaths, matched, Function.comp_def]
    rw [htexts]
    refine List.Nodup.map (fun a b h => (List.cons.inj h).1) ?_
    have hchildren := nodup_children last [] hd
    cases last with
    | any => exact List.map_map (l := Pattern.any.children v) ▸ hchildren
    | name k =>
      cases v with
      | object fields => exact List.nodup_singleton _
      | _ => exact (List.map_map ..).symm ▸ hchildren
  | cons p ps ih =>
    have htexts : ((lastPaths (p :: ps) last v).map fun q => (q.1 ++ [q.2]).map Step.text) =
        (p.children v).flatMap fun child =>
          ((lastPaths ps last child.2).map fun q => (q.1 ++ [q.2]).map Step.text).map (child.1.text :: ·) := by
      rw [lastPaths_cons, List.map_flatMap]
      simp only [List.map_map]
      rfl
    rw [htexts, List.nodup_flatMap]
    refine ⟨fun child hchild => ?_, ?_⟩
    · obtain ⟨hplain, hdistinct⟩ := plainAlong_children hv hchild hd
      exact (ih hplain hdistinct).map fun a b h => (List.cons.inj h).2
    · refine (List.pairwise_map.mp (nodup_children p (ps ++ [last]) hd)).imp fun hne text ha hb => hne ?_
      obtain ⟨_, -, rfl⟩ := List.mem_map.mp ha
      obtain ⟨_, -, heq⟩ := List.mem_map.mp hb
      exact (List.cons.inj heq).1.symm

theorem eraseDups_of_nodup {l : List String} (h : l.Nodup) : l.eraseDups = l := by
  induction l with
  | nil => rfl
  | cons a l ih =>
    obtain ⟨ha, hl⟩ := List.nodup_cons.mp h
    have hkeep : (l.filter fun b => !b == a) = l := by
      refine List.filter_eq_self.mpr fun b hb => ?_
      have hne : b ≠ a := fun hba => ha (hba ▸ hb)
      simpa using hne
    rw [List.eraseDups_cons, hkeep, ih hl]

end Expansion

/-! ## The operations -/

/-- A path with a wildcard, its segments and the keys that it meets all plain. -/
structure PlainPath (lib : Library) (data : Json) (path : String) (segments : List String) (last : String) : Prop where
  split : splitAt '.' (processNegativeIndex lib data path) = segments ++ [last]
  wildcard : containsText (processNegativeIndex lib data path) "*" = true
  plain : ∀ s ∈ segments ++ [last], PlainSegment s
  distinct : DistinctAlong ((segments ++ [last]).map pattern) data
  keys : PlainAlong ((segments ++ [last]).map pattern) data

section Operations

variable {lib : Library} {data : Json} {path last : String} {segments : List String}

theorem distinctAlong_append {ps qs : List Pattern} {v : Json} (h : DistinctAlong (ps ++ qs) v) :
    DistinctAlong ps v := by
  induction ps generalizing v with
  | nil => trivial
  | cons p ps ih =>
    cases v with
    | object fields => exact ⟨h.1, fun e he hp => ih (h.2 e he hp)⟩
    | array items => exact fun i x hx hp => ih (h i x hx hp)
    | _ => trivial

theorem PlainPath.plainKey (h : PlainPath lib data path segments last) {q : List Step × Step}
    (hq : q ∈ lastPaths (segments.map pattern) (pattern last) data) : ∀ t ∈ q.1 ++ [q.2], PlainKey t.text := by
  have hkeys := h.keys
  have hdistinct := h.distinct
  rw [List.map_append, List.map_singleton] at hkeys hdistinct
  refine lastPaths_plain (fun k hk => ?_) hkeys hdistinct hq
  have hk : Pattern.name k ∈ (segments ++ [last]).map pattern := by rwa [List.map_append]
  obtain ⟨s, hs, hsk⟩ := List.mem_map.mp hk
  exact plainKey_of_pattern (h.plain s hs) hsk

/-- The paths that an operation is applied to, one after the other. -/
theorem PlainPath.resolve (h : PlainPath lib data path segments last) :
    resolveOperationPaths data (processNegativeIndex lib data path) =
      (lastPaths (segments.map pattern) (pattern last) data).map fun q => joinPath ((q.1 ++ [q.2]).map Step.text) := by
  have hkeys := h.keys
  have hdistinct := h.distinct
  rw [List.map_append, List.map_singleton] at hkeys hdistinct
  rw [resolveOperationPaths, h.wildcard, h.split, collect_eq h.plain]
  refine eraseDups_of_nodup ?_
  have htexts : ((lastPaths (segments.map pattern) (pattern last) data).map fun q =>
      joinPath (([] : List String) ++ (q.1 ++ [q.2]).map Step.text)) =
        ((lastPaths (segments.map pattern) (pattern last) data).map fun q => (q.1 ++ [q.2]).map Step.text).map
          joinPath := by
    rw [List.map_map]
    rfl
  rw [htexts]
  refine List.Nodup.map_on (fun a ha b hb hab => ?_) (nodup_lastPaths hkeys hdistinct)
  have hread : ∀ texts ∈ (lastPaths (segments.map pattern) (pattern last) data).map fun q =>
      (q.1 ++ [q.2]).map Step.text, splitAt '.' (joinPath texts) = texts := by
    intro texts htexts
    obtain ⟨q, hq, rfl⟩ := List.mem_map.mp htexts
    refine splitAt_joinPath (by simp) fun k hk => ?_
    obtain ⟨t, ht, rfl⟩ := List.mem_map.mp hk
    exact h.plainKey hq t ht
  rw [← hread a ha, ← hread b hb, hab]

variable {F : Step → Json → Prop} {change : Step → Json → Json} {apply : Json → String → Except String Json}
  {op : ParamOperation}

/-- Operations at one path after the other are the changes that the library documents. -/
theorem foldlM_changes (hkeep : ∀ s t v, F t v → F t (change s v))
    (happly : ∀ data path s node, (∀ t ∈ path ++ [s], PlainKey (Step.text t)) →
      getAt path data = some node → F s node →
        apply data (joinPath ((path ++ [s]).map Step.text)) = .ok (updateAt (change s) path data))
    {n : ℕ} {l : List (List Step × Step)} (hl : ∀ q ∈ l, q.1.length = n ∧ ∀ t ∈ q.1 ++ [q.2], PlainKey (Step.text t))
    {data : Json} (hdata : ∀ q ∈ l, ∃ node, getAt q.1 data = some node ∧ F q.2 node) :
    (l.map fun q => joinPath ((q.1 ++ [q.2]).map Step.text)).foldlM apply data =
      .ok (l.foldl (fun d q => updateAt (change q.2) q.1 d) data) := by
  induction l generalizing data with
  | nil => rfl
  | cons q l ih =>
    obtain ⟨⟨hlength, hplain⟩, hl⟩ := List.forall_mem_cons.mp hl
    obtain ⟨⟨node, hnode, hF⟩, hdata⟩ := List.forall_mem_cons.mp hdata
    rw [List.map_cons, List.foldlM_cons, happly data q.1 q.2 node hplain hnode hF]
    exact ih hl fun r hr => getAt_keeps hkeep (hlength.trans (hl r hr).1.symm) (hdata r hr)

theorem PlainPath.foldlM_changes (h : PlainPath lib data path segments last) (hF : ∀ s v, Within s v → F s v)
    (hkeep : ∀ s t v, F t v → F t (change s v))
    (happly : ∀ data path s node, (∀ t ∈ path ++ [s], PlainKey (Step.text t)) →
      getAt path data = some node → F s node →
        apply data (joinPath ((path ++ [s]).map Step.text)) = .ok (updateAt (change s) path data)) :
    (resolveOperationPaths data (processNegativeIndex lib data path)).foldlM apply data =
      .ok (mapMatched (fun n => ((pattern last).lastSteps n).foldl (fun d s => change s d) n)
        (segments.map pattern) data) := by
  have hdistinct : DistinctAlong (segments.map pattern) data := by
    have := h.distinct
    rw [List.map_append] at this
    exact distinctAlong_append this
  have hspec : ∀ q ∈ lastPaths (segments.map pattern) (pattern last) data,
      q.1.length = (segments.map pattern).length ∧ ∃ node, getAt q.1 data = some node ∧ F q.2 node := by
    intro q hq
    obtain ⟨m, hm, hq⟩ := List.mem_flatMap.mp hq
    obtain ⟨step, hstep, rfl⟩ := List.mem_map.mp hq
    obtain ⟨hlength, hget⟩ := matched_spec hdistinct hm
    exact ⟨hlength, m.2, hget, hF _ _ (within_lastSteps hstep)⟩
  rw [h.resolve, ParamOverride.foldlM_changes hkeep happly (fun q hq => ⟨(hspec q hq).1, h.plainKey hq⟩) fun q hq =>
    (hspec q hq).2, foldl_lastPaths change (pattern last) hdistinct]

theorem applyAtPath_delete (hlib : PathGrammar lib) (hop : op.mode = "delete") (context : Json) (data : Json)
    (path : List Step) (s : Step) (node : Json) (hplain : ∀ t ∈ path ++ [s], PlainKey (Step.text t))
    (hnode : getAt path data = some node) (hfits : Fits s node) :
    applyAtPath lib op context data (joinPath ((path ++ [s]).map Step.text)) =
      .ok (updateAt (removeStep s) path data) := by
  have hkeys : ∀ k ∈ (path ++ [s]).map Step.text, PlainKey k := by
    intro k hk
    obtain ⟨t, ht, rfl⟩ := List.mem_map.mp hk
    exact hplain t ht
  rw [applyAtPath, hop, ← hlib.delete data path s node hplain hnode hfits]
  exact if_neg (joinPath_ne_blank (by simp) hkeys)

theorem applyAtPath_set (hlib : PathGrammar lib) (hop : op.mode = "set") (hkeep : op.keepOrigin = false)
    (context : Json) (data : Json) (path : List Step) (s : Step) (node : Json)
    (hplain : ∀ t ∈ path ++ [s], PlainKey (Step.text t)) (hnode : getAt path data = some node)
    (hwithin : Within s node) : applyAtPath lib op context data (joinPath ((path ++ [s]).map Step.text)) =
      .ok (updateAt (setStep op.value s) path data) := by
  rw [applyAtPath, hop, ← hlib.set data path s node op.value hplain hnode hwithin]
  simp only [hkeep, Bool.false_and, Bool.false_eq_true, if_false]

theorem applyOperation_ok_iff {context : Context} {result expected : Json} (hmode : isPathBasedOperation op.mode = true)
    (h : (resolveOperationPaths data (processNegativeIndex lib data op.path)).foldlM (applyAtPath lib op context.json) data =
      .ok result) :
    applyOperation lib op data context = .ok (expected, context) ↔ result = expected := by
  have happly : applyOperation lib op data context = .ok (result, context) := by
    rw [applyOperation, if_pos hmode, h]
    rfl
  rw [happly]
  simp

/-- A deletion leaves out what it renumbers: it is of exactly the nodes that match if and only if a wildcard at the end
meets no array of several elements. A write is of exactly these if and only if a name at the end is never missing. -/
theorem wildcard_operations_iff (hlib : PathGrammar lib) (op : ParamOperation)
    (h : PlainPath lib data op.path segments last) (context : Context) :
    (op.mode = "delete" →
      (applyOperation lib op data context =
          .ok (deleteMatched (segments.map pattern) (pattern last) data, context) ↔
        AllMatched (fun n => pattern last = .any → ∀ items, n = .array items → items.length ≤ 1)
          (segments.map pattern) data)) ∧
    (op.mode = "set" → op.keepOrigin = false →
      (applyOperation lib op data context =
          .ok (setMatched op.value (segments.map pattern) (pattern last) data, context) ↔
        AllMatched (fun n => ∀ k fields, pattern last = .name k → n = .object fields → k ∈ fields.map Prod.fst)
          (segments.map pattern) data)) := by
  constructor
  · intro hmode
    have hfold := h.foldlM_changes (F := Fits) (fun _ _ => Within.fits) fits_removeStep
      (applyAtPath_delete hlib hmode context.json)
    rw [applyOperation_ok_iff (by rw [hmode]; decide) hfold, deleteMatched, mapMatched_eq_iff]
    simp only [foldl_removeStep_iff]
  · intro hmode hkeep
    have hfold := h.foldlM_changes (F := Within) (fun _ _ => id) (within_setStep op.value)
      (applyAtPath_set hlib hmode hkeep context.json)
    rw [applyOperation_ok_iff (by rw [hmode]; decide) hfold, setMatched, mapMatched_eq_iff]
    simp only [foldl_setStep_iff]

end Operations

/-! ## A library that reads paths of plain names -/

/-- The step that a name is below a value. -/
def stepAt (v : Json) (text : String) : Step :=
  match v, atoi text with
  | .array _, some (.ofNat i) => .index i
  | _, _ => .key text

/-- The steps of the names in a value. -/
def stepsAt : List String → Json → List Step
  | [], _ => []
  | text :: rest, v => stepAt v text :: stepsAt rest ((child? (stepAt v text) v).getD .null)

/-- Change the parent of what the last of the names leads to. -/
def changeAt (change : Step → Json → Json) (texts : List String) (v : Json) : Json :=
  match (stepsAt texts v).getLast? with
  | none => v
  | some s => updateAt (change s) (stepsAt texts v).dropLast v

/-- Every dot separates two names, and no other character means anything. -/
def dottedLibrary : Library where
  get data path := getAt (stepsAt (splitAt '.' path) data) data
  raw _ := ""
  set data path value := .ok (changeAt (setStep value) (splitAt '.' path) data)
  delete data path := .ok (changeAt removeStep (splitAt '.' path) data)
  unmarshal _ := none
  lowerRune c := c
  upperRune c := c
  foldRune c := c
  formatFloat _ := ""
  regexReplace _ s _ := .ok s

variable {s : Step}

theorem stepAt_text {v : Json} (h : Fits s v) : stepAt v s.text = s := by
  cases v with
  | array items =>
    cases s with
    | key k => exact absurd h id
    | index i =>
      unfold stepAt
      show (match Json.array items, atoi (toString i) with
        | .array _, some (.ofNat i) => Step.index i
        | _, _ => .key (toString i)) = .index i
      rw [atoi_toString]
  | object fields =>
    cases s with
    | key k => rfl
    | index i => exact absurd h id
  | _ => cases s <;> exact absurd h id

theorem fits_of_child {v c : Json} (h : child? s v = some c) : Fits s v := by
  cases s <;> cases v <;> trivial

theorem stepsAt_texts {path : List Step} {data node : Json} (hnode : getAt path data = some node)
    (hfits : Fits s node) : stepsAt ((path ++ [s]).map Step.text) data = path ++ [s] := by
  induction path generalizing data with
  | nil =>
    cases hnode
    exact congrArg (· :: []) (stepAt_text hfits)
  | cons t path ih =>
    obtain ⟨c, hc, hnode⟩ := Option.bind_eq_some_iff.mp hnode
    rw [List.cons_append, List.map_cons, stepsAt, stepAt_text (fits_of_child hc), hc, Option.getD_some, ih hnode]

theorem changeAt_joinPath (change : Step → Json → Json) {path : List Step} {data node : Json}
    (hplain : ∀ t ∈ path ++ [s], PlainKey (Step.text t)) (hnode : getAt path data = some node) (hfits : Fits s node) :
    changeAt change (splitAt '.' (joinPath ((path ++ [s]).map Step.text))) data = updateAt (change s) path data := by
  have hkeys : ∀ k ∈ (path ++ [s]).map Step.text, PlainKey k := by
    intro k hk
    obtain ⟨t, ht, rfl⟩ := List.mem_map.mp hk
    exact hplain t ht
  rw [splitAt_joinPath (by simp) hkeys, changeAt, stepsAt_texts hnode hfits, List.getLast?_concat, List.dropLast_concat]

theorem dottedLibrary_paths : PathGrammar dottedLibrary where
  delete _ _ _ _ hplain hnode hfits := congrArg Except.ok (changeAt_joinPath removeStep hplain hnode hfits)
  set _ _ _ _ value hplain hnode hwithin :=
    congrArg Except.ok (changeAt_joinPath (setStep value) hplain hnode hwithin.fits)

/-! ## Both sides of the condition -/

def wildcardOperation (mode path : String) (value : Json) : ParamOperation :=
  ⟨path, mode, value, false, "", "", [], "OR"⟩

def noHeaders : Context := ⟨[], ∅, ∅⟩

def tools (items : List Json) : Json := .object [("tools", .array items)]

theorem plainKey_of_decide {k : String} (hblank : trimSpace k ≠ "") (h : k.toList.all (fun c => !isPathCharacter c)) :
    PlainKey k :=
  ⟨hblank, fun c hc => by simpa using List.all_eq_true.mp h c hc⟩

theorem plainSegment_tools : PlainSegment "tools" := by
  have htrim : trimSpace "tools" = "tools" := trimSpace_of_all (by decide)
  refine Or.inr ⟨htrim, plainKey_of_decide (by rw [htrim]; decide) (by decide), fun i hi => ?_⟩
  have hnone : atoi "tools" = none := by decide
  rw [hnone] at hi
  cases hi

theorem processNegativeIndex_of_nil {lib : Library} {data : Json} {path : String}
    (h : negativeIndices .start path.toList = []) : processNegativeIndex lib data path = path := by
  rw [processNegativeIndex, h]
  exact String.ofList_toList

theorem tools_path (items : List Json) : PlainPath dottedLibrary (tools items) "tools.*" ["tools"] "*" where
  split := by
    rw [processNegativeIndex_of_nil (by decide)]
    decide
  wildcard := by
    rw [processNegativeIndex_of_nil (by decide)]
    decide
  plain := List.forall_mem_cons.mpr ⟨plainSegment_tools, List.forall_mem_singleton.mpr (Or.inl rfl)⟩
  distinct := by
    refine ⟨List.nodup_singleton _, fun e he _ => ?_⟩
    rw [List.mem_singleton.mp he]
    exact fun _ _ _ _ => trivial
  keys := by
    intro e he _
    rw [List.mem_singleton.mp he]
    exact ⟨(plainSegment_tools.resolve_left (by decide)).2.1, fun _ _ _ _ => trivial⟩

/-- One tool is deleted, all are overwritten. -/
theorem wildcard_operations_tools :
    applyOperation dottedLibrary (wildcardOperation "delete" "tools.*" .null) (tools [.null]) noHeaders =
        .ok (deleteMatched [pattern "tools"] (pattern "*") (tools [.null]), noHeaders) ∧
      applyOperation dottedLibrary (wildcardOperation "set" "tools.*" (.bool true)) (tools [.null, .null]) noHeaders =
        .ok (setMatched (.bool true) [pattern "tools"] (pattern "*") (tools [.null, .null]), noHeaders) := by
  constructor
  · refine ((wildcard_operations_iff dottedLibrary_paths (wildcardOperation "delete" "tools.*" .null)
      (tools_path [.null]) noHeaders).1 rfl).mpr fun e he _ => ?_
    rw [List.mem_singleton.mp he]
    rintro - items h
    cases h
    exact Nat.le_refl 1
  · refine ((wildcard_operations_iff dottedLibrary_paths (wildcardOperation "set" "tools.*" (.bool true))
      (tools_path [.null, .null]) noHeaders).2 rfl rfl).mpr fun e he _ => ?_
    rw [List.mem_singleton.mp he]
    rintro k fields - h
    cases h

theorem applyAtPath_dotted : applyAtPath dottedLibrary (wildcardOperation "delete" "*" .null) noHeaders.json
    (.object [("a.b", .null)]) "a.b" = .ok (.object [("a.b", .null)]) := by
  have hsteps : stepsAt (splitAt '.' "a.b") (.object [("a.b", .null)]) = [.key "a", .key "b"] := by
    decide
  have hchange : changeAt removeStep (splitAt '.' "a.b") (.object [("a.b", .null)]) = .object [("a.b", .null)] := by
    rw [changeAt, hsteps]
    simp [updateAt, updChild]
  have hblank : ¬trimSpace "a.b" = "" := by
      rw [trimSpace_of_all (by decide)]
      decide
  show (if trimSpace "a.b" = "" then _ else Except.ok (changeAt removeStep (splitAt '.' "a.b") _)) = _
  rw [if_neg hblank, hchange]

/-- Of two tools one stays, and so does a key with a dot in it. -/
theorem matches_left_by_delete :
    (∃ result, applyOperation dottedLibrary (wildcardOperation "delete" "tools.*" .null)
        (tools [.bool true, .bool false]) noHeaders = .ok (result, noHeaders) ∧
      result ≠ deleteMatched [pattern "tools"] (pattern "*") (tools [.bool true, .bool false])) ∧
    (∃ result, applyOperation dottedLibrary (wildcardOperation "delete" "*" .null)
        (.object [("a.b", .null)]) noHeaders = .ok (result, noHeaders) ∧
      result ≠ deleteMatched [] (pattern "*") (.object [("a.b", .null)])) := by
  constructor
  · have hdelete : (wildcardOperation "delete" "tools.*" .null).mode = "delete" := rfl
    have hfold := (tools_path [.bool true, .bool false]).foldlM_changes (fun _ _ => Within.fits) fits_removeStep
      (applyAtPath_delete dottedLibrary_paths hdelete noHeaders.json)
    refine ⟨_, (applyOperation_ok_iff (by decide) hfold).mpr rfl, ?_⟩
    rw [deleteMatched, Ne, List.map_singleton, mapMatched_eq_iff]
    intro h
    have hone := (foldl_removeStep_iff _ _).mp (h _ List.mem_cons_self (by decide)) rfl _ rfl
    exact absurd hone (by decide)
  · have hresolve : resolveOperationPaths (.object [("a.b", .null)])
        (processNegativeIndex dottedLibrary (.object [("a.b", .null)]) "*") = ["a.b"] := by
      rw [processNegativeIndex_of_nil (by decide)]
      decide +kernel
    refine ⟨.object [("a.b", .null)], (applyOperation_ok_iff (by decide) ?_).mpr rfl, ?_⟩
    · show List.foldlM _ _ (resolveOperationPaths _ (processNegativeIndex _ _ "*")) = _
      rw [hresolve, List.foldlM_cons, applyAtPath_dotted]
      rfl
    · intro h
      cases h

end Vancine.ParamOverride
