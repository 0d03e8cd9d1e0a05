import Vancine.ParamOverride.Wildcards

/-!
# Negative indices

`processNegativeIndex` looks for each array at the text before the first place of its index, in the path as it was
given, and writes over the first place where the index is left. The index that a segment should have is the one that it
has in the array at its own prefix, with all earlier indices resolved.
-/

namespace Vancine.ParamOverride

open Lib Lib.Json

/-- The minus sign and the digits that a segment begins with. -/
def capture : List Char → Option (List Char)
  | '-' :: rest =>
    if rest.takeWhile Char.isDigit = [] then none else some ('-' :: rest.takeWhile Char.isDigit)
  | _ => none

/-- The index from the front that a negative index has in an array. -/
def arrayIndex (found : Option Json) (negIndex : List Char) : Option ℤ :=
  match found with
  | some (.array items) =>
    let actualIndex := items.length + negativeIndexValue negIndex
    if 0 ≤ actualIndex ∧ actualIndex < items.length then some actualIndex else none
  | _ => none

/-- What stands at a segment once its index is known. -/
def indexText (index : Option ℤ) (segment : List Char) : List Char :=
  match index with
  | some n => (toString n).toList
  | none => segment

/-! ## Resolving from left to right -/

/-- What the segments so far denote. -/
def ownArray (lib : Library) (data : Json) (resolved : List (List Char)) : Option Json :=
  if resolved = [] then some data else lib.get data (String.ofList (['.'].intercalate resolved))

def ownIndex (lib : Library) (data : Json) (resolved : List (List Char)) (segment : List Char) : Option ℤ :=
  if capture segment = some segment then arrayIndex (ownArray lib data resolved) segment else none

/-- Each segment is resolved after all before it. -/
def resolveSegments (lib : Library) (data : Json) (segments : List (List Char)) : List (List Char) :=
  segments.foldl (fun resolved s => resolved ++ [indexText (ownIndex lib data resolved s) s]) []

/-- The path with every negative index resolved against its own array. -/
def resolvedPath (lib : Library) (data : Json) (path : String) : String :=
  String.ofList (['.'].intercalate (resolveSegments lib data (path.toList.splitOn '.')))

/-! ## The indices that the code finds -/

/-- What the path leads to before the first place of the index. -/
def givenArray (lib : Library) (data : Json) (path negIndex : List Char) : Option Json :=
  let before := match indexOf negIndex path with
    | none => path
    | some i => path.take i
  lib.get data (String.ofList (if before.getLast? = some '.' then before.dropLast else before))

def givenIndex (lib : Library) (data : Json) (path segment : List Char) : Option ℤ :=
  (capture segment).bind fun negIndex => arrayIndex (givenArray lib data path negIndex) negIndex

/-- The segments after the first, each with the dot before it. -/
def dotted (segments : List (List Char)) : List Char := segments.flatMap fun s => '.' :: s

section Segments

theorem intercalate_cons (s : List Char) (rest : List (List Char)) :
    ['.'].intercalate (s :: rest) = s ++ dotted rest := by
  induction rest generalizing s with
  | nil => simp [dotted]
  | cons t rest ih =>
    rw [List.intercalate_cons_cons, ih t]
    simp [dotted]

theorem dot_not_mem_splitOn {l s : List Char} (hs : s ∈ l.splitOn '.') : '.' ∉ s := Lib.not_mem_of_mem_splitOn hs

/-- The end of the path, or a dot. -/
def EndsSegment (tail : List Char) : Prop := tail = [] ∨ ∃ rest, tail = '.' :: rest

theorem endsSegment_dotted (segments : List (List Char)) : EndsSegment (dotted segments) := by
  cases segments with
  | nil => exact Or.inl rfl
  | cons s rest => exact Or.inr ⟨s ++ dotted rest, rfl⟩

variable {s : List Char}

theorem negativeIndices_start (hs : '.' ∉ s) (tail : List Char) :
    negativeIndices .start (s ++ tail) = negativeIndices .start tail := by
  induction s with
  | nil => rfl
  | cons c s ih =>
    have hc : c ≠ '.' := fun h => hs (h ▸ List.mem_cons_self)
    rw [List.cons_append, negativeIndices, IndexScan.restart, if_neg hc]
    exact ih fun h => hs (List.mem_cons_of_mem _ h)

theorem negativeIndices_digits (hs : '.' ∉ s) {tail : List Char} (htail : EndsSegment tail) (reversed : List Char) :
    negativeIndices (.digits reversed) (s ++ tail) =
      (IndexScan.digits ((s.takeWhile Char.isDigit).reverse ++ reversed)).captured ++ negativeIndices .start tail := by
  induction s generalizing reversed with
  | nil =>
    rcases htail with rfl | ⟨rest, rfl⟩
    · exact (List.append_nil _).symm
    · rfl
  | cons c s ih =>
    have hrest : '.' ∉ s := fun h => hs (List.mem_cons_of_mem _ h)
    rw [List.cons_append, negativeIndices, List.takeWhile_cons]
    by_cases hc : c.isDigit = true
    · rw [if_pos hc, if_pos hc, ih hrest]
      simp
    · have hdot : c ≠ '.' := fun h => hs (h ▸ List.mem_cons_self)
      rw [if_neg hc, if_neg hc, IndexScan.restart, if_neg hdot, negativeIndices_start hrest]
      rfl

theorem negativeIndices_segment (hs : '.' ∉ s) {tail : List Char} (htail : EndsSegment tail) :
    negativeIndices .start ('.' :: (s ++ tail)) = (capture s).toList ++ negativeIndices .start tail := by
  show negativeIndices .dot (s ++ tail) = _
  cases s with
  | nil => rcases htail with rfl | ⟨rest, rfl⟩ <;> rfl
  | cons c s =>
    have hrest : '.' ∉ s := fun h => hs (List.mem_cons_of_mem _ h)
    rw [List.cons_append, negativeIndices]
    by_cases hc : c = '-'
    · subst hc
      rw [if_pos rfl, negativeIndices_digits hrest htail, capture]
      congr 1
      cases hdigits : s.takeWhile Char.isDigit <;> simp [IndexScan.captured]
    · have hdot : c ≠ '.' := fun h => hs (h ▸ List.mem_cons_self)
      have hnone : capture (c :: s) = none := by
        unfold capture
        split
        · next h => exact absurd (List.cons.inj h).1 hc
        · rfl
      rw [if_neg hc, IndexScan.restart, if_neg hdot, negativeIndices_start hrest, hnone]
      rfl

/-- The expression finds what the segments after the first begin with. -/
theorem negativeIndices_dotted {segments : List (List Char)} (hdot : ∀ s ∈ segments, '.' ∉ s) :
    negativeIndices .start (dotted segments) = segments.filterMap capture := by
  induction segments with
  | nil => rfl
  | cons s rest ih =>
    obtain ⟨hs, hrest⟩ := List.forall_mem_cons.mp hdot
    have hstep := negativeIndices_segment hs (endsSegment_dotted rest)
    rw [List.filterMap_cons]
    show negativeIndices .start ('.' :: (s ++ dotted rest)) = _
    rw [hstep, ih hrest]
    cases capture s <;> rfl

end Segments

/-! ## Writing an index -/

section Writing

theorem indexOf_skip {s t : List Char} (ht : '.' ∉ t) (tail : List Char) :
    indexOf ('.' :: s) (t ++ tail) = (indexOf ('.' :: s) tail).map (· + t.length) := by
  induction t with
  | nil => simp
  | cons c t ih =>
    have hnot : ¬ '.' :: s <+: c :: (t ++ tail) := fun h =>
      ht (List.mem_cons.mpr (Or.inl (List.cons_prefix_cons.mp h).1))
    rw [List.cons_append, indexOf, if_neg hnot, ih fun h => ht (List.mem_cons_of_mem _ h), Option.map_map]
    rfl

/-- A text without dots begins a segment when it begins what starts there. -/
theorem prefix_segment {s d tail : List Char} (hs : '.' ∉ s) (htail : EndsSegment tail) (h : s <+: d ++ tail) :
    s <+: d := by
  rcases List.prefix_or_prefix_of_prefix h (List.prefix_append d tail) with hsd | ⟨t, rfl⟩
  · exact hsd
  · have ht : t <+: tail := (List.prefix_append_right_inj d).mp h
    cases t with
    | nil => simp
    | cons c t =>
      rcases htail with rfl | ⟨rest, rfl⟩
      · exact absurd (List.prefix_nil.mp ht) (by simp)
      · obtain rfl := (List.cons_prefix_cons.mp ht).1
        exact absurd (List.mem_append_right d List.mem_cons_self) hs

variable {before : List (List Char)}

theorem indexOf_dotted {s : List Char} (hs : '.' ∉ s) (hdot : ∀ d ∈ before, '.' ∉ d)
    (hbefore : ∀ d ∈ before, ¬s <+: d) (rest : List (List Char)) :
    indexOf ('.' :: s) (dotted (before ++ s :: rest)) = some (dotted before).length := by
  induction before with
  | nil => exact if_pos (List.cons_prefix_cons.mpr ⟨rfl, List.prefix_append s (dotted rest)⟩)
  | cons d before ih =>
    obtain ⟨hd, hdot⟩ := List.forall_mem_cons.mp hdot
    obtain ⟨hsd, hbefore⟩ := List.forall_mem_cons.mp hbefore
    have hnot : ¬ '.' :: s <+: '.' :: (d ++ dotted (before ++ s :: rest)) := fun h =>
      hsd (prefix_segment hs (endsSegment_dotted _) (List.cons_prefix_cons.mp h).2)
    show indexOf ('.' :: s) ('.' :: (d ++ dotted (before ++ s :: rest))) = _
    rw [indexOf, if_neg hnot, indexOf_skip hd, ih hdot hbefore]
    show some (_ + _ + 1) = some ('.' :: (d ++ dotted before)).length
    rw [List.length_cons, List.length_append, Nat.add_comm d.length]

/-- The index is written over its own segment when no segment before begins with it. -/
theorem replaceFirst_dotted {s first : List Char} (hs : '.' ∉ s) (hfirst : '.' ∉ first) (hdot : ∀ d ∈ before, '.' ∉ d)
    (hbefore : ∀ d ∈ before, ¬s <+: d) (t : List Char) (rest : List (List Char)) :
    replaceFirst ('.' :: s) ('.' :: t) (first ++ dotted (before ++ s :: rest)) =
      first ++ dotted (before ++ t :: rest) := by
  have hindex : indexOf ('.' :: s) (first ++ dotted (before ++ s :: rest)) =
      some ((first ++ dotted before).length) := by
    rw [indexOf_skip hfirst, indexOf_dotted hs hdot hbefore, List.length_append, Nat.add_comm]
    rfl
  have hsplit : ∀ u : List Char,
      first ++ dotted (before ++ u :: rest) = (first ++ dotted before) ++ ('.' :: u ++ dotted rest) := by
    intro u
    simp [dotted]
  rw [replaceFirst, hindex, hsplit s, hsplit t]
  dsimp only
  rw [List.take_left, ← List.drop_drop, List.drop_left, List.drop_left, List.append_assoc]

end Writing

/-! ## One index after the other -/

section Runs

variable {lib : Library} {data : Json} {path : List Char}

variable {n : ℤ}

theorem arrayIndex_nonneg {found : Option Json} {negIndex : List Char} (h : arrayIndex found negIndex = some n) :
    0 ≤ n := by
  unfold arrayIndex at h
  split at h
  · dsimp only at h
    split at h
    · next hrange =>
      cases h
      exact hrange.1
    · cases h
  · cases h

theorem resolveNegativeIndex_eq {result negIndex : List Char} : resolveNegativeIndex lib data path result negIndex =
      match arrayIndex (givenArray lib data path negIndex) negIndex with
      | none => result
      | some n => replaceFirst ('.' :: negIndex) ('.' :: (toString n).toList) result := by
  unfold resolveNegativeIndex givenArray arrayIndex
  dsimp only
  generalize lib.get data _ = found
  cases found with
  | none => rfl
  | some v =>
    cases v with
    | array items =>
      dsimp only
      split <;> rfl
    | _ => rfl

theorem nat_of_nonneg (h : 0 ≤ n) : (toString n).toList = Nat.toDigits 10 n.toNat := by
  obtain ⟨m, rfl⟩ := Int.eq_ofNat_of_zero_le h
  exact Nat.toList_repr

theorem isDigit_of_mem_index (h : 0 ≤ n) {c : Char} (hc : c ∈ (toString n).toList) : c.isDigit = true := by
  rw [nat_of_nonneg h] at hc
  exact Nat.isDigit_of_mem_toDigits (by decide) (by decide) hc

theorem minus_of_capture {s t : List Char} (h : capture s = some t) : ∃ rest, t = '-' :: rest := by
  unfold capture at h
  split at h
  · split at h
    · cases h
    · cases h
      exact ⟨_, rfl⟩
  · cases h

/-- The conditions under which each index is written where it stands: what resolves is a whole segment, and does not
begin an earlier one that stays as it is. -/
structure Separate (lib : Library) (data : Json) (path : List Char) (segments : List (List Char)) : Prop where
  whole : ∀ s ∈ segments, (givenIndex lib data path s).isSome → capture s = some s
  apart : segments.Pairwise fun a b =>
    givenIndex lib data path a = none → (givenIndex lib data path b).isSome → ¬b <+: a

theorem dot_not_mem_indexText {index : Option ℤ} (hindex : ∀ n, index = some n → 0 ≤ n) {s : List Char}
    (hs : '.' ∉ s) : '.' ∉ indexText index s := by
  cases index with
  | none => exact hs
  | some n => exact fun h => absurd (isDigit_of_mem_index (hindex n rfl) h) (by decide)

theorem givenIndex_nonneg {s : List Char} (h : givenIndex lib data path s = some n) : 0 ≤ n := by
  obtain ⟨negIndex, -, h⟩ := Option.bind_eq_some_iff.mp h
  exact arrayIndex_nonneg h

/-- Runs over segments that are separate: those before have what the code finds, those after are as they were. -/
theorem foldl_resolve {first : List Char} (hfirst : '.' ∉ first) (before : List (List Char)) {rest : List (List Char)}
    (hdot : ∀ s ∈ before ++ rest, '.' ∉ s) (hseparate : Separate lib data path (before ++ rest)) :
    (rest.filterMap capture).foldl (resolveNegativeIndex lib data path)
        (first ++ dotted (before.map (fun s => indexText (givenIndex lib data path s) s) ++ rest)) =
      first ++ dotted ((before ++ rest).map fun s => indexText (givenIndex lib data path s) s) := by
  induction rest generalizing before with
  | nil => simp
  | cons s rest ih =>
    have happend : before ++ s :: rest = (before ++ [s]) ++ rest := by simp
    have hnext := ih (before ++ [s]) (happend ▸ hdot) (happend ▸ hseparate)
    rw [← happend, List.map_append, List.append_assoc] at hnext
    cases hindex : givenIndex lib data path s with
    | none =>
      rw [List.map_singleton, hindex] at hnext
      cases hcapture : capture s with
      | none =>
        rw [List.filterMap_cons_none hcapture]
        exact hnext
      | some negIndex =>
        rw [List.filterMap_cons_some hcapture, List.foldl_cons, resolveNegativeIndex_eq]
        rw [givenIndex, hcapture, Option.bind_some] at hindex
        rw [hindex]
        exact hnext
    | some n =>
      rw [List.map_singleton, hindex] at hnext
      have hcapture : capture s = some s :=
        hseparate.whole s (List.mem_append_right _ List.mem_cons_self) (Option.isSome_of_eq_some hindex)
      have hs : '.' ∉ s := hdot s (List.mem_append_right _ List.mem_cons_self)
      have hbefore : ∀ d ∈ before.map fun s => indexText (givenIndex lib data path s) s, ¬s <+: d := by
        intro d hd
        obtain ⟨a, ha, rfl⟩ := List.mem_map.mp hd
        cases hindexA : givenIndex lib data path a with
        | none =>
          have hpair := (List.pairwise_append.mp hseparate.apart).2.2 a ha s List.mem_cons_self
          exact hpair hindexA (Option.isSome_of_eq_some hindex)
        | some m =>
          -- an index from the front has no minus sign
          intro hprefix
          obtain ⟨digits, hminus⟩ := minus_of_capture hcapture
          have hmem : '-' ∈ (toString m).toList := hprefix.subset (hminus ▸ List.mem_cons_self)
          exact absurd (isDigit_of_mem_index (givenIndex_nonneg hindexA) hmem) (by decide)
      have hdotted : ∀ d ∈ before.map fun s => indexText (givenIndex lib data path s) s, '.' ∉ d := by
        intro d hd
        obtain ⟨a, ha, rfl⟩ := List.mem_map.mp hd
        exact dot_not_mem_indexText (fun _ => givenIndex_nonneg) (hdot a (List.mem_append_left _ ha))
      have hgiven : arrayIndex (givenArray lib data path s) s = some n := by
        rwa [givenIndex, hcapture, Option.bind_some] at hindex
      rw [List.filterMap_cons_some hcapture, List.foldl_cons, resolveNegativeIndex_eq, hgiven]
      dsimp only
      rw [replaceFirst_dotted hs hfirst hdotted hbefore]
      exact hnext

end Runs

/-! ## Both ways of resolving -/

section Agreement

variable {lib : Library} {data : Json}

variable (segments : List (List Char))

theorem resolveSegments_concat (s : List Char) : resolveSegments lib data (segments ++ [s]) =
      resolveSegments lib data segments ++ [indexText (ownIndex lib data (resolveSegments lib data segments) s) s] :=
  List.foldl_concat ..

theorem length_resolveSegments : (resolveSegments lib data segments).length = segments.length := by
  induction segments using List.reverseRecOn with
  | nil => rfl
  | append_singleton segments s ih => simp [resolveSegments_concat, ih]

theorem getElem?_resolveSegments (j : ℕ) : (resolveSegments lib data segments)[j]? =
      segments[j]?.map fun s => indexText (ownIndex lib data (resolveSegments lib data (segments.take j)) s) s := by
  induction segments using List.reverseRecOn with
  | nil => rfl
  | append_singleton segments s ih =>
    rw [resolveSegments_concat]
    rcases Nat.lt_trichotomy j segments.length with hlt | rfl | hgt
    · rw [List.getElem?_append_left (by rwa [length_resolveSegments]), List.getElem?_append_left hlt, ih,
        List.take_append_of_le_length (Nat.le_of_lt hlt)]
    · have hlength : segments.length = (resolveSegments lib data segments).length := (length_resolveSegments _).symm
      rw [List.getElem?_concat_length, List.take_left]
      rw [hlength, List.getElem?_concat_length]
      rfl
    · rw [List.getElem?_eq_none (by simp [length_resolveSegments]; omega), List.getElem?_eq_none (by simp; omega)]
      rfl

variable {resolved : List (List Char)} {s : List Char}

theorem ownIndex_nonneg {n : ℤ} (h : ownIndex lib data resolved s = some n) : 0 ≤ n := by
  unfold ownIndex at h
  split at h
  · exact arrayIndex_nonneg h
  · cases h

theorem dot_not_mem_resolveSegments {segments : List (List Char)} (hdot : ∀ s ∈ segments, '.' ∉ s) :
    ∀ s ∈ resolveSegments lib data segments, '.' ∉ s := by
  intro s hs
  obtain ⟨j, hj⟩ := List.mem_iff_getElem?.mp hs
  rw [getElem?_resolveSegments] at hj
  obtain ⟨t, ht, rfl⟩ := Option.map_eq_some_iff.mp hj
  refine dot_not_mem_indexText (fun n hn => ?_) (hdot t (List.mem_of_getElem? ht))
  exact ownIndex_nonneg hn

/-- An index from the front is never the text of a negative index, and two are the same when their texts are. -/
theorem indexText_inj {a b : Option ℤ} (ha : ∀ n, a = some n → 0 ≤ n) (hb : ∀ n, b = some n → 0 ≤ n)
    (hs : capture s = some s) : indexText a s = indexText b s ↔ a = b := by
  obtain ⟨rest, hminus⟩ := minus_of_capture hs
  have hdiffer : ∀ n : ℤ, 0 ≤ n → (toString n).toList ≠ s := by
    intro n hn heq
    have hmem : '-' ∈ (toString n).toList := by rw [heq, hminus]; exact List.mem_cons_self
    exact absurd (isDigit_of_mem_index hn hmem) (by decide)
  constructor
  · intro h
    cases a with
    | none =>
      cases b with
      | none => rfl
      | some m => exact absurd h.symm (hdiffer m (hb m rfl))
    | some n =>
      cases b with
      | none => exact absurd h (hdiffer n (ha n rfl))
      | some m =>
        have hn := ha n rfl
        have hm := hb m rfl
        have hdigits : n.toNat.repr.toList = m.toNat.repr.toList := by
          rw [Nat.toList_repr, Nat.toList_repr, ← nat_of_nonneg hn, ← nat_of_nonneg hm]
          exact h
        have hnat := Nat.repr_inj.mp (String.toList_inj.mp hdigits)
        have : n = m := by omega
        rw [this]
  · rintro rfl
    rfl

/-- A segment comes out the same when it is a whole index with the same place, or no index at all. -/
theorem indexText_ownIndex {index : Option ℤ} (hindex : ∀ n, index = some n → 0 ≤ n)
    (hwhole : index.isSome → capture s = some s) : indexText index s = indexText (ownIndex lib data resolved s) s ↔
      (capture s = some s → ownIndex lib data resolved s = index) := by
  by_cases hs : capture s = some s
  · rw [indexText_inj hindex (fun _ => ownIndex_nonneg) hs, eq_comm]
    exact ⟨fun h _ => h, fun h => h hs⟩
  · have hnone : index = none := Option.not_isSome_iff_eq_none.mp fun h => hs (hwhole h)
    have hown : ownIndex lib data resolved s = none := if_neg hs
    rw [hnone, hown]
    exact iff_of_true rfl fun h => absurd h hs

end Agreement

/-! ## Both sides of the condition -/

/-- An array of arrays, in a field. -/
def nested (rows : List (List Json)) : Json := .object [("a", .array (rows.map .array))]

instance (lib : Library) (data : Json) (path : List Char) (segments : List (List Char)) :
    Decidable (Separate lib data path segments) :=
  decidable_of_iff
    ((∀ s ∈ segments, (givenIndex lib data path s).isSome → capture s = some s) ∧
      segments.Pairwise fun a b =>
        givenIndex lib data path a = none → (givenIndex lib data path b).isSome → ¬b <+: a)
    ⟨fun h => ⟨h.1, h.2⟩, fun h => ⟨h.whole, h.apart⟩⟩

end Vancine.ParamOverride
