import Std.Data.ExtTreeMap
import Mathlib.Data.List.Basic

/-!
# Maps with text keys

A map of Go from text is an `ExtTreeMap`: two of them are equal when they have the same entries. A compound key is two
texts around a separator, and `cut` takes it apart.
-/

namespace Lib

open Std

section Cut

variable {α : Type*} [DecidableEq α] {l : List α}

/-- `strings.Cut`: what stands before and after the first place of `part`. -/
def cut (part : List α) : List α → Option (List α × List α)
  | [] => if part = [] then some ([], []) else none
  | a :: t =>
    if part <+: a :: t then some ([], (a :: t).drop part.length)
    else (cut part t).map fun (before, after) => (a :: before, after)

theorem eq_of_cut {part before after : List α} (h : cut part l = some (before, after)) :
    l = before ++ part ++ after := by
  induction l generalizing before with
  | nil =>
    unfold cut at h
    split at h
    · next hpart =>
      obtain ⟨rfl, rfl⟩ := Prod.mk.inj (Option.some.inj h)
      rw [hpart]; rfl
    · cases h
  | cons a t ih =>
    unfold cut at h
    split at h
    · next hpre =>
      obtain ⟨rest, hrest⟩ := hpre
      obtain ⟨rfl, rfl⟩ := Prod.mk.inj (Option.some.inj h)
      rw [← hrest, List.drop_left, List.nil_append]
    · obtain ⟨⟨before', after'⟩, hcut, he⟩ := Option.map_eq_some_iff.mp h
      obtain ⟨rfl, rfl⟩ := Prod.mk.inj he
      rw [ih hcut]; rfl

/-- A part is found after text in which its first element does not occur. -/
theorem cut_append {a : α} {part before : List α} (hbefore : a ∉ before) (after : List α) :
    cut (a :: part) (before ++ (a :: part) ++ after) = some (before, after) := by
  induction before with
  | nil =>
    have hpre : a :: part <+: a :: (part ++ after) := List.prefix_append (a :: part) after
    rw [List.nil_append, List.cons_append, cut, if_pos hpre, ← List.cons_append, List.drop_left]
  | cons b before ih =>
    obtain ⟨hb, hbefore⟩ := not_or.mp (fun h => hbefore (List.mem_cons.mpr h))
    have hnot : ¬a :: part <+: b :: (before ++ (a :: part) ++ after) := by
      rintro ⟨rest, hrest⟩
      exact hb (List.cons.inj hrest).1
    rw [List.cons_append, List.cons_append, cut, if_neg hnot, ih hbefore]
    rfl

end Cut

/-- A map of Go. -/
abbrev Dict (β : Type) := ExtTreeMap String β

namespace Dict

variable {β : Type} {d : Dict β} {key : String}

theorem ext {d d' : Dict β} (h : ∀ key : String, d[key]? = d'[key]?) : d = d' := ExtTreeMap.ext_getElem? h

theorem get_insert (key k : String) (b : β) : (d.insert k b)[key]? = if k = key then some b else d[key]? := by
  rw [ExtTreeMap.getElem?_insert]
  simp only [Std.compare_eq_iff_eq]

theorem get_erase (key k : String) : (d.erase k)[key]? = if k = key then none else d[key]? := by
  rw [ExtTreeMap.getElem?_erase]
  simp only [Std.compare_eq_iff_eq]

theorem mem_toList {b : β} : (key, b) ∈ d.toList ↔ d[key]? = some b := ExtTreeMap.mem_toList_iff_getElem?_eq_some

/-- Entries are written one after the other. -/
def insertAll (l : List (String × β)) (d : Dict β) : Dict β := l.foldl (fun d e => d.insert e.1 e.2) d

/-- A key that is written gets one of its values; the others stay. -/
theorem get_insertAll (l : List (String × β)) (d : Dict β) (key : String) :
    (∃ b, (key, b) ∈ l ∧ (insertAll l d)[key]? = some b) ∨ ((∀ b, (key, b) ∉ l) ∧ (insertAll l d)[key]? = d[key]?) := by
  induction l generalizing d with
  | nil => exact .inr ⟨fun b => List.not_mem_nil, rfl⟩
  | cons e l ih =>
    rcases ih (d.insert e.1 e.2) with ⟨b, hb, hget⟩ | ⟨hnot, hget⟩
    · exact .inl ⟨b, List.mem_cons_of_mem _ hb, hget⟩
    · rw [get_insert] at hget
      by_cases he : e.1 = key
      · rw [if_pos he] at hget
        exact .inl ⟨e.2, List.mem_cons.mpr (.inl (Prod.ext he.symm rfl)), hget⟩
      · rw [if_neg he] at hget
        refine .inr ⟨fun b hb => ?_, hget⟩
        rcases List.mem_cons.mp hb with rfl | hb
        · exact he rfl
        · exact hnot b hb

variable {l : List (String × β)}

theorem get_insertAll_of_not_mem (h : ∀ b, (key, b) ∉ l) : (insertAll l d)[key]? = d[key]? := by
  rcases get_insertAll l d key with ⟨b, hb, -⟩ | ⟨-, hget⟩
  · exact absurd hb (h b)
  · exact hget

/-- The value that is written is the only one of its key. -/
theorem get_insertAll_of_mem {b : β} (h : (key, b) ∈ l) (hone : ∀ b', (key, b') ∈ l → b' = b) :
    (insertAll l d)[key]? = some b := by
  rcases get_insertAll l d key with ⟨b', hb', hget⟩ | ⟨hnot, -⟩
  · rw [hget, hone b' hb']
  · exact absurd h (hnot b)

/-- The entries whose keys are kept. -/
def restrict (p : String → Bool) (d : Dict β) : Dict β := insertAll (d.toList.filter fun e => p e.1) ∅

theorem get_restrict (p : String → Bool) (d : Dict β) (key : String) :
    (restrict p d)[key]? = if p key then d[key]? else none := by
  have hmem : ∀ b, (key, b) ∈ d.toList.filter (fun e => p e.1) ↔ d[key]? = some b ∧ p key = true := fun b => by
    rw [List.mem_filter, mem_toList]
  rcases get_insertAll (d.toList.filter fun e => p e.1) ∅ key with ⟨b, hb, hget⟩ | ⟨hnot, hget⟩
  · obtain ⟨hd, hp⟩ := (hmem b).mp hb
    rw [restrict, hget, if_pos hp, hd]
  · rw [restrict, hget]
    by_cases hp : p key = true
    · rw [if_pos hp]
      cases hd : d[key]? with
      | none => exact ExtTreeMap.getElem?_empty
      | some b => exact absurd ((hmem b).mpr ⟨hd, hp⟩) (hnot b)
    · rw [if_neg hp]
      exact ExtTreeMap.getElem?_empty

end Dict

end Lib
