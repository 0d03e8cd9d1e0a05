import Mathlib.Algebra.Order.BigOperators.Group.List
import Mathlib.Algebra.Order.Ring.Int
import Mathlib.Data.List.Induction

/-!
# Joining neighbours in place

A loop reads the slots of an array one after the other and writes what it keeps into the same array: an element is
joined to the last one kept, or it is kept itself. The writing never overtakes the reading (`joinInPlace_eq`), so on a
sorted array every key is kept once, with the capped total of its counts (`runs_spec`), and the outcome depends on the
elements alone, not on their order (`runs_unique`).
-/

namespace Lib

variable {α : Type*} (join : α → α → Option α)

/-! ## The loop -/

/-- An element is joined to the last one, or appended. -/
def push (kept : List α) (a : α) : List α :=
  match kept.getLast? with
  | none => [a]
  | some last =>
    match join last a with
    | none => kept ++ [a]
    | some b => kept.dropLast ++ [b]

def runs (l : List α) : List α := l.foldl (push join) []

/-- One round of the loop: slot `i` is read; the first `s.2` slots are what is kept. -/
def pushInPlace (s : List α × ℕ) (i : ℕ) : List α × ℕ :=
  match s.1[i]?, s.2 with
  | none, _ => s
  | some a, 0 => (s.1.set 0 a, 1)
  | some a, m + 1 =>
    match s.1[m]? with
    | none => s
    | some last =>
      match join last a with
      | none => (s.1.set (m + 1) a, m + 2)
      | some b => (s.1.set m b, m + 1)

def joinInPlace (l : List α) : List α :=
  let s := (List.range l.length).foldl (pushInPlace join) (l, 0)
  s.1.take s.2

variable {join}

theorem take_set_append {l : List α} {m : ℕ} (h : m < l.length) (a : α) :
    (l.set m a).take (m + 1) = l.take m ++ [a] := by
  rw [List.take_add_one, List.getElem?_set_self h, List.take_set_of_le (Nat.le_refl m)]
  rfl

theorem drop_set_of_lt {l : List α} {m k : ℕ} (h : m < k) (a : α) : (l.set m a).drop k = l.drop k := by
  rw [List.drop_set, if_pos h]

/-- What is kept and what is still to be read, after `k` rounds. -/
theorem foldl_pushInPlace (l : List α) {k : ℕ} (hk : k ≤ l.length) :
    let s := (List.range k).foldl (pushInPlace join) (l, 0)
    s.2 ≤ k ∧ s.1.length = l.length ∧ s.1.take s.2 = runs join (l.take k) ∧ s.1.drop k = l.drop k := by
  induction k with
  | zero => exact ⟨Nat.le_refl 0, rfl, rfl, rfl⟩
  | succ k ih =>
    obtain ⟨hle, hlength, htake, hdrop⟩ := ih (by omega)
    rw [List.range_succ, List.foldl_append, List.foldl_cons, List.foldl_nil]
    generalize (List.range k).foldl (pushInPlace join) (l, 0) = s at hle hlength htake hdrop
    obtain ⟨slots, m⟩ := s
    dsimp only at hle hlength htake hdrop
    have hread : slots[k]? = some l[k] := by
      have h := congrArg (·[0]?) hdrop
      rw [List.getElem?_drop, List.getElem?_drop] at h
      exact h.trans (List.getElem?_eq_getElem (by omega))
    have hnext : slots.drop (k + 1) = l.drop (k + 1) := by
      rw [← List.drop_drop, hdrop, List.drop_drop]
    have hruns : runs join (l.take (k + 1)) = push join (runs join (l.take k)) l[k] := by
      rw [List.take_add_one, List.getElem?_eq_getElem (by omega), runs, List.foldl_append]
      rfl
    rw [hruns, ← htake]
    cases m with
    | zero =>
      have hstep : pushInPlace join (slots, 0) k = (slots.set 0 l[k], 1) := by simp only [pushInPlace, hread]
      rw [hstep]
      refine ⟨by dsimp only; omega, by simpa using hlength, ?_, ?_⟩
      · rw [take_set_append (by omega)]
        rfl
      · rw [drop_set_of_lt (by omega), hnext]
    | succ m =>
      have hlast : slots[m]? = some slots[m] := List.getElem?_eq_getElem (by omega)
      have hsplit : slots.take (m + 1) = slots.take m ++ [slots[m]] := by
        rw [List.take_add_one, hlast]
        rfl
      have hpush : push join (slots.take (m + 1)) l[k] =
          match join slots[m] l[k] with
          | none => slots.take (m + 1) ++ [l[k]]
          | some b => slots.take m ++ [b] := by
        rw [push, hsplit, List.getLast?_concat, List.dropLast_concat]
      rw [hpush]
      cases hjoin : join slots[m] l[k] with
      | none =>
        have hstep : pushInPlace join (slots, m + 1) k = (slots.set (m + 1) l[k], m + 2) := by
          simp only [pushInPlace, hread, hlast, hjoin]
        rw [hstep]
        refine ⟨by dsimp only; omega, by simpa using hlength, ?_, ?_⟩
        · rw [take_set_append (by omega)]
        · rw [drop_set_of_lt (by omega), hnext]
      | some b =>
        have hstep : pushInPlace join (slots, m + 1) k = (slots.set m b, m + 1) := by
          simp only [pushInPlace, hread, hlast, hjoin]
        rw [hstep]
        refine ⟨by dsimp only; omega, by simpa using hlength, ?_, ?_⟩
        · rw [take_set_append (by omega)]
        · rw [drop_set_of_lt (by omega), hnext]

/-- The loop keeps what joining neighbours keeps. -/
theorem joinInPlace_eq (l : List α) : joinInPlace join l = runs join l := by
  have h := (@foldl_pushInPlace _ join l _ (Nat.le_refl l.length)).2.2.1
  rwa [List.take_length] at h

/-! ## Sorted keys -/

section Keys

variable {κ : Type*} [LinearOrder κ] {key : α → κ} {count : α → ℤ} {cap : ℤ}

/-- The counts of a key, added up. -/
def total (key : α → κ) (count : α → ℤ) (l : List α) (k : κ) : ℤ := ((l.filter fun a => key a = k).map count).sum

theorem total_append (l l' : List α) (k : κ) :
    total key count (l ++ l') k = total key count l k + total key count l' k := by
  simp [total]

theorem total_perm {l l' : List α} (h : l.Perm l') (k : κ) : total key count l k = total key count l' k :=
  ((h.filter _).map count).sum_eq

/-- Elements of one key are joined, their counts added up to a cap. -/
structure Joins (join : α → α → Option α) (key : α → κ) (count : α → ℤ) (cap : ℤ) : Prop where
  of_ne : ∀ a b, key a ≠ key b → join a b = none
  of_eq : ∀ a b, key a = key b → ∃ c, join a b = some c ∧ key c = key a ∧ count c = min (count a + count b) cap

/-- What the kept elements are: every key once, with its capped total. -/
structure Merged (key : α → κ) (count : α → ℤ) (cap : ℤ) (l kept : List α) : Prop where
  sorted : kept.Pairwise fun a b => key a < key b
  keys : ∀ k, (∃ a ∈ kept, key a = k) ↔ ∃ a ∈ l, key a = k
  counts : ∀ a ∈ kept, count a = min (total key count l (key a)) cap

theorem Merged.push {l kept : List α} (hjoin : Joins join key count cap) (h : Merged key count cap l kept) {a : α}
    (hlast : ∀ b ∈ l, key b ≤ key a) (hnonneg : ∀ b ∈ l ++ [a], 0 ≤ count b) (hcap : count a ≤ cap) :
    Merged key count cap (l ++ [a]) (push join kept a) := by
  have hle : ∀ b ∈ kept, key b ≤ key a := by
    intro b hb
    obtain ⟨c, hc, hkey⟩ := (h.keys (key b)).mp ⟨b, hb, rfl⟩
    exact hkey ▸ hlast c hc
  have hother : ∀ k, key a ≠ k → total key count (l ++ [a]) k = total key count l k := by
    intro k hk
    rw [total_append]
    simp [total, hk]
  have hsame : total key count (l ++ [a]) (key a) = total key count l (key a) + count a := by
    rw [total_append]
    simp [total]
  have hacc := hnonneg a (List.mem_append_right _ List.mem_cons_self)
  -- Without an element of its key, `a` is appended.
  have happend : (∀ b ∈ kept, key b < key a) → Merged key count cap (l ++ [a]) (kept ++ [a]) := by
    intro hlt
    have hnone : total key count l (key a) = 0 := by
      have hfilter : l.filter (fun b => key b = key a) = [] := by
        refine List.filter_eq_nil_iff.mpr fun b hb hkey => ?_
        obtain ⟨c, hc, hck⟩ := (h.keys (key b)).mpr ⟨b, hb, rfl⟩
        exact absurd (hck.trans (by simpa using hkey)) (hlt c hc).ne
      rw [total, hfilter]
      rfl
    refine ⟨?_, fun k => ?_, ?_⟩
    · refine List.pairwise_append.mpr ⟨h.sorted, List.pairwise_singleton _ _, fun b hb c hc => ?_⟩
      rw [List.mem_singleton.mp hc]
      exact hlt b hb
    · simp only [List.mem_append, List.mem_singleton, or_and_right, exists_or, h.keys k]
    · intro b hb
      rcases List.mem_append.mp hb with hb | hb
      · rw [h.counts b hb, hother _ (hlt b hb).ne']
      · rw [List.mem_singleton.mp hb, hsame, hnone]
        omega
  unfold Lib.push
  split
  · next hnil =>
    obtain rfl := List.getLast?_eq_none_iff.mp hnil
    exact happend fun b hb => absurd hb List.not_mem_nil
  · next last hsome =>
    obtain ⟨init, rfl⟩ := List.getLast?_eq_some_iff.mp hsome
    have hbefore := (List.pairwise_append.mp h.sorted).2.2
    by_cases hkey : key last = key a
    · obtain ⟨c, hc, hck, hcount⟩ := hjoin.of_eq last a hkey
      rw [hc, List.dropLast_concat]
      refine ⟨?_, fun k => ?_, ?_⟩
      · refine List.pairwise_append.mpr ⟨(List.pairwise_append.mp h.sorted).1, List.pairwise_singleton _ _, ?_⟩
        intro b hb d hd
        rw [List.mem_singleton.mp hd, hck]
        exact hbefore b hb last List.mem_cons_self
      · have hk := h.keys k
        simp only [List.mem_append, List.mem_singleton, or_and_right, exists_or, exists_eq_left, hck, hkey] at hk ⊢
        rw [← hk, or_assoc, or_self]
      · intro b hb
        rcases List.mem_append.mp hb with hb | hb
        · have hne : key a ≠ key b := by
            rw [← hkey]
            exact (hbefore b hb last List.mem_cons_self).ne'
          rw [h.counts b (List.mem_append_left _ hb), hother _ hne]
        · rw [List.mem_singleton.mp hb, hcount, hck, hkey, hsame,
            h.counts last (List.mem_append_right _ List.mem_cons_self), hkey]
          omega
    · rw [hjoin.of_ne last a hkey]
      refine happend fun b hb => ?_
      have hlastlt := lt_of_le_of_ne (hle last (List.mem_append_right _ List.mem_cons_self)) hkey
      rcases List.mem_append.mp hb with hb | hb
      · exact (hbefore b hb last List.mem_cons_self).trans hlastlt
      · rwa [List.mem_singleton.mp hb]

/-- Every key of a sorted list is kept once, with its capped total. -/
theorem runs_spec (hjoin : Joins join key count cap) {l : List α} (hsorted : l.Pairwise fun a b => key a ≤ key b)
    (hcounts : ∀ a ∈ l, 0 ≤ count a ∧ count a ≤ cap) : Merged key count cap l (runs join l) := by
  induction l using List.reverseRecOn with
  | nil => exact ⟨List.Pairwise.nil, fun k => by simp [runs], fun a ha => absurd ha (by simp [runs])⟩
  | append_singleton l a ih =>
    have hparts := List.pairwise_append.mp hsorted
    have hih := ih hparts.1 fun b hb => hcounts b (List.mem_append_left _ hb)
    have hstep : runs join (l ++ [a]) = push join (runs join l) a := by
      rw [runs, List.foldl_append]
      rfl
    rw [hstep]
    exact hih.push hjoin (fun b hb => hparts.2.2 b hb a List.mem_cons_self) (fun b hb => (hcounts b hb).1)
      (hcounts a (List.mem_append_right _ List.mem_cons_self)).2

/-- Elements are known by key and count, and the outcome by the elements. -/
theorem Merged.unique {l l' kept kept' : List α} (hext : ∀ a b : α, key a = key b → count a = count b → a = b)
    (hperm : l.Perm l') (h : Merged key count cap l kept) (h' : Merged key count cap l' kept') : kept = kept' := by
  have hmem : ∀ {m m' n n' : List α}, m.Perm m' → Merged key count cap m n → Merged key count cap m' n' →
      ∀ a ∈ n, a ∈ n' := by
    intro m m' n n' hm hn hn' a ha
    obtain ⟨b, hb, hbk⟩ := (hn.keys (key a)).mp ⟨a, ha, rfl⟩
    obtain ⟨c, hc, hck⟩ := (hn'.keys (key a)).mpr ⟨b, hm.mem_iff.mp hb, hbk⟩
    have hcount : count a = count c := by
      rw [hn.counts a ha, hn'.counts c hc, hck, total_perm hm]
    rwa [hext a c hck.symm hcount]
  have hnodup : ∀ {m n : List α}, Merged key count cap m n → n.Nodup := fun hn =>
    hn.sorted.imp fun hlt heq => absurd (congrArg key heq) hlt.ne
  have hkept : kept.Perm kept' := (List.perm_ext_iff_of_nodup (hnodup h) (hnodup h')).mpr fun a =>
    ⟨hmem hperm h h' a, hmem hperm.symm h' h a⟩
  exact hkept.eq_of_pairwise (fun a b _ _ hab hba => absurd (hab.trans hba) (lt_irrefl _)) h.sorted h'.sorted

section Sums

variable {M : Type*} [AddCommMonoid M]

theorem sum_of_key (g : M) {kept : List α} (hsorted : kept.Pairwise fun a b => key a < key b) {k : κ}
    (h : ∃ a ∈ kept, key a = k) : (kept.map fun a => if k = key a then g else 0).sum = g := by
  induction kept with
  | nil => exact absurd h (by simp)
  | cons a kept ih =>
    obtain ⟨ha, hrest⟩ := List.pairwise_cons.mp hsorted
    rw [List.map_cons, List.sum_cons]
    by_cases hk : k = key a
    · have hzero : (kept.map fun b => if k = key b then g else 0).sum = 0 := by
        refine List.sum_eq_zero fun n hn => ?_
        obtain ⟨b, hb, rfl⟩ := List.mem_map.mp hn
        exact if_neg fun hkb => absurd (hk.symm.trans hkb) (ha b hb).ne
      rw [if_pos hk, hzero, add_zero]
    · obtain ⟨b, hb, hbk⟩ := h
      have hb : b ∈ kept := (List.mem_cons.mp hb).resolve_left fun hba => hk (hba ▸ hbk.symm)
      rw [if_neg hk, zero_add, ih hrest ⟨b, hb, hbk⟩]

/-- A sum over the elements, taken key by key. -/
theorem sum_by_key (g : α → M) {l kept : List α} (hsorted : kept.Pairwise fun a b => key a < key b)
    (hcover : ∀ b ∈ l, ∃ a ∈ kept, key a = key b) :
    (kept.map fun a => ((l.filter fun b => key b = key a).map g).sum).sum = (l.map g).sum := by
  induction l with
  | nil => exact List.sum_eq_zero fun n hn => by obtain ⟨a, -, rfl⟩ := List.mem_map.mp hn; rfl
  | cons b l ih =>
    obtain ⟨hb, hl⟩ := List.forall_mem_cons.mp hcover
    have hsplit : (fun a => (((b :: l).filter fun c => key c = key a).map g).sum) =
        fun a => (if key b = key a then g b else 0) + ((l.filter fun c => key c = key a).map g).sum := by
      funext a
      by_cases hba : key b = key a <;> simp [hba]
    rw [hsplit, List.sum_map_add, sum_of_key (g b) hsorted hb, ih hl, List.map_cons, List.sum_cons]

end Sums

end Keys

end Lib
