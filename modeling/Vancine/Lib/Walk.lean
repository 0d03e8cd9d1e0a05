import Mathlib.Data.List.Basic
import Mathlib.Logic.Relation

/-!
# Walks that remember where they were

A walk follows a partial function until there is no next place, the next place is the one it stands on, or the next
place is one it has seen before.
-/

namespace Lib

/-- A partial function with finitely many values. -/
structure Hops (α : Type*) where
  hop : α → Option α
  targets : List α
  mem_targets {a b : α} : hop a = some b → b ∈ targets

/-- How a walk ends. -/
inductive End (α : Type*)
  | tail (last : α)
  | cycle

section Hops

variable {α : Type*} {h : Hops α} {current last : α}

namespace Hops

/-- From one place the other can be reached. -/
def Leads (h : Hops α) : α → α → Prop := Relation.ReflTransGen fun a b => h.hop a = some b

/-- The other place is that many hops away. -/
def After (h : Hops α) (last : α) : ℕ → α → Prop
  | 0, a => a = last
  | n + 1, a => ∃ b, h.hop a = some b ∧ After h last n b

theorem exists_after (hleads : h.Leads current last) : ∃ n, h.After last n current := by
  induction hleads using Relation.ReflTransGen.head_induction_on with
  | refl => exact ⟨0, rfl⟩
  | head hnext _ ih =>
    obtain ⟨n, hn⟩ := ih
    exact ⟨n + 1, _, hnext, hn⟩

/-- A place without a way on is only so many hops away. -/
theorem After.unique (hlast : h.hop last = none) {m n : ℕ} (hm : h.After last m current) (hn : h.After last n current) :
    m = n := by
  induction m generalizing n current with
  | zero =>
    cases n with
    | zero => rfl
    | succ n =>
      obtain ⟨b, hb, -⟩ := hn
      rw [show current = last from hm, hlast] at hb
      cases hb
  | succ m ih =>
    obtain ⟨b, hb, hbm⟩ := hm
    cases n with
    | zero =>
      rw [show current = last from hn, hlast] at hb
      cases hb
    | succ n =>
      obtain ⟨c, hc, hcn⟩ := hn
      rw [hb] at hc
      cases hc
      rw [ih hbm hcn]

end Hops

end Hops

section Walk

variable {α : Type*} [DecidableEq α]

/-- How many of the places were not visited. -/
def unseen (targets visited : List α) : ℕ := (targets.filter (· ∉ visited)).length

/-- A new place leaves fewer unseen ones. -/
theorem unseen_lt {targets visited : List α} {next : α} (hmem : next ∈ targets) (hnew : next ∉ visited) :
    unseen targets (next :: visited) < unseen targets visited := by
  unfold unseen
  have hsub : targets.filter (· ∉ next :: visited) = (targets.filter (· ∉ visited)).filter (· ≠ next) := by
    rw [List.filter_filter]
    apply List.filter_congr
    intro a _
    simp [not_or]
  rw [hsub]
  apply List.length_filter_lt_length_iff_exists.mpr
  exact ⟨next, List.mem_filter.mpr ⟨hmem, by simpa using hnew⟩, by simp⟩

namespace Hops

variable (h : Hops α)

def walk (visited : List α) (current : α) : End α :=
  match _hnext : h.hop current with
  | none => .tail current
  | some next =>
    if _hseen : next ∈ visited then if next = current then .tail current else .cycle
    else walk (next :: visited) next
termination_by unseen h.targets visited
decreasing_by exact unseen_lt (h.mem_targets _hnext) _hseen

variable {h} {visited : List α} {current next last : α}

theorem walk_none (hnext : h.hop current = none) : h.walk visited current = .tail current := by
  rw [walk]
  split
  · rfl
  next hsome => rw [hnext] at hsome; cases hsome

theorem walk_some (hnext : h.hop current = some next) : h.walk visited current =
      if next ∈ visited then if next = current then .tail current else .cycle else h.walk (next :: visited) next := by
  rw [walk]
  split
  next hnone => rw [hnext] at hnone; cases hnone
  next next' hsome =>
    rw [hnext] at hsome
    cases hsome
    split <;> rfl

theorem walk_self (hnext : h.hop current = some current) (hmem : current ∈ visited) :
    h.walk visited current = .tail current := by
  rw [walk_some hnext, if_pos hmem, if_pos rfl]

/-- Induction along a walk. -/
theorem walk_induction {motive : List α → α → Prop}
    (hnone : ∀ visited current, h.hop current = none → motive visited current)
    (hseen : ∀ visited current next, h.hop current = some next → next ∈ visited → motive visited current)
    (hnew : ∀ visited current next, h.hop current = some next → next ∉ visited → motive (next :: visited) next →
      motive visited current) (visited : List α) (current : α) : motive visited current := by
  induction hn : unseen h.targets visited using Nat.strongRecOn generalizing visited current with
  | _ n ih =>
    cases hnext : h.hop current with
    | none => exact hnone visited current hnext
    | some next =>
      by_cases hmem : next ∈ visited
      · exact hseen visited current next hnext hmem
      · exact hnew visited current next hnext hmem
          (ih _ (hn ▸ unseen_lt (h.mem_targets hnext) hmem) (next :: visited) next rfl)

/-- A walk that does not end in a cycle ends at a place it leads to, from which there is no way but to itself. -/
theorem walk_tail (hwalk : h.walk visited current = .tail last) :
    h.Leads current last ∧ (h.hop last = none ∨ h.hop last = some last) := by
  induction visited, current using walk_induction (h := h) with
  | hnone visited current hnext =>
    rw [walk_none hnext] at hwalk
    cases hwalk
    exact ⟨.refl, .inl hnext⟩
  | hseen visited current next hnext hmem =>
    rw [walk_some hnext, if_pos hmem] at hwalk
    split at hwalk
    next hself =>
      cases hwalk
      exact ⟨.refl, .inr (hself ▸ hnext)⟩
    · cases hwalk
  | hnew visited current next hnext hmem ih =>
    rw [walk_some hnext, if_neg hmem] at hwalk
    obtain ⟨hleads, hlast⟩ := ih hwalk
    exact ⟨.head hnext hleads, hlast⟩

/-- A walk that leads to a place without a way on ends there. -/
theorem walk_of_after (hlast : h.hop last = none) {n : ℕ} (hn : h.After last n current)
    (hvisited : ∀ v ∈ visited, ∃ m ≥ n, h.After last m v) : h.walk visited current = .tail last := by
  induction n generalizing visited current with
  | zero =>
    rw [show current = last from hn]
    exact walk_none hlast
  | succ n ih =>
    obtain ⟨next, hnext, hafter⟩ := hn
    -- what was visited is further away than the next place
    have hnew : next ∉ visited := by
      intro hmem
      obtain ⟨m, hm, hv⟩ := hvisited next hmem
      have := hv.unique hlast hafter
      omega
    rw [walk_some hnext, if_neg hnew]
    apply ih hafter
    intro v hv
    rcases List.mem_cons.mp hv with rfl | hv
    · exact ⟨n, Nat.le_refl n, hafter⟩
    · obtain ⟨m, hm, hvm⟩ := hvisited v hv
      exact ⟨m, by omega, hvm⟩

theorem walk_of_leads {start : α} (hlast : h.hop last = none) (hleads : h.Leads start last) :
    h.walk [start] start = .tail last := by
  obtain ⟨n, hn⟩ := exists_after hleads
  exact walk_of_after hlast hn fun v hv => ⟨n, Nat.le_refl n, by rwa [List.mem_singleton.mp hv]⟩

/-- Two walks that agree wherever the first leads. -/
theorem walk_congr {k : Hops α} (hvisited : current ∈ visited)
    (hagree : ∀ a, h.Leads current a → h.hop a = k.hop a ∨ h.hop a = none ∧ k.hop a = some a) :
    h.walk visited current = k.walk visited current := by
  induction visited, current using walk_induction (h := h) with
  | hnone visited current hnext =>
    rw [walk_none hnext]
    rcases hagree current .refl with heq | ⟨-, hself⟩
    · rw [walk_none (heq ▸ hnext)]
    · rw [walk_self hself hvisited]
  | hseen visited current next hnext hmem =>
    have heq : h.hop current = k.hop current := (hagree current .refl).resolve_right fun hno => by simp [hno.1] at hnext
    rw [walk_some hnext, walk_some (heq ▸ hnext : k.hop current = some next), if_pos hmem, if_pos hmem]
  | hnew visited current next hnext hmem ih =>
    have heq : h.hop current = k.hop current := (hagree current .refl).resolve_right fun hno => by simp [hno.1] at hnext
    rw [walk_some hnext, walk_some (heq ▸ hnext : k.hop current = some next), if_neg hmem, if_neg hmem]
    exact ih List.mem_cons_self fun a ha => hagree a (.head hnext ha)

/-- A walk with more ways ends where the first does, exactly when it has none on from there. -/
theorem walk_eq_iff {k : Hops α} {start : α} (hmore : ∀ a b, h.hop a = some b → k.hop a = some b) :
    h.walk [start] start = k.walk [start] start ↔
      ∀ last, h.Leads start last → h.hop last = none → k.hop last = none ∨ k.hop last = some last := by
  constructor
  · intro heq last hleads hlast
    rw [walk_of_leads hlast hleads] at heq
    exact (walk_tail heq.symm).2
  · intro hends
    apply walk_congr List.mem_cons_self
    intro a ha
    cases ha' : h.hop a with
    | some b => exact .inl (hmore a b ha').symm
    | none =>
      rcases hends a ha ha' with hk | hk
      · exact .inl hk.symm
      · exact .inr ⟨rfl, hk⟩

end Hops

end Walk

end Lib
