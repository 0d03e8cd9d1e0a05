import Vancine.TwoFactor.Verification
import Mathlib.Data.List.Perm.Subperm

/-!
# The lockout

A wrong code is recorded or waits to be recorded, and a call that waits loses at most as many rounds as there are
failures recorded before it. The limit therefore holds as long as a comparison starts only below it with every waiting
failure added. A lock is lost only to a call that holds an older one.
-/

namespace Vancine.TwoFactor

open Lib

variable {lib : CodeLibrary} {s : Account} {i : ℕ}

/-! ## Times -/

variable {lockedUntil : Option ℤ} {p : Phase}

theorem not_ahead_of_le {now later : ℤ} (hle : now ≤ later) (h : ahead lockedUntil now = false) :
    ahead lockedUntil later = false := by
  cases lockedUntil with
  | none => rfl
  | some lockedUntil =>
    have hnow : ¬now < lockedUntil := by simpa [ahead] using h
    have hlater : ¬later < lockedUntil := by omega
    simpa [ahead] using hlater

variable {t : TwoFA} {now : ℤ} {a : Action}

theorem isLocked_eq_false (h : ¬(t.isLocked now) = true) : ahead t.lockedUntil now = false :=
  Bool.eq_false_iff.mpr h

/-! ## Waiting failures -/

theorem length_le_countP {α : Type*} {xs : List α} {p : α → Bool} {positions : List ℕ} (hnodup : positions.Nodup)
    (h : ∀ i ∈ positions, (xs[i]?).any p = true) : positions.length ≤ xs.countP p := by
  have hsub : positions ⊆ (List.range xs.length).filter fun i => (xs[i]?).any p := by
    intro i hi
    have hany := h i hi
    refine List.mem_filter.mpr ⟨List.mem_range.mpr ?_, hany⟩
    by_contra hlen
    rw [List.getElem?_eq_none (by omega)] at hany
    exact absurd hany (by simp)
  have hcount : ((List.range xs.length).filter fun i => (xs[i]?).any p).length = xs.countP p := by
    rw [← List.countP_eq_length_filter]
    have hmap : (List.range xs.length).map (fun i => xs[i]?) = xs.map some :=
      List.ext_getElem (by simp) fun n h₁ h₂ => by simp
    have hall := congrArg (List.countP fun x : Option α => x.any p) hmap
    rw [List.countP_map, List.countP_map] at hall
    exact hall
  exact hcount ▸ (hnodup.subperm hsub).length_le

/-- The call has a failure to record. -/
def Account.failingAt (s : Account) (i : ℕ) : Bool := (s.calls[i]?).any Phase.isFailing

/-- The wrong codes that do not wait any more. -/
def Account.recorded (s : Account) : ℕ := s.wrong.countP fun i => !s.failingAt i

theorem wrong_length_le (hnodup : s.wrong.Nodup) : s.wrong.length ≤ s.waiting + s.recorded := by
  have hwaiting : s.wrong.countP s.failingAt ≤ s.waiting := by
    rw [List.countP_eq_length_filter]
    exact length_le_countP (hnodup.filter _) fun i hi => (List.mem_filter.mp hi).2
  have hsplit := List.length_eq_countP_add_countP s.failingAt (l := s.wrong)
  have hrecorded : s.recorded = s.wrong.countP fun i => decide ¬s.failingAt i = true :=
    List.countP_congr fun i _ => by simp
  omega

/-! ## The invariant -/

/-- What a call holds since it saw no lock in force. -/
def Phase.Past (clock : ℤ) : Phase → Prop
  | .marking t _ => ahead t.lockedUntil clock = false
  | .resetting t => ahead t.lockedUntil clock = false
  | .counting _ _ lockedUntil now => ahead lockedUntil now = false ∧ now ≤ clock
  | _ => True

/-- The lock that a call writes back. -/
def Phase.read : Phase → Option ℤ
  | .counting _ _ lockedUntil _ => lockedUntil
  | _ => none

/-- Where the call of a wrong code is. -/
def Phase.Counts (row : TwoFA) (since : ℤ) : Phase → Prop
  | .failing retry => retry = 0 ∨ (retry ≤ row.failedAttempts ∧ row.failedAttempts < maxFailAttempts)
  | .counting retry failedAttempts _ now =>
    since ≤ now ∧ failedAttempts ≤ row.failedAttempts ∧
      (failedAttempts < row.failedAttempts → row.failedAttempts < maxFailAttempts) ∧
      (retry = 0 ∨ (retry ≤ failedAttempts ∧ row.failedAttempts < maxFailAttempts))
  | .returned _ => True
  | _ => False

/-- There has been no lock in force since some time, and the wrong codes were compared after it. -/
structure Account.Quiet (s : Account) (since : ℤ) : Prop where
  le : since ≤ s.clock
  row : ahead s.row.lockedUntil since = false
  read : ∀ p ∈ s.calls, ahead p.read since = false
  counts : ∀ i ∈ s.wrong, ∃ p, s.calls[i]? = some p ∧ p.Counts s.row since

structure Account.Counted (s : Account) : Prop where
  past : ∀ p ∈ s.calls, p.Past s.clock
  nodup : s.wrong.Nodup
  length : s.wrong.length ≤ maxFailAttempts
  recorded : s.recorded ≤ if s.row.failedAttempts < maxFailAttempts then s.row.failedAttempts else 0
  quiet : s.wrong ≠ [] → ∃ since, s.Quiet since

theorem Phase.Past.mono {clock later : ℤ} (hle : clock ≤ later) (h : p.Past clock) : p.Past later := by
  cases p with
  | marking t codeId => exact not_ahead_of_le hle h
  | resetting t => exact not_ahead_of_le hle h
  | counting retry failedAttempts lockedUntil now => exact ⟨h.1, h.2.trans hle⟩
  | _ => trivial

theorem Phase.Past.read {clock : ℤ} (h : p.Past clock) : ahead p.read clock = false := by
  cases p with
  | counting retry failedAttempts lockedUntil now => exact not_ahead_of_le h.2 h.1
  | _ => rfl

theorem Account.Quiet.not_locked {since : ℤ} (h : s.Quiet since) : ahead s.row.lockedUntil s.clock = false :=
  not_ahead_of_le h.le h.row

theorem Account.Counted.not_locked (h : s.Counted) (hne : s.wrong ≠ []) : ahead s.row.lockedUntil s.clock = false := by
  obtain ⟨since, hsince⟩ := h.quiet hne
  exact hsince.not_locked

theorem Account.Counted.not_mem (h : s.Counted) (hi : s.calls[i]? = some p) (hp : ∀ since, ¬p.Counts s.row since) :
    i ∉ s.wrong := by
  intro hmem
  obtain ⟨since, hsince⟩ := h.quiet (List.ne_nil_of_mem hmem)
  obtain ⟨q, hq, hcounts⟩ := hsince.counts i hmem
  obtain rfl : p = q := Option.some.inj (hi.symm.trans hq)
  exact hp since hcounts

/-! ## A call goes on -/

section Goto

variable {p : Phase}

@[simp] theorem goto_row : (s.goto i p).row = s.row := rfl
@[simp] theorem goto_codes : (s.goto i p).codes = s.codes := rfl
@[simp] theorem goto_clock : (s.goto i p).clock = s.clock := rfl
@[simp] theorem goto_wrong : (s.goto i p).wrong = s.wrong := rfl
@[simp] theorem goto_marked : (s.goto i p).marked = s.marked := rfl

theorem calls_goto_self (h : (s.calls[i]?).isSome) : (s.goto i p).calls[i]? = some p := by
  rw [Account.goto, List.getElem?_set_self (by simpa using h)]

theorem calls_goto_of_ne {j : ℕ} (h : j ≠ i) : (s.goto i p).calls[j]? = s.calls[j]? :=
  List.getElem?_set_ne h.symm

theorem mem_goto {q : Phase} (h : q ∈ (s.goto i p).calls) : q = p ∨ q ∈ s.calls :=
  (List.mem_or_eq_of_mem_set h).symm

theorem failingAt_goto_of_ne {j : ℕ} (h : j ≠ i) : (s.goto i p).failingAt j = s.failingAt j := by
  rw [Account.failingAt, calls_goto_of_ne h, Account.failingAt]

/-- A call that is not counted, or that still has its failure to record. -/
theorem recorded_goto_le (hi : (s.calls[i]?).isSome) (hp : i ∈ s.wrong → p.isFailing = true) :
    (s.goto i p).recorded ≤ s.recorded := by
  refine List.countP_mono_left fun j hj hsettled => ?_
  by_cases hji : j = i
  · subst hji
    rw [Account.failingAt, calls_goto_self hi, Option.any_some, hp hj] at hsettled
    exact absurd hsettled (by simp)
  · rwa [failingAt_goto_of_ne hji] at hsettled

theorem recorded_goto_le_succ (hnodup : s.wrong.Nodup) : (s.goto i p).recorded ≤ s.recorded + 1 := by
  have hother : ∀ j ∈ s.wrong.erase i, (s.goto i p).failingAt j = s.failingAt j := fun j hj =>
    failingAt_goto_of_ne (hnodup.mem_erase_iff.mp hj).1
  have hcongr : (s.wrong.erase i).countP (fun j => !(s.goto i p).failingAt j) =
      (s.wrong.erase i).countP fun j => !s.failingAt j :=
    List.countP_congr fun j hj => by rw [hother j hj]
  have hle : (s.wrong.erase i).countP (fun j => !s.failingAt j) ≤ s.recorded := List.erase_sublist.countP_le
  by_cases hi : i ∈ s.wrong
  · rw [Account.recorded, goto_wrong, (List.perm_cons_erase hi).countP_eq, List.countP_cons]
    split <;> omega
  · rw [List.erase_of_not_mem hi] at hcongr
    exact hcongr.le.trans (Nat.le_succ _)

theorem Account.Quiet.goto {since : ℤ} (h : s.Quiet since) (hi : (s.calls[i]?).isSome)
    (hread : ahead p.read since = false) (hcounts : i ∈ s.wrong → p.Counts s.row since) : (s.goto i p).Quiet since where
  le := h.le
  row := h.row
  read q hq := (mem_goto hq).elim (fun e => e ▸ hread) (h.read q)
  counts j hj := by
    by_cases hji : j = i
    · subst hji
      exact ⟨p, calls_goto_self hi, hcounts hj⟩
    · rw [calls_goto_of_ne hji]
      exact h.counts j hj

/-- A call goes on: it is not counted, or still has its failure to record. -/
theorem Account.Counted.goto (h : s.Counted) (hi : (s.calls[i]?).isSome) (hpast : p.Past s.clock)
    (hread : ∀ since, s.Quiet since → ahead p.read since = false)
    (hcounts : i ∈ s.wrong → p.isFailing = true ∧ ∀ since, s.Quiet since → p.Counts s.row since) :
    (s.goto i p).Counted where
  past q hq := (mem_goto hq).elim (fun e => e ▸ hpast) (h.past q)
  nodup := h.nodup
  length := h.length
  recorded := (recorded_goto_le hi fun hmem => (hcounts hmem).1).trans h.recorded
  quiet hne := by
    obtain ⟨since, hsince⟩ := h.quiet hne
    exact ⟨since, hsince.goto hi (hread since hsince) fun hmem => (hcounts hmem).2 since hsince⟩

theorem Account.Counted.goto_other (h : s.Counted) (hi : (s.calls[i]?).isSome) (hmem : i ∉ s.wrong)
    (hpast : p.Past s.clock) (hread : p.read = none) : (s.goto i p).Counted :=
  h.goto hi hpast (fun since _ => by rw [hread]; rfl) fun hi => absurd hi hmem

end Goto

/-! ## Comparisons -/

/-- The failures stay below the limit when those that wait are recorded. -/
def Account.Below (s : Account) : Prop := s.waiting = 0 ∨ s.row.failedAttempts + s.waiting < maxFailAttempts

theorem Account.Counted.miss (h : s.Counted) (hi : (s.calls[i]?).isSome) (hmem : i ∉ s.wrong) (hbelow : s.Below)
    (hlock : ahead s.row.lockedUntil s.clock = false) : (s.miss i).Counted := by
  have hgoto : (s.goto i (.failing 0)).Counted := h.goto_other hi hmem trivial rfl
  have hfailing : (s.miss i).failingAt i = true := by
    change ((s.goto i (.failing 0)).calls[i]?).any Phase.isFailing = true
    rw [calls_goto_self hi]
    rfl
  have hrecorded : (s.miss i).recorded = (s.goto i (.failing 0)).recorded := by
    rw [Account.recorded]
    change List.countP _ (i :: s.wrong) = _
    rw [List.countP_cons_of_neg (by simp [hfailing])]
    rfl
  refine ⟨hgoto.past, List.nodup_cons.mpr ⟨hmem, h.nodup⟩, ?_, hrecorded ▸ hgoto.recorded, fun _ => ?_⟩
  · -- the wrong codes that do not wait have been recorded
    have hlength := wrong_length_le h.nodup
    have hold := h.recorded
    change s.wrong.length + 1 ≤ maxFailAttempts
    unfold Account.Below maxFailAttempts at *
    split at hold <;> omega
  · -- without wrong codes, the time without a lock starts now
    have hquiet : ∃ since, s.Quiet since := by
      by_cases hne : s.wrong = []
      · exact ⟨s.clock, le_rfl, hlock, fun p hp => (h.past p hp).read, by simp [hne]⟩
      · exact h.quiet hne
    obtain ⟨since, hsince⟩ := hquiet
    have hnext : (s.goto i (.failing 0)).Quiet since := hsince.goto hi rfl fun hmem' => absurd hmem' hmem
    refine ⟨since, hnext.le, hnext.row, hnext.read, fun j hj => ?_⟩
    rcases List.mem_cons.mp hj with rfl | hj
    · exact ⟨.failing 0, calls_goto_self hi, .inl rfl⟩
    · exact hnext.counts j hj

/-! ## Failures -/

/-- The calls whose failures wait, when another failure is recorded below the limit. -/
theorem Phase.Counts.succ {row : TwoFA} {since : ℤ} (h : p.Counts row since)
    (hlimit : row.failedAttempts + 1 < maxFailAttempts) :
    p.Counts { row with failedAttempts := row.failedAttempts + 1, lockedUntil } since := by
  cases p with
  | failing retry => exact h.imp_right fun h => ⟨h.1.trans (Nat.le_succ _), hlimit⟩
  | counting retry failedAttempts carried now =>
    exact ⟨h.1, h.2.1.trans (Nat.le_succ _), fun _ => hlimit, h.2.2.2.imp_right fun h => ⟨h.1, hlimit⟩⟩
  | returned result => trivial
  | _ => exact h.elim

theorem Account.Counted.increment (h : s.Counted) (hi : (s.calls[i]?).isSome)
    (hread : ∀ since, s.Quiet since → ahead lockedUntil since = false) :
    ((s.increment s.row.failedAttempts lockedUntil now).goto i (.returned .verificationFailed)).Counted := by
  have hpast : ∀ p ∈ (s.goto i (.returned .verificationFailed)).calls, p.Past s.clock := fun p hp =>
    (mem_goto hp).elim (fun e => e ▸ trivial) (h.past p)
  by_cases hlocks : maxFailAttempts ≤ s.row.failedAttempts + 1
  · -- the lock ends the count
    rw [Account.increment, if_pos hlocks]
    exact ⟨hpast, List.nodup_nil, Nat.zero_le _, Nat.zero_le _, fun hne => absurd rfl hne⟩
  · have hlimit : s.row.failedAttempts + 1 < maxFailAttempts := Nat.lt_of_not_le hlocks
    rw [Account.increment, if_neg hlocks]
    refine ⟨hpast, h.nodup, h.length, ?_, fun hne => ?_⟩
    · have hone : (s.goto i (.returned .verificationFailed)).recorded ≤ s.recorded + 1 := recorded_goto_le_succ h.nodup
      have hold := h.recorded
      rw [if_pos (Nat.lt_of_succ_lt hlimit)] at hold
      change (s.goto i (.returned .verificationFailed)).recorded ≤
        if s.row.failedAttempts + 1 < maxFailAttempts then s.row.failedAttempts + 1 else 0
      rw [if_pos hlimit]
      omega
    · obtain ⟨since, hsince⟩ := h.quiet hne
      refine ⟨since, hsince.le, hread since hsince, fun p hp => ?_, fun j hj => ?_⟩
      · exact (mem_goto hp).elim (fun e => e ▸ rfl) (hsince.read p)
      · change ∃ p, (s.goto i (.returned .verificationFailed)).calls[j]? = some p ∧ _
        by_cases hji : j = i
        · subst hji
          exact ⟨_, calls_goto_self hi, trivial⟩
        · obtain ⟨p, hp, hcounts⟩ := hsince.counts j hj
          exact ⟨p, by rw [calls_goto_of_ne hji, hp], hcounts.succ hlimit⟩

theorem Account.Counted.conflict (h : s.Counted) {retry failedAttempts : ℕ}
    (hi : s.calls[i]? = some (.counting retry failedAttempts lockedUntil now))
    (hchanged : ¬(s.row.failedAttempts = failedAttempts ∧ ¬s.row.isLocked now)) :
    (if retry + 1 < maxUpdateRetries then s.goto i (.failing (retry + 1))
      else s.goto i (.returned .conflict)).Counted := by
  have hsome : (s.calls[i]?).isSome := by rw [hi]; rfl
  -- a counted call lost the round to a failure that was recorded, and there are not that many
  have hcounted : i ∈ s.wrong → retry + 1 ≤ s.row.failedAttempts ∧ s.row.failedAttempts < maxFailAttempts := by
    intro hmem
    obtain ⟨since, hsince⟩ := h.quiet (List.ne_nil_of_mem hmem)
    obtain ⟨p, hp, hcounts⟩ := hsince.counts i hmem
    obtain rfl := Option.some.inj (hi.symm.trans hp)
    obtain ⟨hle, hfailed, hlimit, hretry⟩ := hcounts
    have hfree : ahead s.row.lockedUntil now = false := not_ahead_of_le hle hsince.row
    have hne : s.row.failedAttempts ≠ failedAttempts := fun e => hchanged ⟨e, by simp [TwoFA.isLocked, hfree]⟩
    have hlt : failedAttempts < s.row.failedAttempts := by omega
    have := hlimit hlt
    omega
  split
  · exact h.goto hsome trivial (fun _ _ => rfl) fun hmem => ⟨rfl, fun _ _ => .inr (hcounted hmem)⟩
  · next hlast =>
    refine h.goto_other hsome (fun hmem => ?_) trivial rfl
    have := hcounted hmem
    unfold maxUpdateRetries maxFailAttempts at *
    omega

/-! ## Orderly steps -/

/-- A lock in force is the one in the copy. -/
def Account.Knows (s : Account) (t : TwoFA) : Prop := s.row.isLocked s.clock → s.row.lockedUntil = t.lockedUntil

/-- No lock in force was stored since the row was loaded, and the comparison of a wrong code starts while the failures,
with those that wait, stay below the limit. -/
def Phase.Orderly (lib : CodeLibrary) (s : Account) : Phase → Prop
  | .totp t code =>
    ¬t.isLocked s.clock → s.Knows t ∧ (¬lib.validateTOTP t.secret code s.clock → s.Below)
  | .backup t code =>
    ¬t.isLocked s.clock → validateBackupCode lib.toUpper code →
      s.Knows t ∧ ((matchingCode lib s.codes code).isNone → s.Below)
  | .resetting t => s.Knows t
  | _ => True

def Orderly (lib : CodeLibrary) (s : Account) : Action → Prop
  | .proceed i => ∀ p ∈ s.calls[i]?, p.Orderly lib s
  | _ => True

instance : Decidable s.Below := inferInstanceAs (Decidable (_ ∨ _))

instance (t : TwoFA) : Decidable (s.Knows t) := inferInstanceAs (Decidable (_ → _))

instance (p : Phase) : Decidable (p.Orderly lib s) :=
  match p with
  | .totp _ _ => inferInstanceAs (Decidable (_ → _))
  | .backup _ _ => inferInstanceAs (Decidable (_ → _))
  | .resetting t => inferInstanceAs (Decidable (s.Knows t))
  | .loaded _ _ => .isTrue trivial
  | .marking _ _ => .isTrue trivial
  | .failing _ => .isTrue trivial
  | .counting .. => .isTrue trivial
  | .returned _ => .isTrue trivial

instance (a : Action) : Decidable (Orderly lib s a) :=
  match a with
  | .load _ => .isTrue trivial
  | .proceed i => inferInstanceAs (Decidable (∀ p ∈ s.calls[i]?, p.Orderly lib s))
  | .wait _ => .isTrue trivial

theorem Account.Knows.not_locked (h : s.Knows t) (ht : ahead t.lockedUntil s.clock = false) :
    ahead s.row.lockedUntil s.clock = false := by
  by_contra hlocked
  rw [Bool.not_eq_false] at hlocked
  rw [h hlocked, ht] at hlocked
  exact Bool.false_ne_true hlocked

theorem classify_cases (lib : CodeLibrary) (t : TwoFA) (code : String) :
    (∃ numeric, classify lib t code = .totp t numeric) ∨ (∃ code', classify lib t code = .backup t code') ∨
      classify lib t code = .failing 0 := by
  unfold classify
  split
  · exact .inl ⟨_, rfl⟩
  · split
    · exact .inr (.inl ⟨_, rfl⟩)
    · exact .inr (.inr rfl)

theorem Account.Counted.proceedAt (h : s.Counted) (hi : s.calls[i]? = some p) (hp : p.Orderly lib s) :
    (proceedAt lib s i p).Counted := by
  have hsome : (s.calls[i]?).isSome := by rw [hi]; rfl
  have hpast : p.Past s.clock := h.past p (List.mem_of_getElem? hi)
  cases p with
  | loaded t code =>
    have hmem := h.not_mem hi fun _ hcounts => hcounts
    dsimp only [TwoFactor.proceedAt]
    split
    · exact h.goto_other hsome hmem trivial rfl
    · split
      · exact h.goto_other hsome hmem trivial rfl
      · rcases classify_cases lib t code with ⟨numeric, e⟩ | ⟨code', e⟩ | e
        all_goals rw [e]; exact h.goto_other hsome hmem trivial rfl
  | totp t code =>
    have hmem := h.not_mem hi fun _ hcounts => hcounts
    dsimp only [TwoFactor.proceedAt]
    split
    · exact h.goto_other hsome hmem trivial rfl
    · next hfree =>
      split
      · exact h.goto_other hsome hmem (isLocked_eq_false hfree) rfl
      · next hwrong =>
        obtain ⟨hknows, hbelow⟩ := hp hfree
        exact h.miss hsome hmem (hbelow hwrong) (hknows.not_locked (isLocked_eq_false hfree))
  | backup t code =>
    have hmem := h.not_mem hi fun _ hcounts => hcounts
    dsimp only [TwoFactor.proceedAt]
    split
    · exact h.goto_other hsome hmem trivial rfl
    · next hfree =>
      split
      · exact h.goto_other hsome hmem trivial rfl
      · next hvalid =>
        obtain ⟨hknows, hbelow⟩ := hp hfree (not_not.mp hvalid)
        cases hmatch : matchingCode lib s.codes code with
        | some bc => exact h.goto_other hsome hmem (isLocked_eq_false hfree) rfl
        | none =>
          exact h.miss hsome hmem (hbelow (by rw [hmatch]; rfl)) (hknows.not_locked (isLocked_eq_false hfree))
  | marking t codeId =>
    have hmem := h.not_mem hi fun _ hcounts => hcounts
    dsimp only [TwoFactor.proceedAt]
    split
    · have hmarked : (s.mark codeId).Counted :=
        ⟨h.past, h.nodup, h.length, h.recorded, fun hne => (h.quiet hne).imp fun _ q => ⟨q.le, q.row, q.read, q.counts⟩⟩
      exact hmarked.goto_other hsome hmem hpast rfl
    · exact h.goto_other hsome hmem trivial rfl
  | failing retry =>
    dsimp only [TwoFactor.proceedAt]
    split
    · next hlocked =>
      refine h.goto_other hsome (fun hmem => ?_) trivial rfl
      have hfree := h.not_locked (List.ne_nil_of_mem hmem)
      exact absurd (hfree.symm.trans hlocked) Bool.false_ne_true
    · next hfree =>
      refine h.goto hsome ⟨isLocked_eq_false hfree, le_rfl⟩ (fun since hsince => hsince.row) fun hmem => ⟨rfl, ?_⟩
      intro since hsince
      obtain ⟨q, hq, hcounts⟩ := hsince.counts i hmem
      obtain rfl := Option.some.inj (hi.symm.trans hq)
      exact ⟨hsince.le, le_rfl, fun hlt => absurd hlt (lt_irrefl _), hcounts⟩
  | counting retry failedAttempts lockedUntil now =>
    dsimp only [TwoFactor.proceedAt]
    split
    · next hwrites =>
      obtain ⟨rfl, -⟩ := hwrites
      exact h.increment hsome fun since hsince => hsince.read _ (List.mem_of_getElem? hi)
    · next hchanged => exact h.conflict hi hchanged
  | resetting t =>
    refine ⟨fun q hq => ?_, List.nodup_nil, Nat.zero_le _, Nat.zero_le _, fun hne => absurd rfl hne⟩
    exact (mem_goto hq).elim (fun e => e ▸ trivial) (h.past q)
  | returned result => exact h

/-- **Step.** Every orderly step keeps the count. -/
theorem Account.Counted.step (h : s.Counted) (ha : Orderly lib s a) : (step lib s a).Counted := by
  cases a with
  | load code =>
    have hlt : ∀ j ∈ s.wrong, j < s.calls.length := by
      intro j hj
      obtain ⟨since, hsince⟩ := h.quiet (List.ne_nil_of_mem hj)
      obtain ⟨p, hp, -⟩ := hsince.counts j hj
      exact (List.getElem?_eq_some_iff.mp hp).1
    have hcalls : ∀ j ∈ s.wrong, (s.calls ++ [.loaded s.row code])[j]? = s.calls[j]? := fun j hj =>
      List.getElem?_append_left (hlt j hj)
    refine ⟨fun p hp => ?_, h.nodup, h.length, ?_, fun hne => ?_⟩
    · rcases List.mem_append.mp hp with hp | hp
      · exact h.past p hp
      · rw [List.mem_singleton.mp hp]; trivial
    · refine le_of_eq_of_le (List.countP_congr fun j hj => ?_) h.recorded
      rw [Account.failingAt, Account.failingAt, TwoFactor.step, hcalls j hj]
    · obtain ⟨since, hsince⟩ := h.quiet hne
      refine ⟨since, hsince.le, hsince.row, fun p hp => ?_, fun j hj => ?_⟩
      · rcases List.mem_append.mp hp with hp | hp
        · exact hsince.read p hp
        · rw [List.mem_singleton.mp hp]; rfl
      · obtain ⟨p, hp, hcounts⟩ := hsince.counts j hj
        exact ⟨p, (hcalls j hj).trans hp, hcounts⟩
  | proceed i =>
    dsimp only [TwoFactor.step]
    split
    · next p hi => exact h.proceedAt hi (ha p hi)
    · exact h
  | wait elapsed =>
    have hle : s.clock ≤ s.clock + elapsed := by omega
    refine ⟨fun p hp => (h.past p hp).mono hle, h.nodup, h.length, h.recorded, fun hne => ?_⟩
    obtain ⟨since, hsince⟩ := h.quiet hne
    exact ⟨since, hsince.le.trans hle, hsince.row, hsince.read, hsince.counts⟩

theorem not_locked_of_comparing (ha : Orderly lib s a) (ht : t ∈ comparing lib s a) : ¬s.row.isLocked s.clock := by
  cases a with
  | load code => exact absurd ht (Option.not_mem_none t)
  | wait elapsed => exact absurd ht (Option.not_mem_none t)
  | proceed i =>
    obtain ⟨p, hi, hp⟩ := Option.bind_eq_some_iff.mp ht
    have horderly := ha p hi
    rw [Bool.not_eq_true]
    cases p with
    | totp t' code =>
      rw [Phase.comparing] at hp
      split at hp
      · exact absurd hp (by simp)
      · next hfree => exact (horderly hfree).1.not_locked (isLocked_eq_false hfree)
    | backup t' code =>
      rw [Phase.comparing] at hp
      split at hp
      · exact absurd hp (by simp)
      · next hfree =>
        obtain ⟨hfree, hvalid⟩ := not_or.mp hfree
        exact (horderly hfree (not_not.mp hvalid)).1.not_locked (isLocked_eq_false hfree)
    | _ => exact absurd hp (by simp [Phase.comparing])

theorem Account.Counted.lock_stays (h : s.Counted) (ha : Orderly lib s a) (hlocked : s.row.isLocked s.clock) :
    (TwoFactor.step lib s a).row.lockedUntil = s.row.lockedUntil := by
  cases a with
  | load code => rfl
  | wait elapsed => rfl
  | proceed i =>
    dsimp only [TwoFactor.step]
    split
    · next p hi =>
      have hpast : p.Past s.clock := h.past p (List.mem_of_getElem? hi)
      have horderly := ha p hi
      cases p with
      | counting retry failedAttempts lockedUntil now =>
        have hstill : s.row.isLocked now = true := by
          by_contra hfree
          exact absurd (not_ahead_of_le hpast.2 (isLocked_eq_false hfree)) (by simpa [TwoFA.isLocked] using hlocked)
        dsimp only [TwoFactor.proceedAt]
        rw [if_neg fun hwrites => hwrites.2 hstill]
        split <;> rfl
      | resetting t =>
        have hfree := Account.Knows.not_locked horderly hpast
        exact absurd hlocked (by simp [TwoFA.isLocked, hfree])
      | returned result => rfl
      | _ =>
        dsimp only [TwoFactor.proceedAt]
        repeat' split
        all_goals rfl
    · rfl

/-! ## Backup codes -/

/-- A code that was marked is used, and was marked once. -/
structure Account.Marked (s : Account) : Prop where
  nodup : s.marked.Nodup
  used : ∀ id ∈ s.marked, ∀ code ∈ s.codes, code.id = id → code.isUsed = true

theorem Account.Marked.mark (h : s.Marked) {codeId : ℕ}
    (hunused : s.codes.any fun code => decide (code.id = codeId) && !code.isUsed) : (s.mark codeId).Marked where
  nodup := by
    refine List.nodup_cons.mpr ⟨fun hmem => ?_, h.nodup⟩
    obtain ⟨code, hcode, hsel⟩ := List.any_eq_true.mp hunused
    rw [Bool.and_eq_true, decide_eq_true_eq, Bool.not_eq_true'] at hsel
    rw [h.used codeId hmem code hcode hsel.1] at hsel
    exact absurd hsel.2 (by simp)
  used id hid code hcode he := by
    obtain ⟨old, hold, rfl⟩ := List.mem_map.mp hcode
    by_cases hsel : old.id = codeId ∧ ¬old.isUsed = true
    · rw [if_pos hsel]
    · rw [if_neg hsel] at he ⊢
      rcases List.mem_cons.mp hid with rfl | hid
      · exact not_not.mp fun hused => hsel ⟨he, hused⟩
      · exact h.used id hid old hold he

theorem Account.Marked.step (h : s.Marked) (a : Action) : (step lib s a).Marked := by
  cases a with
  | load code => exact ⟨h.nodup, h.used⟩
  | wait elapsed => exact ⟨h.nodup, h.used⟩
  | proceed i =>
    dsimp only [TwoFactor.step]
    split
    · next p hi =>
      cases p with
      | marking t codeId =>
        dsimp only [TwoFactor.proceedAt]
        split
        · next hunused => exact ⟨(h.mark hunused).nodup, (h.mark hunused).used⟩
        · exact ⟨h.nodup, h.used⟩
      | counting retry failedAttempts lockedUntil now =>
        dsimp only [TwoFactor.proceedAt, Account.increment]
        repeat' split
        all_goals exact ⟨h.nodup, h.used⟩
      | returned result => exact h
      | _ =>
        dsimp only [TwoFactor.proceedAt]
        repeat' split
        all_goals exact ⟨h.nodup, h.used⟩
    · exact h

/-! ## Runs -/

/-- An account before any call. -/
def Account.start (row : TwoFA) (codes : List TwoFABackupCode) (clock : ℤ) : Account := { row, codes, clock }

theorem counted_start (row : TwoFA) (codes : List TwoFABackupCode) (clock : ℤ) :
    (Account.start row codes clock).Counted where
  past _ hp := absurd hp List.not_mem_nil
  nodup := List.nodup_nil
  length := Nat.zero_le _
  recorded := Nat.zero_le _
  quiet hne := absurd rfl hne

theorem marked_start (row : TwoFA) (codes : List TwoFABackupCode) (clock : ℤ) :
    (Account.start row codes clock).Marked where
  nodup := List.nodup_nil
  used _ hid := absurd hid List.not_mem_nil

/-- A library to which no code of an authenticator is right. -/
def guessedLibrary : CodeLibrary where
  validateTOTP _ _ _ := false
  toUpper code := code
  validatePasswordAndHash code codeHash := code == codeHash

/-- A wrong code, then a backup code, one after the other. -/
def twoCalls : List Action :=
  [.load "123456", .proceed 0, .proceed 0, .proceed 0, .proceed 0, .wait 1000000000, .load "ABCD-1234",
    .proceed 1, .proceed 1, .proceed 1, .proceed 1]

/-- Six calls load the row before any of them compares its code. -/
def sixGuesses : List Action :=
  (List.range 6).map (fun _ => .load "123456") ++ (List.range 6).map .proceed ++ (List.range 6).map .proceed

end Vancine.TwoFactor
