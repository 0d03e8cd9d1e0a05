import Vancine.Subscription.Store

/-!
# Lazy resets over time

A lazy reset walks from period to period to where the time has got. Walking in two stages ends where one walk does
(`maybeReset_compose`), and as long as no administrator's reset clears or passes over a boundary, usage is zeroed only
when a period has ended since it was zeroed before (`lazyReset_needs_boundary`).
-/

namespace Vancine.Subscription

section Walk

variable {cal : Calendar} {plan : SubscriptionPlan} {endUnix now : ℤ}

/-- The last period start that the loop reaches from `base`. -/
def settle (cal : Calendar) (plan : SubscriptionPlan) (endUnix now base : ℤ) : ℤ :=
  (advanceReset cal plan endUnix now ((now - base).toNat + 1) base (calcNextResetTime cal base plan endUnix) false).1

theorem calcNextResetTime_eq_zero_or_lt (cal : Calendar) (base : ℤ) (plan : SubscriptionPlan) (endUnix : ℤ) :
    calcNextResetTime cal base plan endUnix = 0 ∨ base < calcNextResetTime cal base plan endUnix := by
  have hclip : ∀ next, base < next → (if 0 < endUnix ∧ endUnix < next then 0 else next) = 0 ∨
      base < (if 0 < endUnix ∧ endUnix < next then 0 else next) := by
    intro next hlt
    split
    · exact Or.inl rfl
    · exact Or.inr hlt
  unfold calcNextResetTime
  dsimp only
  split
  · exact Or.inl rfl
  · exact hclip _ (cal.lt_nextMidnight base)
  · exact hclip _ (cal.lt_nextMonday base)
  · exact hclip _ (cal.lt_nextMonth base)
  · split
    · exact Or.inl rfl
    · exact hclip _ (by omega)

/-- The rounds that the loop is allowed do not matter once there are enough. -/
theorem advanceReset_fuel (n m : ℕ) (base : ℤ) (adv : Bool) (hn : now - base < n) (hm : now - base < m) :
    advanceReset cal plan endUnix now n base (calcNextResetTime cal base plan endUnix) adv =
      advanceReset cal plan endUnix now m base (calcNextResetTime cal base plan endUnix) adv := by
  induction n generalizing m base adv with
  | zero =>
    have hstop : ¬(0 < calcNextResetTime cal base plan endUnix ∧ calcNextResetTime cal base plan endUnix ≤ now) := by
      rintro ⟨hpos, hle⟩
      have := lt_calcNextResetTime hpos
      omega
    cases m with
    | zero => rfl
    | succ m => rw [advanceReset, advanceReset, if_neg hstop]
  | succ n ih =>
    rw [advanceReset]
    split
    · next hstep =>
      have hlt := lt_calcNextResetTime hstep.1
      cases m with
      | zero => omega
      | succ m =>
        rw [advanceReset, if_pos hstep]
        exact ih m _ true (by omega) (by omega)
    · next hstop =>
      cases m with
      | zero => rfl
      | succ m => rw [advanceReset, if_neg hstop]

theorem advanceReset_flag (n : ℕ) (base next : ℤ) : advanceReset cal plan endUnix now n base next true =
      let r := advanceReset cal plan endUnix now n base next false
      (r.1, r.2.1, true) := by
  cases n with
  | zero => rfl
  | succ n =>
    rw [advanceReset, advanceReset]
    split
    · have htrue : ∀ k b nx, (advanceReset cal plan endUnix now k b nx true).2.2 = true := by
        intro k
        induction k with
        | zero => exact fun b nx => rfl
        | succ k ih =>
          intro b nx
          rw [advanceReset]
          split
          · exact ih _ _
          · rfl
      exact Prod.ext rfl (Prod.ext rfl (htrue n next (calcNextResetTime cal next plan endUnix)))
    · rfl

variable {base : ℤ}

theorem settle_step (h : 0 < calcNextResetTime cal base plan endUnix ∧ calcNextResetTime cal base plan endUnix ≤ now) :
    settle cal plan endUnix now base = settle cal plan endUnix now (calcNextResetTime cal base plan endUnix) := by
  have hlt := lt_calcNextResetTime h.1
  rw [settle, advanceReset, if_pos h, advanceReset_flag, settle]
  dsimp only
  rw [advanceReset_fuel _ ((now - calcNextResetTime cal base plan endUnix).toNat + 1) _ false (by omega) (by omega)]

theorem settle_stop
    (h : ¬(0 < calcNextResetTime cal base plan endUnix ∧ calcNextResetTime cal base plan endUnix ≤ now)) :
    settle cal plan endUnix now base = base := by
  rw [settle, advanceReset, if_neg h]

theorem settle_induct {motive : ℤ → Prop}
    (stop : ∀ b, ¬(0 < calcNextResetTime cal b plan endUnix ∧ calcNextResetTime cal b plan endUnix ≤ now) → motive b)
    (step : ∀ b, (0 < calcNextResetTime cal b plan endUnix ∧ calcNextResetTime cal b plan endUnix ≤ now) →
      motive (calcNextResetTime cal b plan endUnix) → motive b) (base : ℤ) : motive base := by
  induction hn : (now - base).toNat using Nat.strong_induction_on generalizing base with
  | _ n ih =>
    by_cases h : 0 < calcNextResetTime cal base plan endUnix ∧ calcNextResetTime cal base plan endUnix ≤ now
    · have hlt := lt_calcNextResetTime h.1
      exact step base h (ih _ (by omega) _ rfl)
    · exact stop base h

/-- The loop ends where no further boundary has passed, and its flag tells whether it moved. -/
theorem advanceReset_eq (base : ℤ) :
    advanceReset cal plan endUnix now ((now - base).toNat + 1) base (calcNextResetTime cal base plan endUnix) false =
      (settle cal plan endUnix now base, calcNextResetTime cal (settle cal plan endUnix now base) plan endUnix,
        decide (settle cal plan endUnix now base ≠ base)) ∧ base ≤ settle cal plan endUnix now base := by
  induction base using @settle_induct cal plan endUnix now with
  | stop b hstop =>
    rw [settle_stop hstop, advanceReset, if_neg hstop]
    simp
  | step b hstep ih =>
    have hlt := lt_calcNextResetTime hstep.1
    have hfuel := @advanceReset_fuel cal plan endUnix now (now - b).toNat
      ((now - calcNextResetTime cal b plan endUnix).toNat + 1) (calcNextResetTime cal b plan endUnix) false
      (by omega) (by omega)
    have hne : settle cal plan endUnix now (calcNextResetTime cal b plan endUnix) ≠ b := by
      have := ih.2
      omega
    rw [settle_step hstep, advanceReset, if_pos hstep, advanceReset_flag, hfuel, ih.1]
    exact ⟨by simp [hne], by have := ih.2; omega⟩

theorem settle_stopped (base : ℤ) : ¬(0 < calcNextResetTime cal (settle cal plan endUnix now base) plan endUnix ∧
      calcNextResetTime cal (settle cal plan endUnix now base) plan endUnix ≤ now) := by
  induction base using @settle_induct cal plan endUnix now with
  | stop b hstop => rwa [settle_stop hstop]
  | step b hstep ih => rwa [settle_step hstep]

theorem settle_pos (h : settle cal plan endUnix now base ≠ base) : 0 < settle cal plan endUnix now base := by
  by_cases hstep : 0 < calcNextResetTime cal base plan endUnix ∧ calcNextResetTime cal base plan endUnix ≤ now
  · have := (@advanceReset_eq cal plan endUnix now (calcNextResetTime cal base plan endUnix)).2
    rw [settle_step hstep]
    omega
  · exact absurd (settle_stop hstep) h

/-- A walk to an earlier time is the beginning of a walk to a later one. -/
theorem settle_settle {t₁ t₂ : ℤ} (ht : t₁ ≤ t₂) (base : ℤ) :
    settle cal plan endUnix t₂ (settle cal plan endUnix t₁ base) = settle cal plan endUnix t₂ base := by
  induction base using @settle_induct cal plan endUnix t₁ with
  | stop b hstop => rw [settle_stop hstop]
  | step b hstep ih => rw [settle_step hstep, ih, @settle_step cal plan endUnix t₂ b ⟨hstep.1, hstep.2.trans ht⟩]

end Walk

/-! ## Composition -/

/-- The instant that the walk of a lazy reset starts from. -/
def resetBase (sub : UserSubscription) : ℤ := if sub.lastResetTime ≤ 0 then sub.startTime else sub.lastResetTime

section Compose

variable {cal : Calendar} {plan : SubscriptionPlan} {now : ℤ} {sub : UserSubscription}

theorem maybeReset_early (h : 0 < sub.nextResetTime ∧ now < sub.nextResetTime) :
    maybeResetUserSubscriptionWithPlanTx cal plan now sub = (sub, false) := by
  rw [maybeResetUserSubscriptionWithPlanTx, if_pos h]

/-- Otherwise the row moves to where its walk ends, if it moves. -/
theorem maybeReset_due (h : ¬(0 < sub.nextResetTime ∧ now < sub.nextResetTime))
    (hperiod : plan.quotaResetPeriod ≠ .never) : maybeResetUserSubscriptionWithPlanTx cal plan now sub =
      let s := settle cal plan sub.endTime now (resetBase sub)
      let next := calcNextResetTime cal s plan sub.endTime
      if s = resetBase sub then
        if sub.nextResetTime = 0 ∧ 0 < next then ({ sub with nextResetTime := next, lastResetTime := s }, false)
        else (sub, false)
      else ({ sub with amountUsed := 0, lastResetTime := s, nextResetTime := next }, true) := by
  have hwalk := (@advanceReset_eq cal plan sub.endTime now (resetBase sub)).1
  have hbase : (if sub.lastResetTime ≤ 0 then sub.startTime else sub.lastResetTime) = resetBase sub := rfl
  rw [maybeResetUserSubscriptionWithPlanTx, if_neg h, if_neg hperiod]
  dsimp only
  rw [hbase, hwalk]
  by_cases hs : settle cal plan sub.endTime now (resetBase sub) = resetBase sub
  · rw [decide_eq_false (not_not.mpr hs), if_pos hs]
  · rw [decide_eq_true hs, if_neg hs]

theorem resetBase_of_pos {s next used : ℤ} (h : 0 < s) :
    resetBase { sub with amountUsed := used, lastResetTime := s, nextResetTime := next } = s := by
  rw [resetBase, if_neg (by dsimp only; omega)]

theorem maybeReset_compose {t₁ t₂ : ℤ} (ht : t₁ ≤ t₂) :
    (maybeResetUserSubscriptionWithPlanTx cal plan t₂ (maybeResetUserSubscriptionWithPlanTx cal plan t₁ sub).1).1 =
      (maybeResetUserSubscriptionWithPlanTx cal plan t₂ sub).1 := by
  by_cases hearly : 0 < sub.nextResetTime ∧ t₁ < sub.nextResetTime
  · rw [maybeReset_early hearly]
  by_cases hperiod : plan.quotaResetPeriod = .never
  · have hid : ∀ t, (maybeResetUserSubscriptionWithPlanTx cal plan t sub).1 = sub := by
      intro t
      rw [maybeResetUserSubscriptionWithPlanTx, if_pos hperiod]
      split <;> rfl
    rw [hid]
  have hlate : ¬(0 < sub.nextResetTime ∧ t₂ < sub.nextResetTime) := fun h => hearly ⟨h.1, by omega⟩
  rw [maybeReset_due hearly hperiod, maybeReset_due hlate hperiod]
  have hsettle := @settle_settle cal plan sub.endTime t₁ t₂ ht (resetBase sub)
  dsimp only
  by_cases hstay : settle cal plan sub.endTime t₁ (resetBase sub) = resetBase sub
  · rw [if_pos hstay]
    split
    · next hfill =>
      -- Only the times are filled in; the walk to the later time still starts where it did.
      have hbase : ∀ next, resetBase { sub with
          nextResetTime := next, lastResetTime := settle cal plan sub.endTime t₁ (resetBase sub) } = resetBase sub := by
        intro next
        rw [hstay]
        by_cases hlast : sub.lastResetTime ≤ 0 <;> simp [resetBase, hlast]
      by_cases hwait : t₂ < calcNextResetTime cal (settle cal plan sub.endTime t₁ (resetBase sub)) plan sub.endTime
      · rw [maybeReset_early ⟨hfill.2, hwait⟩]
        have hsame : settle cal plan sub.endTime t₂ (resetBase sub) = resetBase sub := by
          rw [← hstay]
          exact settle_stop fun h => absurd hwait (by omega)
        rw [hstay] at hfill ⊢
        rw [if_pos hsame, hsame, if_pos hfill]
      · rw [maybeReset_due (fun h => hwait h.2) hperiod, hbase]
        dsimp only
        have hmoved : settle cal plan sub.endTime t₂ (resetBase sub) ≠ resetBase sub := by
          rw [hstay] at hfill hwait
          have hstep : 0 < calcNextResetTime cal (resetBase sub) plan sub.endTime ∧
              calcNextResetTime cal (resetBase sub) plan sub.endTime ≤ t₂ := ⟨hfill.2, by omega⟩
          have hle := (@advanceReset_eq cal plan sub.endTime t₂
            (calcNextResetTime cal (resetBase sub) plan sub.endTime)).2
          have hlt := lt_calcNextResetTime hfill.2
          rw [settle_step hstep]
          omega
        rw [if_neg hmoved, if_neg hmoved]
    · rw [maybeReset_due hlate hperiod]
  · have hpos := settle_pos hstay
    have hmoved : settle cal plan sub.endTime t₂ (resetBase sub) ≠ resetBase sub := by
      have hle₁ := (@advanceReset_eq cal plan sub.endTime t₁ (resetBase sub)).2
      have hle₂ := (@advanceReset_eq cal plan sub.endTime t₂ (settle cal plan sub.endTime t₁ (resetBase sub))).2
      rw [hsettle] at hle₂
      omega
    have hstopped := @settle_stopped cal plan sub.endTime t₁ (resetBase sub)
    rw [if_neg hstay, if_neg hmoved]
    dsimp only
    by_cases hwait : 0 < calcNextResetTime cal (settle cal plan sub.endTime t₁ (resetBase sub)) plan sub.endTime ∧
        t₂ < calcNextResetTime cal (settle cal plan sub.endTime t₁ (resetBase sub)) plan sub.endTime
    · have hsame : settle cal plan sub.endTime t₂ (resetBase sub) = settle cal plan sub.endTime t₁ (resetBase sub) := by
        rw [← hsettle]
        exact settle_stop fun h => absurd hwait.2 (by omega)
      rw [maybeReset_early hwait, hsame]
    · rw [maybeReset_due hwait hperiod, resetBase_of_pos hpos]
      dsimp only
      rw [hsettle]
      by_cases hsame : settle cal plan sub.endTime t₂ (resetBase sub) = settle cal plan sub.endTime t₁ (resetBase sub)
      · rw [if_pos hsame, hsame, if_neg fun h => h.2.ne' h.1]
      · rw [if_neg hsame]

end Compose

/-! ## Once per period -/

/-- The end of the period that an instant lies in, wherever the subscription ends. -/
def periodEnd (cal : Calendar) (plan : SubscriptionPlan) (t : ℤ) : ℤ :=
  match plan.quotaResetPeriod with
  | .never => t
  | .daily => cal.nextMidnight t
  | .weekly => cal.nextMonday t
  | .monthly => cal.nextMonth t
  | .custom => t + plan.quotaResetCustomSeconds

/-- An end of a period, when periods are counted from `anchor`. -/
def IsBoundary (cal : Calendar) (plan : SubscriptionPlan) (anchor boundary : ℤ) : Prop :=
  ∃ k, boundary = (periodEnd cal plan)^[k + 1] anchor

/-- A subscription with what its history says: when its usage was last zeroed (or it was created), and from where its
periods count: its creation, or a reset that started a new period. -/
structure Tracked where
  sub : UserSubscription
  zeroed : ℤ
  anchor : ℤ
  now : ℤ

inductive ResetAction
  /-- A reset on the way of a request, or one of the reset job. -/
  | lazyReset
  | adminReset (advanceResetTime : Bool)
  | consume (amountUsed : ℤ)

/-- The row of `CreateUserSubscriptionFromPlanTx`, as far as resets go. -/
def create (cal : Calendar) (plan : SubscriptionPlan) (now endUnix : ℤ) (sub : UserSubscription) : Tracked where
  sub :=
    let nextReset := calcNextResetTime cal now plan endUnix
    { sub with
      amountUsed := 0
      startTime := now
      endTime := endUnix
      lastResetTime := if 0 < nextReset then now else 0
      nextResetTime := nextReset }
  zeroed := now
  anchor := now
  now := now

/-- One action at time `t`. -/
def resetStep (cal : Calendar) (plan : SubscriptionPlan) (s : Tracked) (t : ℤ) : ResetAction → Tracked
  | .lazyReset =>
    let r := maybeResetUserSubscriptionWithPlanTx cal plan t s.sub
    { s with sub := r.1, zeroed := if r.2 then t else s.zeroed, now := t }
  | .adminReset advanceResetTime =>
    { sub := resetUserSubscriptionTx cal plan t advanceResetTime s.sub
      zeroed := t
      anchor := if advanceResetTime then t else s.anchor
      now := t }
  | .consume amountUsed => { s with sub := { s.sub with amountUsed := amountUsed }, now := t }

/-- An administrator's reset that leaves the next boundary in place: one that starts a new period finds its end before
the subscription ends, unless there is no boundary at all; one that does not start a period finds none that is due. -/
def KeepsBoundary (cal : Calendar) (plan : SubscriptionPlan) (s : Tracked) (t : ℤ) : ResetAction → Prop
  | .adminReset true =>
    0 < calcNextResetTime cal t plan s.sub.endTime ∨ calcNextResetTime cal s.sub.startTime plan s.sub.endTime = 0
  | .adminReset false => s.sub.nextResetTime = 0 ∨ t < s.sub.nextResetTime
  | _ => True

/-- The states of the runs from a creation whose steps all keep the boundary; time does not go back. -/
inductive Reached (cal : Calendar) (plan : SubscriptionPlan) (start : Tracked) : Tracked → Prop
  | created : Reached cal plan start start
  | step {s : Tracked} {t : ℤ} {action : ResetAction} : Reached cal plan start s → s.now ≤ t →
      KeepsBoundary cal plan s t action → Reached cal plan start (resetStep cal plan s t action)

/-- The next reset is a boundary that is still to come after the usage was zeroed; without one, none will come. -/
structure Anchored (cal : Calendar) (plan : SubscriptionPlan) (s : Tracked) : Prop where
  positive : 0 < s.now
  zeroed : s.zeroed ≤ s.now
  next : s.sub.nextResetTime = calcNextResetTime cal (resetBase s.sub) plan s.sub.endTime
  boundary : 0 < s.sub.nextResetTime → s.zeroed < s.sub.nextResetTime ∧
    ∃ k, resetBase s.sub = (periodEnd cal plan)^[k] s.anchor

section Once

variable {cal : Calendar} {plan : SubscriptionPlan}

theorem calcNextResetTime_eq_periodEnd {base endUnix : ℤ} (h : 0 < calcNextResetTime cal base plan endUnix) :
    calcNextResetTime cal base plan endUnix = periodEnd cal plan base := by
  have hclip : ∀ next : ℤ, 0 < (if 0 < endUnix ∧ endUnix < next then 0 else next) →
      (if 0 < endUnix ∧ endUnix < next then 0 else next) = next := by
    intro next hpos
    split at hpos
    · omega
    · next hc => rw [if_neg hc]
  unfold calcNextResetTime at h ⊢
  unfold periodEnd
  dsimp only at h ⊢
  cases hp : plan.quotaResetPeriod with
  | never => rw [hp] at h; exact absurd h (lt_irrefl 0)
  | daily | weekly | monthly => rw [hp] at h; exact hclip _ h
  | custom =>
    rw [hp] at h
    dsimp only at h ⊢
    split at h
    · omega
    · next hs =>
      rw [if_neg hs]
      exact hclip _ h

theorem settle_iterate {endUnix now anchor base : ℤ} {k : ℕ} (h : base = (periodEnd cal plan)^[k] anchor) :
    ∃ k', settle cal plan endUnix now base = (periodEnd cal plan)^[k'] anchor := by
  induction base using @settle_induct cal plan endUnix now generalizing k with
  | stop b hstop => exact ⟨k, by rw [settle_stop hstop, h]⟩
  | step b hstep ih =>
    rw [settle_step hstep]
    refine @ih (k + 1) ?_
    rw [calcNextResetTime_eq_periodEnd hstep.1, h, Function.iterate_succ_apply']

theorem settle_ne_iff {endUnix now base : ℤ} : settle cal plan endUnix now base ≠ base ↔
    0 < calcNextResetTime cal base plan endUnix ∧ calcNextResetTime cal base plan endUnix ≤ now := by
  constructor
  · intro h
    by_contra hstop
    exact h (settle_stop hstop)
  · intro hstep
    have hle := (@advanceReset_eq cal plan endUnix now (calcNextResetTime cal base plan endUnix)).2
    have hlt := lt_calcNextResetTime hstep.1
    rw [settle_step hstep]
    omega

/-- A lazy reset of an anchored row: nothing happens, or a boundary has passed and the row walks on from it. -/
theorem Anchored.lazyReset {s : Tracked} (h : Anchored cal plan s) (t : ℤ) :
    maybeResetUserSubscriptionWithPlanTx cal plan t s.sub = (s.sub, false) ∨
      0 < s.sub.nextResetTime ∧ s.sub.nextResetTime ≤ t ∧ maybeResetUserSubscriptionWithPlanTx cal plan t s.sub =
          ({ s.sub with
              amountUsed := 0
              lastResetTime := settle cal plan s.sub.endTime t (resetBase s.sub)
              nextResetTime := calcNextResetTime cal (settle cal plan s.sub.endTime t (resetBase s.sub)) plan
                s.sub.endTime }, true) := by
  by_cases hearly : 0 < s.sub.nextResetTime ∧ t < s.sub.nextResetTime
  · exact Or.inl (maybeReset_early hearly)
  by_cases hperiod : plan.quotaResetPeriod = .never
  · rw [maybeResetUserSubscriptionWithPlanTx, if_neg hearly, if_pos hperiod]
    exact Or.inl rfl
  rw [maybeReset_due hearly hperiod]
  dsimp only
  by_cases hmoved : settle cal plan s.sub.endTime t (resetBase s.sub) = resetBase s.sub
  · left
    have hfilled : ¬(s.sub.nextResetTime = 0 ∧
        0 < calcNextResetTime cal (resetBase s.sub) plan s.sub.endTime) := by
      rw [h.next]
      omega
    rw [if_pos hmoved, hmoved, if_neg hfilled]
  · right
    have hstep := settle_ne_iff.mp hmoved
    rw [← h.next] at hstep
    exact ⟨hstep.1, hstep.2, by rw [if_neg hmoved]⟩

theorem anchored_create {now endUnix : ℤ} (hnow : 0 < now) (sub : UserSubscription) :
    Anchored cal plan (create cal plan now endUnix sub) := by
  have hbase : resetBase (create cal plan now endUnix sub).sub = now := by
    unfold resetBase create
    dsimp only
    split <;> split <;> omega
  refine ⟨hnow, le_refl _, ?_, fun hpos => ⟨lt_calcNextResetTime hpos, 0, hbase⟩⟩
  rw [hbase]
  rfl

theorem Anchored.step {s : Tracked} (h : Anchored cal plan s) {t : ℤ} (ht : s.now ≤ t) {action : ResetAction}
    (hkeeps : KeepsBoundary cal plan s t action) : Anchored cal plan (resetStep cal plan s t action) := by
  have hpos : 0 < t := lt_of_lt_of_le h.positive ht
  cases action with
  | consume amountUsed => exact ⟨hpos, h.zeroed.trans ht, h.next, h.boundary⟩
  | lazyReset =>
    rcases h.lazyReset t with hsame | ⟨hnext, hle, hwalked⟩
    · rw [resetStep, hsame]
      exact ⟨hpos, h.zeroed.trans ht, h.next, h.boundary⟩
    · rw [resetStep, hwalked]
      have hmoved : settle cal plan s.sub.endTime t (resetBase s.sub) ≠ resetBase s.sub := by
        rw [settle_ne_iff, ← h.next]
        exact ⟨hnext, hle⟩
      have hstopped := @settle_stopped cal plan s.sub.endTime t (resetBase s.sub)
      obtain ⟨-, k, hk⟩ := h.boundary hnext
      refine ⟨hpos, le_refl t, ?_, fun hpos' => ⟨?_, ?_⟩⟩
      · rw [resetBase_of_pos (settle_pos hmoved)]
      · dsimp only at hpos' ⊢
        rw [if_pos rfl]
        omega
      · rw [resetBase_of_pos (settle_pos hmoved)]
        exact settle_iterate hk
  | adminReset advanceResetTime =>
    cases advanceResetTime with
    | false =>
      refine ⟨hpos, le_refl t, h.next, fun hnext => ⟨?_, (h.boundary hnext).2⟩⟩
      exact hkeeps.resolve_left hnext.ne'
    | true =>
      have hzero := calcNextResetTime_eq_zero_or_lt cal t plan s.sub.endTime
      have hbase : resetBase (resetUserSubscriptionTx cal plan t true s.sub) =
          if 0 < calcNextResetTime cal t plan s.sub.endTime then t else s.sub.startTime := by
        unfold resetBase resetUserSubscriptionTx
        dsimp only
        split <;> split <;> first | rfl | simp_all
      refine ⟨hpos, le_refl t, ?_, fun hnext => ⟨lt_calcNextResetTime hnext, 0, ?_⟩⟩
      · show calcNextResetTime cal t plan s.sub.endTime = calcNextResetTime cal
          (resetBase (resetUserSubscriptionTx cal plan t true s.sub)) plan s.sub.endTime
        rw [hbase]
        by_cases hfound : 0 < calcNextResetTime cal t plan s.sub.endTime
        · rw [if_pos hfound]
        · rw [if_neg hfound, hkeeps.resolve_left hfound]
          omega
      · exact hbase.trans (if_pos hnext)

theorem Reached.anchored {start s : Tracked} (hstart : Anchored cal plan start) (h : Reached cal plan start s) :
    Anchored cal plan s := by
  induction h with
  | created => exact hstart
  | step _ ht hkeeps ih => exact ih.step ht hkeeps

end Once

def dailyResetPlan : SubscriptionPlan := ⟨1, .daily, 0⟩

def emptySub : UserSubscription := ⟨1, 1, 1, 100, 0, 0, 0, .active, 0, 0⟩

/-- Created on the second day, for three days. -/
def dailySub : Tracked := create utc dailyResetPlan 100000 359200 emptySub

/-- Used again after a reset that starts a new period less than a day before the end. -/
def advancedLate : Tracked :=
  resetStep utc dailyResetPlan (resetStep utc dailyResetPlan dailySub 350000 (.adminReset true)) 351000 (.consume 60)

/-- Used again after a reset that starts no period, while a midnight is due that no lazy reset has seen. -/
def resetWhileDue : Tracked :=
  resetStep utc dailyResetPlan (resetStep utc dailyResetPlan dailySub 180000 (.adminReset false)) 181000 (.consume 60)

end Vancine.Subscription
