import Vancine.Subscription.Usage
import Vancine.Billing.Session

/-!
# Refunding a subscription charge under failures

`SubscriptionFunding.Refund` repeats `RefundSubscriptionPreConsume` until an attempt returns nil. An
attempt takes the amount off the row in a transaction of its own (`PostConsumeUserSubscriptionDelta`)
and marks the record afterwards, so an attempt whose last write fails has given the amount back and
leaves a record that the next attempt takes for an open one.

`innerCommits` counts, on the failing statements alone, how often the amount leaves the row. The used
amount after any sequence of attempts follows from that number, and with it when the refund is made
exactly once.
-/

namespace Vancine.Billing

open Lib Subscription

/-- Attempt after attempt. The flag tells that some attempt returned nil. -/
def refundAttempts (requestId : String) : List RefundFaults → SubscriptionStore →
    SubscriptionStore × Bool
  | [], st => (st, false)
  | f :: fs, st =>
    let a := refundSubscriptionPreConsume f requestId st
    let rest := refundAttempts requestId fs a.store
    (rest.1, a.error.isNone || rest.2)

/-- The inner transaction of the attempt commits on an open record. -/
def reachesRow (f : RefundFaults) : Bool := !f.lookup && !f.delta

/-- No statement of the attempt fails. -/
def clean (f : RefundFaults) : Bool := reachesRow f && !f.save

/-- How many inner transactions commit until the record is marked. -/
def innerCommits : List RefundFaults → ℕ
  | [] => 0
  | f :: fs =>
    if reachesRow f then if f.save then innerCommits fs + 1 else 1
    else innerCommits fs

/-- What went off the used amount of a row between two states of the store. -/
def subtracted (st st' : SubscriptionStore) (id : ℤ) : ℤ :=
  (st.used id).getD 0 - (st'.used id).getD 0

/-- The refund of an open record takes off at most what the record says, and exactly that once an
attempt returned nil. -/
def RefundsOnce (requestId : String) (fs : List RefundFaults) (st : SubscriptionStore) : Prop :=
  ∀ record ∈ st.findRecord requestId, record.status = .consumed →
    let r := refundAttempts requestId fs st
    let off := subtracted st r.1 record.userSubscriptionId
    off ≤ record.preConsumed ∧ (r.2 = true → off = record.preConsumed)

/-- At most one inner transaction commits, or the row holds no more than one refund; and when an
attempt goes through, the row holds the whole of it. -/
def SubtractsOnce (requestId : String) (fs : List RefundFaults) (st : SubscriptionStore) : Prop :=
  ∀ record ∈ st.findRecord requestId, record.status = .consumed → isBlank requestId = false →
    ∀ sub ∈ st.findSub record.userSubscriptionId,
      (innerCommits fs ≤ 1 ∨ sub.amountUsed ≤ record.preConsumed) ∧
        (fs.any clean = true → record.preConsumed ≤ sub.amountUsed)

/-! ## Records hold positive amounts -/

/-- What pre-consuming promises of every record. -/
def RecordsPositive (st : SubscriptionStore) : Prop := ∀ record ∈ st.records, 0 < record.preConsumed

variable {st st' : SubscriptionStore}

theorem RecordsPositive.of_records (h : RecordsPositive st) (hr : st'.records = st.records) : RecordsPositive st' := by
  intro record hm
  rw [hr] at hm
  exact h record hm

theorem RecordsPositive.consumeFrom {cal : Calendar} {now : ℤ} {requestId : String}
    {userId amount : ℤ} (hpos : 0 < amount) {c : PreConsumeCommit} (subs : List UserSubscription) :
    ∀ (st : SubscriptionStore) (resets : List ℤ), RecordsPositive st →
      consumeFrom cal now requestId userId amount st resets subs = .ok c → RecordsPositive c.store := by
  induction subs with
  | nil => intro st resets _ h; simp [Subscription.consumeFrom] at h
  | cons sub rest ih =>
    intro st resets hst h
    unfold Subscription.consumeFrom at h
    cases hp : st.getSubscriptionPlanById sub.planId with
    | none => rw [hp] at h; cases h
    | some plan =>
      rw [hp] at h
      dsimp only at h
      generalize maybeResetUserSubscriptionWithPlanTx cal plan now sub = r at h
      by_cases hsmall : 0 < r.1.amountTotal ∧ r.1.amountTotal - r.1.amountUsed < amount
      · rw [if_pos hsmall] at h
        exact ih (st.saveSub r.1) _ (hst.of_records rfl) h
      rw [if_neg hsmall] at h
      cases hdup : (st.saveSub r.1).findRecord requestId with
      | some dup =>
        rw [hdup] at h
        dsimp only at h
        by_cases hre : dup.status = .refunded
        · rw [if_pos hre] at h; cases h
        · rw [if_neg hre] at h
          cases h
          exact hst.of_records rfl
      | none =>
        rw [hdup] at h
        cases h
        intro record hm
        rcases List.mem_append.mp hm with hm | hm
        · exact hst record hm
        · rw [List.mem_singleton.mp hm]; exact hpos

theorem resetAll_records (cal : Calendar) (plan : SubscriptionPlan) (now : ℤ) (adv : Bool)
    (subs : List UserSubscription) :
    ∀ st : SubscriptionStore, (resetAll cal plan now adv subs st).1.records = st.records := by
  induction subs with
  | nil => intro st; rfl
  | cons sub rest ih =>
    intro st
    exact ih (st.saveSub (resetUserSubscriptionTx cal plan now adv sub))

theorem postConsume_records {fault : Bool} {id delta : ℤ}
    (h : postConsumeUserSubscriptionDelta fault id delta st = .ok st') : st'.records = st.records := by
  rcases postConsume_ok h with ⟨-, rfl⟩ | ⟨-, -, -, sub, -, -, rfl⟩
  · rfl
  · rfl

theorem RecordsPositive.saveRecord {st : SubscriptionStore} (h : RecordsPositive st)
    {requestId : String} {record : SubscriptionPreConsumeRecord}
    (hfind : st.findRecord requestId = some record) (status : PreConsumeStatus) :
    RecordsPositive (st.saveRecord { record with status := status }) := by
  intro x hx
  rcases Table.mem_save hx with rfl | ⟨hm, -⟩
  · exact h record (Table.find_mem hfind)
  · exact h x hm

theorem RecordsPositive.refund {st : SubscriptionStore} (h : RecordsPositive st) (f : RefundFaults)
    (requestId : String) : RecordsPositive (refundSubscriptionPreConsume f requestId st).store := by
  unfold refundSubscriptionPreConsume
  dsimp only
  by_cases hblank : isBlank requestId = true
  · rw [if_pos hblank]; exact h
  rw [if_neg hblank]
  by_cases hlookup : f.lookup = true
  · rw [if_pos hlookup]; exact h
  rw [if_neg hlookup]
  cases hr : st.findRecord requestId with
  | none => exact h
  | some record =>
    dsimp only
    by_cases hre : record.status = .refunded
    · rw [if_pos hre]; exact h
    rw [if_neg hre]
    by_cases hle : record.preConsumed ≤ 0
    · rw [if_pos hle]
      split_ifs
      · exact h
      · exact h.saveRecord hr .refunded
    rw [if_neg hle]
    cases hd : postConsumeUserSubscriptionDelta f.delta record.userSubscriptionId
        (-record.preConsumed) st with
    | error e => exact h
    | ok st' =>
      have hrec := postConsume_records hd
      have hst' : RecordsPositive st' := h.of_records hrec
      have hr' : st'.findRecord requestId = some record := by
        unfold SubscriptionStore.findRecord at hr ⊢
        rw [hrec]; exact hr
      dsimp only
      split_ifs
      · exact hst'
      · exact hst'.saveRecord hr' .refunded

theorem usageStep_recordsPositive (cal : Calendar) (s : UsageState) (a : UsageAction)
    (h : RecordsPositive s.store) : RecordsPositive (usageStep cal s a).store := by
  cases a with
  | preConsume now env requestId userId amount =>
    dsimp only [usageStep]
    cases hc : preConsumeUserSubscription cal now env requestId userId amount s.store with
    | error e => exact h
    | ok c =>
      have hpos : RecordsPositive c.store := by
        obtain ⟨hamount, -, ⟨hst, -⟩ | hloop⟩ := preConsume_ok hc
        · rw [hst]; exact h
        · exact RecordsPositive.consumeFrom hamount _ _ _ h hloop
      dsimp only
      cases c.charged with
      | none => exact hpos
      | some id => exact hpos
  | postDelta fault requestId id delta =>
    dsimp only [usageStep]
    cases hd : postConsumeUserSubscriptionDelta fault id delta s.store with
    | error e => exact h
    | ok st =>
      have hst := h.of_records (postConsume_records hd)
      dsimp only
      split_ifs
      · exact hst
      · exact hst
      · exact hst
  | refund f requestId =>
    have hr := h.refund f requestId
    dsimp only [usageStep]
    split
    · exact hr
    · exact hr
  | resetDue now id =>
    dsimp only [usageStep, UsageState.applyResets, resetDueSubscription]
    split
    · exact h
    · rename_i locked _
      split
      · exact h
      · by_cases hdue : 0 < locked.nextResetTime ∧ locked.nextResetTime ≤ now
        · rw [if_pos hdue]; exact h.of_records rfl
        · rw [if_neg hdue]; exact h
  | adminResetUser now userId planId adv =>
    dsimp only [usageStep]
    cases hr : adminResetUserSubscriptionsByPlan cal now userId planId adv s.store with
    | error e => exact h
    | ok r =>
      unfold adminResetUserSubscriptionsByPlan at hr
      split_ifs at hr
      split at hr
      · cases hr
      dsimp only at hr
      split_ifs at hr
      cases hr
      exact h.of_records (resetAll_records ..)
  | adminResetPlan now planId adv =>
    dsimp only [usageStep]
    cases hr : adminResetPlanSubscriptions cal now planId adv s.store with
    | error e => exact h
    | ok r =>
      unfold adminResetPlanSubscriptions at hr
      split at hr
      · cases hr
      cases hr
      exact h.of_records (resetAll_records ..)

theorem run_recordsPositive (cal : Calendar) {s : UsageState} (hs : RecordsPositive s.store)
    (as : List UsageAction) : RecordsPositive (run (usageStep cal) s as).store :=
  run_invariant (I := fun s : UsageState => RecordsPositive s.store) (usageStep_recordsPositive cal) hs as

/-! ## One attempt -/

section Attempt

variable {requestId : String} {record : SubscriptionPreConsumeRecord} {st : SubscriptionStore}
  {f : RefundFaults}

theorem refund_marked (hr : st.findRecord requestId = some record)
    (hs : record.status = .refunded) : (refundSubscriptionPreConsume f requestId st).store = st := by
  unfold refundSubscriptionPreConsume
  dsimp only
  by_cases hblank : isBlank requestId = true
  · rw [if_pos hblank]
  rw [if_neg hblank]
  by_cases hlookup : f.lookup = true
  · rw [if_pos hlookup]
  rw [if_neg hlookup, hr]
  dsimp only
  rw [if_pos hs]

/-- An attempt that does not reach the row changes nothing and fails. -/
theorem refund_missed (hr : st.findRecord requestId = some record) (hs : record.status = .consumed)
    (hp : 0 < record.preConsumed) (hmiss : isBlank requestId = true ∨ reachesRow f = false ∨
      st.findSub record.userSubscriptionId = none) : (refundSubscriptionPreConsume f requestId st).store = st ∧
      (refundSubscriptionPreConsume f requestId st).error.isNone = false := by
  unfold refundSubscriptionPreConsume
  dsimp only
  by_cases hblank : isBlank requestId = true
  · rw [if_pos hblank]; exact ⟨rfl, rfl⟩
  rw [if_neg hblank]
  by_cases hlookup : f.lookup = true
  · rw [if_pos hlookup]; exact ⟨rfl, rfl⟩
  rw [if_neg hlookup, hr]
  dsimp only
  rw [if_neg (by rw [hs]; decide), if_neg (by omega)]
  cases hd : postConsumeUserSubscriptionDelta f.delta record.userSubscriptionId
      (-record.preConsumed) st with
  | error e => exact ⟨rfl, rfl⟩
  | ok st' =>
    exfalso
    rcases postConsume_ok hd with ⟨h0, -⟩ | ⟨-, hfault, -, sub, hsub, -, -⟩
    · omega
    · rcases hmiss with h | h | h
      · exact hblank h
      · simp [reachesRow, hlookup, hfault] at h
      · rw [h] at hsub; cases hsub

/-- An attempt that reaches the row takes the amount off, and marks the record unless its last write
fails. -/
theorem refund_reached (hv : st.Valid) (hr : st.findRecord requestId = some record)
    (hs : record.status = .consumed) (hp : 0 < record.preConsumed)
    (hblank : isBlank requestId = false) (hreach : reachesRow f = true) {sub : UserSubscription}
    (hsub : st.findSub record.userSubscriptionId = some sub) :
    let st' := st.saveSub { sub with amountUsed := max (sub.amountUsed - record.preConsumed) 0 }
    refundSubscriptionPreConsume f requestId st =
      if f.save then ⟨st', some .database, some (record.userSubscriptionId, record.preConsumed)⟩
      else ⟨st'.saveRecord { record with status := .refunded }, none,
        some (record.userSubscriptionId, record.preConsumed)⟩ := by
  simp only [reachesRow, Bool.and_eq_true, Bool.not_eq_true'] at hreach
  have hmem := SubscriptionStore.findSub_mem hsub
  have hid := SubscriptionStore.findSub_id hsub
  have hbound := hv.bounded sub hmem
  have hneg : -record.preConsumed ≠ 0 := by omega
  have hd := postConsume_eq (by rw [← hid]; exact hv.pos sub hmem) hneg hsub
    (fun ht => by have := hbound.2 ht; omega)
  unfold refundSubscriptionPreConsume
  dsimp only
  rw [if_neg (by rw [hblank]; decide), if_neg (by rw [hreach.1]; decide), hr]
  dsimp only
  rw [if_neg (by rw [hs]; decide), if_neg (by omega), hreach.2, hd, ← sub_eq_add_neg]

theorem findRecord_saveRecord (status : PreConsumeStatus) (hr : st.findRecord requestId = some record) :
    (st.saveRecord { record with status := status }).findRecord requestId =
      some { record with status := status } := by
  have hkey : record.requestId = requestId := Table.find_key hr
  rw [← hkey] at hr ⊢
  exact Table.find_save_self hr rfl

end Attempt

/-! ## Every sequence of attempts -/

section Attempts

variable {requestId : String} {record : SubscriptionPreConsumeRecord}

variable {st : SubscriptionStore}

theorem refundAttempts_marked (fs : List RefundFaults) (hr : st.findRecord requestId = some record)
    (hs : record.status = .refunded) : (refundAttempts requestId fs st).1 = st := by
  induction fs with
  | nil => rfl
  | cons f fs ih =>
    show (refundAttempts requestId fs (refundSubscriptionPreConsume f requestId st).store).1 = st
    rw [refund_marked hr hs]
    exact ih

/-- Where no attempt can reach a row, nothing changes and no attempt returns nil. -/
theorem refundAttempts_missed (fs : List RefundFaults) (hr : st.findRecord requestId = some record)
    (hs : record.status = .consumed) (hp : 0 < record.preConsumed)
    (hmiss : isBlank requestId = true ∨ st.findSub record.userSubscriptionId = none) :
    refundAttempts requestId fs st = (st, false) := by
  induction fs with
  | nil => rfl
  | cons f fs ih =>
    obtain ⟨hst, herr⟩ := refund_missed (f := f) hr hs hp
      (hmiss.imp_right fun h => Or.inr h)
    show ((refundAttempts requestId fs _).1, _ || (refundAttempts requestId fs _).2) = _
    rw [hst, ih, herr]
    rfl

/-- **The used amount after any sequence of attempts**: the recorded amount went off once for every
inner transaction that committed, not below zero. -/
theorem refundAttempts_reached (hp : 0 < record.preConsumed) (hs : record.status = .consumed)
    (hblank : isBlank requestId = false) (fs : List RefundFaults) :
    ∀ {st : SubscriptionStore} {sub : UserSubscription}, st.Valid → st.findRecord requestId = some record →
      st.findSub record.userSubscriptionId = some sub →
      (refundAttempts requestId fs st).1.used record.userSubscriptionId =
          some (max (sub.amountUsed - innerCommits fs * record.preConsumed) 0) ∧
        (refundAttempts requestId fs st).2 = fs.any clean := by
  induction fs with
  | nil =>
    intro st sub hv hr hsub
    have hbound := (hv.bounded sub (SubscriptionStore.findSub_mem hsub)).1
    refine ⟨?_, rfl⟩
    show (st.findSub _).map _ = _
    rw [hsub]
    simp [innerCommits, hbound]
  | cons f fs ih =>
    intro st sub hv hr hsub
    have hid := SubscriptionStore.findSub_id hsub
    have hmem := SubscriptionStore.findSub_mem hsub
    have hsub' : st.findSub sub.id = some sub := by rw [hid]; exact hsub
    show (refundAttempts requestId fs _).1.used _ = _ ∧ (_ || (refundAttempts requestId fs _).2) = _
    by_cases hreach : reachesRow f = true
    · rw [refund_reached hv hr hs hp hblank hreach hsub]
      have hbound := hv.bounded sub hmem
      set less : UserSubscription :=
        { sub with amountUsed := max (sub.amountUsed - record.preConsumed) 0 } with hless
      have hfind : (st.saveSub less).findSub record.userSubscriptionId = some less := by
        rw [← hid]; exact Table.find_save_self hsub' rfl
      have hr' : (st.saveSub less).findRecord requestId = some record := hr
      by_cases hsave : f.save = true
      · -- the amount is off the row and the record is still open
        rw [if_pos hsave]
        have hv' : (st.saveSub less).Valid := hv.saveSub hsub' rfl
          ⟨le_max_right _ _, fun ht => by
            have := hbound.2 ht
            show max (sub.amountUsed - record.preConsumed) 0 ≤ sub.amountTotal
            omega⟩
        obtain ⟨hused, hnil⟩ := ih hv' hr' hfind
        refine ⟨?_, ?_⟩
        · rw [hused]
          simp only [innerCommits, hreach, hsave, if_true, hless]
          push_cast
          congr 1
          have : ((innerCommits fs : ℤ) + 1) * record.preConsumed =
              innerCommits fs * record.preConsumed + record.preConsumed := add_one_mul _ _
          have hnn : 0 ≤ (innerCommits fs : ℤ) * record.preConsumed :=
            mul_nonneg (Int.natCast_nonneg _) hp.le
          omega
        · rw [hnil]; simp [clean, hsave]
      · rw [if_neg hsave]
        refine ⟨?_, ?_⟩
        · rw [refundAttempts_marked fs (findRecord_saveRecord .refunded hr') rfl]
          show ((st.saveSub less).findSub _).map _ = _
          rw [hfind]
          simp [innerCommits, hreach, hsave, hless]
        · simp [clean, hreach, hsave]
    · rw [Bool.not_eq_true] at hreach
      obtain ⟨hst, herr⟩ := refund_missed (f := f) hr hs hp (.inr (.inl hreach))
      obtain ⟨hused, hnil⟩ := ih hv hr hsub
      rw [hst, hused, hnil]
      simp [innerCommits, hreach, herr, clean]

end Attempts

theorem innerCommits_pos (fs : List RefundFaults) (h : fs.any clean = true) : 1 ≤ innerCommits fs := by
  induction fs with
  | nil => simp at h
  | cons f fs ih =>
    rw [List.any_cons, Bool.or_eq_true] at h
    by_cases hreach : reachesRow f = true
    · simp only [innerCommits, hreach, if_true]
      split_ifs
      · omega
      · exact le_refl 1
    · have hnot : clean f = false := by simp [clean, hreach]
      rw [hnot] at h
      simpa [innerCommits, hreach] using ih (h.resolve_left (by simp))

/-- The arithmetic of the law: `n` refunds of `p` off `u`, not below zero. -/
theorem subtracted_once_iff {u p : ℤ} (hu : 0 ≤ u) (hp : 0 < p) (fs : List RefundFaults) :
    (u - max (u - innerCommits fs * p) 0 ≤ p ∧ (fs.any clean = true → u - max (u - innerCommits fs * p) 0 = p)) ↔
      (innerCommits fs ≤ 1 ∨ u ≤ p) ∧ (fs.any clean = true → p ≤ u) := by
  have hclean := innerCommits_pos fs
  generalize innerCommits fs = n at hclean ⊢
  rcases Nat.lt_or_ge 1 n with hn | hn
  · have htwo : 2 * p ≤ n * p := mul_le_mul_of_nonneg_right (by omega) hp.le
    generalize (n : ℤ) * p = m at htwo ⊢
    constructor
    · rintro ⟨hle, heq⟩
      exact ⟨.inr (by omega), fun h => by have := heq h; omega⟩
    · rintro ⟨h1 | h1, hfull⟩
      · omega
      · exact ⟨by omega, fun h => by have := hfull h; omega⟩
  · have hcases : n = 0 ∨ n = 1 := by omega
    rcases hcases with rfl | rfl
    · have hno : fs.any clean = false := by
        cases hany : fs.any clean with
        | false => rfl
        | true => exact absurd (hclean hany) (by omega)
      rw [hno, Nat.cast_zero, zero_mul]
      refine iff_of_true ⟨by omega, fun h => by cases h⟩ ⟨.inl (by omega), fun h => by cases h⟩
    · rw [Nat.cast_one, one_mul]
      constructor
      · rintro ⟨-, heq⟩
        exact ⟨.inl le_rfl, fun h => by have := heq h; omega⟩
      · rintro ⟨-, hfull⟩
        exact ⟨by omega, fun h => by have := hfull h; omega⟩

/-- **Exactly once, and when.** For every request and every sequence of attempts, the refund takes
the recorded amount off once exactly if the inner transaction does not commit a second time before
the record is marked (or the row holds no more than one refund anyway), and the row still holds the
amount when an attempt goes through. -/
theorem refundsOnce_iff {st : SubscriptionStore} (hv : st.Valid) (hpos : RecordsPositive st)
    (requestId : String) (fs : List RefundFaults) :
    RefundsOnce requestId fs st ↔ SubtractsOnce requestId fs st := by
  refine forall₃_congr fun record hr hs => ?_
  have hr' : st.findRecord requestId = some record := hr
  have hp : 0 < record.preConsumed := hpos record (Table.find_mem hr')
  dsimp only
  by_cases hmiss : isBlank requestId = true ∨ st.findSub record.userSubscriptionId = none
  · rw [refundAttempts_missed fs hr' hs hp hmiss]
    refine iff_of_true ⟨?_, fun h => by cases h⟩ fun hblank sub hsub => ?_
    · simp only [subtracted, sub_self]; exact hp.le
    · exfalso
      have hsub' : st.findSub record.userSubscriptionId = some sub := hsub
      rcases hmiss with h | h
      · rw [hblank] at h; cases h
      · rw [h] at hsub'; cases hsub'
  push Not at hmiss
  obtain ⟨hblank, hrow⟩ := hmiss
  replace hblank : isBlank requestId = false := by simpa using hblank
  obtain ⟨sub, hsub⟩ := Option.ne_none_iff_exists'.mp hrow
  obtain ⟨hused, hnil⟩ := refundAttempts_reached hp hs hblank fs hv hr' hsub
  have hbefore : st.used record.userSubscriptionId = some sub.amountUsed := by
    show (st.findSub _).map _ = _
    rw [hsub]; rfl
  have hu := (hv.bounded sub (SubscriptionStore.findSub_mem hsub)).1
  simp only [subtracted, hbefore, hused, hnil, hblank, hsub, Option.getD_some, Option.mem_some_iff,
    forall_eq', true_imp_iff]
  exact subtracted_once_iff hu hp fs

/-! Two requests of user 7 charged on one subscription: 10 units and 40 units. -/

def chargedStore : SubscriptionStore :=
  (run (usageStep utc) (UsageState.start dailyStore)
    [.preConsume 10 {} "r1" 7 10, .preConsume 20 {} "r2" 7 40]).store

theorem chargedStore_valid : chargedStore.Valid := run_valid utc dailyStore_fresh _

theorem chargedStore_positive : RecordsPositive chargedStore :=
  run_recordsPositive utc (fun _ h => by cases h) _

/-- The first two attempts fail before the row is written, the third goes through. -/
theorem refundsOnce_third_attempt :
    chargedStore.Valid ∧ RecordsPositive chargedStore ∧
      RefundsOnce "r1" [{ lookup := true }, { delta := true }, {}] chargedStore := by
  refine ⟨chargedStore_valid, chargedStore_positive,
    (refundsOnce_iff chargedStore_valid chargedStore_positive _ _).mpr ?_⟩
  intro record hr _ _ sub hsub
  have hrec : chargedStore.findRecord "r1" = some ⟨"r1", 7, 3, 10, .consumed⟩ := by decide
  obtain rfl : record = ⟨"r1", 7, 3, 10, .consumed⟩ := Option.some.inj (hr.symm.trans hrec)
  have hrow : chargedStore.findSub 3 = some { dailySubscription with amountUsed := 50 } := by decide
  obtain rfl := Option.some.inj (hsub.symm.trans hrow)
  decide

/-- The write of the record fails in the first attempt and the second one goes through: 20 units
leave the row for a request of 10. -/
theorem retry_subtracts_twice : ¬RefundsOnce "r1" [{ save := true }, {}] chargedStore := by
  intro h
  have hrec : chargedStore.findRecord "r1" = some ⟨"r1", 7, 3, 10, .consumed⟩ := by decide
  have hoff := (h _ hrec rfl).1
  revert hoff
  decide

end Vancine.Billing
