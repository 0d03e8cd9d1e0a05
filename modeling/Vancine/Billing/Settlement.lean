import Vancine.Billing.Conservation

/-!
# A session settles once

Any sequence of `Reserve`, `Settle` and `Refund` calls on a session whose pre-consume succeeded.

`settled` and `refunded` are latches: once a call has settled the session no call moves money any
more, and once a refund took effect no reservation and no second refund does. The settlement itself
brings the charge of the funding source to the actual quota, and that of the token too when its
write succeeds. A token write that fails is returned to the caller, who cannot repair it by settling
again: the funding is committed, so the session is settled and a later call answers with success.
-/

namespace Vancine.Billing

open Lib Vancine.Subscription

/-! ## Calls -/

inductive BillingCall
  | reserve (c : ReserveCall)
  | settle (actualQuota : ℤ) (f : SettleFaults)
  | refund (f : RefundCallFaults)

def BillingState.call (cfg : BillingConfig) (s : BillingState) :
    BillingCall → BillingState × Option BillingError
  | .reserve c => ((s.reserveCall cfg c).state, (s.reserveCall cfg c).error)
  | .settle actualQuota f => s.settle cfg f actualQuota
  | .refund f => ((s.refund cfg f).state, none)

def callStep (cfg : BillingConfig) (s : BillingState) (c : BillingCall) : BillingState :=
  (s.call cfg c).1

/-- The call does not lose a charge: a reservation that fails rolls its funding step back. -/
def LosesNothing (cfg : BillingConfig) (s : BillingState) : BillingCall → Prop
  | .reserve c => (s.reserveCall cfg c).lost = false
  | _ => True

instance (cfg : BillingConfig) (s : BillingState) (c : BillingCall) :
    Decidable (LosesNothing cfg s c) := by
  unfold LosesNothing; cases c <;> infer_instance

def BillingCall.isSettle : BillingCall → Bool
  | .settle _ _ => true
  | _ => false

/-! ## The latches -/

variable {s : BillingState} {cfg : BillingConfig}

/-- A reservation of a closed session does nothing but note the image count. -/
theorem reserveCall_closed (cfg : BillingConfig) (c : ReserveCall)
    (h : s.session.settled = true ∨ s.session.refunded = true) :
    (s.reserveCall cfg c).state = s.withImages c.imageRequestCount := by
  have hskip : (s.withImages c.imageRequestCount).session.skipsReserve c.targetQuota = true := by
    have hs : (s.withImages c.imageRequestCount).session.settled = s.session.settled := rfl
    have hr : (s.withImages c.imageRequestCount).session.refunded = s.session.refunded := rfl
    unfold BillingSession.skipsReserve
    rcases h with h | h
    · rw [hs, h]; simp
    · rw [hr, h]; simp
  unfold BillingState.reserveCall BillingState.reserve
  rw [if_pos hskip]

theorem refund_closed (cfg : BillingConfig) (f : RefundCallFaults)
    (h : s.session.settled = true ∨ s.session.refunded = true) : (s.refund cfg f).state = s := by
  unfold BillingState.refund
  rcases h with h | h
  · rw [h]; simp
  · rw [h]; simp

theorem refund_cases (cfg : BillingConfig) (s : BillingState) (f : RefundCallFaults) :
    (s.refund cfg f).state = s ∨ (s.refund cfg f).state.session.refunded = true := by
  unfold BillingState.refund
  split_ifs
  · exact .inl rfl
  · exact .inr rfl

/-- What `Settle` can do to a session that is not settled: fail in its funding step and change
nothing, or settle the session. -/
theorem settle_cases (cfg : BillingConfig) (s : BillingState) (f : SettleFaults) (actual : ℤ) :
    ((s.settle cfg f actual).1 = s ∧ (s.settle cfg f actual).2 ≠ none) ∨
      ((s.settle cfg f actual).1.session.settled = true ∧
        (s.settle cfg f actual).1.session.refunded = s.session.refunded) := by
  unfold BillingState.settle
  by_cases hs : s.session.settled = true
  · rw [if_pos hs]; exact .inr ⟨hs, rfl⟩
  rw [if_neg hs]
  dsimp only
  by_cases hd : actual - s.session.preConsumedQuota = 0
  · rw [if_pos hd]; exact .inr ⟨rfl, rfl⟩
  rw [if_neg hd]
  cases hc : (if s.session.fundingSettled = true then Except.ok s.account
      else s.session.funding.settle cfg f.funding (actual - s.session.preConsumedQuota)
        s.account) with
  | error e => exact .inl ⟨rfl, by simp⟩
  | ok acc =>
    dsimp only
    cases ht : settleToken cfg s.session.relayInfo f.token (actual - s.session.preConsumedQuota)
        acc with
    | error e => exact .inr ⟨rfl, rfl⟩
    | ok acc' => exact .inr ⟨rfl, rfl⟩

/-- **Settled.** A call on a settled session changes no balance and leaves it settled. -/
theorem callStep_settled (h : s.session.settled = true) (c : BillingCall) :
    (callStep cfg s c).account = s.account ∧ (callStep cfg s c).session.settled = true := by
  cases c with
  | reserve c =>
    have hr := reserveCall_closed cfg c (.inl h)
    constructor
    · show (s.reserveCall cfg c).state.account = _
      rw [hr]; rfl
    · show (s.reserveCall cfg c).state.session.settled = _
      rw [hr]; exact h
  | settle actual f =>
    have hs : s.settle cfg f actual = (s, none) := by
      unfold BillingState.settle; rw [if_pos h]
    constructor
    · show (s.settle cfg f actual).1.account = _
      rw [hs]
    · show (s.settle cfg f actual).1.session.settled = _
      rw [hs]; exact h
  | refund f =>
    have hr := refund_closed cfg f (.inl h)
    constructor
    · show (s.refund cfg f).state.account = _
      rw [hr]
    · show (s.refund cfg f).state.session.settled = _
      rw [hr]; exact h

theorem run_settled (h : s.session.settled = true) (cs : List BillingCall) :
    (run (callStep cfg) s cs).account = s.account := by
  have hinv : (run (callStep cfg) s cs).session.settled = true ∧ (run (callStep cfg) s cs).account = s.account :=
    run_invariant (I := fun t : BillingState => t.session.settled = true ∧ t.account = s.account)
      (fun t c ht => ⟨(callStep_settled ht.1 c).2, (callStep_settled ht.1 c).1.trans ht.2⟩)
      ⟨h, rfl⟩ cs
  exact hinv.2

/-- **Refunded.** A call on a refunded session leaves it refunded, and changes no balance unless it is
a `Settle`. -/
theorem callStep_refunded (h : s.session.refunded = true) (c : BillingCall) :
    (callStep cfg s c).session.refunded = true ∧ (c.isSettle = false → (callStep cfg s c).account = s.account) := by
  cases c with
  | reserve c =>
    have hr := reserveCall_closed cfg c (.inr h)
    constructor
    · show (s.reserveCall cfg c).state.session.refunded = _
      rw [hr]; exact h
    · intro _
      show (s.reserveCall cfg c).state.account = _
      rw [hr]; rfl
  | settle actual f =>
    refine ⟨?_, fun h => by cases h⟩
    show (s.settle cfg f actual).1.session.refunded = _
    rcases settle_cases cfg s f actual with ⟨hs, -⟩ | ⟨-, hs⟩
    · rw [hs]; exact h
    · rw [hs]; exact h
  | refund f =>
    have hr := refund_closed cfg f (.inr h)
    constructor
    · show (s.refund cfg f).state.session.refunded = _
      rw [hr]; exact h
    · intro _
      show (s.refund cfg f).state.account = _
      rw [hr]

/-! ## The settlement -/

theorem settle_charged {fault : Bool} {a0 acc acc' : Account} {q delta : ℤ} {fs : FundingSource}
    (hc : FundingCharged a0 q acc fs) (hdelta : delta ≠ 0) (hq : fs.isSubscription = true → 0 ≤ q + delta)
    (h : fs.settle cfg fault delta acc = .ok acc') :
    FundingCharged a0 (q + delta) acc' fs ∧ acc'.token = acc.token := by
  cases fs with
  | wallet consumed =>
    obtain ⟨hw, hsubs⟩ := hc
    simp only [FundingSource.settle, if_neg hdelta] at h
    by_cases hpos : 0 < delta
    · rw [if_pos hpos] at h
      obtain rfl := decreaseUserQuota_ok h
      exact ⟨⟨show acc.walletQuota - delta = _ by omega, hsubs⟩, rfl⟩
    · rw [if_neg hpos] at h
      obtain rfl := increaseUserQuota_ok h
      exact ⟨⟨show acc.walletQuota + -delta = _ by omega, hsubs⟩, rfl⟩
  | subscription f =>
    simp only [FundingSource.settle, if_neg hdelta] at h
    obtain ⟨st, hp, rfl⟩ := subscriptionDelta_ok h
    exact ⟨⟨hc.1, hc.2.delta hp hdelta (hq rfl)⟩, rfl⟩

/-- The token step of a settlement charges the difference, outside the playground. -/
theorem settleToken_ok {info : RelayInfo} {fault : Bool} {delta : ℤ} {acc acc' : Account}
    (h : settleToken cfg info fault delta acc = .ok acc') : acc' = { acc with
      token := if info.isPlayground then acc.token else acc.token.consume delta } := by
  unfold settleToken at h
  by_cases hp : info.isPlayground = true
  · rw [if_pos hp] at h; cases h; rw [if_pos hp]
  rw [if_neg hp] at h
  rw [if_neg hp]
  by_cases hpos : 0 < delta
  · rw [if_pos hpos] at h; exact decreaseTokenQuota_ok h
  · rw [if_neg hpos] at h
    rw [increaseTokenQuota_ok h, Int.neg_neg]

/-- What the settlement of an open session by `actual` leaves behind. -/
structure SettledAt (a0 : Account) (actual : ℤ) (s : BillingState)
    (r : BillingState × Option BillingError) : Prop where
  settled : r.1.session.settled = true
  funding : FundingCharged a0 actual r.1.account r.1.session.funding
  token : r.2 = none → TokenCharged a0 r.1.session.relayInfo actual r.1.account
  tokenFailed : r.2 ≠ none → r.1.account.token = s.account.token

/-- **Settlement.** `Settle` on an open session fails in its funding step and changes nothing, or
brings the charges to the actual quota. -/
theorem Open.settle {a0 : Account} (ho : Open a0 s) (f : SettleFaults) {actual : ℤ}
    (ha : s.session.funding.isSubscription = true → 0 ≤ actual) :
    ((s.settle cfg f actual).1 = s ∧ (s.settle cfg f actual).2 ≠ none) ∨
      SettledAt a0 actual s (s.settle cfg f actual) := by
  have htok := ho.token
  have hfund := ho.funding
  unfold BillingState.settle
  rw [ho.settled, ho.fundingSettled]
  simp only [Bool.false_eq_true, if_false]
  by_cases hd : actual - s.session.preConsumedQuota = 0
  · -- nothing to adjust
    have he : s.session.preConsumedQuota = actual := by omega
    rw [if_pos hd]
    rw [he] at htok hfund
    exact .inr ⟨rfl, hfund, fun _ => htok, fun h => absurd rfl h⟩
  rw [if_neg hd]
  have hsum : s.session.preConsumedQuota + (actual - s.session.preConsumedQuota) = actual := by
    omega
  cases hc : s.session.funding.settle cfg f.funding (actual - s.session.preConsumedQuota)
      s.account with
  | error e => exact .inl ⟨rfl, by simp⟩
  | ok acc =>
    right
    obtain ⟨hcharged, htoken⟩ := settle_charged hfund hd (fun h => by rw [hsum]; exact ha h) hc
    rw [hsum] at hcharged
    dsimp only
    cases ht : settleToken cfg s.session.relayInfo f.token (actual - s.session.preConsumedQuota)
        acc with
    | error e => exact ⟨rfl, hcharged, fun h => by simp at h, fun _ => htoken⟩
    | ok acc' =>
      obtain rfl := settleToken_ok ht
      refine ⟨rfl, ?_, fun _ => ?_, fun h => absurd rfl h⟩
      · show FundingCharged a0 actual _ s.session.funding
        cases hf : s.session.funding with
        | wallet c => rw [hf] at hcharged; exact hcharged
        | subscription f => rw [hf] at hcharged; exact hcharged
      · unfold TokenCharged at htok ⊢
        dsimp only
        rw [BillingSession.notePostDelta_isPlayground, htoken, htok]
        cases s.session.relayInfo.isPlayground with
        | true => rfl
        | false =>
          show (a0.token.consume s.session.preConsumedQuota).consume
            (actual - s.session.preConsumedQuota) = a0.token.consume actual
          rw [Token.consume_consume, hsum]

/-- A call keeps a session open until it settles or refunds it. -/
theorem callStep_open {a0 : Account} {c : BillingCall}
    (h : s.session.settled = false → s.session.refunded = false → Open a0 s) (hl : LosesNothing cfg s c)
    (hs : (callStep cfg s c).session.settled = false) (hr : (callStep cfg s c).session.refunded = false) :
    Open a0 (callStep cfg s c) := by
  -- the latches were open before the call
  have hs0 : s.session.settled = false := by
    cases hb : s.session.settled with
    | false => rfl
    | true => rw [(callStep_settled hb c).2] at hs; cases hs
  have hr0 : s.session.refunded = false := by
    cases hb : s.session.refunded with
    | false => rfl
    | true => rw [(callStep_refunded hb c).1] at hr; cases hr
  have ho := h hs0 hr0
  cases c with
  | reserve c => exact reserveStep_open ho hl
  | settle actual f =>
    change (s.settle cfg f actual).1.session.settled = false at hs
    show Open a0 (s.settle cfg f actual).1
    rcases settle_cases cfg s f actual with ⟨he, -⟩ | ⟨he, -⟩
    · rw [he]; exact ho
    · rw [he] at hs; cases hs
  | refund f =>
    change (s.refund cfg f).state.session.refunded = false at hr
    show Open a0 (s.refund cfg f).state
    rcases refund_cases cfg s f with he | he
    · rw [he]; exact ho
    · rw [he] at hr; cases hr

/-- **One settlement.** On a session whose pre-consume succeeded, after any calls:

* once the session is settled, no further call changes a balance;
* once it is refunded, it stays refunded, and no reservation or refund changes a balance;
* while it is neither, and no failed reservation lost its roll-back, a `Settle` either fails without
  changing anything or brings the charge of the funding source to the actual quota, and that of the
  token too when it returns no error. -/
theorem session_settles_once (srv : Server) (info : RelayInfo) (a0 : Account)
    (hready : Ready srv info a0) (pf : PreConsumeFaults) (path : FundingPath) (quota : ℤ)
    (s1 : BillingState) (hopen : preConsumeBilling srv pf path info quota a0 = (s1, none))
    (calls : List BillingCall) :
    let s := run (callStep srv.cfg) s1 calls
    (s.session.settled = true → ∀ more, (run (callStep srv.cfg) s more).account = s.account) ∧
    (s.session.refunded = true → ∀ c, (callStep srv.cfg s c).session.refunded = true ∧
      (c.isSettle = false → (callStep srv.cfg s c).account = s.account)) ∧
    (s.session.settled = false → s.session.refunded = false →
      Along (callStep srv.cfg) (LosesNothing srv.cfg) s1 calls → ∀ actual f,
        (s.session.funding.isSubscription = true → 0 ≤ actual) →
        ((s.settle srv.cfg f actual).1 = s ∧ (s.settle srv.cfg f actual).2 ≠ none) ∨
          SettledAt a0 actual s (s.settle srv.cfg f actual)) := by
  refine ⟨fun h more => run_settled h more, fun h c => callStep_refunded h c, ?_⟩
  intro hs hr hl actual f ha
  have hinv := run_invariant_along
    (I := fun t : BillingState =>
      t.session.settled = false → t.session.refunded = false → Open a0 t)
    (fun t c ht hc hs hr => callStep_open ht hc hs hr)
    (fun _ _ => (preConsumeBilling_open hready hopen).1) hl
  exact (hinv hs hr).settle f ha

/-- A text request settled at 20 after a pre-consume of 10. -/
theorem session_settles_once_text :
    let s1 := (preConsumeBilling smallServer {} .tryWallet textRequest 10 smallAccount).1
    Ready smallServer textRequest smallAccount ∧
      SettledAt smallAccount 20 s1 (s1.settle smallServer.cfg {} 20) := by
  refine ⟨smallAccount_ready _, ?_⟩
  have hopen : preConsumeBilling smallServer {} .tryWallet textRequest 10 smallAccount =
      ((preConsumeBilling smallServer {} .tryWallet textRequest 10 smallAccount).1, none) := by
    decide
  have h := session_settles_once smallServer textRequest smallAccount (smallAccount_ready _) {}
    .tryWallet 10 _ hopen []
  rcases h.2.2 (by decide) (by decide) trivial 20 {} (by decide) with ⟨h, -⟩ | h
  · exact absurd h (by decide)
  · exact h

/-- The token write of the settlement fails. The caller settles again and is told that all is well,
while the token was charged only the 10 units of the pre-consume. -/
theorem settle_after_token_failure :
    let s1 := (preConsumeBilling smallServer {} .tryWallet textRequest 10 smallAccount).1
    let failed := s1.call smallServer.cfg (.settle 20 { token := true })
    let again := failed.1.call smallServer.cfg (.settle 20 {})
    failed.2 = some .database ∧ again.2 = none ∧ again.1.session.refunded = false ∧
      again.1.account.walletQuota = smallAccount.walletQuota - 20 ∧
      again.1.account.token = smallAccount.token.consume 10 ∧
      again.1.account.token ≠ smallAccount.token.consume 20 := by
  decide

end Vancine.Billing
