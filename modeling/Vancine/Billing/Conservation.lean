import Vancine.Billing.Ledger

/-!
# What a refund gives back

A session is opened, makes any number of reservations, and is refunded. The refund takes the amount
for the token from `tokenConsumed`, for a subscription from the record of the request and
`extraReserved`, and for a wallet from the counter `consumed`.

`walletPreConsume` sets that counter where every other branch adds to it, and an image reservation
goes through it. So an image reservation that passes its funding step while the session already
holds something makes the counter forget what the session held before, and stays wrong to the end:
the refund restores the account exactly when no reservation of the run does that.
-/

namespace Vancine.Billing

open Lib Vancine.Subscription

/-- The wallet, the token and every used amount are what they were. -/
def Restored (a0 acc : Account) : Prop :=
  acc.walletQuota = a0.walletQuota ∧ acc.token = a0.token ∧
    ∀ id, acc.subscriptions.used id = a0.subscriptions.used id

/-- The reservation overwrites the counter of the wallet: it is an image reservation of a session
that already holds something from the wallet, and its funding step succeeds. -/
def Overwrites (s : BillingState) (c : ReserveCall) : Prop :=
  let t := s.withImages c.imageRequestCount
  t.session.funding.isSubscription = false ∧ t.session.isImageRequest = true ∧
    t.session.skipsReserve c.targetQuota = false ∧ 0 < t.session.preConsumedQuota ∧
    c.faults.funding = false ∧ c.targetQuota - t.session.preConsumedQuota ≤ t.account.walletQuota

instance (s : BillingState) (c : ReserveCall) : Decidable (Overwrites s c) := by
  unfold Overwrites; infer_instance

/-! ## The counter of the wallet -/

variable {cfg : BillingConfig} {s : BillingState} {a0 : Account} {f : RefundCallFaults}

/-- The funding step of an image reservation succeeds exactly when the wallet holds the amount. -/
theorem reserveFunding_image_ok_iff {fault : Bool} {delta consumed : ℤ} (hpos : 0 < delta)
    (hw : s.session.funding = .wallet consumed) : (∃ s', s.reserveFunding cfg fault delta true = .ok s') ↔
      fault = false ∧ delta ≤ s.account.walletQuota := by
  simp only [BillingState.reserveFunding, hw, if_true, walletPreConsume, tryReserveUserQuota]
  rw [if_neg (by omega : ¬delta ≤ 0), if_neg (by omega : ¬delta < 0), if_neg (by omega : ¬delta = 0)]
  cases fault with
  | true => simp
  | false =>
    by_cases hle : delta ≤ s.account.walletQuota
    · simp [hle]
    · simp [hle]

variable {c : ReserveCall} {consumed : ℤ} {st0 st : SubscriptionStore}

/-- The counter of a wallet after a reservation is exact if it was exact before and not
overwritten. -/
theorem reserve_wallet_exact_iff (ho : Open a0 s) (hw : s.session.funding = .wallet consumed)
    (hlost : (s.reserveCall cfg c).lost = false) : Exact (reserveStep cfg s c) ↔ Exact s ∧ ¬Overwrites s c := by
  have hb := ho.backed
  have hexact : Exact s ↔ consumed = s.session.preConsumedQuota := by unfold Exact; rw [hw]
  unfold Backed at hb
  rw [hw] at hb
  rw [hexact]
  set t := s.withImages c.imageRequestCount with ht
  have hwt : t.session.funding = .wallet consumed := hw
  have hqt : t.session.preConsumedQuota = s.session.preConsumedQuota := rfl
  -- an overwriting reservation is an image reservation whose funding step succeeds
  have hover : Overwrites s c ↔ t.session.isImageRequest = true ∧
      t.session.skipsReserve c.targetQuota = false ∧ 0 < s.session.preConsumedQuota ∧
      c.faults.funding = false ∧ c.targetQuota - t.session.preConsumedQuota ≤
        t.account.walletQuota := by
    unfold Overwrites
    dsimp only
    rw [← ht, hwt, hqt]
    simp [FundingSource.isSubscription]
  rw [hover]
  change Exact (t.reserve cfg c.faults c.targetQuota).state ↔ _
  rcases reserve_cases (s := t) hlost with ⟨h, hwhy⟩ | ⟨hskip, s', s'', hfund, hroll, h⟩ |
    ⟨hskip, s', acc, hfund, -, h⟩
  · -- nothing was reserved
    rw [h]
    have hte : Exact t ↔ consumed = s.session.preConsumedQuota := hexact
    rw [hte]
    refine ⟨fun he => ⟨he, ?_⟩, fun he => he.1⟩
    rintro ⟨himage, hskip, -, hok⟩
    rcases hwhy with hs | ⟨e, he⟩
    · rw [hskip] at hs; cases hs
    · rw [himage] at he
      obtain ⟨s', hs'⟩ := (reserveFunding_image_ok_iff (skipsReserve_lt hskip) hwt).mpr hok
      rw [hs'] at he; cases he
  · -- the funding step was rolled back
    have hpos := skipsReserve_lt hskip
    obtain ⟨hs', -⟩ := reserveFunding_ok hpos hfund
    obtain ⟨hs'', -⟩ := rollbackFundingReserve_ok hpos hroll
    rw [hs', hwt] at hs''
    rw [h]
    unfold Exact
    rw [hs'']
    cases himage : t.session.isImageRequest with
    | true =>
      rw [himage] at hfund
      have hok := (reserveFunding_image_ok_iff hpos hwt).mp ⟨s', hfund⟩
      simp only [FundingSource.reserved, FundingSource.unreserved, if_true, hskip, hok, hqt]
      simp only [true_and]
      omega
    | false => simp [FundingSource.reserved, FundingSource.unreserved, hqt]
  · -- funding and token were charged
    have hpos := skipsReserve_lt hskip
    obtain ⟨hs', -⟩ := reserveFunding_ok hpos hfund
    rw [hwt] at hs'
    rw [h]
    unfold Exact BillingSession.syncRelayInfo
    rw [hs']
    cases himage : t.session.isImageRequest with
    | true =>
      rw [himage] at hfund
      have hok := (reserveFunding_image_ok_iff hpos hwt).mp ⟨s', hfund⟩
      simp only [FundingSource.reserved, if_true, hskip, hok, hqt]
      simp only [true_and]
      omega
    | false =>
      simp only [FundingSource.reserved, hqt, Bool.false_eq_true, if_false, false_and, not_false_eq_true, and_true]
      omega

theorem reserve_exact_iff (ho : Open a0 s) (hlost : (s.reserveCall cfg c).lost = false) :
    Exact (reserveStep cfg s c) ↔ Exact s ∧ ¬Overwrites s c := by
  cases hw : s.session.funding with
  | wallet consumed => exact reserve_wallet_exact_iff ho hw hlost
  | subscription f =>
    -- a subscription has no such counter
    have hs : Exact s := by unfold Exact; rw [hw]; trivial
    have hover : ¬Overwrites s c := by
      rintro ⟨h, -⟩
      change s.session.funding.isSubscription = false at h
      rw [hw] at h; cases h
    refine iff_of_true ?_ ⟨hs, hover⟩
    set t := s.withImages c.imageRequestCount
    have hwt : t.session.funding = .subscription f := hw
    change Exact (t.reserve cfg c.faults c.targetQuota).state
    rcases reserve_cases (s := t) hlost with ⟨h, -⟩ | ⟨hskip, s', s'', hfund, hroll, h⟩ |
      ⟨hskip, s', acc, hfund, -, h⟩
    · rw [h]; exact hs
    · obtain ⟨hs', -⟩ := reserveFunding_ok (skipsReserve_lt hskip) hfund
      obtain ⟨hs'', -⟩ := rollbackFundingReserve_ok (skipsReserve_lt hskip) hroll
      rw [hs', hwt] at hs''
      rw [h]; unfold Exact; rw [hs'']; trivial
    · obtain ⟨hs', -⟩ := reserveFunding_ok (skipsReserve_lt hskip) hfund
      rw [hwt] at hs'
      rw [h]; unfold Exact BillingSession.syncRelayInfo; rw [hs']; trivial

/-! ## The refund -/

theorem logged_ok {r : Except BillingError Account} {acc : Account}
    (h : (logged r acc).2 = false) : r = .ok (logged r acc).1 := by
  cases r with
  | error e => cases h
  | ok a => rfl

/-- The first attempt of a refund that makes no failing write gives the recorded amount back. -/
theorem refundWithRetry_ok {id q pre userId : ℤ} {requestId : String} {f : RefundFaults} {fs : List RefundFaults}
    (hblank : isBlank requestId = false) (hrec : st.findRecord requestId = some ⟨requestId, userId, id, pre, .consumed⟩)
    (hc : SubscriptionCharged id q st0 st) (hpre : 0 < pre) (hq : pre ≤ q)
    (h : (refundWithRetry requestId (f :: fs) st).2 = false) :
    SubscriptionCharged id (q - pre) st0 (refundWithRetry requestId (f :: fs) st).1 := by
  have herr : (refundSubscriptionPreConsume f requestId st).error = none := by
    cases he : (refundSubscriptionPreConsume f requestId st).error with
    | none => rfl
    | some e => simp [refundWithRetry, he] at h
  have hstore : (refundWithRetry requestId (f :: fs) st).1 =
      (refundSubscriptionPreConsume f requestId st).store := by
    simp [refundWithRetry, herr]
  rw [hstore]
  simp only [refundSubscriptionPreConsume, hblank, hrec] at herr ⊢
  simp only [Bool.false_eq_true, if_false, reduceCtorEq, if_neg (by omega : ¬pre ≤ 0)] at herr ⊢
  by_cases hl : f.lookup = true
  · rw [if_pos hl] at herr; cases herr
  rw [if_neg hl] at herr ⊢
  cases hp : postConsumeUserSubscriptionDelta f.delta id (-pre) st with
  | error e => rw [hp] at herr; cases herr
  | ok st' =>
    rw [hp] at herr
    dsimp only at herr ⊢
    have hc' := hc.delta hp (by omega) (by omega)
    by_cases hs : f.save = true
    · rw [if_pos hs] at herr; cases herr
    · rw [if_neg hs]; exact hc'

theorem SubscriptionCharged.used_eq {id : ℤ} (h : SubscriptionCharged id 0 st0 st) (i : ℤ) :
    st.used i = st0.used i := by
  obtain ⟨u, -, hu, hused⟩ := h
  rw [hused i]
  by_cases hi : i = id
  · rw [if_pos hi, hi, hu, Int.add_zero]
  · rw [if_neg hi]

/-- The token step of a refund gives the token charge of an open session back. -/
theorem Open.refundToken {a0 acc : Account} {fault : Bool} (ho : Open a0 s) (ht : acc.token = s.account.token)
    (h : (s.session.refundToken cfg fault acc).2 = false) :
    (s.session.refundToken cfg fault acc).1 = { acc with token := a0.token } := by
  have htok := ho.token
  have hq := ho.nonneg
  unfold TokenCharged at htok
  unfold BillingSession.refundToken at h ⊢
  rw [ho.tokenConsumed] at h ⊢
  by_cases hc : 0 < s.session.preConsumedQuota ∧ ¬s.session.relayInfo.isPlayground = true
  · rw [if_pos hc] at h ⊢
    rw [if_neg hc.2] at htok
    rw [increaseTokenQuota_ok (logged_ok h), ht, htok, Token.consume_consume, Int.add_right_neg, Token.consume_zero]
  · rw [if_neg hc]
    have hsame : s.account.token = a0.token := by
      by_cases hp : s.session.relayInfo.isPlayground = true
      · rw [if_pos hp] at htok; exact htok
      · have h0 : s.session.preConsumedQuota = 0 := by
          by_contra hne
          exact hc ⟨by omega, hp⟩
        rw [if_neg hp, h0, Token.consume_zero] at htok; exact htok
    rw [← hsame, ← ht]

theorem refund_wallet_ok {acc : Account} (hc : 0 ≤ consumed)
    (h : ((FundingSource.wallet consumed).refund cfg f acc).2 = false) :
    ((FundingSource.wallet consumed).refund cfg f acc).1 = { acc with walletQuota := acc.walletQuota + consumed } := by
  unfold FundingSource.refund at h ⊢
  dsimp only at h ⊢
  by_cases h0 : consumed ≤ 0
  · have : consumed = 0 := by omega
    rw [if_pos h0, this, Int.add_zero]
  · rw [if_neg h0] at h ⊢
    cases hi : increaseUserQuota cfg f.wallet consumed acc with
    | error e => rw [hi] at h; cases h
    | ok acc' => exact increaseUserQuota_ok hi

theorem refund_eq (ho : Open a0 s) (hneeds : s.session.needsRefund = true) (h : (s.refund cfg f).writeFailed = false) :
    let r1 := s.session.funding.refund cfg f s.account
    let r2 := s.session.refundExtra f.extra r1.1
    let r3 := s.session.refundToken cfg f.token r2.1
    (s.refund cfg f).state.account = r3.1 ∧ r1.2 = false ∧ r2.2 = false ∧ r3.2 = false := by
  unfold BillingState.refund at h ⊢
  rw [ho.settled, ho.refunded, hneeds] at h ⊢
  simpa [and_assoc] using h

/-- A session that holds nothing from its wallet has nothing to give back. -/
theorem refund_idle (hneeds : s.session.needsRefund = false) : (s.refund cfg f).state = s := by
  unfold BillingState.refund
  rw [hneeds]
  simp

theorem Open.needsRefund (ho : Open a0 s) : s.session.needsRefund = true ↔ 0 < s.session.preConsumedQuota := by
  have hb := ho.backed
  unfold Backed at hb
  simp only [BillingSession.needsRefund, ho.settled, ho.refunded, ho.fundingSettled,
    ho.tokenConsumed, Bool.or_false, Bool.false_eq_true, if_false]
  by_cases hq : 0 < s.session.preConsumedQuota
  · rw [if_pos hq]; exact iff_of_true rfl hq
  · rw [if_neg hq]
    cases hf : s.session.funding with
    | wallet consumed => simpa using hq
    | subscription sf =>
      rw [hf] at hb
      obtain ⟨h1, h2, h3, -⟩ := hb
      omega

/-- **The refund of a wallet session** restores the account exactly when the counter is exact. -/
theorem refund_wallet_restores_iff (ho : Open a0 s) (hw : s.session.funding = .wallet consumed)
    (h : (s.refund cfg f).writeFailed = false) : Restored a0 (s.refund cfg f).state.account ↔ Exact s := by
  have hexact : Exact s ↔ consumed = s.session.preConsumedQuota := by unfold Exact; rw [hw]
  have hb := ho.backed
  have hfund := ho.funding
  unfold Backed at hb
  rw [hw] at hb hfund
  obtain ⟨hwallet, hsubs⟩ := hfund
  rw [hexact]
  by_cases hq : 0 < s.session.preConsumedQuota
  · obtain ⟨hacc, h1, h2, h3⟩ := refund_eq ho (ho.needsRefund.mpr hq) h
    have hextra : ∀ acc, s.session.refundExtra f.extra acc = (acc, false) := by
      intro acc
      unfold BillingSession.refundExtra
      rw [hw]
      exact if_neg fun hc => by simpa [FundingSource.isSubscription] using hc.2.1
    rw [hextra] at hacc h3
    rw [hw] at hacc h1 h3
    have hcredit := refund_wallet_ok hb.1 h1
    have hfinal := ho.refundToken (by rw [hcredit]) h3
    rw [hacc, hfinal, hcredit]
    constructor
    · rintro ⟨hrest, -, -⟩
      change s.account.walletQuota + consumed = a0.walletQuota at hrest
      omega
    · intro he
      refine ⟨?_, rfl, fun id => ?_⟩
      · show s.account.walletQuota + consumed = a0.walletQuota
        omega
      · show s.account.subscriptions.used id = _
        rw [hsubs]
  · have hneeds : s.session.needsRefund = false := by
      simpa using fun hn => hq (ho.needsRefund.mp hn)
    have hq0 : s.session.preConsumedQuota = 0 := by have := ho.nonneg; omega
    rw [refund_idle hneeds]
    refine iff_of_true ⟨by rw [hwallet, hq0, Int.sub_zero], ?_, fun id => by rw [hsubs]⟩ (by omega)
    have htok := ho.token
    unfold TokenCharged at htok
    rw [hq0, Token.consume_zero, ite_self] at htok
    exact htok

/-- **The refund of a subscription session** always restores the account. -/
theorem refund_subscription_restores {sf : SubscriptionFunding} (ho : Open a0 s)
    (hw : s.session.funding = .subscription sf) (h : (s.refund cfg f).writeFailed = false) :
    Restored a0 (s.refund cfg f).state.account := by
  have hb := ho.backed
  have hfund := ho.funding
  unfold Backed at hb
  rw [hw] at hb hfund
  obtain ⟨hq, hextra0, hpre, hid, hinfo, hblank, hrec⟩ := hb
  obtain ⟨hwallet, hcharged⟩ := hfund
  obtain ⟨hacc, h1, h2, h3⟩ := refund_eq ho (ho.needsRefund.mpr (by omega)) h
  -- the record gives its amount back
  have hr1 : s.session.funding.refund cfg f s.account = ({ s.account with subscriptions := (refundWithRetry sf.requestId
        [f.attempt1, f.attempt2, f.attempt3] s.account.subscriptions).1 },
        (refundWithRetry sf.requestId [f.attempt1, f.attempt2, f.attempt3]
          s.account.subscriptions).2) := by
    rw [hw]
    simp only [FundingSource.refund, if_neg (by omega : ¬sf.preConsumed ≤ 0)]
  rw [hr1] at hacc h1 h2 h3
  have hback := refundWithRetry_ok hblank hrec hcharged hpre (by omega) h1
  generalize (refundWithRetry sf.requestId [f.attempt1, f.attempt2, f.attempt3]
    s.account.subscriptions).1 = st1 at hacc h2 h3 hback
  -- the extra reservations are given back
  have hr2 : ∃ st2, s.session.refundExtra f.extra { s.account with subscriptions := st1 } =
      ({ s.account with subscriptions := st2 }, false) ∧
      SubscriptionCharged sf.subscriptionId 0 a0.subscriptions st2 := by
    unfold BillingSession.refundExtra at h2 ⊢
    rw [hw, hinfo] at h2 ⊢
    by_cases hx : 0 < s.session.extraReserved
    · have hc : 0 < s.session.extraReserved ∧
          (FundingSource.subscription sf).isSubscription = true ∧ 0 < sf.subscriptionId :=
        ⟨hx, rfl, hid⟩
      rw [if_pos hc] at h2 ⊢
      have hok := logged_ok h2
      obtain ⟨st2, hp, hst2⟩ := subscriptionDelta_ok hok
      refine ⟨st2, Prod.ext hst2 h2, ?_⟩
      have hd := hback.delta hp (by omega) (by omega)
      have h0 : s.session.preConsumedQuota - sf.preConsumed + -s.session.extraReserved = 0 := by
        omega
      rw [h0] at hd; exact hd
    · rw [if_neg fun hc => hx hc.1]
      have h0 : s.session.preConsumedQuota - sf.preConsumed = 0 := by omega
      rw [h0] at hback
      exact ⟨st1, rfl, hback⟩
  obtain ⟨st2, hr2, hzero⟩ := hr2
  rw [hr2] at hacc h3
  have htok : ({ s.account with subscriptions := st2 } : Account).token = s.account.token := rfl
  have hfinal := ho.refundToken htok h3
  rw [hacc, hfinal]
  exact ⟨hwallet, rfl, hzero.used_eq⟩

/-! ## Whole runs -/

theorem reserveStep_open (ho : Open a0 s) (hlost : (s.reserveCall cfg c).lost = false) :
    Open a0 (reserveStep cfg s c) :=
  reserve_open (ho.withImages c.imageRequestCount) hlost

/-- **Conservation under refund.** A session opened by a successful pre-consume makes any
reservations whose roll-backs do not fail, and is refunded by writes that all succeed. The wallet,
the token and every used amount are restored exactly when no reservation overwrote the wallet
counter. -/
theorem refund_restores_iff (srv : Server) (info : RelayInfo) (a0 : Account)
    (hready : Ready srv info a0) (pf : PreConsumeFaults) (path : FundingPath) (quota : ℤ)
    (s1 : BillingState) (hopen : preConsumeBilling srv pf path info quota a0 = (s1, none))
    (calls : List ReserveCall)
    (hundo : Along (reserveStep srv.cfg) (fun s c => (s.reserveCall srv.cfg c).lost = false)
      s1 calls)
    (rf : RefundCallFaults)
    (hwrites : ((run (reserveStep srv.cfg) s1 calls).refund srv.cfg rf).writeFailed = false) :
    Restored a0 ((run (reserveStep srv.cfg) s1 calls).refund srv.cfg rf).state.account ↔
      Along (reserveStep srv.cfg) (fun s c => ¬Overwrites s c) s1 calls := by
  obtain ⟨ho, he⟩ := preConsumeBilling_open hready hopen
  have hend : Open a0 (run (reserveStep srv.cfg) s1 calls) :=
    run_invariant_along (I := Open a0) (fun _ _ h hl => reserveStep_open h hl) ho hundo
  have hexact : Exact (run (reserveStep srv.cfg) s1 calls) ↔
      Along (reserveStep srv.cfg) (fun s c => ¬Overwrites s c) s1 calls := by
    rw [run_iff_along (I := Open a0) (J := Exact) (fun _ _ h hl => reserveStep_open h hl)
      (fun _ _ h hl => reserve_exact_iff h hl) ho hundo]
    exact ⟨fun h => h.2, fun h => ⟨he, h⟩⟩
  rw [← hexact]
  cases hw : (run (reserveStep srv.cfg) s1 calls).session.funding with
  | wallet consumed => exact refund_wallet_restores_iff hend hw hwrites
  | subscription sf =>
    refine iff_of_true (refund_subscription_restores hend hw hwrites) ?_
    unfold Exact; rw [hw]; trivial

/-! A user with 100 units and a token with 50, on a server that trusts wallets above 1000. -/

def smallServer : Server := ⟨⟨1000, false⟩, utc, 0⟩

def smallAccount : Account := ⟨100, ⟨50, 0⟩, ⟨[], [], []⟩⟩

def textRequest : RelayInfo :=
  { requestId := "r1", userId := 7, userQuota := 0, tokenQuota := 50, tokenUnlimited := false
    isPlayground := false, forcePreConsume := false, imageRequest := false, imageRequestCount := 0 }

def imageRequest : RelayInfo := { textRequest with imageRequest := true }

theorem smallAccount_ready (info : RelayInfo) : Ready smallServer info smallAccount :=
  ⟨⟨List.nodup_nil, fun _ h => absurd h List.not_mem_nil, fun _ h => absurd h List.not_mem_nil⟩,
    rfl, fun _ h => absurd h List.not_mem_nil⟩

/-- A text request that pre-consumes 10, reserves up to 25 and is refunded. -/
theorem refund_restores_text :
    Ready smallServer textRequest smallAccount ∧
      Restored smallAccount ((run (reserveStep smallServer.cfg)
        (preConsumeBilling smallServer {} .tryWallet textRequest 10 smallAccount).1
        [{ targetQuota := 25 }]).refund smallServer.cfg {}).state.account := by
  refine ⟨smallAccount_ready _, ?_⟩
  refine (refund_restores_iff smallServer textRequest smallAccount (smallAccount_ready _) {}
    .tryWallet 10 _ (by decide) [{ targetQuota := 25 }] (by decide) {} (by decide)).mpr ?_
  decide

/-- An image request that pre-consumes 10 and reserves up to 25 gets only the last 15 back: every
write succeeds, and 10 units of the wallet are gone. -/
theorem image_refund_keeps_money :
    let s1 := (preConsumeBilling smallServer {} .tryWallet imageRequest 10 smallAccount).1
    let s2 := run (reserveStep smallServer.cfg) s1 [{ targetQuota := 25 }]
    preConsumeBilling smallServer {} .tryWallet imageRequest 10 smallAccount = (s1, none) ∧
      (s1.reserveCall smallServer.cfg { targetQuota := 25 }).error = none ∧
      (s2.refund smallServer.cfg {}).writeFailed = false ∧
      (s2.refund smallServer.cfg {}).state.account.walletQuota = 90 ∧
      ¬Restored smallAccount (s2.refund smallServer.cfg {}).state.account := by
  refine ⟨by decide, by decide, by decide, by decide, fun h => ?_⟩
  exact absurd h.1 (by decide)

end Vancine.Billing
