import Vancine.Lib.Run
import Vancine.Billing.Session

/-!
# What an open session has charged

`FundingCharged a0 q` and `TokenCharged a0 q` say that the account holds exactly `q` less than the
account `a0` before the pre-consume: in the wallet or on the subscription of the session, and on
its token. A session that is neither settled nor refunded is `Open`: both hold with
`q = preConsumedQuota`, and the counters agree with each other. A pre-consume opens a session
(`preConsumeBilling_open`) and a reservation keeps it open as long as its roll-back does not fail
(`reserve_open`).
-/

namespace Vancine.Billing

open Lib Vancine.Subscription

/-! ## Charges -/

/-- `q` more is used on the subscription than in `st0`, and the same on every other. -/
def SubscriptionCharged (id q : ℤ) (st0 st : SubscriptionStore) : Prop :=
  ∃ u, 0 ≤ u ∧ st0.used id = some u ∧
    ∀ i, st.used i = if i = id then some (u + q) else st0.used i

/-- The funding source was charged `q` since the account was `a0`. -/
def FundingCharged (a0 : Account) (q : ℤ) (acc : Account) : FundingSource → Prop
  | .wallet _ =>
    acc.walletQuota = a0.walletQuota - q ∧ acc.subscriptions = a0.subscriptions
  | .subscription f =>
    acc.walletQuota = a0.walletQuota ∧
      SubscriptionCharged f.subscriptionId q a0.subscriptions acc.subscriptions

/-- The token was charged `q` since the account was `a0`, or nothing in the playground. -/
def TokenCharged (a0 : Account) (info : RelayInfo) (q : ℤ) (acc : Account) : Prop :=
  acc.token = if info.isPlayground then a0.token else a0.token.consume q

variable {fault : Bool} {st st' : SubscriptionStore} {acc acc' : Account} {cfg : BillingConfig} {info : RelayInfo}
  {quota : ℤ} {a0 : Account} {s : BillingSession} {srv : Server} {f : PreConsumeFaults}

/-- A committed change of a subscription, seen through the used amounts. -/
theorem postConsume_used {id delta : ℤ} (h : postConsumeUserSubscriptionDelta fault id delta st = .ok st')
    (hdelta : delta ≠ 0) : st'.records = st.records ∧ ∃ u, st.used id = some u ∧
      ∀ i, st'.used i = if i = id then some (max (u + delta) 0) else st.used i := by
  rcases postConsume_ok h with ⟨h0, -⟩ | ⟨-, -, -, sub, hfind, -, rfl⟩
  · exact absurd h0 hdelta
  · obtain rfl := SubscriptionStore.findSub_id hfind
    refine ⟨rfl, sub.amountUsed, congrArg (Option.map _) hfind, fun i => ?_⟩
    exact SubscriptionStore.used_saveSub
      { sub with amountUsed := max (sub.amountUsed + delta) 0 } hfind i

/-- A change that leaves the charge non-negative is not clamped. -/
theorem SubscriptionCharged.delta {id q delta : ℤ} {st0 st st' : SubscriptionStore}
    (hc : SubscriptionCharged id q st0 st) (h : postConsumeUserSubscriptionDelta fault id delta st = .ok st')
    (hdelta : delta ≠ 0) (hq : 0 ≤ q + delta) : SubscriptionCharged id (q + delta) st0 st' := by
  obtain ⟨u, hu, hu0, hused⟩ := hc
  obtain ⟨-, v, hv, hused'⟩ := postConsume_used h hdelta
  have hvu : v = u + q := by
    have := hused id
    rw [if_pos rfl, hv] at this
    exact Option.some.inj this
  refine ⟨u, hu, hu0, fun i => ?_⟩
  rw [hused' i]
  by_cases hi : i = id
  · rw [if_pos hi, if_pos hi, hvu]
    congr 1
    omega
  · rw [if_neg hi, if_neg hi, hused i, if_neg hi]

theorem subscriptionDelta_ok {id delta : ℤ} (h : subscriptionDelta fault id delta acc = .ok acc') :
    ∃ st, postConsumeUserSubscriptionDelta fault id delta acc.subscriptions = .ok st ∧
      acc' = { acc with subscriptions := st } := by
  unfold subscriptionDelta at h
  cases hp : postConsumeUserSubscriptionDelta fault id delta acc.subscriptions with
  | error e => rw [hp] at h; cases h
  | ok st => rw [hp] at h; cases h; exact ⟨st, rfl, rfl⟩

/-! ## The steps of a reservation -/

/-- The funding after a funding step: an image reservation sets the counter of a wallet. -/
def FundingSource.reserved (delta : ℤ) (image : Bool) : FundingSource → FundingSource
  | .wallet consumed => .wallet (if image then delta else consumed + delta)
  | .subscription f => .subscription f

/-- The funding after the roll-back of a funding step. -/
def FundingSource.unreserved (delta : ℤ) : FundingSource → FundingSource
  | .wallet consumed => .wallet (consumed - delta)
  | .subscription f => .subscription f

theorem walletPreConsume_ok {amount consumed consumed' : ℤ} (hpos : 0 < amount)
    (h : walletPreConsume fault amount consumed acc = .ok (consumed', acc')) :
    consumed' = amount ∧ acc' = { acc with walletQuota := acc.walletQuota - amount } := by
  unfold walletPreConsume at h
  rw [if_neg (by omega)] at h
  cases ht : tryReserveUserQuota fault amount acc with
  | error e => rw [ht] at h; cases h
  | ok r =>
    rw [ht] at h
    cases r with
    | none => cases h
    | some a => cases h; exact ⟨rfl, tryReserveUserQuota_ok ht⟩

/-- **The funding step** charges the difference and nothing else. -/
theorem reserveFunding_ok {delta : ℤ} {image : Bool} {s s' : BillingState} (hpos : 0 < delta)
    (h : s.reserveFunding cfg fault delta image = .ok s') :
    s'.session = { s.session with funding := s.session.funding.reserved delta image } ∧
      s'.account.token = s.account.token ∧ s'.account.subscriptions.records = s.account.subscriptions.records ∧
      ∀ a0 q, 0 ≤ q → FundingCharged a0 q s.account s.session.funding →
        FundingCharged a0 (q + delta) s'.account s'.session.funding := by
  unfold BillingState.reserveFunding at h
  cases hf : s.session.funding with
  | wallet consumed =>
    rw [hf] at h
    dsimp only at h
    cases image with
    | true =>
      rw [if_pos rfl] at h
      cases hw : walletPreConsume fault delta consumed s.account with
      | error e => rw [hw] at h; cases h
      | ok r =>
        obtain ⟨consumed', acc⟩ := r
        rw [hw] at h
        cases h
        obtain ⟨rfl, rfl⟩ := walletPreConsume_ok hpos hw
        refine ⟨by simp [FundingSource.reserved], rfl, rfl, fun a0 q _ hc => ?_⟩
        obtain ⟨hw0, hsubs⟩ := hc
        exact ⟨show s.account.walletQuota - consumed' = _ by omega, hsubs⟩
    | false =>
      rw [if_neg (by decide)] at h
      cases hd : decreaseUserQuota cfg fault delta s.account with
      | error e => rw [hd] at h; cases h
      | ok acc =>
        rw [hd] at h
        cases h
        obtain rfl := decreaseUserQuota_ok hd
        refine ⟨by simp [FundingSource.reserved], rfl, rfl, fun a0 q _ hc => ?_⟩
        obtain ⟨hw0, hsubs⟩ := hc
        exact ⟨show s.account.walletQuota - delta = _ by omega, hsubs⟩
  | subscription f =>
    rw [hf] at h
    dsimp only at h
    cases hd : subscriptionDelta fault f.subscriptionId delta s.account with
    | error e => rw [hd] at h; cases h
    | ok acc =>
      rw [hd] at h
      cases h
      obtain ⟨st, hp, rfl⟩ := subscriptionDelta_ok hd
      refine ⟨by simp [FundingSource.reserved, ← hf], rfl, (postConsume_used hp (by omega)).1, fun a0 q hq hc => ?_⟩
      show FundingCharged a0 (q + delta) _ s.session.funding
      rw [hf]
      exact ⟨hc.1, hc.2.delta hp (by omega) (by omega)⟩

/-- **The roll-back** of a funding step gives the difference back. -/
theorem rollbackFundingReserve_ok {delta : ℤ} {s s' : BillingState} (hpos : 0 < delta)
    (h : s.rollbackFundingReserve cfg fault delta = .ok s') :
    s'.session = { s.session with funding := s.session.funding.unreserved delta } ∧ s'.account.token = s.account.token ∧
      s'.account.subscriptions.records = s.account.subscriptions.records ∧
      ∀ a0 q, 0 ≤ q → FundingCharged a0 (q + delta) s.account s.session.funding →
        FundingCharged a0 q s'.account s'.session.funding := by
  unfold BillingState.rollbackFundingReserve at h
  cases hf : s.session.funding with
  | wallet consumed =>
    rw [hf] at h
    dsimp only at h
    cases hi : increaseUserQuota cfg fault delta s.account with
    | error e => rw [hi] at h; cases h
    | ok acc =>
      rw [hi] at h
      cases h
      obtain rfl := increaseUserQuota_ok hi
      refine ⟨by simp [FundingSource.unreserved], rfl, rfl, fun a0 q _ hc => ?_⟩
      obtain ⟨hw0, hsubs⟩ := hc
      exact ⟨show s.account.walletQuota + delta = _ by omega, hsubs⟩
  | subscription f =>
    rw [hf] at h
    dsimp only at h
    cases hd : subscriptionDelta fault f.subscriptionId (-delta) s.account with
    | error e => rw [hd] at h; cases h
    | ok acc =>
      rw [hd] at h
      cases h
      obtain ⟨st, hp, rfl⟩ := subscriptionDelta_ok hd
      refine ⟨by simp [FundingSource.unreserved, ← hf], rfl, (postConsume_used hp (by omega)).1, fun a0 q hq hc => ?_⟩
      show FundingCharged a0 q _ s.session.funding
      rw [hf]
      have hback := hc.2.delta hp (by omega) (by omega)
      rw [Int.add_neg_cancel_right] at hback
      exact ⟨hc.1, hback⟩

theorem preConsumeTokenQuota_ok (h : preConsumeTokenQuota cfg info fault quota acc = .ok acc') : acc' = { acc with
      token := if info.isPlayground then acc.token else acc.token.consume quota } := by
  unfold preConsumeTokenQuota at h
  by_cases h1 : quota < 0
  · rw [if_pos h1] at h; cases h
  rw [if_neg h1] at h
  by_cases h2 : info.isPlayground = true
  · rw [if_pos h2] at h; cases h; rw [if_pos h2]
  rw [if_neg h2] at h
  cases ht : tryReserveTokenQuota cfg fault quota info.tokenUnlimited acc with
  | error e => rw [ht] at h; cases h
  | ok r =>
    rw [ht] at h
    cases r with
    | none => cases h
    | some a => cases h; rw [if_neg h2]; exact tryReserveTokenQuota_ok ht

theorem reserveToken_ok {delta : ℤ} (hpos : 0 < delta) (h : reserveToken cfg info fault delta acc = .ok acc') :
    acc' = { acc with
      token := if info.isPlayground then acc.token else acc.token.consume delta } := by
  unfold reserveToken at h
  by_cases hp : delta ≤ 0 ∨ info.isPlayground = true
  · rw [if_pos hp] at h
    cases h
    rw [if_pos (hp.resolve_left (by omega))]
  · rw [if_neg hp] at h
    exact preConsumeTokenQuota_ok h

/-! ## Open sessions -/

/-- The counters of the funding source agree with what the session has charged. For a subscription
they also name the row and the record of the request. -/
def Backed (s : BillingSession) (st : SubscriptionStore) : Prop :=
  match s.funding with
  | .wallet consumed => 0 ≤ consumed ∧ consumed ≤ s.preConsumedQuota
  | .subscription f =>
    s.preConsumedQuota = f.preConsumed + s.extraReserved ∧ 0 ≤ s.extraReserved ∧
      0 < f.preConsumed ∧ 0 < f.subscriptionId ∧ s.relayInfo.subscriptionId = f.subscriptionId ∧
      isBlank f.requestId = false ∧
      st.findRecord f.requestId =
        some ⟨f.requestId, f.userId, f.subscriptionId, f.preConsumed, .consumed⟩

/-- A session that is neither settled nor refunded, and charged `preConsumedQuota` since `a0`. -/
structure Open (a0 : Account) (s : BillingState) : Prop where
  settled : s.session.settled = false
  refunded : s.session.refunded = false
  fundingSettled : s.session.fundingSettled = false
  nonneg : 0 ≤ s.session.preConsumedQuota
  tokenConsumed : s.session.tokenConsumed = s.session.preConsumedQuota
  funding : FundingCharged a0 s.session.preConsumedQuota s.account s.session.funding
  token : TokenCharged a0 s.session.relayInfo s.session.preConsumedQuota s.account
  backed : Backed s.session s.account.subscriptions

/-- The image count of the current attempt is set before a reservation. -/
def BillingState.withImages (n : ℤ) (s : BillingState) : BillingState :=
  { s with session := { s.session with relayInfo := { s.session.relayInfo with
      imageRequestCount := n } } }

/-- One call of `Reserve`. -/
structure ReserveCall where
  targetQuota : ℤ
  imageRequestCount : ℤ := 0
  faults : ReserveFaults := {}
  deriving DecidableEq

def BillingState.reserveCall (cfg : BillingConfig) (s : BillingState) (c : ReserveCall) :
    ReserveOutcome :=
  (s.withImages c.imageRequestCount).reserve cfg c.faults c.targetQuota

def reserveStep (cfg : BillingConfig) (s : BillingState) (c : ReserveCall) : BillingState :=
  (s.reserveCall cfg c).state

theorem Open.withImages {s : BillingState} (h : Open a0 s) (n : ℤ) : Open a0 (s.withImages n) :=
  ⟨h.settled, h.refunded, h.fundingSettled, h.nonneg, h.tokenConsumed, h.funding, h.token, h.backed⟩

variable {target : ℤ} {s1 : BillingState}

/-- What a reservation that loses nothing can do: nothing, a funding step that is rolled back, or a
funding step and a token step. -/
theorem reserve_cases {f : ReserveFaults} {s : BillingState} (hlost : (s.reserve cfg f target).lost = false) :
    ((s.reserve cfg f target).state = s ∧ (s.session.skipsReserve target = true ∨
      ∃ e, s.reserveFunding cfg f.funding (target - s.session.preConsumedQuota) s.session.isImageRequest = .error e)) ∨
    (s.session.skipsReserve target = false ∧ ∃ s' s'',
      s.reserveFunding cfg f.funding (target - s.session.preConsumedQuota) s.session.isImageRequest = .ok s' ∧
      s'.rollbackFundingReserve cfg f.undo (target - s.session.preConsumedQuota) = .ok s'' ∧
      (s.reserve cfg f target).state = s'') ∨ (s.session.skipsReserve target = false ∧ ∃ s' acc,
      s.reserveFunding cfg f.funding (target - s.session.preConsumedQuota) s.session.isImageRequest = .ok s' ∧
      reserveToken cfg s.session.relayInfo f.token (target - s.session.preConsumedQuota) s'.account = .ok acc ∧
      (s.reserve cfg f target).state = ⟨BillingSession.syncRelayInfo { s'.session with
          preConsumedQuota := s'.session.preConsumedQuota + (target - s.session.preConsumedQuota)
          tokenConsumed := s'.session.tokenConsumed + (target - s.session.preConsumedQuota)
          extraReserved := s'.session.extraReserved + (target - s.session.preConsumedQuota)
          trusted := s'.session.trusted && !s.session.isImageRequest }, acc⟩) := by
  unfold BillingState.reserve at hlost ⊢
  by_cases hskip : s.session.skipsReserve target = true
  · rw [if_pos hskip]; exact .inl ⟨rfl, .inl hskip⟩
  rw [if_neg hskip] at hlost ⊢
  dsimp only at hlost ⊢
  have hskip' : s.session.skipsReserve target = false := by simpa using hskip
  cases hf : s.reserveFunding cfg f.funding (target - s.session.preConsumedQuota)
      s.session.isImageRequest with
  | error e => exact .inl ⟨rfl, .inr ⟨e, rfl⟩⟩
  | ok s' =>
    rw [hf] at hlost
    dsimp only at hlost ⊢
    cases ht : reserveToken cfg s.session.relayInfo f.token (target - s.session.preConsumedQuota)
        s'.account with
    | ok acc => exact .inr (.inr ⟨hskip', s', acc, rfl, ht, rfl⟩)
    | error e =>
      rw [ht] at hlost
      dsimp only at hlost ⊢
      cases hr : s'.rollbackFundingReserve cfg f.undo (target - s.session.preConsumedQuota) with
      | error e' => rw [hr] at hlost; cases hlost
      | ok s'' => exact .inr (.inl ⟨hskip', s', s'', rfl, hr, rfl⟩)

theorem skipsReserve_lt (h : s.skipsReserve target = false) : 0 < target - s.preConsumedQuota := by
  simp only [BillingSession.skipsReserve, Bool.or_eq_false_iff, decide_eq_false_iff_not] at h
  omega

/-- The counters after a reservation still agree with the charge. -/
theorem Backed.reserved (h : Backed s st) (hrec : st'.records = st.records) {delta : ℤ} (hpos : 0 < delta)
    (image trusted : Bool) (hnonneg : 0 ≤ s.preConsumedQuota) : Backed (BillingSession.syncRelayInfo { s with
      funding := s.funding.reserved delta image
      preConsumedQuota := s.preConsumedQuota + delta
      tokenConsumed := s.tokenConsumed + delta
      extraReserved := s.extraReserved + delta
      trusted := trusted }) st' := by
  unfold Backed at h ⊢
  cases hf : s.funding with
  | wallet consumed =>
    rw [hf] at h
    simp only [FundingSource.reserved, BillingSession.syncRelayInfo]
    cases image with
    | true => rw [if_pos rfl]; omega
    | false => rw [if_neg (by decide)]; omega
  | subscription f =>
    rw [hf] at h
    obtain ⟨h1, h2, h3, h4, -, h6, h7⟩ := h
    simp only [FundingSource.reserved, BillingSession.syncRelayInfo]
    refine ⟨by omega, by omega, h3, h4, trivial, h6, ?_⟩
    unfold SubscriptionStore.findRecord at h7 ⊢
    rw [hrec]; exact h7

/-- The counters after a rolled-back reservation still agree with the charge. -/
theorem Backed.unreserved (h : Backed s st) (hrec : st'.records = st.records) {delta : ℤ} (image : Bool) :
    Backed { s with funding := (s.funding.reserved delta image).unreserved delta } st' := by
  unfold Backed at h ⊢
  cases hf : s.funding with
  | wallet consumed =>
    rw [hf] at h
    simp only [FundingSource.reserved, FundingSource.unreserved]
    cases image with
    | true => rw [if_pos rfl]; omega
    | false => rw [if_neg (by decide)]; omega
  | subscription f =>
    rw [hf] at h
    obtain ⟨h1, h2, h3, h4, h5, h6, h7⟩ := h
    refine ⟨h1, h2, h3, h4, h5, h6, ?_⟩
    unfold SubscriptionStore.findRecord at h7 ⊢
    rw [hrec]; exact h7

/-- **Reservations.** A reservation that loses nothing keeps the session open. -/
theorem reserve_open {f : ReserveFaults} {s : BillingState} (ho : Open a0 s)
    (hlost : (s.reserve cfg f target).lost = false) : Open a0 (s.reserve cfg f target).state := by
  rcases reserve_cases hlost with ⟨h, -⟩ | ⟨hskip, s', s'', hfund, hroll, h⟩ |
    ⟨hskip, s', acc, hfund, htok, h⟩
  · rw [h]; exact ho
  · -- the token step failed and the funding step was rolled back
    rw [h]
    have hpos := skipsReserve_lt hskip
    obtain ⟨hs', ht', hr', hc'⟩ := reserveFunding_ok hpos hfund
    obtain ⟨hs'', ht'', hr'', hc''⟩ := rollbackFundingReserve_ok hpos hroll
    have hcharged := hc'' a0 _ ho.nonneg (hc' a0 _ ho.nonneg ho.funding)
    rw [hs'] at hs''
    refine ⟨?_, ?_, ?_, ?_, ?_, ?_, ?_, ?_⟩
    · rw [hs'']; exact ho.settled
    · rw [hs'']; exact ho.refunded
    · rw [hs'']; exact ho.fundingSettled
    · rw [hs'']; exact ho.nonneg
    · rw [hs'']; exact ho.tokenConsumed
    · rw [hs'']; rw [hs''] at hcharged; exact hcharged
    · rw [hs'']
      unfold TokenCharged
      rw [ht'', ht']; exact ho.token
    · rw [hs'']; exact ho.backed.unreserved (hr''.trans hr') _
  · rw [h]
    have hpos := skipsReserve_lt hskip
    obtain ⟨hs', ht', hr', hc'⟩ := reserveFunding_ok hpos hfund
    have hcharged := hc' a0 _ ho.nonneg ho.funding
    obtain rfl := reserveToken_ok hpos htok
    have hnonneg := ho.nonneg
    have htoken := ho.tokenConsumed
    rw [hs'] at hcharged ⊢
    refine ⟨ho.settled, ho.refunded, ho.fundingSettled, ?_, ?_, ?_, ?_, ?_⟩
    · show 0 ≤ s.session.preConsumedQuota + (target - s.session.preConsumedQuota)
      omega
    · show s.session.tokenConsumed + (target - s.session.preConsumedQuota) =
        s.session.preConsumedQuota + (target - s.session.preConsumedQuota)
      omega
    · show FundingCharged a0 _ _ (s.session.funding.reserved _ _)
      cases hf : s.session.funding with
      | wallet c => rw [hf] at hcharged; exact hcharged
      | subscription f => rw [hf] at hcharged; exact hcharged
    · have htok0 := ho.token
      unfold TokenCharged at htok0 ⊢
      rw [BillingSession.syncRelayInfo_isPlayground]
      show (if s.session.relayInfo.isPlayground then s'.account.token else _) = _
      rw [ht', htok0]
      cases s.session.relayInfo.isPlayground with
      | true => rfl
      | false => exact Token.consume_consume _ _ _
    · exact ho.backed.reserved hr' hpos _ _ hnonneg

/-! ## The pre-consume opens a session -/

theorem shouldTrust_subscription {f : SubscriptionFunding} (h : s.funding = .subscription f) :
    s.shouldTrust cfg = false := by
  unfold BillingSession.shouldTrust
  rw [h]
  split_ifs <;> rfl

/-- The counter of a wallet holds all the session has charged. -/
def Exact (s : BillingState) : Prop :=
  match s.session.funding with
  | .wallet consumed => consumed = s.session.preConsumedQuota
  | .subscription _ => True

/-- What a pre-consume that succeeds has done: the token step, the funding step, and the counters. -/
theorem preConsume_ok_cases {s s1 : BillingState} (h : s.preConsume srv f quota = (s1, none)) :
    ∃ session effective acc funding acc', (session = s.session ∨ session = { s.session with trusted := true }) ∧
      (effective = quota ∨ (effective = 0 ∧ s.session.shouldTrust srv.cfg = true)) ∧ (0 < effective →
        preConsumeTokenQuota srv.cfg s.session.relayInfo f.token effective s.account = .ok acc) ∧
      (effective ≤ 0 → acc = s.account) ∧
      s.session.funding.preConsume srv f.funding effective acc = .ok (funding, acc') ∧
      s1 = ⟨BillingSession.syncRelayInfo { session with
        tokenConsumed := if 0 < effective then effective else s.session.tokenConsumed
        funding := funding
        preConsumedQuota := effective }, acc'⟩ := by
  unfold BillingState.preConsume at h
  dsimp only at h
  set trusted := s.session.shouldTrust srv.cfg with htrust
  set session := if trusted = true then { s.session with trusted := true } else s.session
    with hsession
  set effective := if trusted = true then 0 else quota with heffective
  have hses : session = s.session ∨ session = { s.session with trusted := true } := by
    cases ht : trusted with
    | true => right; rw [hsession, ht]; rfl
    | false => left; rw [hsession, ht]; rfl
  have heff : effective = quota ∨ (effective = 0 ∧ trusted = true) := by
    cases ht : trusted with
    | true => right; rw [heffective, ht]; exact ⟨rfl, rfl⟩
    | false => left; rw [heffective, ht]; rfl
  have hinfo : session.relayInfo = s.session.relayInfo := by rcases hses with e | e <;> rw [e]
  have hfund : session.funding = s.session.funding := by rcases hses with e | e <;> rw [e]
  have htoks : session.tokenConsumed = s.session.tokenConsumed := by
    rcases hses with e | e <;> rw [e]
  rw [hinfo] at h
  clear_value session effective trusted
  by_cases hpos : 0 < effective
  · rw [if_pos hpos] at h
    cases htok : preConsumeTokenQuota srv.cfg s.session.relayInfo f.token effective s.account with
    | error e => rw [htok] at h; cases h
    | ok acc =>
      rw [htok] at h
      dsimp only at h
      rw [if_pos hpos] at h
      dsimp only at h
      rw [hfund] at h
      cases hpre : s.session.funding.preConsume srv f.funding effective acc with
      | error e => rw [hpre] at h; dsimp only at h; split_ifs at h <;> cases h
      | ok r =>
        obtain ⟨funding, acc'⟩ := r
        rw [hpre] at h
        cases h
        exact ⟨session, effective, acc, funding, acc', hses, heff, fun _ => htok,
          fun hle => by omega, hpre, by rw [if_pos hpos, hinfo]⟩
  · rw [if_neg hpos] at h
    dsimp only at h
    rw [if_neg hpos, hfund] at h
    cases hpre : s.session.funding.preConsume srv f.funding effective s.account with
    | error e => rw [hpre] at h; dsimp only at h; split_ifs at h <;> cases h
    | ok r =>
      obtain ⟨funding, acc'⟩ := r
      rw [hpre] at h
      cases h
      exact ⟨session, effective, s.account, funding, acc', hses, heff, fun hp => absurd hp hpos,
        fun _ => rfl, hpre, by rw [if_neg hpos, ← htoks]⟩

theorem subscriptionPreConsume_ok {env : PreConsumeEnv} {f f' : SubscriptionFunding}
    (hvalid : acc.subscriptions.Valid) (hfresh : acc.subscriptions.findRecord f.requestId = none)
    (hreset : NoResetDue srv.cal srv.now acc.subscriptions f.userId)
    (h : subscriptionPreConsume srv env f acc = .ok (f', acc')) :
    acc'.walletQuota = acc.walletQuota ∧ acc'.token = acc.token ∧
      f'.preConsumed = f.amount ∧ 0 < f.amount ∧ 0 < f'.subscriptionId ∧ isBlank f'.requestId = false ∧
      SubscriptionCharged f'.subscriptionId f.amount acc.subscriptions acc'.subscriptions ∧
      acc'.subscriptions.findRecord f'.requestId =
        some ⟨f'.requestId, f'.userId, f'.subscriptionId, f'.preConsumed, .consumed⟩ := by
  unfold subscriptionPreConsume at h
  cases hp : preConsumeUserSubscription srv.cal srv.now env f.requestId f.userId f.amount
      acc.subscriptions with
  | error e => rw [hp] at h; cases h
  | ok c =>
    rw [hp] at h
    cases h
    obtain ⟨hpos, hblank, ⟨-, -, -, hrec⟩ | hc⟩ := preConsume_ok hp
    · exact absurd hfresh hrec
    obtain ⟨sub, hsub, hid, hamount, hused, hrecord⟩ := consumeFrom_charges _ acc.subscriptions []
      (fun s hs => hvalid.findSub (mem_candidates.mp hs).1)
      (candidates_nodup hvalid.nodup f.userId srv.now) hreset hfresh hc
    have hmem := (mem_candidates.mp hsub).1
    refine ⟨rfl, rfl, hamount, hpos, ?_, hblank, ⟨sub.amountUsed, ?_, ?_, ?_⟩, ?_⟩
    · show 0 < c.result.userSubscriptionId
      rw [hid]; exact hvalid.pos sub hmem
    · exact (hvalid.bounded sub hmem).1
    · show acc.subscriptions.used c.result.userSubscriptionId = _
      rw [hid]
      exact congrArg (Option.map UserSubscription.amountUsed) (hvalid.findSub hmem)
    · intro i
      show c.store.used i = if i = c.result.userSubscriptionId then _ else _
      rw [hid]; exact hused i
    · show c.store.findRecord f.requestId =
        some ⟨f.requestId, f.userId, c.result.userSubscriptionId, c.result.preConsumed, .consumed⟩
      rw [hid, hamount]; exact hrecord

/-- What the pre-consume of a request may count on: the tables are valid, the request id is new, and
no lazy reset is due. -/
structure Ready (srv : Server) (info : RelayInfo) (a0 : Account) : Prop where
  valid : a0.subscriptions.Valid
  fresh : a0.subscriptions.findRecord info.requestId = none
  noReset : NoResetDue srv.cal srv.now a0.subscriptions info.userId

theorem newSession_closed {funding : FundingSource} {acc : Account} {session : BillingSession}
    (h : session = (newSession info funding acc).session ∨
      session = { (newSession info funding acc).session with trusted := true }) :
    session.settled = false ∧ session.refunded = false ∧ session.fundingSettled = false ∧
      session.extraReserved = 0 ∧ session.relayInfo = info := by
  rcases h with e | e
  · rw [e]; exact ⟨rfl, rfl, rfl, rfl, rfl⟩
  · rw [e]; exact ⟨rfl, rfl, rfl, rfl, rfl⟩

theorem preConsume_wallet_open (hq : 0 ≤ quota)
    (h : (newSession info (.wallet 0) a0).preConsume srv f quota = (s1, none)) : Open a0 s1 ∧ Exact s1 := by
  obtain ⟨session, effective, acc, funding, acc', hses, heff, htok, hacc, hpre, rfl⟩ :=
    preConsume_ok_cases h
  have heff0 : 0 ≤ effective := by rcases heff with e | ⟨e, -⟩ <;> omega
  obtain ⟨hset, href, hfs, -, rfl⟩ := newSession_closed hses
  -- the token step
  have htoken : acc = { a0 with
      token := if session.relayInfo.isPlayground then a0.token
        else a0.token.consume effective } := by
    by_cases hpos : 0 < effective
    · exact preConsumeTokenQuota_ok (htok hpos)
    · have he : effective = 0 := by omega
      rw [hacc (by omega), he, Token.consume_zero, ite_self]
      rfl
  -- the funding step
  have hwallet : funding = .wallet effective ∧
      acc' = { acc with walletQuota := acc.walletQuota - effective } := by
    change (walletPreConsume f.funding.fault effective 0 acc).map
      (fun r => (FundingSource.wallet r.1, r.2)) = .ok (funding, acc') at hpre
    by_cases hpos : 0 < effective
    · cases hw : walletPreConsume f.funding.fault effective 0 acc with
      | error e => rw [hw] at hpre; cases hpre
      | ok r =>
        obtain ⟨consumed, a⟩ := r
        rw [hw] at hpre
        cases hpre
        obtain ⟨rfl, rfl⟩ := walletPreConsume_ok hpos hw
        exact ⟨rfl, rfl⟩
    · have he : effective = 0 := by omega
      unfold walletPreConsume at hpre
      rw [if_pos (by omega)] at hpre
      cases hpre
      rw [he, Int.sub_zero]
      exact ⟨rfl, rfl⟩
  obtain ⟨rfl, rfl⟩ := hwallet
  subst htoken
  refine ⟨⟨hset, href, hfs, heff0, ?_, ⟨rfl, rfl⟩, ?_, ⟨heff0, le_refl _⟩⟩, rfl⟩
  · show (if 0 < effective then effective else 0) = effective
    by_cases hpos : 0 < effective
    · rw [if_pos hpos]
    · rw [if_neg hpos]; omega
  · unfold TokenCharged
    rw [BillingSession.syncRelayInfo_isPlayground]
    rfl

theorem preConsume_subscription_open (hr : Ready srv info a0) (hq : 0 < quota)
    (h : (newSession info (.subscription { requestId := info.requestId, userId := info.userId, amount := quota }) a0).preConsume
      srv f quota = (s1, none)) :
    Open a0 s1 ∧ Exact s1 := by
  obtain ⟨session, effective, acc, funding, acc', hses, heff, htok, -, hpre, rfl⟩ :=
    preConsume_ok_cases h
  obtain rfl : effective = quota := by
    rcases heff with e | ⟨-, ht⟩
    · exact e
    · rw [shouldTrust_subscription rfl] at ht; cases ht
  obtain ⟨hset, href, hfs, hextra, rfl⟩ := newSession_closed hses
  have htoken := preConsumeTokenQuota_ok (htok hq)
  change (subscriptionPreConsume srv f.funding _ acc).map
    (fun r => (FundingSource.subscription r.1, r.2)) = .ok (funding, acc') at hpre
  cases hs : subscriptionPreConsume srv f.funding
      { requestId := session.relayInfo.requestId, userId := session.relayInfo.userId,
        amount := effective } acc with
  | error e => rw [hs] at hpre; cases hpre
  | ok r =>
    obtain ⟨f', a⟩ := r
    rw [hs] at hpre
    cases hpre
    have hsubs : acc.subscriptions = a0.subscriptions := by rw [htoken]; rfl
    obtain ⟨hw, ht, hpre, hpos, hid, hblank, hcharged, hrec⟩ := subscriptionPreConsume_ok
      (by rw [hsubs]; exact hr.valid) (by rw [hsubs]; exact hr.fresh)
      (by rw [hsubs]; exact hr.noReset) hs
    refine ⟨⟨hset, href, hfs, hq.le, ?_, ⟨?_, ?_⟩, ?_, ?_⟩, trivial⟩
    · exact if_pos hq
    · rw [hw, htoken]; rfl
    · rw [hsubs] at hcharged; exact hcharged
    · unfold TokenCharged
      rw [BillingSession.syncRelayInfo_isPlayground, ht, htoken]
      rfl
    · refine ⟨?_, ?_, by rw [hpre]; exact hpos, hid, rfl, hblank, hrec⟩
      · show effective = f'.preConsumed + session.extraReserved
        rw [hpre, hextra]
        exact (Int.add_zero _).symm
      · show 0 ≤ session.extraReserved
        omega

/-- **Pre-consume.** A pre-consume that succeeds opens a session whose wallet counter is exact. -/
theorem preConsumeBilling_open {path : FundingPath} (hr : Ready srv info a0)
    (h : preConsumeBilling srv f path info quota a0 = (s1, none)) : Open a0 s1 ∧ Exact s1 := by
  cases path with
  | tryWallet =>
    simp only [preConsumeBilling] at h
    by_cases h1 : quota < 0
    · rw [if_pos h1] at h; cases h
    rw [if_neg h1] at h
    by_cases h2 : a0.walletQuota ≤ 0
    · rw [if_pos h2] at h; cases h
    rw [if_neg h2] at h
    by_cases h3 : a0.walletQuota - quota < 0
    · rw [if_pos h3] at h; cases h
    rw [if_neg h3] at h
    exact preConsume_wallet_open (by omega) h
  | trySubscription =>
    simp only [preConsumeBilling] at h
    by_cases h1 : quota < 0
    · rw [if_pos h1] at h; cases h
    rw [if_neg h1] at h
    refine preConsume_subscription_open hr ?_ h
    split_ifs <;> omega

end Vancine.Billing
