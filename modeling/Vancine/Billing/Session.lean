import Vancine.Billing.Account

/-!
# Billing sessions

`BillingSession` of `service/billing_session.go` with its two funding sources
(`service/funding_source.go`): the pre-consume of a request, the reservations added before it is
sent, and its settlement or refund.

A session holds four counters (`WalletFunding.consumed`, `tokenConsumed`, `extraReserved`,
`preConsumedQuota`) and three latches (`fundingSettled`, `settled`, `refunded`). A call returns the
session, the account and the error; what it wrote before the error stays written. The mutex makes
calls of one session follow each other. `Refund` hands its writes to a goroutine, which reads only
values that no later call changes, so its writes are made in the call.
-/

namespace Vancine.Billing

open Vancine.Subscription

/-! ## Data -/

/-- The fields of `RelayInfo` that billing reads or fills in. `tokenQuota` is the `token_quota` of
the request's context and `imageRequest` tells that the request is an image request. -/
structure RelayInfo where
  requestId : String
  userId : ℤ
  userQuota : ℤ
  tokenQuota : ℤ
  tokenUnlimited : Bool
  isPlayground : Bool
  forcePreConsume : Bool
  imageRequest : Bool
  imageRequestCount : ℤ
  finalPreConsumedQuota : ℤ := 0
  subscriptionId : ℤ := 0
  subscriptionPreConsumed : ℤ := 0
  subscriptionPostDelta : ℤ := 0
  subscriptionAmountTotal : ℤ := 0
  subscriptionAmountUsedAfterPreConsume : ℤ := 0
  deriving DecidableEq

structure SubscriptionFunding where
  requestId : String
  userId : ℤ
  amount : ℤ
  subscriptionId : ℤ := 0
  preConsumed : ℤ := 0
  amountTotal : ℤ := 0
  amountUsedAfter : ℤ := 0
  deriving DecidableEq

inductive FundingSource
  | wallet (consumed : ℤ)
  | subscription (f : SubscriptionFunding)
  deriving DecidableEq

structure BillingSession where
  relayInfo : RelayInfo
  funding : FundingSource
  preConsumedQuota : ℤ := 0
  tokenConsumed : ℤ := 0
  extraReserved : ℤ := 0
  trusted : Bool := false
  fundingSettled : Bool := false
  settled : Bool := false
  refunded : Bool := false
  deriving DecidableEq

structure BillingState where
  session : BillingSession
  account : Account
  deriving DecidableEq

/-- The server a call runs on: its settings, the calendar and the database clock. -/
structure Server where
  cfg : BillingConfig
  cal : Calendar
  now : ℤ

/-! ## Token and funding steps -/

/-- Playground requests use no token. -/
def preConsumeTokenQuota (cfg : BillingConfig) (info : RelayInfo) (fault : Bool) (quota : ℤ)
    (acc : Account) : Except BillingError Account :=
  if quota < 0 then .error .negativeQuota
  else if info.isPlayground then .ok acc
  else match tryReserveTokenQuota cfg fault quota info.tokenUnlimited acc with
    | .error e => .error e
    | .ok none => .error .tokenQuotaNotEnough
    | .ok (some acc') => .ok acc'

/-- `WalletFunding.PreConsume`. The counter is set, not added to. -/
def walletPreConsume (fault : Bool) (amount consumed : ℤ) (acc : Account) :
    Except BillingError (ℤ × Account) :=
  if amount ≤ 0 then .ok (consumed, acc)
  else match tryReserveUserQuota fault amount acc with
    | .error e => .error e
    | .ok none => .error .insufficientWalletQuota
    | .ok (some acc') => .ok (amount, acc')

/-- `SubscriptionFunding.PreConsume`. It charges its own amount and ignores the argument of the
interface. -/
def subscriptionPreConsume (srv : Server) (env : PreConsumeEnv) (f : SubscriptionFunding)
    (acc : Account) : Except BillingError (SubscriptionFunding × Account) :=
  match preConsumeUserSubscription srv.cal srv.now env f.requestId f.userId f.amount
      acc.subscriptions with
  | .error e => .error (.subscription e)
  | .ok c => .ok
      ({ f with
          subscriptionId := c.result.userSubscriptionId
          preConsumed := c.result.preConsumed
          amountTotal := c.result.amountTotal
          amountUsedAfter := c.result.amountUsedAfter },
        { acc with subscriptions := c.store })

/-- `PostConsumeUserSubscriptionDelta` on the account. -/
def subscriptionDelta (fault : Bool) (subscriptionId delta : ℤ) (acc : Account) :
    Except BillingError Account :=
  match postConsumeUserSubscriptionDelta fault subscriptionId delta acc.subscriptions with
  | .error e => .error (.subscription e)
  | .ok st => .ok { acc with subscriptions := st }

/-- `FundingSource.Settle`: charge a positive difference, give a negative one back. -/
def FundingSource.settle (cfg : BillingConfig) (fault : Bool) (delta : ℤ) (acc : Account) :
    FundingSource → Except BillingError Account
  | .wallet _ =>
    if delta = 0 then .ok acc
    else if 0 < delta then decreaseUserQuota cfg fault delta acc
    else increaseUserQuota cfg fault (-delta) acc
  | .subscription f =>
    if delta = 0 then .ok acc else subscriptionDelta fault f.subscriptionId delta acc

/-! ## Pre-consume -/

def BillingSession.syncRelayInfo (s : BillingSession) : BillingSession :=
  { s with
    relayInfo := match s.funding with
      | .wallet _ =>
        { s.relayInfo with
          finalPreConsumedQuota := s.preConsumedQuota
          subscriptionId := 0
          subscriptionPreConsumed := 0 }
      | .subscription f =>
        { s.relayInfo with
          finalPreConsumedQuota := s.preConsumedQuota
          subscriptionId := f.subscriptionId
          subscriptionPreConsumed := f.preConsumed + s.extraReserved
          subscriptionPostDelta := 0
          subscriptionAmountTotal := f.amountTotal
          subscriptionAmountUsedAfterPreConsume := f.amountUsedAfter + s.extraReserved } }

theorem BillingSession.syncRelayInfo_isPlayground (s : BillingSession) :
    s.syncRelayInfo.relayInfo.isPlayground = s.relayInfo.isPlayground := by
  unfold BillingSession.syncRelayInfo
  cases s.funding with
  | wallet c => rfl
  | subscription f => rfl

/-- A subscription is never trusted, so that what is pre-consumed from it is what the session
counts. -/
def BillingSession.shouldTrust (cfg : BillingConfig) (s : BillingSession) : Bool :=
  if s.relayInfo.forcePreConsume then false
  else if cfg.trustQuota ≤ 0 then false
  else if ¬(s.relayInfo.tokenUnlimited ∨ cfg.trustQuota < s.relayInfo.tokenQuota) then false
  else match s.funding with
    | .wallet _ => cfg.trustQuota < s.relayInfo.userQuota
    | .subscription _ => false

/-- Which write of a pre-consume fails. -/
structure PreConsumeFaults where
  token : Bool := false
  funding : PreConsumeEnv := {}
  undo : Bool := false

/-- The funding step of the pre-consume. -/
def FundingSource.preConsume (srv : Server) (env : PreConsumeEnv) (amount : ℤ) (acc : Account) :
    FundingSource → Except BillingError (FundingSource × Account)
  | .wallet consumed =>
    (walletPreConsume env.fault amount consumed acc).map fun r => (.wallet r.1, r.2)
  | .subscription f => (subscriptionPreConsume srv env f acc).map fun r => (.subscription r.1, r.2)

def BillingState.preConsume (srv : Server) (f : PreConsumeFaults) (quota : ℤ) (s : BillingState) :
    BillingState × Option BillingError :=
  let trusted := s.session.shouldTrust srv.cfg
  let session := if trusted then { s.session with trusted := true } else s.session
  let effectiveQuota := if trusted then 0 else quota
  let charged :=
    if 0 < effectiveQuota then
      preConsumeTokenQuota srv.cfg session.relayInfo f.token effectiveQuota s.account
    else .ok s.account
  match charged with
  | .error e => (⟨session, s.account⟩, some e)
  | .ok acc =>
    let session :=
      if 0 < effectiveQuota then { session with tokenConsumed := effectiveQuota } else session
    match session.funding.preConsume srv f.funding effectiveQuota acc with
    | .error e =>
      if 0 < session.tokenConsumed ∧ ¬session.relayInfo.isPlayground then
        let acc' := match increaseTokenQuota srv.cfg f.undo session.tokenConsumed acc with
          | .error _ => acc
          | .ok acc' => acc'
        (⟨{ session with tokenConsumed := 0 }, acc'⟩, some e)
      else (⟨session, acc⟩, some e)
    | .ok (funding, acc') =>
      let session := { session with funding, preConsumedQuota := effectiveQuota }
      (⟨session.syncRelayInfo, acc'⟩, none)

/-- The two ways `NewBillingSession` funds a session. -/
inductive FundingPath
  | tryWallet
  | trySubscription

/-- A session as `NewBillingSession` creates it. -/
def newSession (info : RelayInfo) (funding : FundingSource) (acc : Account) : BillingState :=
  ⟨{ relayInfo := info, funding }, acc⟩

/-- `PreConsumeBilling` along one path of `NewBillingSession`. A subscription is charged at least
one unit, and the session counts the same amount. -/
def preConsumeBilling (srv : Server) (f : PreConsumeFaults) (path : FundingPath) (info : RelayInfo)
    (quota : ℤ) (acc : Account) : BillingState × Option BillingError :=
  match path with
  | .tryWallet =>
    let s := newSession { info with userQuota := acc.walletQuota } (.wallet 0) acc
    if quota < 0 then (s, some .negativeQuota)
    else if acc.walletQuota ≤ 0 then (s, some .insufficientWalletQuota)
    else if acc.walletQuota - quota < 0 then (s, some .insufficientWalletQuota)
    else s.preConsume srv f quota
  | .trySubscription =>
    let subConsume := if quota ≤ 0 then 1 else quota
    let funding : SubscriptionFunding :=
      { requestId := info.requestId, userId := info.userId, amount := subConsume }
    let s := newSession info (.subscription funding) acc
    if quota < 0 then (s, some .negativeQuota) else s.preConsume srv f subConsume

/-! ## Reserve -/

/-- Which write of a reservation fails; `undo` is the write that rolls the funding step back. -/
structure ReserveFaults where
  funding : Bool := false
  token : Bool := false
  undo : Bool := false
  deriving DecidableEq

/-- What `Reserve` leaves behind. `lost` tells that the roll-back of the funding step failed, which
the code only logs. -/
structure ReserveOutcome where
  state : BillingState
  error : Option BillingError := none
  lost : Bool := false

/-- An image reservation must find its amount in the wallet, so it goes through
`walletPreConsume`; any other is charged in full and may leave a debt. -/
def BillingState.reserveFunding (cfg : BillingConfig) (fault : Bool) (delta : ℤ)
    (requireAvailableQuota : Bool) (s : BillingState) : Except BillingError BillingState :=
  match s.session.funding with
  | .wallet consumed =>
    if requireAvailableQuota then
      match walletPreConsume fault delta consumed s.account with
      | .error e => .error e
      | .ok (consumed', acc) => .ok ⟨{ s.session with funding := .wallet consumed' }, acc⟩
    else
      match decreaseUserQuota cfg fault delta s.account with
      | .error e => .error e
      | .ok acc => .ok ⟨{ s.session with funding := .wallet (consumed + delta) }, acc⟩
  | .subscription f =>
    match subscriptionDelta fault f.subscriptionId delta s.account with
    | .error e => .error e
    | .ok acc => .ok ⟨s.session, acc⟩

def BillingState.rollbackFundingReserve (cfg : BillingConfig) (fault : Bool) (delta : ℤ)
    (s : BillingState) : Except BillingError BillingState :=
  match s.session.funding with
  | .wallet consumed =>
    match increaseUserQuota cfg fault delta s.account with
    | .error e => .error e
    | .ok acc => .ok ⟨{ s.session with funding := .wallet (consumed - delta) }, acc⟩
  | .subscription f =>
    match subscriptionDelta fault f.subscriptionId (-delta) s.account with
    | .error e => .error e
    | .ok acc => .ok ⟨s.session, acc⟩

def reserveToken (cfg : BillingConfig) (info : RelayInfo) (fault : Bool) (delta : ℤ)
    (acc : Account) : Except BillingError Account :=
  if delta ≤ 0 ∨ info.isPlayground then .ok acc
  else preConsumeTokenQuota cfg info fault delta acc

/-- The request is an image request, or the current attempt sends a number of images. -/
def BillingSession.isImageRequest (s : BillingSession) : Bool :=
  s.relayInfo.imageRequest || decide (0 < s.relayInfo.imageRequestCount)

/-- Nothing to reserve: the session is closed, trusted, or already holds the target. -/
def BillingSession.skipsReserve (s : BillingSession) (targetQuota : ℤ) : Bool :=
  s.settled || s.refunded || (s.trusted && !s.isImageRequest) ||
    decide (targetQuota ≤ s.preConsumedQuota)

def BillingState.reserve (cfg : BillingConfig) (f : ReserveFaults) (targetQuota : ℤ)
    (s : BillingState) : ReserveOutcome :=
  if s.session.skipsReserve targetQuota then { state := s }
  else
    let delta := targetQuota - s.session.preConsumedQuota
    match s.reserveFunding cfg f.funding delta s.session.isImageRequest with
    | .error e => { state := s, error := some e }
    | .ok s' =>
      match reserveToken cfg s.session.relayInfo f.token delta s'.account with
      | .error e =>
        match s'.rollbackFundingReserve cfg f.undo delta with
        | .error _ => { state := s', error := some e, lost := true }
        | .ok s'' => { state := s'', error := some e }
      | .ok acc =>
        let session :=
          { s'.session with
            preConsumedQuota := s'.session.preConsumedQuota + delta
            tokenConsumed := s'.session.tokenConsumed + delta
            extraReserved := s'.session.extraReserved + delta
            trusted := s'.session.trusted && !s.session.isImageRequest }
        { state := ⟨session.syncRelayInfo, acc⟩ }

/-! ## Settle -/

/-- Which write of a settlement fails. -/
structure SettleFaults where
  funding : Bool := false
  token : Bool := false
  deriving DecidableEq

/-- The token step of a settlement. -/
def settleToken (cfg : BillingConfig) (info : RelayInfo) (fault : Bool) (delta : ℤ)
    (acc : Account) : Except BillingError Account :=
  if info.isPlayground then .ok acc
  else if 0 < delta then decreaseTokenQuota cfg fault delta acc
  else increaseTokenQuota cfg fault (-delta) acc

/-- The post-delta of a subscription is kept for the log. -/
def BillingSession.notePostDelta (s : BillingSession) (delta : ℤ) : RelayInfo :=
  match s.funding with
  | .wallet _ => s.relayInfo
  | .subscription _ =>
    { s.relayInfo with
      subscriptionPostDelta := s.relayInfo.subscriptionPostDelta + delta }

theorem BillingSession.notePostDelta_isPlayground (s : BillingSession) (delta : ℤ) :
    (s.notePostDelta delta).isPlayground = s.relayInfo.isPlayground := by
  unfold BillingSession.notePostDelta
  cases s.funding with
  | wallet c => rfl
  | subscription f => rfl

/-- The funding is committed before the token. A token write that fails is logged and returned, and
the session is settled all the same. -/
def BillingState.settle (cfg : BillingConfig) (f : SettleFaults) (actualQuota : ℤ)
    (s : BillingState) : BillingState × Option BillingError :=
  if s.session.settled then (s, none)
  else
    let delta := actualQuota - s.session.preConsumedQuota
    if delta = 0 then (⟨{ s.session with settled := true }, s.account⟩, none)
    else
      let committed :=
        if s.session.fundingSettled then .ok s.account
        else s.session.funding.settle cfg f.funding delta s.account
      match committed with
      | .error e => (s, some e)
      | .ok acc =>
        let session :=
          { s.session with
            relayInfo := s.session.notePostDelta delta
            fundingSettled := true
            settled := true }
        match settleToken cfg s.session.relayInfo f.token delta acc with
        | .error e => (⟨session, acc⟩, some e)
        | .ok acc' => (⟨session, acc'⟩, none)

/-! ## Refund -/

/-- Which write of a refund fails: the wallet credit, each attempt on the subscription, the extra
reservation, and the token. -/
structure RefundCallFaults where
  wallet : Bool := false
  attempt1 : RefundFaults := {}
  attempt2 : RefundFaults := {}
  attempt3 : RefundFaults := {}
  extra : Bool := false
  token : Bool := false
  deriving DecidableEq

/-- `refundWithRetry` of `RefundSubscriptionPreConsume`: attempts until one succeeds. The flag tells
that some attempt failed. -/
def refundWithRetry (requestId : String) : List RefundFaults → SubscriptionStore →
    SubscriptionStore × Bool
  | [], st => (st, true)
  | f :: fs, st =>
    let r := refundSubscriptionPreConsume f requestId st
    match r.error with
    | none => (r.store, false)
    | some _ => ((refundWithRetry requestId fs r.store).1, true)

/-- `FundingSource.Refund`. The flag tells that a write failed. -/
def FundingSource.refund (cfg : BillingConfig) (f : RefundCallFaults) (acc : Account) :
    FundingSource → Account × Bool
  | .wallet consumed =>
    if consumed ≤ 0 then (acc, false)
    else match increaseUserQuota cfg f.wallet consumed acc with
      | .error _ => (acc, true)
      | .ok acc' => (acc', false)
  | .subscription sf =>
    if sf.preConsumed ≤ 0 then (acc, false)
    else
      let r := refundWithRetry sf.requestId [f.attempt1, f.attempt2, f.attempt3] acc.subscriptions
      ({ acc with subscriptions := r.1 }, r.2)

def FundingSource.isSubscription : FundingSource → Bool
  | .wallet _ => false
  | .subscription _ => true

/-- `needsRefundLocked`. -/
def BillingSession.needsRefund (s : BillingSession) : Bool :=
  if s.settled || s.refunded || s.fundingSettled then false
  else if 0 < s.tokenConsumed then true
  else match s.funding with
    | .wallet _ => false
    | .subscription f => decide (0 < f.preConsumed)

/-- What a refund leaves behind. `writeFailed` tells that one of its writes failed, which the code
only logs. -/
structure RefundOutcome where
  state : BillingState
  writeFailed : Bool := false

/-- Make a write whose failure is only logged. -/
def logged (r : Except BillingError Account) (acc : Account) : Account × Bool :=
  match r with
  | .error _ => (acc, true)
  | .ok acc' => (acc', false)

/-- The extra reservations of a subscription are given back apart from its record. -/
def BillingSession.refundExtra (s : BillingSession) (fault : Bool) (acc : Account) :
    Account × Bool :=
  if 0 < s.extraReserved ∧ s.funding.isSubscription ∧ 0 < s.relayInfo.subscriptionId then
    logged (subscriptionDelta fault s.relayInfo.subscriptionId (-s.extraReserved) acc) acc
  else (acc, false)

def BillingSession.refundToken (cfg : BillingConfig) (s : BillingSession) (fault : Bool)
    (acc : Account) : Account × Bool :=
  if 0 < s.tokenConsumed ∧ ¬s.relayInfo.isPlayground then
    logged (increaseTokenQuota cfg fault s.tokenConsumed acc) acc
  else (acc, false)

def BillingState.refund (cfg : BillingConfig) (f : RefundCallFaults) (s : BillingState) :
    RefundOutcome :=
  if s.session.settled || s.session.refunded || !s.session.needsRefund then { state := s }
  else
    let r1 := s.session.funding.refund cfg f s.account
    let r2 := s.session.refundExtra f.extra r1.1
    let r3 := s.session.refundToken cfg f.token r2.1
    { state := ⟨{ s.session with refunded := true }, r3.1⟩
      writeFailed := r1.2 || r2.2 || r3.2 }

end Vancine.Billing
