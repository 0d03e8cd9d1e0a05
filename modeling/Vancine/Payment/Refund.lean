import Vancine.Lib.Run
import Vancine.Payment.Recharge

/-!
# Refunds and the PayPal settlement ledger

`RefundPayPalTopUp` and `ApplyPayPalSettlement`. A settlement event is recorded in a ledger whose event
ids and resource keys are unique; a replay is recognised by either key and compared with the stored row.
The quota is taken back by the event that turns the order from success to refunded.

One call has three outcomes (`Outcome`): nothing changes, the event is recorded, or the event is recorded
and the quota deducted. Everything about sequences of calls follows from that.
-/

namespace Vancine.Payment

open Lib Lib.Table
open Vancine.Billing (maxWalletQuota)
open Vancine.Subscription (isBlank)

/-! ## Amounts -/

/-- `none` when the balance would leave the wallet domain. Negative balances are allowed. -/
def safeRefundPostBalance (currentQuota deduct : ℤ) : Option ℤ :=
  let post := currentQuota - deduct
  if post < -maxWalletQuota then none else some post

/-- The recorded quota and bonus of the order. `quota` stands in for an order without a record. -/
def refundQuotaWithBonus (o : TopUp) (quota : ℤ) : Option ℤ :=
  if o.bonusQuota < 0 then none
  else if o.baseQuota = 0 ∧ quota ≤ 0 then none
  else
    let base := if o.baseQuota = 0 then quota else o.baseQuota
    let total := base + o.bonusQuota
    if base < 0 then none
    else if maxWalletQuota < total then none
    else some total

/-- The recorded quota, or the float product of money and `QuotaPerUnit` for old orders. -/
def settlementBaseQuota (cfg : Settings) (o : TopUp) : Option ℤ :=
  if 0 < o.baseQuota then some o.baseQuota
  else walletQuotaFromFloatStrict o.money cfg.quotaPerUnit

/-! ## RefundPayPalTopUp -/

def refundPayPalTopUp (quota : ℤ) (o : TopUp) (db : TopUpDb) : Except TopUpError Commit :=
  if o.status = .refunded then .ok ⟨db, none⟩
  else if o.status ≠ .success then .error .topUpStatusInvalid
  else
    match refundQuotaWithBonus o quota with
    | none => .error .refundQuota
    | some deduct =>
      match find User.id o.userId db.users with
      | none => .error .topUpUserMissing
      | some user =>
        match safeRefundPostBalance user.quota deduct with
        | none => .error .refundUnderflow
        | some _ =>
          .ok ⟨{ db with
              orders := save TopUp.id { o with status := .refunded } db.orders
              users := save User.id { user with quota := user.quota - deduct } db.users },
            some (.refund o.id o.userId deduct)⟩

/-! ## ApplyPayPalSettlement -/

def payPalSettlementRefunded : String := "PAYMENT.CAPTURE.REFUNDED"

def payPalSettlementReversed : String := "PAYMENT.CAPTURE.REVERSED"

structure PayPalSettlementInput where
  eventID : String
  eventType : String
  resourceID : String
  tradeNo : String
  captureID : String
  amount : String
  currency : String
  expectedCurrency : String

def resourceKeyFor (eventType resourceID : String) : String := eventType ++ ":" ++ resourceID

def isAcceptedSettlementEventType (eventType : String) : Bool :=
  eventType = payPalSettlementRefunded ∨ eventType = payPalSettlementReversed

def validateSettlementInput (cfg : Settings) (i : PayPalSettlementInput) :
    Except TopUpError Unit :=
  if ¬isAcceptedSettlementEventType i.eventType ∨ isBlank i.eventID ∨ isBlank i.resourceID ∨
      isBlank i.tradeNo ∨ isBlank i.captureID ∨ isBlank i.currency ∨
      isBlank i.expectedCurrency then
    .error .settlementInvalid
  else
    match cfg.decimalFromString i.amount with
    | none => .error .settlementInvalid
    | some amt => if amt.coef ≤ 0 then .error .settlementInvalid else .ok ()

/-- The stored row carries the same settlement. The order is compared by the caller. -/
def ledgerContentMatches (row : PayPalSettlementEvent) (i : PayPalSettlementInput)
    (resourceKey : String) : Bool :=
  row.eventType = i.eventType ∧ row.resourceID = i.resourceID ∧ row.resourceKey = resourceKey ∧
    row.tradeNo = i.tradeNo ∧ row.captureID = i.captureID ∧ row.amount = i.amount ∧
    row.currency = i.currency

/-- The checks of the locked order against the event. -/
def settlementApplicable (cfg : Settings) (i : PayPalSettlementInput) (o : TopUp) :
    Except TopUpError Unit :=
  if o.paymentProvider ≠ .payPal ∨ isBlank (o.transactionId.getD "") ∨
      o.transactionId.getD "" ≠ i.captureID ∨ i.currency ≠ i.expectedCurrency then
    .error .settlementNotApplicable
  else
    match cfg.decimalFromString i.amount with
    | none => .error .settlementInvalid
    | some amt =>
      if amt.equal (o.money.round 2) then .ok () else .error .settlementNotApplicable

def ledgerRow (cfg : Settings) (i : PayPalSettlementInput) (o : TopUp) : PayPalSettlementEvent where
  eventID := i.eventID
  eventType := i.eventType
  resourceID := i.resourceID
  resourceKey := resourceKeyFor i.eventType i.resourceID
  topUpID := o.id
  tradeNo := o.tradeNo
  captureID := i.captureID
  amount := i.amount
  currency := i.currency
  createTime := cfg.now

/-- A stored row under one of the two keys of the event: a replay, or a conflict. -/
def settlementReplay (i : PayPalSettlementInput) (o : TopUp) (row : PayPalSettlementEvent)
    (db : TopUpDb) : Except TopUpError Commit :=
  if ledgerContentMatches row i (resourceKeyFor i.eventType i.resourceID) ∧ row.topUpID = o.id then
    .ok ⟨db, none⟩
  else .error .settlementConflict

/-- The event is new: record it, and deduct the quota if the order is still a success. -/
def settlementRecord (cfg : Settings) (i : PayPalSettlementInput) (o : TopUp) (db : TopUpDb) :
    Except TopUpError Commit :=
  let ledger := db.ledger ++ [ledgerRow cfg i o]
  match o.status with
  | .refunded => .ok ⟨{ db with ledger := ledger }, none⟩
  | .success =>
    match (settlementBaseQuota cfg o).bind (refundQuotaWithBonus o) with
    | none => .error .settlementNotApplicable
    | some quota =>
      if quota ≤ 0 then .error .settlementNotApplicable
      else
        match find User.id o.userId db.users with
        | none => .error .topUpUserMissing
        | some user =>
          match safeRefundPostBalance user.quota quota with
          | none => .error .settlementNotApplicable
          | some _ =>
            .ok ⟨{ orders := save TopUp.id { o with status := .refunded } db.orders
                   users := save User.id { user with quota := user.quota - quota } db.users
                   ledger := ledger },
              some (.refund o.id o.userId quota)⟩
  | _ => .error .settlementNotApplicable

/-- The transaction of `ApplyPayPalSettlement`. Both lookups come before the insert, so the insert
itself cannot collide here. -/
def applyPayPalSettlement (cfg : Settings) (i : PayPalSettlementInput) (o : TopUp) (db : TopUpDb) :
    Except TopUpError Commit :=
  match settlementApplicable cfg i o with
  | .error e => .error e
  | .ok () =>
    match find PayPalSettlementEvent.eventID i.eventID db.ledger with
    | some row => settlementReplay i o row db
    | none =>
      match find PayPalSettlementEvent.resourceKey (resourceKeyFor i.eventType i.resourceID)
          db.ledger with
      | some row => settlementReplay i o row db
      | none => settlementRecord cfg i o db

/-! ## Outcomes -/

/-- What the refund of an order takes back: the recorded quota, or what an order without one was worth
at `QuotaPerUnit`, and the bonus. -/
def refundAmount (cfg : Settings) (o : TopUp) : ℤ :=
  (if 0 < o.baseQuota then o.baseQuota
    else (walletQuotaFromFloatStrict o.money cfg.quotaPerUnit).getD 0) + o.bonusQuota

/-- The event is in the ledger under neither key. -/
def FreshEvent (i : PayPalSettlementInput) (db : TopUpDb) : Prop :=
  find PayPalSettlementEvent.eventID i.eventID db.ledger = none ∧
    find PayPalSettlementEvent.resourceKey (resourceKeyFor i.eventType i.resourceID) db.ledger = none

/-- The commits of a settlement event. -/
inductive Outcome (cfg : Settings) (i : PayPalSettlementInput) (o : TopUp) (db : TopUpDb) :
    Commit → Prop
  | replay : Outcome cfg i o db ⟨db, none⟩
  | recorded (hs : o.status = .refunded) (hf : FreshEvent i db) :
      Outcome cfg i o db ⟨{ db with ledger := db.ledger ++ [ledgerRow cfg i o] }, none⟩
  | deducted (users : List User) (hs : o.status = .success) (hf : FreshEvent i db)
      (hshift : Shifted db.users o.userId (-refundAmount cfg o) users) :
      Outcome cfg i o db
        ⟨{ orders := save TopUp.id { o with status := .refunded } db.orders
           users := users
           ledger := db.ledger ++ [ledgerRow cfg i o] },
          some (.refund o.id o.userId (refundAmount cfg o))⟩

variable {cfg : Settings} {i : PayPalSettlementInput} {o : TopUp} {completed : Bool} {db : TopUpDb}
  {c : Commit}

theorem refundAmount_of_settlement {quota : ℤ}
    (h : (settlementBaseQuota cfg o).bind (refundQuotaWithBonus o) = some quota) : quota = refundAmount cfg o := by
  obtain ⟨base, hbase, h⟩ := Option.bind_eq_some_iff.mp h
  unfold refundQuotaWithBonus at h
  unfold settlementBaseQuota at hbase
  unfold refundAmount
  by_cases hpos : 0 < o.baseQuota
  · have hne : o.baseQuota ≠ 0 := hpos.ne'
    simp only [hne, false_and, if_false] at h
    split_ifs at h
    rw [if_pos hpos]
    exact (Option.some.inj h).symm
  · rw [if_neg hpos] at hbase ⊢
    rw [hbase, Option.getD_some]
    by_cases h0 : o.baseQuota = 0
    · simp only [h0, if_true] at h
      split_ifs at h
      exact (Option.some.inj h).symm
    · -- a negative record never passes
      have hneg : o.baseQuota < 0 := by omega
      simp only [h0, false_and, if_false, hneg, if_true] at h
      split_ifs at h

theorem settlementRecord_outcome (hf : FreshEvent i db)
    (h : settlementRecord cfg i o db = .ok c) : Outcome cfg i o db c := by
  unfold settlementRecord at h
  dsimp only at h
  split at h
  · rename_i hs
    obtain rfl := Except.ok.inj h
    exact .recorded hs hf
  · rename_i hs
    split at h
    · cases h
    rename_i quota hquota
    split_ifs at h
    split at h
    · cases h
    rename_i user huser
    split at h
    · cases h
    obtain rfl := Except.ok.inj h
    obtain rfl := refundAmount_of_settlement hquota
    exact .deducted _ hs hf (by simpa [Int.sub_eq_add_neg] using shifted_save huser)
  · cases h

/-- **One settlement event.** -/
theorem applyPayPalSettlement_outcome (h : applyPayPalSettlement cfg i o db = .ok c) : Outcome cfg i o db c := by
  have hreplay : ∀ row, settlementReplay i o row db = .ok c → Outcome cfg i o db c := by
    intro row hrow
    unfold settlementReplay at hrow
    split_ifs at hrow
    obtain rfl := Except.ok.inj hrow
    exact .replay
  unfold applyPayPalSettlement at h
  split at h
  · cases h
  split at h
  · exact hreplay _ h
  rename_i hid
  split at h
  · exact hreplay _ h
  · rename_i hkey
    exact settlementRecord_outcome ⟨hid, hkey⟩ h

theorem applyPayPalSettlement_effect (h : applyPayPalSettlement cfg i o db = .ok c) : Effect o completed db c := by
  rcases applyPayPalSettlement_outcome h with - | - | ⟨users, hs, -, hshift⟩
  · exact .keep
  · exact .record _
  · exact .refund _ users _ hs hshift

theorem refundPayPalTopUp_effect {quota : ℤ} (h : refundPayPalTopUp quota o db = .ok c) : Effect o completed db c := by
  unfold refundPayPalTopUp at h
  by_cases hr : o.status = .refunded
  · rw [if_pos hr] at h
    obtain rfl := Except.ok.inj h
    exact .keep
  rw [if_neg hr] at h
  by_cases hs : o.status ≠ .success
  · rw [if_pos hs] at h; cases h
  rw [if_neg hs] at h
  split at h
  · cases h
  split at h
  · cases h
  rename_i user huser
  split at h
  · cases h
  obtain rfl := Except.ok.inj h
  exact .refund _ _ _ (not_not.mp hs) (by simpa [Int.sub_eq_add_neg] using shifted_save huser)

end Vancine.Payment
