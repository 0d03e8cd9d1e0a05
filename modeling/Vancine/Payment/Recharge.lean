import Vancine.Payment.Store

/-!
# Settling a pending order

The transactions of `model/topup.go` and `RechargePayPal` that close or credit an order. Each body is
what runs once the row of the order is locked: it gets the locked copy, and the settlements also get the
answer of the first top-up history query. An error rolls everything back.

The six recharge functions share one body, `settle`, and differ in their provider, their quota formula,
what a call on a settled order returns, and two columns. `ManualCompleteTopUp` has its own: it grants no
bonus and records no quota.

What a commit may do is said once, in `Effect`. The lock protocol, the status machine and the bonus are
proved from it and never look at a body again.
-/

namespace Vancine.Payment

open Lib Lib.Table
open Vancine.Billing (maxWalletQuota)

/-- What a committed transaction did to a wallet. -/
inductive WalletEvent
  | credit (orderId userId base bonus : ℤ)
  | refund (orderId userId amount : ℤ)
  deriving DecidableEq

structure Commit where
  db : TopUpDb
  event : Option WalletEvent

/-! ## What a commit may do -/

/-- `o` and `r` are one order: the columns that no settlement writes agree. -/
structure TopUp.SameOrder (r o : TopUp) : Prop where
  id : r.id = o.id
  userId : r.userId = o.userId
  amount : r.amount = o.amount
  tradeNo : r.tradeNo = o.tradeNo
  paymentProvider : r.paymentProvider = o.paymentProvider

/-- The commits of a transaction that holds the row `o`. -/
inductive Effect (o : TopUp) (completed : Bool) (db : TopUpDb) : Commit → Prop
  | keep : Effect o completed db ⟨db, none⟩
  | close (st : TopUpStatus) (hst : st = .failed ∨ st = .expired) (hp : o.status = .pending) :
      Effect o completed db
        ⟨{ db with orders := save TopUp.id { o with status := st } db.orders }, none⟩
  | credit (settled : TopUp) (users : List User) (base bonus : ℤ) (hp : o.status = .pending)
      (hs : settled.status = .success) (hsame : settled.SameOrder o) (hbase : 0 < base)
      (hbonus : 0 ≤ bonus)
      (hdue : 0 < bonus → completed = false ∧ o.paymentProvider ∈ realTopUpProviders)
      (hshift : Shifted db.users o.userId (base + bonus) users) :
      Effect o completed db
        ⟨{ db with orders := save TopUp.id settled db.orders, users := users },
          some (.credit o.id o.userId base bonus)⟩
  | refund (amount : ℤ) (users : List User) (ledger : List PayPalSettlementEvent)
      (hs : o.status = .success) (hshift : Shifted db.users o.userId (-amount) users) :
      Effect o completed db
        ⟨{ orders := save TopUp.id { o with status := .refunded } db.orders, users := users,
           ledger := ledger },
          some (.refund o.id o.userId amount)⟩
  | record (ledger : List PayPalSettlementEvent) :
      Effect o completed db ⟨{ db with ledger := ledger }, none⟩

/-! ## The recharge functions -/

/-- The amount is a number of dollars. -/
def amountQuota (cfg : Settings) (o : TopUp) : Option ℤ :=
  walletQuotaFromDecimalStrict ((Decimal.ofInt o.amount).mul cfg.quotaPerUnit)

/-- The money is a number of dollars. -/
def moneyQuota (cfg : Settings) (o : TopUp) : Option ℤ :=
  walletQuotaFromDecimalStrict (o.money.mul cfg.quotaPerUnit)

/-- The amount is the quota. -/
def rawQuota (_ : Settings) (o : TopUp) : Option ℤ :=
  walletQuotaFromDecimalStrict (Decimal.ofInt o.amount)

/-- What one payment channel has of its own. -/
structure Channel where
  provider : PaymentProvider
  quota : Settings → TopUp → Option ℤ
  /-- The result on an order that is not pending; `none` is success without a credit. -/
  replay : TopUp → Option TopUpError
  /-- The payment method to record, unless it is empty. -/
  paymentMethod : String
  /-- The provider's transaction id to record. -/
  transactionId : Option String

/-- The order as the settlement saves it, without the bonus. -/
def Channel.settled (ch : Channel) (cfg : Settings) (q : ℤ) (o : TopUp) : TopUp :=
  { o with
    paymentMethod := if ch.paymentMethod = "" then o.paymentMethod else ch.paymentMethod
    transactionId := ch.transactionId <|> o.transactionId
    completeTime := cfg.now
    status := .success
    baseQuota := q }

/-- The common body of the recharge functions. The bonus goes to the wallet before the order is saved,
the paid quota after. -/
def settle (ch : Channel) (cfg : Settings) (o : TopUp) (completed : Bool) (db : TopUpDb) :
    Except TopUpError Commit :=
  if o.paymentProvider ≠ ch.provider then .error .paymentMethodMismatch
  else if o.status ≠ .pending then
    match ch.replay o with
    | none => .ok ⟨db, none⟩
    | some e => .error e
  else
    match ch.quota cfg o with
    | none => .error .invalidTopUpQuota
    | some q =>
      if q ≤ 0 then .error .invalidTopUpQuota
      else do
        let settled := ch.settled cfg q o
        let (bonus, users) ← grantFirstTopUpBonusTx cfg settled completed db.users
        let orders ← saveTopUp { settled with bonusQuota := bonus } db.orders
        let users ← creditTopUpQuota o.userId q users
        pure ⟨{ db with orders := orders, users := users },
          some (.credit o.id o.userId q bonus)⟩

/-- A settled order is a success, any other status an error. -/
def successOnly (o : TopUp) : Option TopUpError :=
  if o.status = .success then none else some .topUpStatusInvalid

def epay (actualPaymentMethod : String) : Channel where
  provider := .epay
  quota := amountQuota
  replay := successOnly
  paymentMethod := actualPaymentMethod
  transactionId := none

def stripe : Channel where
  provider := .stripe
  quota := moneyQuota
  replay _ := some .topUpStatusInvalid
  paymentMethod := ""
  transactionId := none

def creem : Channel where
  provider := .creem
  quota := rawQuota
  replay _ := some .topUpStatusInvalid
  paymentMethod := ""
  transactionId := none

def waffo : Channel where
  provider := .waffo
  quota := amountQuota
  replay := successOnly
  paymentMethod := ""
  transactionId := none

def waffoPancake : Channel where
  provider := .waffoPancake
  quota := amountQuota
  replay := successOnly
  paymentMethod := ""
  transactionId := none

/-- Only the capture that was credited may be replayed. -/
def payPal (transactionId : String) : Channel where
  provider := .payPal
  quota := moneyQuota
  replay o :=
    if o.status = .success then
      if o.transactionId.getD "" = transactionId then none else some .paymentMethodMismatch
    else some .topUpStatusInvalid
  paymentMethod := ""
  transactionId := some transactionId

def rechargeEpay (actualPaymentMethod : String) := settle (epay actualPaymentMethod)

/-- Stripe. -/
def recharge := settle stripe

def rechargeCreem := settle creem

def rechargeWaffo := settle waffo

def rechargeWaffoPancake := settle waffoPancake

def rechargePayPal (transactionId : String) := settle (payPal transactionId)

/-! ## Manual completion, closing and cleaning -/

/-- `ManualCompleteTopUp`. Stripe orders count in money, all others in amount. -/
def manualQuota (cfg : Settings) (o : TopUp) : Option ℤ :=
  if o.paymentProvider = .stripe then moneyQuota cfg o else amountQuota cfg o

def manualCompleteTopUp (cfg : Settings) (o : TopUp) (db : TopUpDb) : Except TopUpError Commit :=
  if o.status = .success then .ok ⟨db, none⟩
  else if o.status ≠ .pending then .error .topUpStatusInvalid
  else
    match manualQuota cfg o with
    | none => .error .invalidTopUpQuota
    | some q =>
      if q ≤ 0 then .error .invalidTopUpQuota
      else do
        let orders ← saveTopUp { o with completeTime := cfg.now, status := .success } db.orders
        let users ← creditTopUpQuota o.userId q db.users
        pure ⟨{ db with orders := orders, users := users }, some (.credit o.id o.userId q 0)⟩

/-- The statuses that callers of `UpdatePendingTopUpStatus` ask for. -/
inductive ClosedStatus
  | failed | expired

def ClosedStatus.toStatus : ClosedStatus → TopUpStatus
  | .failed => .failed
  | .expired => .expired

/-- `none` stands for no expected provider. -/
def updatePendingTopUpStatus (expectedPaymentProvider : Option PaymentProvider)
    (targetStatus : ClosedStatus) (o : TopUp) (db : TopUpDb) : Except TopUpError Commit :=
  if expectedPaymentProvider.any (· ≠ o.paymentProvider) then .error .paymentMethodMismatch
  else if o.status ≠ .pending then .error .topUpStatusInvalid
  else do
    let orders ← saveTopUp { o with status := targetStatus.toStatus } db.orders
    pure ⟨{ db with orders := orders }, none⟩

/-- `CleanExpiredPendingTopUps` at one row: the statement updates the rows it matches, each under its
own lock. -/
def cleanExpiredPendingTopUp (cutoff : ℤ) (o : TopUp) (db : TopUpDb) : TopUpDb :=
  if o.status = .pending ∧ o.paymentProvider ∈ [PaymentProvider.payPal, .waffoPancake] ∧
      o.createTime < cutoff then
    { db with orders := save TopUp.id { o with status := .expired } db.orders }
  else db

/-! ## Effects -/

variable {cfg : Settings} {o : TopUp} {completed : Bool} {db : TopUpDb} {c : Commit}

theorem committed_bind {α β : Type} {first : Except TopUpError α}
    {rest : α → Except TopUpError β} {r : β} (h : first >>= rest = .ok r) : ∃ a, first = .ok a ∧ rest a = .ok r := by
  rcases first with e | a
  · exact absurd h (by simp [bind, Except.bind])
  · exact ⟨a, rfl, h⟩

variable {ch : Channel}

/-- A settlement that commits found the order settled before, or went through all of its steps. -/
theorem settle_ok (h : settle ch cfg o completed db = .ok c) : (o.status ≠ .pending ∧ c = ⟨db, none⟩) ∨
      ∃ q bonus users users', o.paymentProvider = ch.provider ∧ o.status = .pending ∧ ch.quota cfg o = some q ∧
        grantFirstTopUpBonusTx cfg (ch.settled cfg q o) completed db.users = .ok (bonus, users) ∧
        creditTopUpQuota o.userId q users = .ok users' ∧ c = ⟨{ db with
            orders := save TopUp.id { ch.settled cfg q o with bonusQuota := bonus } db.orders
            users := users' },
          some (.credit o.id o.userId q bonus)⟩ := by
  unfold settle at h
  by_cases hprov : o.paymentProvider ≠ ch.provider
  · rw [if_pos hprov] at h; cases h
  rw [if_neg hprov] at h
  by_cases hst : o.status ≠ .pending
  · rw [if_pos hst] at h
    split at h
    · exact .inl ⟨hst, (Except.ok.inj h).symm⟩
    · cases h
  rw [if_neg hst] at h
  split at h
  · cases h
  rename_i q hquota
  split_ifs at h with hq
  obtain ⟨⟨bonus, users⟩, hgrant, h⟩ := committed_bind h
  obtain ⟨orders, hsave, h⟩ := committed_bind h
  obtain ⟨users', hcredit, h⟩ := committed_bind h
  obtain rfl := saveTopUp_ok hsave
  exact .inr ⟨q, bonus, users, users', not_not.mp hprov, not_not.mp hst, hquota, hgrant, hcredit,
    (Except.ok.inj h).symm⟩

/-- **A settlement** keeps everything or credits the pending order. -/
theorem settle_effect (hch : ch.provider ∈ realTopUpProviders) (h : settle ch cfg o completed db = .ok c) :
    Effect o completed db c := by
  rcases settle_ok h with ⟨-, rfl⟩ | ⟨q, bonus, users, users', hprov, hp, -, hgrant, hcredit, rfl⟩
  · exact .keep
  obtain ⟨hbase, hshift⟩ := creditTopUpQuota_ok hcredit
  have hreal : o.paymentProvider ∈ realTopUpProviders := hprov ▸ hch
  -- the bonus, when there is one, was credited first
  rcases grantFirstTopUpBonusTx_ok hgrant with ⟨rfl, rfl⟩ | ⟨hpos, hdue, -, hbonus⟩
  · exact .credit _ _ _ _ hp rfl ⟨rfl, rfl, rfl, rfl, rfl⟩ hbase le_rfl
      (fun h => absurd h (lt_irrefl _)) (by rw [Int.add_zero]; exact hshift)
  · exact .credit _ _ _ _ hp rfl ⟨rfl, rfl, rfl, rfl, rfl⟩ hbase hpos.le (fun _ => ⟨hdue, hreal⟩)
      (by rw [Int.add_comm]; exact hbonus.trans hshift)

/-- Without an active bonus, or on an order that is not pending, the history is not asked for. -/
theorem settle_completed (h : validFirstTopUpBonusQuota cfg = none ∨ o.status ≠ .pending) (completed' : Bool) :
    settle ch cfg o completed db = settle ch cfg o completed' db := by
  unfold settle
  by_cases hst : o.status ≠ .pending
  · simp only [if_pos hst]
  · have hoff := h.resolve_right hst
    unfold grantFirstTopUpBonusTx
    rw [hoff]

theorem manualCompleteTopUp_ok (h : manualCompleteTopUp cfg o db = .ok c) : (o.status = .success ∧ c = ⟨db, none⟩) ∨
      ∃ q users, o.status = .pending ∧ manualQuota cfg o = some q ∧ creditTopUpQuota o.userId q db.users = .ok users ∧
        c = ⟨{ db with
            orders := save TopUp.id { o with completeTime := cfg.now, status := .success } db.orders
            users := users },
          some (.credit o.id o.userId q 0)⟩ := by
  unfold manualCompleteTopUp at h
  by_cases hst : o.status = .success
  · rw [if_pos hst] at h
    exact .inl ⟨hst, (Except.ok.inj h).symm⟩
  rw [if_neg hst] at h
  by_cases hp : o.status ≠ .pending
  · rw [if_pos hp] at h; cases h
  rw [if_neg hp] at h
  split at h
  · cases h
  rename_i q hquota
  split_ifs at h with hq
  obtain ⟨orders, hsave, h⟩ := committed_bind h
  obtain ⟨users, hcredit, h⟩ := committed_bind h
  obtain rfl := saveTopUp_ok hsave
  exact .inr ⟨q, users, not_not.mp hp, hquota, hcredit, (Except.ok.inj h).symm⟩

theorem manualCompleteTopUp_effect (h : manualCompleteTopUp cfg o db = .ok c) : Effect o completed db c := by
  rcases manualCompleteTopUp_ok h with ⟨-, rfl⟩ | ⟨q, users, hp, -, hcredit, rfl⟩
  · exact .keep
  obtain ⟨hbase, hshift⟩ := creditTopUpQuota_ok hcredit
  exact .credit _ _ _ _ hp rfl ⟨rfl, rfl, rfl, rfl, rfl⟩ hbase le_rfl
    (fun h => absurd h (lt_irrefl _)) (by rw [Int.add_zero]; exact hshift)

theorem updatePendingTopUpStatus_effect {p : Option PaymentProvider} {st : ClosedStatus}
    (h : updatePendingTopUpStatus p st o db = .ok c) : Effect o completed db c := by
  unfold updatePendingTopUpStatus at h
  split_ifs at h with hprov hp
  obtain ⟨orders, hsave, h⟩ := committed_bind h
  obtain rfl := Except.ok.inj h
  obtain rfl := saveTopUp_ok hsave
  refine .close st.toStatus ?_ (not_not.mp hp)
  cases st with
  | failed => exact .inl rfl
  | expired => exact .inr rfl

theorem cleanExpiredPendingTopUp_effect (cutoff : ℤ) :
    Effect o completed db ⟨cleanExpiredPendingTopUp cutoff o db, none⟩ := by
  unfold cleanExpiredPendingTopUp
  split_ifs with h
  · exact .close .expired (.inr rfl) h.1
  · exact .keep

end Vancine.Payment
