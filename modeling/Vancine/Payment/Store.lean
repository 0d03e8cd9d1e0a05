import Vancine.Payment.Quota

/-!
# Top-up orders and wallets

The rows that top-up settlement reads and writes: orders, user wallets and the ledger of PayPal
settlement events, with the shared pieces of `model/topup.go` and `model/topup_first_bonus.go` (the
wallet credit, the first top-up history and the bonus).

Columns that no modelled function reads are left out: the payment id of an order, and everything of a
user but the wallet. Quota columns are 64-bit and settlements only write values of the wallet domain, so
their sums are integers here.
-/

namespace Vancine.Payment

open Lib Lib.Table
open Vancine.Billing (maxWalletQuota)

/-- `unassigned` is the empty string of rows older than the column. -/
inductive PaymentProvider
  | epay | stripe | creem | payPal | waffo | waffoPancake | balance | unassigned
  deriving DecidableEq

inductive TopUpStatus
  | pending | success | failed | expired | refunded
  deriving DecidableEq

structure TopUp where
  id : ℤ
  userId : ℤ
  amount : ℤ
  money : Decimal
  tradeNo : String
  paymentMethod : String
  paymentProvider : PaymentProvider
  transactionId : Option String
  createTime : ℤ
  completeTime : ℤ
  status : TopUpStatus
  baseQuota : ℤ
  bonusQuota : ℤ
  deriving DecidableEq

structure User where
  id : ℤ
  quota : ℤ
  deriving DecidableEq

/-- A row of the settlement ledger. -/
structure PayPalSettlementEvent where
  eventID : String
  eventType : String
  resourceID : String
  resourceKey : String
  topUpID : ℤ
  tradeNo : String
  captureID : String
  amount : String
  currency : String
  createTime : ℤ
  deriving DecidableEq

structure TopUpDb where
  orders : List TopUp
  users : List User
  ledger : List PayPalSettlementEvent
  deriving DecidableEq

/-- What a call reads from outside the database. `decimalFromString` is `decimal.NewFromString`. -/
structure Settings where
  quotaPerUnit : Decimal
  quotaForFirstTopUp : ℤ
  now : ℤ
  decimalFromString : String → Option Decimal

inductive TopUpError
  | tradeNoEmpty
  | transactionIdEmpty
  | topUpNotFound
  | paymentMethodMismatch
  | topUpStatusInvalid
  | invalidTopUpQuota
  | topUpQuotaLimitExceeded
  | recordNotFound
  | topUpUserMissing
  | bonusRequiresOrder
  | duplicateTransactionId
  | refundQuota
  | refundUnderflow
  | settlementInvalid
  | settlementNotApplicable
  | settlementConflict
  deriving DecidableEq

/-! ## Lookups -/

def TopUpDb.order (db : TopUpDb) (id : ℤ) : Option TopUp := find TopUp.id id db.orders

def TopUpDb.orderByTradeNo (db : TopUpDb) (tradeNo : String) : Option TopUp :=
  find TopUp.tradeNo tradeNo db.orders

def TopUpDb.status (db : TopUpDb) (id : ℤ) : Option TopUpStatus := (db.order id).map TopUp.status

def wallet (users : List User) (id : ℤ) : Option ℤ := (find User.id id users).map User.quota

/-- `id` is the primary key of the orders. -/
def TopUpDb.Valid (db : TopUpDb) : Prop := (db.orders.map TopUp.id).Nodup

variable {o : TopUp} {users users' : List User}

theorem TopUpDb.Valid.order_of_tradeNo {db : TopUpDb} (h : db.Valid) {tradeNo : String}
    (ho : db.orderByTradeNo tradeNo = some o) : db.order o.id = some o :=
  find_of_mem h (find_mem ho)

/-- Save the row of an order. The unique index rejects a transaction id another order has. -/
def saveTopUp (o : TopUp) (orders : List TopUp) : Except TopUpError (List TopUp) :=
  if o.transactionId ≠ none ∧
      (orders.any fun r => r.id ≠ o.id ∧ r.transactionId = o.transactionId) then
    .error .duplicateTransactionId
  else .ok (save TopUp.id o orders)

theorem saveTopUp_ok {orders orders' : List TopUp} (h : saveTopUp o orders = .ok orders') :
    orders' = save TopUp.id o orders := by
  unfold saveTopUp at h
  split_ifs at h
  exact (Except.ok.inj h).symm

/-! ## Wallet credits -/

/-- `creditTopUpQuota`: one conditional update that keeps the wallet below its ceiling. -/
def creditTopUpQuota (userId creditedQuota : ℤ) (users : List User) :
    Except TopUpError (List User) :=
  if creditedQuota ≤ 0 ∨ maxWalletQuota < creditedQuota then .error .invalidTopUpQuota
  else
    match find User.id userId users with
    | none => .error .recordNotFound
    | some u =>
      if u.quota ≤ maxWalletQuota - creditedQuota then
        .ok (save User.id { u with quota := u.quota + creditedQuota } users)
      else .error .topUpQuotaLimitExceeded

/-- `users'` is `users` with `amount` added to the wallet of `userId`, which exists. -/
def Shifted (users : List User) (userId amount : ℤ) (users' : List User) : Prop :=
  (wallet users userId).isSome ∧
    ∀ id, wallet users' id =
      if id = userId then (wallet users id).map (· + amount) else wallet users id

theorem Shifted.trans {users users' users'' : List User} {userId a b : ℤ}
    (h : Shifted users userId a users') (h' : Shifted users' userId b users'') :
    Shifted users userId (a + b) users'' := by
  refine ⟨h.1, fun id => ?_⟩
  rw [h'.2 id, h.2 id]
  by_cases hid : id = userId
  · rw [if_pos hid, if_pos hid, if_pos hid, Option.map_map]
    congr 1
    funext q
    simp [Int.add_assoc]
  · rw [if_neg hid, if_neg hid, if_neg hid]

theorem shifted_save {users : List User} {userId amount : ℤ} {u : User} (hu : find User.id userId users = some u) :
    Shifted users userId amount (save User.id { u with quota := u.quota + amount } users) := by
  have hid : u.id = userId := find_key hu
  refine ⟨by simp [wallet, hu], fun id => ?_⟩
  unfold wallet
  by_cases h : id = userId
  · subst h
    have hrow : ({ u with quota := u.quota + amount } : User).id = id := hid
    rw [if_pos rfl, find_save_self hu hrow, hu]
    rfl
  · rw [if_neg h, find_save_ne _ (by simpa [hid] using h)]

theorem creditTopUpQuota_ok {userId q : ℤ} (h : creditTopUpQuota userId q users = .ok users') :
    0 < q ∧ Shifted users userId q users' := by
  unfold creditTopUpQuota at h
  by_cases hq : q ≤ 0 ∨ maxWalletQuota < q
  · rw [if_pos hq] at h; cases h
  rw [if_neg hq] at h
  cases hu : find User.id userId users with
  | none => rw [hu] at h; cases h
  | some u =>
    rw [hu] at h
    dsimp only at h
    split_ifs at h
    obtain rfl := Except.ok.inj h
    exact ⟨by omega, shifted_save hu⟩

/-! ## First top-up bonus -/

/-- A provider whose orders are paid online top-ups. -/
def realTopUpProviders : List PaymentProvider :=
  [.epay, .stripe, .creem, .payPal, .waffo, .waffoPancake]

def firstTopUpHistoryStatuses : List TopUpStatus := [.success, .refunded]

/-- An order that proves the user completed a real top-up. -/
def TopUp.completedReal (o : TopUp) (userID : ℤ) : Bool :=
  o.userId = userID ∧ o.status ∈ firstTopUpHistoryStatuses ∧
    (o.paymentProvider ∈ realTopUpProviders ∨ (o.paymentProvider = .unassigned ∧ 0 < o.amount))

def hasCompletedRealTopUp (db : TopUpDb) (userID excludedTopUpID : ℤ) : Bool :=
  db.orders.any fun o =>
    o.completedReal userID && (decide (excludedTopUpID ≤ 0) || decide (o.id ≠ excludedTopUpID))

/-- The configured bonus, if it is active. -/
def validFirstTopUpBonusQuota (cfg : Settings) : Option ℤ :=
  if 0 < cfg.quotaForFirstTopUp ∧ cfg.quotaForFirstTopUp ≤ maxWalletQuota then
    some cfg.quotaForFirstTopUp
  else none

/-- `grantFirstTopUpBonusTx`, with the answer of the history query. Returns the bonus and the wallets
after it. -/
def grantFirstTopUpBonusTx (cfg : Settings) (o : TopUp) (completed : Bool) (users : List User) :
    Except TopUpError (ℤ × List User) :=
  match validFirstTopUpBonusQuota cfg with
  | none => .ok (0, users)
  | some bonusQuota =>
    if o.id = 0 ∨ o.userId ≤ 0 then .error .bonusRequiresOrder
    else if find User.id o.userId users = none then .error .topUpUserMissing
    else if completed then .ok (0, users)
    else
      match creditTopUpQuota o.userId bonusQuota users with
      | .error e => .error e
      | .ok users' => .ok (bonusQuota, users')

/-- A granted bonus is positive, was due, and is in the wallet. -/
theorem grantFirstTopUpBonusTx_ok {cfg : Settings} {completed : Bool} {bonus : ℤ}
    (h : grantFirstTopUpBonusTx cfg o completed users = .ok (bonus, users')) : (bonus = 0 ∧ users' = users) ∨
      (0 < bonus ∧ completed = false ∧ (validFirstTopUpBonusQuota cfg).isSome ∧
        Shifted users o.userId bonus users') := by
  unfold grantFirstTopUpBonusTx at h
  cases hb : validFirstTopUpBonusQuota cfg with
  | none =>
    rw [hb] at h
    obtain ⟨rfl, rfl⟩ := Prod.mk.inj (Except.ok.inj h)
    exact .inl ⟨rfl, rfl⟩
  | some b =>
    rw [hb] at h
    dsimp only at h
    split_ifs at h with h₁ h₂ h₃
    · obtain ⟨rfl, rfl⟩ := Prod.mk.inj (Except.ok.inj h)
      exact .inl ⟨rfl, rfl⟩
    · cases hc : creditTopUpQuota o.userId b users with
      | error e => rw [hc] at h; cases h
      | ok us =>
        rw [hc] at h
        obtain ⟨rfl, rfl⟩ := Prod.mk.inj (Except.ok.inj h)
        obtain ⟨hpos, hshift⟩ := creditTopUpQuota_ok hc
        exact .inr ⟨hpos, by simpa using h₃, rfl, hshift⟩

end Vancine.Payment
