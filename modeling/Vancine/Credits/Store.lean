import Vancine.BatchUpdate.Updater
import Vancine.Payment.Serial

/-!
# What adds to a wallet

The operations that raise the quota of a user: the settlements of top-ups, redemption codes, affiliate
transfers, the daily check-in, and `IncreaseUserQuota` with the batch updater behind it, through which every
refund goes.

`creditTopUpQuota` and `increaseUserQuota` add with one conditional update, which finds no row when the sum would
pass the ceiling. An affiliate transfer saves the row it has locked, the check-in of MySQL and PostgreSQL adds without
a condition, and so does the statement of the batch updater. Each transaction holds the row of its user, so that it
is one step here; the sections of a flush are the steps of `Vancine.BatchUpdate`.
-/

namespace Vancine.Credits

open Lib Lib.Table
open Vancine.Billing (maxWalletQuota)
open Vancine.BatchUpdate (Write)
open Vancine.Payment (User TopUpDb TopUpError Settings Decimal Tx wallet creditTopUpQuota)

/-! ## Rows -/

inductive RedemptionCodeStatus
  | enabled | disabled | used
  deriving DecidableEq

/-- A code that is not deleted. -/
structure Redemption where
  id : ℤ
  key : String
  status : RedemptionCodeStatus
  quota : ℤ
  redeemedTime : ℤ
  usedUserId : ℤ
  /-- Zero for a code that does not expire. -/
  expiredTime : ℤ
  deriving DecidableEq

structure Checkin where
  userId : ℤ
  checkinDate : String
  quotaAwarded : ℤ
  createdAt : ℤ
  deriving DecidableEq

/-- `affQuota` is the column `aff_quota` of the users. -/
structure State where
  db : TopUpDb
  affQuota : ℤ → ℤ
  redemptions : List Redemption
  checkins : List Checkin
  batch : BatchUpdate.State

structure CheckinSetting where
  enabled : Bool
  minQuota : ℤ
  maxQuota : ℤ

structure Config where
  /-- The main database is SQLite, not MySQL or PostgreSQL. -/
  usingSQLite : Bool
  batchUpdateEnabled : Bool
  checkinSetting : CheckinSetting

inductive CreditError
  | topUp (e : TopUpError)
  | noRedemptionKey
  | invalidUserId
  | redeemFailed
  | transferBelowMinimum
  | affQuotaInsufficient
  | checkinDisabled
  | checkedInToday
  | checkinFailed
  | checkinQuotaFailed
  | quotaNegative
  | walletQuotaExceeds
  | recordNotFound
  | walletQuotaLimitExceeded
  deriving DecidableEq

/-! ## Statements -/

/-- `UPDATE users SET quota = quota + delta WHERE id = ?`. -/
def addQuota (id delta : ℤ) (users : List User) : List User :=
  match find User.id id users with
  | none => users
  | some user => save User.id { user with quota := user.quota + delta } users

/-- `increaseUserQuota`. -/
def increaseQuotaRow (id quota : ℤ) (users : List User) : Except CreditError (List User) :=
  match find User.id id users with
  | none => .error .recordNotFound
  | some user =>
    if user.quota ≤ maxWalletQuota - quota then
      .ok (save User.id { user with quota := user.quota + quota } users)
    else .error .walletQuotaLimitExceeded

/-! ## IncreaseUserQuota and DecreaseUserQuota -/

def increaseUserQuota (cfg : Config) (id : ℤ) (quota : Int64) (db : Bool) (s : State) : Except CreditError State :=
  if quota < 0 then .error .quotaNegative
  else if maxWalletQuota < quota.toInt then .error .walletQuotaExceeds
  else if !db && cfg.batchUpdateEnabled then
    .ok { s with batch := BatchUpdate.addNewRecord .userQuota id quota s.batch }
  else do
    let users ← increaseQuotaRow id quota.toInt s.db.users
    pure { s with db := { s.db with users } }

def decreaseUserQuota (cfg : Config) (id : ℤ) (quota : Int64) (db : Bool) (s : State) : Except CreditError State :=
  if quota < 0 then .error .quotaNegative
  else if !db && cfg.batchUpdateEnabled then
    .ok { s with batch := BatchUpdate.addNewRecord .userQuota id (-quota) s.batch }
  else .ok { s with db := { s.db with users := addQuota id (-quota.toInt) s.db.users } }

/-- `WalletFunding.Refund`. -/
def walletRefund (cfg : Config) (id : ℤ) (consumed : Int64) (s : State) : Except CreditError State :=
  if consumed ≤ 0 then .ok s else increaseUserQuota cfg id consumed false s

/-- `WalletFunding.Settle`; `taskAdjustFunding` of a wallet does the same with a delta of zero as well. -/
def walletSettle (cfg : Config) (id : ℤ) (delta : Int64) (s : State) : Except CreditError State :=
  if delta = 0 then .ok s
  else if 0 < delta then decreaseUserQuota cfg id delta false s
  else increaseUserQuota cfg id (-delta) false s

/-! ## Top-ups, codes and transfers -/

def settleTopUp (settings : Settings) (t : Tx) (s : State) : Except CreditError State :=
  match t.exec settings s.db with
  | .error e => .error (.topUp e)
  | .ok c => .ok { s with db := c.db }

/-- `Redeem`. Every error of the transaction is `ErrRedeemFailed`. -/
def redeem (now : ℤ) (key : String) (userId : ℤ) (s : State) : Except CreditError State :=
  if key = "" then .error .noRedemptionKey
  else if userId = 0 then .error .invalidUserId
  else
    match find Redemption.key key s.redemptions with
    | none => .error .redeemFailed
    | some redemption =>
      if redemption.status ≠ .enabled then .error .redeemFailed
      else if redemption.expiredTime ≠ 0 ∧ redemption.expiredTime < now then .error .redeemFailed
      else
        -- the compare and swap of the status
        let matched (r : Redemption) : Bool := r.id = redemption.id ∧ r.status = .enabled
        if !s.redemptions.any matched then .error .redeemFailed
        else
          let redemptions := updateWhere matched
            (fun r => { r with redeemedTime := now, status := .used, usedUserId := userId }) s.redemptions
          match creditTopUpQuota userId redemption.quota s.db.users with
          | .error _ => .error .redeemFailed
          | .ok users => .ok { s with redemptions, db := { s.db with users } }

/-- The comparison `<` of the floats of two decimals. -/
def lessAsFloat (a b : Decimal) : Bool :=
  let e := min a.abs64.exp b.abs64.exp
  let scale (d : Decimal) : ℤ := d.coef.sign * (d.abs64.mant * 2 ^ (d.abs64.exp - e).toNat : ℕ)
  scale a < scale b

/-- `TransferAffQuotaToQuota`. `quotaPerUnit` is the smallest amount. -/
def transferAffQuotaToQuota (quotaPerUnit : Decimal) (userId quota : ℤ) (s : State) : Except CreditError State :=
  if lessAsFloat (.ofInt quota) quotaPerUnit then .error .transferBelowMinimum
  else
    match find User.id userId s.db.users with
    | none => .error .recordNotFound
    | some user =>
      if s.affQuota userId < quota then .error .affQuotaInsufficient
      else .ok { s with
        affQuota := Function.update s.affQuota userId (s.affQuota userId - quota)
        db := { s.db with users := save User.id { user with quota := user.quota + quota } s.db.users } }

/-! ## The daily check-in -/

/-- `drawn` is the random number that `rand.Intn` cuts down. -/
def quotaAwarded (setting : CheckinSetting) (drawn : ℕ) : ℤ :=
  if setting.minQuota < setting.maxQuota then
    setting.minQuota + drawn % (setting.maxQuota - setting.minQuota + 1)
  else setting.minQuota

/-- The unique index of the check-ins. -/
def createCheckin (checkin : Checkin) (checkins : List Checkin) : Option (List Checkin) :=
  if checkins.any fun c => c.userId = checkin.userId ∧ c.checkinDate = checkin.checkinDate then none
  else some (checkins ++ [checkin])

def userCheckinWithTransaction (checkin : Checkin) (userId quotaAwarded : ℤ) (s : State) :
    State × Option CreditError :=
  match createCheckin checkin s.checkins with
  | none => (s, some .checkinFailed)
  | some checkins =>
    ({ s with checkins, db := { s.db with users := addQuota userId quotaAwarded s.db.users } }, none)

def userCheckinWithoutTransaction (cfg : Config) (checkin : Checkin) (userId : ℤ) (quotaAwarded : Int64) (s : State) :
    State × Option CreditError :=
  match createCheckin checkin s.checkins with
  | none => (s, some .checkinFailed)
  | some checkins =>
    match increaseUserQuota cfg userId quotaAwarded true { s with checkins } with
    | .ok s' => (s', none)
    | .error _ => ({ s with checkins := checkins.erase checkin }, some .checkinQuotaFailed)

/-- `UserCheckin`. The day is read twice. -/
def userCheckin (cfg : Config) (userId : ℤ) (asked today : String) (drawn : ℕ) (now : ℤ) (s : State) :
    State × Option CreditError :=
  if !cfg.checkinSetting.enabled then (s, some .checkinDisabled)
  else if s.checkins.any fun c => c.userId = userId ∧ c.checkinDate = asked then (s, some .checkedInToday)
  else
    let quotaAwarded := quotaAwarded cfg.checkinSetting drawn
    let checkin : Checkin := ⟨userId, today, quotaAwarded, now⟩
    if cfg.usingSQLite then userCheckinWithoutTransaction cfg checkin userId (.ofInt quotaAwarded) s
    else userCheckinWithTransaction checkin userId quotaAwarded s

/-! ## The batch updater -/

/-- The statement that a step of a flush sends. -/
def issued (before after : BatchUpdate.State) : Option Write :=
  if before.writes.length < after.writes.length then after.writes.head? else none

/-- `updateUserQuotaUsedQuotaAndRequestCount` at the wallets. -/
def applyWrite (users : List User) : Option Write → List User
  | some (.user id quota _ _) => addQuota id quota.sum.toInt users
  | _ => users

def flush (i : ℕ) (key : ℤ) (s : State) : State :=
  let batch := BatchUpdate.step s.batch (.step i key)
  { s with batch, db := { s.db with users := applyWrite s.db.users (issued s.batch batch) } }

/-! ## Steps -/

inductive Action
  | topUp (settings : Settings) (t : Tx)
  | redeem (now : ℤ) (key : String) (userId : ℤ)
  | transferAffQuotaToQuota (quotaPerUnit : Decimal) (userId quota : ℤ)
  | userCheckin (userId : ℤ) (asked today : String) (drawn : ℕ) (now : ℤ)
  | increaseUserQuota (id : ℤ) (quota : Int64) (db : Bool)
  | decreaseUserQuota (id : ℤ) (quota : Int64) (db : Bool)
  | walletRefund (id : ℤ) (consumed : Int64)
  | walletSettle (id : ℤ) (delta : Int64)
  | batchUpdate
  | flush (i : ℕ) (key : ℤ)

/-- A transaction that fails is rolled back. -/
def rollback (s : State) : Except CreditError State → State × Option CreditError
  | .ok s' => (s', none)
  | .error e => (s, some e)

def Action.exec (cfg : Config) (s : State) : Action → State × Option CreditError
  | .topUp settings t => rollback s (settleTopUp settings t s)
  | .redeem now key userId => rollback s (Credits.redeem now key userId s)
  | .transferAffQuotaToQuota unit userId quota =>
    rollback s (Credits.transferAffQuotaToQuota unit userId quota s)
  | .userCheckin userId asked today drawn now => Credits.userCheckin cfg userId asked today drawn now s
  | .increaseUserQuota id quota db => rollback s (Credits.increaseUserQuota cfg id quota db s)
  | .decreaseUserQuota id quota db => rollback s (Credits.decreaseUserQuota cfg id quota db s)
  | .walletRefund id consumed => rollback s (Credits.walletRefund cfg id consumed s)
  | .walletSettle id delta => rollback s (Credits.walletSettle cfg id delta s)
  | .batchUpdate => ({ s with batch := BatchUpdate.step s.batch .batchUpdate }, none)
  | .flush i key => (Credits.flush i key s, none)

def step (cfg : Config) (s : State) (a : Action) : State := (a.exec cfg s).1

end Vancine.Credits
