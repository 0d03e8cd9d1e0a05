import Mathlib
import Vancine.Subscription.Store

/-!
# The account a request is charged to

A request is charged to the wallet of its user or to one of the user's subscriptions, and to its
token. While no other request runs, the copies of a balance (the row, the cache, the pending batch)
move together, so the wallet and the token are one number each here; `Vancine.Wallet` takes the
copies apart.

Every write takes a flag that makes it fail. A write that fails changes nothing.
-/

namespace Vancine.Billing

open Vancine.Subscription

/-- `common.MaxWalletQuota`, the largest integer a JavaScript client reads exactly. -/
def maxWalletQuota : ℤ := 2 ^ 53 - 1

structure Token where
  remainQuota : ℤ
  usedQuota : ℤ
  deriving DecidableEq

structure Account where
  walletQuota : ℤ
  token : Token
  subscriptions : SubscriptionStore
  deriving DecidableEq

inductive BillingError
  | negativeQuota
  | insufficientWalletQuota
  | walletQuotaExceeded
  | tokenQuotaNotEnough
  | subscription (e : SubscriptionError)
  | database
  deriving DecidableEq

/-- The settings the billing code reads. With batch updates a change of a balance is queued in
memory and cannot fail. -/
structure BillingConfig where
  trustQuota : ℤ
  batchUpdateEnabled : Bool

/-! ## Wallet -/

/-- `none` when the balance is too small. -/
def tryReserveUserQuota (fault : Bool) (quota : ℤ) (acc : Account) :
    Except BillingError (Option Account) :=
  if quota < 0 then .error .negativeQuota
  else if quota = 0 then .ok (some acc)
  else if fault then .error .database
  else if quota ≤ acc.walletQuota then
    .ok (some { acc with walletQuota := acc.walletQuota - quota })
  else .ok none

def increaseUserQuota (cfg : BillingConfig) (fault : Bool) (quota : ℤ) (acc : Account) :
    Except BillingError Account :=
  let increased := { acc with walletQuota := acc.walletQuota + quota }
  if quota < 0 then .error .negativeQuota
  else if maxWalletQuota < quota then .error .walletQuotaExceeded
  else if cfg.batchUpdateEnabled then .ok increased
  else if fault then .error .database
  else if acc.walletQuota ≤ maxWalletQuota - quota then .ok increased
  else .error .walletQuotaExceeded

/-- Unconditional: the balance may become negative. -/
def decreaseUserQuota (cfg : BillingConfig) (fault : Bool) (quota : ℤ) (acc : Account) :
    Except BillingError Account :=
  if quota < 0 then .error .negativeQuota
  else if fault ∧ ¬cfg.batchUpdateEnabled then .error .database
  else .ok { acc with walletQuota := acc.walletQuota - quota }

/-! ## Token -/

/-- Move `quota` from remaining to used; a negative amount moves it back. -/
def Token.consume (quota : ℤ) (t : Token) : Token :=
  ⟨t.remainQuota - quota, t.usedQuota + quota⟩

def increaseTokenQuota (cfg : BillingConfig) (fault : Bool) (quota : ℤ) (acc : Account) :
    Except BillingError Account :=
  if quota < 0 then .error .negativeQuota
  else if fault ∧ ¬cfg.batchUpdateEnabled then .error .database
  else .ok { acc with token := acc.token.consume (-quota) }

def decreaseTokenQuota (cfg : BillingConfig) (fault : Bool) (quota : ℤ) (acc : Account) :
    Except BillingError Account :=
  if quota < 0 then .error .negativeQuota
  else if fault ∧ ¬cfg.batchUpdateEnabled then .error .database
  else .ok { acc with token := acc.token.consume quota }

/-- An unlimited token skips the balance check but is still accounted. -/
def tryReserveTokenQuota (cfg : BillingConfig) (fault : Bool) (quota : ℤ) (unlimited : Bool)
    (acc : Account) : Except BillingError (Option Account) :=
  if quota < 0 then .error .negativeQuota
  else if quota = 0 then .ok (some acc)
  else if unlimited then (decreaseTokenQuota cfg fault quota acc).map some
  else if fault then .error .database
  else if quota ≤ acc.token.remainQuota then
    .ok (some { acc with token := acc.token.consume quota })
  else .ok none

/-! ## What a write does -/

@[simp] theorem Token.consume_zero (t : Token) : t.consume 0 = t := by simp [Token.consume]

@[simp] theorem Token.consume_consume (a b : ℤ) (t : Token) : (t.consume a).consume b = t.consume (a + b) := by
  simp only [Token.consume, Token.mk.injEq]
  omega

variable {fault : Bool} {quota : ℤ} {acc acc' : Account} {cfg : BillingConfig}

theorem tryReserveUserQuota_ok (h : tryReserveUserQuota fault quota acc = .ok (some acc')) :
    acc' = { acc with walletQuota := acc.walletQuota - quota } := by
  unfold tryReserveUserQuota at h
  by_cases h1 : quota < 0
  · rw [if_pos h1] at h; cases h
  rw [if_neg h1] at h
  by_cases h2 : quota = 0
  · rw [if_pos h2] at h; cases h; rw [h2, Int.sub_zero]
  rw [if_neg h2] at h
  split_ifs at h
  · cases h; rfl
  · cases h

theorem increaseUserQuota_ok (h : increaseUserQuota cfg fault quota acc = .ok acc') :
    acc' = { acc with walletQuota := acc.walletQuota + quota } := by
  unfold increaseUserQuota at h
  dsimp only at h
  split_ifs at h
  · cases h; rfl
  · cases h; rfl

theorem decreaseUserQuota_ok (h : decreaseUserQuota cfg fault quota acc = .ok acc') :
    acc' = { acc with walletQuota := acc.walletQuota - quota } := by
  unfold decreaseUserQuota at h
  split_ifs at h
  cases h; rfl

theorem increaseTokenQuota_ok (h : increaseTokenQuota cfg fault quota acc = .ok acc') :
    acc' = { acc with token := acc.token.consume (-quota) } := by
  unfold increaseTokenQuota at h
  split_ifs at h
  cases h; rfl

theorem decreaseTokenQuota_ok (h : decreaseTokenQuota cfg fault quota acc = .ok acc') :
    acc' = { acc with token := acc.token.consume quota } := by
  unfold decreaseTokenQuota at h
  split_ifs at h
  cases h; rfl

theorem tryReserveTokenQuota_ok {unlimited : Bool}
    (h : tryReserveTokenQuota cfg fault quota unlimited acc = .ok (some acc')) :
    acc' = { acc with token := acc.token.consume quota } := by
  unfold tryReserveTokenQuota at h
  by_cases h1 : quota < 0
  · rw [if_pos h1] at h; cases h
  rw [if_neg h1] at h
  by_cases h2 : quota = 0
  · rw [if_pos h2] at h; cases h; rw [h2, Token.consume_zero]
  rw [if_neg h2] at h
  by_cases h3 : unlimited = true
  · rw [if_pos h3] at h
    cases hd : decreaseTokenQuota cfg fault quota acc with
    | error e => rw [hd] at h; cases h
    | ok a => rw [hd] at h; cases h; exact decreaseTokenQuota_ok hd
  rw [if_neg h3] at h
  split_ifs at h
  · cases h; rfl
  · cases h

end Vancine.Billing
