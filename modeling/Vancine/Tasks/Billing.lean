import Vancine.Tasks.Store

/-!
# Billing of a finished task

`service/task_billing.go`: the full refund of a failed task, the settlement of the difference to an actual
quota, and `settleTaskBillingOnComplete`, which decides between them. What the adaptor, the price table
and the billing expression answer is part of the input (`UsageReport`).

A bill moves money at most once: a refund, or a settlement, or nothing.
-/

namespace Vancine.Tasks

open Lib Lib.Table
open Vancine.Billing (maxWalletQuota Token)
open Vancine.Subscription

structure TaskInfo where
  status : TaskStatus
  reason : String
  progress : String
  url : String
  pluginState : String
  totalTokens : ℤ
  completionTokens : ℤ
  deriving DecidableEq

/-- The tokens a settlement counts. -/
def TaskInfo.tokens (info : TaskInfo) : ℤ :=
  if info.totalTokens = 0 ∧ 0 < info.completionTokens then info.completionTokens else info.totalTokens

/-- `relaycommon.FailTaskInfo`. -/
def failTaskInfo (reason : String) : TaskInfo :=
  { status := .failure, reason := reason, progress := "", url := "", pluginState := "",
    totalTokens := 0, completionTokens := 0 }

/-- `adjusted` is the answer of `AdjustBillingOnComplete`, `byTokens` the quota
`RecalculateTaskQuotaByTokens` computes, if the model has a ratio and the user a group, and
`byExpression` the result of the billing expression, if it evaluates. -/
structure UsageReport where
  adjusted : ℤ
  byTokens : Option ℤ
  byExpression : Option ℤ

/-- `notSettled` is the answer false. -/
inductive Settlement
  | notSettled
  | keep
  | recalculate (actualQuota : ℤ)

def settleTaskBillingOnComplete (t : Task) (info : TaskInfo) (u : UsageReport) : Settlement :=
  match t.billingContext with
  | some ⟨true, _⟩ =>
    if t.status = .failure then .notSettled
    else
      match u.byExpression with
      | none => .keep
      | some actualQuota => .recalculate actualQuota
  | some ⟨false, true⟩ => .notSettled
  | _ =>
    if 0 < u.adjusted then .recalculate u.adjusted
    else if 0 < info.tokens then
      match u.byTokens with
      | none => .notSettled
      | some actualQuota => .recalculate actualQuota
    else .notSettled

/-- Which writes of a bill fail. -/
structure BillFaults where
  funding : Bool
  token : Bool
  quota : Bool
  deriving DecidableEq

def noFaults : BillFaults := ⟨false, false, false⟩

inductive TaskEvent
  | refund (t : Task) (quota : ℤ)
  | settle (t : Task) (delta : ℤ)

def TaskEvent.taskId : TaskEvent → ℤ
  | .refund t _ => t.id
  | .settle t _ => t.id

/-- The accounts, the quota the task records afterwards, and the money moved. -/
structure BillResult where
  accounts : Accounts
  quota : ℤ
  event : Option TaskEvent

/-- `RefundTaskQuota`. When the funding source cannot be paid back the quota stays on the task. -/
def refundTaskQuota (f : BillFaults) (t : Task) (acc : Accounts) : BillResult :=
  if t.quota = 0 then ⟨acc, t.quota, none⟩
  else
    match taskAdjustFunding f.funding t (-t.quota) acc with
    | none => ⟨acc, t.quota, none⟩
    | some acc => ⟨taskAdjustTokenQuota f.token t (-t.quota) acc, 0, some (.refund t t.quota)⟩

/-- `RecalculateTaskQuota`. -/
def recalculateTaskQuota (f : BillFaults) (t : Task) (actualQuota : ℤ) (acc : Accounts) :
    BillResult :=
  let quotaDelta := actualQuota - t.quota
  if actualQuota < 0 ∨ quotaDelta = 0 then ⟨acc, t.quota, none⟩
  else
    match taskAdjustFunding f.funding t quotaDelta acc with
    | none => ⟨acc, t.quota, none⟩
    | some acc =>
      ⟨taskAdjustTokenQuota f.token t quotaDelta acc, actualQuota, some (.settle t quotaDelta)⟩

/-- What an actor owes after a write: the sweeper refunds, a poller settles first. -/
inductive BillKind
  | refundOnly
  | settle (info : TaskInfo)
  deriving DecidableEq

def bill (kind : BillKind) (f : BillFaults) (u : UsageReport) (t : Task) (acc : Accounts) :
    BillResult :=
  match kind with
  | .refundOnly => refundTaskQuota f t acc
  | .settle info =>
    match settleTaskBillingOnComplete t info u with
    | .notSettled =>
      if t.status = .failure ∧ t.quota ≠ 0 then refundTaskQuota f t acc else ⟨acc, t.quota, none⟩
    | .keep => ⟨acc, t.quota, none⟩
    | .recalculate actualQuota => recalculateTaskQuota f t actualQuota acc

/-! ## Effects -/

section Effects

variable {f : BillFaults} {u : UsageReport} {t : Task} {acc : Accounts}

/-- **At most one movement**, and it is of the task itself. -/
theorem bill_event_taskId {kind : BillKind} {e : TaskEvent} (h : e ∈ (bill kind f u t acc).event) :
    e.taskId = t.id := by
  have hrefund : ∀ e ∈ (refundTaskQuota f t acc).event, e.taskId = t.id := by
    intro e he
    unfold refundTaskQuota at he
    split_ifs at he
    · cases he
    split at he
    · cases he
    · obtain rfl := Option.some.inj he
      rfl
  unfold bill at h
  split at h
  · exact hrefund e h
  split at h
  · split_ifs at h
    · exact hrefund e h
    · cases h
  · cases h
  · unfold recalculateTaskQuota at h
    dsimp only at h
    split_ifs at h
    · cases h
    split at h
    · cases h
    · obtain rfl := Option.some.inj h
      rfl

def walletQuota (acc : Accounts) (userId : ℤ) : Option ℤ :=
  (find Wallet.userId userId acc.wallets).map Wallet.quota

def tokenOf (acc : Accounts) (id : ℤ) : Option Token :=
  (find TokenAccount.id id acc.tokens).map TokenAccount.token

/-- **The task is paid back.** `q` went to the wallet, or came off the used amount of the subscription,
which does not go below zero; and `q` went back to the token, if the task has one. -/
structure Returned (t : Task) (q : ℤ) (acc acc' : Accounts) : Prop where
  wallet : ∀ userId, walletQuota acc' userId =
    if userId = t.userId ∧ taskIsSubscription t = false then (walletQuota acc userId).map (· + q)
    else walletQuota acc userId
  subscription :
    if taskIsSubscription t then
      ∃ sub, acc.subscriptions.findSub t.subscriptionId = some sub ∧
        acc'.subscriptions =
          acc.subscriptions.saveSub { sub with amountUsed := max (sub.amountUsed - q) 0 }
    else acc'.subscriptions = acc.subscriptions
  token : ∀ id, tokenOf acc' id =
    if id = t.tokenId ∧ 0 < t.tokenId then
      (tokenOf acc id).map fun k => ⟨k.remainQuota + q, k.usedQuota - q⟩
    else tokenOf acc id

theorem walletQuota_addToWallet (acc : Accounts) (userId amount id : ℤ) :
    walletQuota (acc.addToWallet userId amount) id =
      if id = userId then (walletQuota acc id).map (· + amount) else walletQuota acc id := by
  unfold walletQuota Accounts.addToWallet
  have hkey : ∀ w ∈ acc.wallets,
      (if w.userId = userId then { w with quota := w.quota + amount } else w).userId = w.userId := by
    intro w _
    by_cases h : w.userId = userId
    · rw [if_pos h]
    · rw [if_neg h]
  rw [find_map hkey]
  cases hw : find Wallet.userId id acc.wallets with
  | none => simp
  | some w =>
    obtain rfl : w.userId = id := find_key hw
    by_cases h : w.userId = userId
    · simp [h]
    · simp [h]

theorem taskAdjustTokenQuota_wallets (fault : Bool) (t : Task) (delta : ℤ) (acc : Accounts) :
    (taskAdjustTokenQuota fault t delta acc).wallets = acc.wallets := by
  unfold taskAdjustTokenQuota
  split_ifs <;> rfl

theorem taskAdjustTokenQuota_subscriptions (fault : Bool) (t : Task) (delta : ℤ) (acc : Accounts) :
    (taskAdjustTokenQuota fault t delta acc).subscriptions = acc.subscriptions := by
  unfold taskAdjustTokenQuota
  split_ifs <;> rfl

theorem tokenOf_taskAdjustTokenQuota {q : ℤ} (hq : q ≠ 0) (id : ℤ) :
    tokenOf (taskAdjustTokenQuota false t (-q) acc) id = if id = t.tokenId ∧ 0 < t.tokenId then
        (tokenOf acc id).map fun k => ⟨k.remainQuota + q, k.usedQuota - q⟩ else tokenOf acc id := by
  unfold taskAdjustTokenQuota
  by_cases hno : t.tokenId ≤ 0
  · rw [if_pos (.inl hno), if_neg]
    rintro ⟨-, hpos⟩
    omega
  have hskip : ¬(t.tokenId ≤ 0 ∨ -q = 0 ∨ (false : Bool) = true) := by
    rintro (h | h | h)
    · exact hno h
    · exact hq (by omega)
    · cases h
  rw [if_neg hskip]
  have hkey : ∀ k ∈ acc.tokens,
      (if k.id = t.tokenId then { k with token := k.token.consume (-q) } else k).id = k.id := by
    intro k _
    by_cases h : k.id = t.tokenId
    · rw [if_pos h]
    · rw [if_neg h]
  unfold tokenOf
  rw [find_map hkey]
  have hpos : 0 < t.tokenId := by omega
  cases hk : find TokenAccount.id id acc.tokens with
  | none => simp
  | some k =>
    obtain rfl : k.id = id := find_key hk
    by_cases h : k.id = t.tokenId
    · simp [h, hpos, Token.consume, Int.sub_eq_add_neg]
    · simp [h]

theorem taskAdjustFunding_back {fault : Bool} {q : ℤ} {acc' : Accounts} (hq : 0 < q)
    (h : taskAdjustFunding fault t (-q) acc = some acc') : (∀ userId, walletQuota acc' userId =
      if userId = t.userId ∧ taskIsSubscription t = false then (walletQuota acc userId).map (· + q)
      else walletQuota acc userId) ∧ (if taskIsSubscription t then
      ∃ sub, acc.subscriptions.findSub t.subscriptionId = some sub ∧ acc'.subscriptions =
          acc.subscriptions.saveSub { sub with amountUsed := max (sub.amountUsed - q) 0 }
      else acc'.subscriptions = acc.subscriptions) ∧ acc'.tokens = acc.tokens := by
  unfold taskAdjustFunding at h
  by_cases hsub : taskIsSubscription t = true
  · rw [if_pos hsub] at h
    split at h
    swap
    · cases h
    rename_i st hst
    obtain rfl := Option.some.inj h
    obtain ⟨sub, hfind, hst'⟩ : ∃ sub, acc.subscriptions.findSub t.subscriptionId = some sub ∧
        st = acc.subscriptions.saveSub { sub with amountUsed := max (sub.amountUsed - q) 0 } := by
      unfold postConsumeUserSubscriptionDelta at hst
      split_ifs at hst with h₁ h₂ h₃
      · omega
      split at hst
      · cases hst
      rename_i sub hsub'
      dsimp only at hst
      split_ifs at hst
      exact ⟨sub, hsub', (Except.ok.inj hst).symm⟩
    refine ⟨fun userId => ?_, ?_, rfl⟩
    · simp [hsub, walletQuota]
    · rw [if_pos hsub]
      exact ⟨sub, hfind, hst'⟩
  · rw [if_neg hsub, if_neg (by omega), Int.neg_neg] at h
    have hacc : acc' = acc.addToWallet t.userId q := by
      unfold increaseUserQuota at h
      split_ifs at h
      · exact (Option.some.inj h).symm
      split at h
      · cases h
      · split_ifs at h
        exact (Option.some.inj h).symm
    subst hacc
    refine ⟨fun userId => ?_, ?_, rfl⟩
    · rw [walletQuota_addToWallet]
      simp [hsub]
    · rw [if_neg hsub]
      rfl

/-- **A refund whose writes succeed** pays the task back in full. -/
theorem refundTaskQuota_returned (hq : 0 < t.quota) {acc' : Accounts}
    (h : taskAdjustFunding false t (-t.quota) acc = some acc') :
    Returned t t.quota acc (refundTaskQuota noFaults t acc).accounts := by
  obtain ⟨hwallet, hsub, htok⟩ := taskAdjustFunding_back hq h
  unfold refundTaskQuota
  rw [if_neg hq.ne']
  simp only [noFaults, h]
  refine ⟨?_, ?_, ?_⟩
  · intro userId
    rw [← hwallet userId, walletQuota, taskAdjustTokenQuota_wallets]
    rfl
  · rw [taskAdjustTokenQuota_subscriptions]
    exact hsub
  · intro id
    rw [tokenOf_taskAdjustTokenQuota hq.ne']
    unfold tokenOf
    rw [htok]

end Effects

end Vancine.Tasks
