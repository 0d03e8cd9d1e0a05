import Vancine.Billing.Account

/-!
# Async tasks and what they were paid with

The rows of `model/task.go` and the money a task may move: the wallet of its user or a subscription, and
its token. As in `Vancine.Billing`, a wallet and a token are one number each.

A task row is written in three ways. `UpdateWithStatus` writes every column, on the condition that the
status is still the one the writer saw; `UpdateQuota` writes the quota; `TaskBulkUpdateByID` writes status
and progress with no condition at all.
-/

namespace Vancine.Tasks

open Lib Lib.Table
open Vancine.Billing (maxWalletQuota)
open Vancine.Subscription

/-- `unknown` stands for every text that is not one of the others. -/
inductive TaskStatus
  | notStart | submitted | queued | inProgress | failure | success | unknown
  deriving DecidableEq

/-- Success or failure. -/
def TaskStatus.terminal : TaskStatus → Bool
  | .failure | .success => true
  | _ => false

inductive BillingSource
  | wallet | subscription
  deriving DecidableEq

/-- The parts of the billing snapshot that choose the settlement. -/
structure TaskBillingContext where
  tieredSnapshot : Bool
  perCallBilling : Bool
  deriving DecidableEq

structure Task where
  id : ℤ
  taskID : String
  userId : ℤ
  quota : ℤ
  status : TaskStatus
  failReason : String
  submitTime : ℤ
  startTime : ℤ
  finishTime : ℤ
  progress : String
  data : String
  upstreamTaskID : String
  resultURL : String
  billingSource : BillingSource
  subscriptionId : ℤ
  tokenId : ℤ
  billingContext : Option TaskBillingContext
  pluginState : String
  pollFailures : ℤ
  deriving DecidableEq

/-- `TaskRefundLegacyCutoff`, 2026-02-22 00:00:00 UTC. -/
def taskRefundLegacyCutoff : ℤ := 1771718400

/-- A task older than timeout refunds. -/
def Task.isLegacy (t : Task) : Bool := 0 < t.submitTime ∧ t.submitTime < taskRefundLegacyCutoff

def Task.getUpstreamTaskID (t : Task) : String :=
  if t.upstreamTaskID ≠ "" then t.upstreamTaskID else t.taskID

/-- The columns a poll compares to see whether anything changed. -/
structure TaskSnapshot where
  status : TaskStatus
  progress : String
  startTime : ℤ
  finishTime : ℤ
  failReason : String
  resultURL : String
  data : String
  pluginState : String
  pollFailures : ℤ
  deriving DecidableEq

def Task.snapshot (t : Task) : TaskSnapshot where
  status := t.status
  progress := t.progress
  startTime := t.startTime
  finishTime := t.finishTime
  failReason := t.failReason
  resultURL := t.resultURL
  data := t.data
  pluginState := t.pluginState
  pollFailures := t.pollFailures

/-- What decides where the money of a task goes, and never changes. -/
def Task.payer (t : Task) : ℤ × BillingSource × ℤ × ℤ :=
  (t.userId, t.billingSource, t.subscriptionId, t.tokenId)

/-! ## Rows -/

/-- The row is loaded by `GetAllUnFinishSyncTasks`. -/
def Task.unfinished (t : Task) : Bool := t.progress ≠ "100%" ∧ ¬t.status.terminal

/-- The row is loaded by `GetTimedOutUnfinishedTasks`. -/
def Task.timedOut (cutoff : ℤ) (t : Task) : Bool := t.unfinished ∧ t.submitTime < cutoff

def row (rows : List Task) (id : ℤ) : Option Task := find Task.id id rows

def status (rows : List Task) (id : ℤ) : Option TaskStatus := (row rows id).map Task.status

/-- `UpdateWithStatus`: the rows and whether the caller won. With `changedRows` the database reports the
rows it changed, so a write that changes nothing counts as lost. -/
def updateWithStatus (changedRows : Bool) (fromStatus : TaskStatus) (t : Task) (rows : List Task) :
    List Task × Bool :=
  match row rows t.id with
  | none => (rows, false)
  | some r =>
    if r.status = fromStatus then (save Task.id t rows, !(changedRows && decide (r = t)))
    else (rows, false)

/-- `UpdateQuota`, by primary key. -/
def updateQuota (id quota : ℤ) (rows : List Task) : List Task :=
  rows.map fun r => if r.id = id then { r with quota := quota } else r

/-- `TaskBulkUpdateByID` to a failure, with or without a reason. -/
def taskBulkUpdateByID (ids : List ℤ) (failReason : Option String) (rows : List Task) : List Task :=
  rows.map fun r =>
    if r.id ∈ ids then
      { r with status := .failure, progress := "100%", failReason := failReason.getD r.failReason }
    else r

section Rows

variable {rows : List Task} {t : Task} {id : ℤ}

theorem row_save (h : (row rows t.id).isSome) (id : ℤ) :
    row (save Task.id t rows) id = if id = t.id then some t else row rows id := by
  obtain ⟨r, hr⟩ := Option.isSome_iff_exists.mp h
  exact find_save hr

theorem row_updateQuota (i quota : ℤ) (id : ℤ) : row (updateQuota i quota rows) id =
      (row rows id).map fun r => if r.id = i then { r with quota := quota } else r := by
  refine find_map fun r _ => ?_
  by_cases h : r.id = i
  · rw [if_pos h]
  · rw [if_neg h]

theorem row_taskBulkUpdateByID (ids : List ℤ) (failReason : Option String) (id : ℤ) :
    row (taskBulkUpdateByID ids failReason rows) id = (row rows id).map fun r => if r.id ∈ ids then
          { r with
            status := .failure, progress := "100%", failReason := failReason.getD r.failReason }
        else r := by
  refine find_map fun r _ => ?_
  by_cases h : r.id ∈ ids
  · rw [if_pos h]
  · rw [if_neg h]

theorem row_id {r : Task} (h : row rows id = some r) : r.id = id := find_key h

end Rows

/-! ## Money -/

structure Wallet where
  userId : ℤ
  quota : ℤ
  deriving DecidableEq

structure TokenAccount where
  id : ℤ
  token : Billing.Token
  deriving DecidableEq

structure Accounts where
  batchUpdateEnabled : Bool
  wallets : List Wallet
  tokens : List TokenAccount
  subscriptions : SubscriptionStore

/-- Add to the wallet of a user, if there is one. -/
def Accounts.addToWallet (acc : Accounts) (userId amount : ℤ) : Accounts :=
  { acc with
    wallets := acc.wallets.map fun w =>
      if w.userId = userId then { w with quota := w.quota + amount } else w }

/-- `IncreaseUserQuota`; `none` is an error. -/
def increaseUserQuota (fault : Bool) (userId amount : ℤ) (acc : Accounts) : Option Accounts :=
  if amount < 0 ∨ maxWalletQuota < amount then none
  else if acc.batchUpdateEnabled then some (acc.addToWallet userId amount)
  else if fault then none
  else
    match find Wallet.userId userId acc.wallets with
    | none => none
    | some w => if w.quota ≤ maxWalletQuota - amount then some (acc.addToWallet userId amount) else none

/-- `DecreaseUserQuota`; the balance may become negative. -/
def decreaseUserQuota (fault : Bool) (userId amount : ℤ) (acc : Accounts) : Option Accounts :=
  if amount < 0 then none
  else if fault ∧ ¬acc.batchUpdateEnabled then none
  else some (acc.addToWallet userId (-amount))

def taskIsSubscription (t : Task) : Bool := t.billingSource = .subscription ∧ 0 < t.subscriptionId

/-- `taskAdjustFunding`: a positive delta charges, a negative one gives back. -/
def taskAdjustFunding (fault : Bool) (t : Task) (delta : ℤ) (acc : Accounts) : Option Accounts :=
  if taskIsSubscription t then
    match postConsumeUserSubscriptionDelta fault t.subscriptionId delta acc.subscriptions with
    | .ok st => some { acc with subscriptions := st }
    | .error _ => none
  else if 0 < delta then decreaseUserQuota fault t.userId delta acc
  else increaseUserQuota fault t.userId (-delta) acc

/-- `taskAdjustTokenQuota`. Nothing happens without a token or when the token was deleted, and an error
is only logged. -/
def taskAdjustTokenQuota (fault : Bool) (t : Task) (delta : ℤ) (acc : Accounts) : Accounts :=
  if t.tokenId ≤ 0 ∨ delta = 0 ∨ fault then acc
  else
    { acc with
      tokens := acc.tokens.map fun k =>
        if k.id = t.tokenId then { k with token := k.token.consume delta } else k }

end Vancine.Tasks
