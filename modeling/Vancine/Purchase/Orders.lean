import Vancine.Lib.Exclusive
import Vancine.Lib.Run
import Vancine.Purchase.Plan

/-!
# Buying a plan, under row locks

`CompleteSubscriptionOrder`, `ExpireSubscriptionOrder`, `AdminBindSubscription` and
`PurchaseSubscriptionWithBalance` for one user and one plan, by any number of callers at once. A call is
a transaction that goes from statement to statement: it locks the row of its order, or the row of the
user, and waits where another call holds it; it counts the user's subscriptions and commits on that
count. Any statement may fail, which rolls the call back. Nothing of a call is seen before its commit.

With `repeatableRead` (InnoDB's default) the first plain read of a transaction fixes what all its
plain reads see. The balance purchase reads the plan first, inside its transaction when the plan is
not cached, so its count may be older than its lock on the user. The others lock before they read.

`made` is for the accounting: which subscription was created for which order.
-/

namespace Vancine.Purchase

open Lib
open Payment (Decimal walletQuotaFromDecimalStrict)
open Subscription (SubscriptionStatus)

/-! ## Rows -/

inductive OrderStatus
  | pending
  | success
  | expired
  deriving DecidableEq

structure SubscriptionOrder where
  tradeNo : String
  money : Decimal
  paymentMethod : String
  paymentProvider : String
  status : OrderStatus
  createTime : ℤ
  completeTime : ℤ := 0
  providerPayload : String := ""
  deriving DecidableEq

/-- The columns of a top-up row that a subscription order writes. -/
structure SubscriptionTopUp where
  tradeNo : String
  money : Decimal
  paymentMethod : String
  createTime : ℤ
  completeTime : ℤ
  deriving DecidableEq

/-- What is committed: the rows of the user. -/
structure OrderDb where
  orders : List SubscriptionOrder := []
  topUps : List SubscriptionTopUp := []
  subs : List UserSubscription := []
  made : List (String × ℕ) := []
  quota : ℤ
  group : String
  nextId : ℕ := 1

/-- The user, the plan, and the settings of the server and the database. -/
structure Shop where
  cal : DateCalendar
  userId : ℤ
  plan : SubscriptionPlan
  quotaPerUnit : Decimal
  repeatableRead : Bool

/-- `calcSubscriptionBalanceQuota` of the plan's price. -/
def calcSubscriptionBalanceQuota (quotaPerUnit price : Decimal) : Option ℤ :=
  if price.coef ≤ 0 then some 0
  else if quotaPerUnit.coef ≤ 0 then none
  else
    let p := price.mul quotaPerUnit
    walletQuotaFromDecimalStrict ⟨-((-p.coef) / 10 ^ p.scale), 0⟩

/-- The rows of the plan. -/
def countByPlan (shop : Shop) (subs : List UserSubscription) : ℕ :=
  subs.countP fun r => r.planId = shop.plan.id

/-- `upsertSubscriptionTopUpTx`; none when the payment methods disagree. -/
def upsertSubscriptionTopUpTx (now : ℤ) (order : SubscriptionOrder) (topUps : List SubscriptionTopUp) :
    Option (List SubscriptionTopUp) :=
  match Table.find SubscriptionTopUp.tradeNo order.tradeNo topUps with
  | none =>
    some (topUps ++ [⟨order.tradeNo, order.money, order.paymentMethod, order.createTime, now⟩])
  | some topUp =>
    if topUp.paymentMethod ≠ "" ∧ topUp.paymentMethod ≠ order.paymentMethod then none
    else some (Table.save SubscriptionTopUp.tradeNo
      { topUp with
        money := order.money
        paymentMethod := order.paymentMethod
        createTime := if topUp.createTime = 0 then order.createTime else topUp.createTime
        completeTime := now }
      topUps)

namespace OrderDb

def findOrder (db : OrderDb) (tradeNo : String) : Option SubscriptionOrder :=
  Table.find SubscriptionOrder.tradeNo tradeNo db.orders

def saveOrder (db : OrderDb) (order : SubscriptionOrder) : OrderDb :=
  { db with orders := Table.save SubscriptionOrder.tradeNo order db.orders }

def addSub (db : OrderDb) (sub : UserSubscription) (group : String) : OrderDb :=
  { db with subs := db.subs ++ [sub], group, nextId := db.nextId + 1 }

end OrderDb

/-! ## Calls -/

inductive OrderOp
  | complete (tradeNo providerPayload expectedPaymentProvider actualPaymentMethod : String)
  | expire (tradeNo expectedPaymentProvider : String)
  | adminBind
  /-- The trade number the call generates. -/
  | balance (tradeNo : String)
  deriving DecidableEq

/-- How far a call is, with what it has read. `snapshot` is what its plain reads see, once fixed. -/
inductive Stage
  | begun
  | orderLocked (order : SubscriptionOrder)
  | planRead (snapshot : Option (List UserSubscription))
  | userLocked (order : Option SubscriptionOrder) (snapshot : Option (List UserSubscription))
  | counted (order : Option SubscriptionOrder) (count : ℕ)
  | done
  deriving DecidableEq

structure Call where
  op : OrderOp
  stage : Stage

/-- The order whose row the call holds. -/
def Stage.order : Stage → Option SubscriptionOrder
  | .orderLocked order => some order
  | .userLocked order _ | .counted order _ => order
  | .begun | .planRead _ | .done => none

/-- The call holds the row of the user. -/
def Stage.holdsUser : Stage → Option Unit
  | .userLocked _ _ | .counted _ _ => some ()
  | .begun | .orderLocked _ | .planRead _ | .done => none

/-- What the plain reads of the call see, once fixed. -/
def Stage.snapshot : Stage → Option (List UserSubscription)
  | .planRead snapshot | .userLocked _ snapshot => snapshot
  | .begun | .orderLocked _ | .counted _ _ | .done => none

def Call.tradeNo (c : Call) : Option String := c.stage.order.map SubscriptionOrder.tradeNo

def Call.holdsUser (c : Call) : Option Unit := c.stage.holdsUser

structure ShopState where
  db : OrderDb
  calls : List Call
  clock : ℤ
  /-- What others added to the wallet. -/
  credited : ℤ

def ShopState.start (group : String) (quota clock : ℤ) : ShopState :=
  ⟨{ quota, group }, [], clock, 0⟩

inductive ShopAction
  | tick (seconds : ℕ)
  | checkout (tradeNo paymentMethod paymentProvider : String)
  | credit (amount : ℤ)
  | begin (op : OrderOp)
  /-- The next statement of a call. -/
  | proceed (call : ℕ) (fault cached : Bool)

namespace ShopState

def setStage (s : ShopState) (i : ℕ) (c : Call) (stage : Stage) : ShopState :=
  { s with calls := s.calls.set i { c with stage } }

def orderFree (s : ShopState) (tradeNo : String) : Bool :=
  s.calls.all fun c => c.tradeNo ≠ some tradeNo

def userFree (s : ShopState) : Bool := s.calls.all fun c => c.holdsUser ≠ some ()

/-- The locking read of the order and the checks on it. A row that another call holds is waited for. -/
def lockOrder (s : ShopState) (i : ℕ) (c : Call) (tradeNo expectedPaymentProvider : String) :
    ShopState :=
  if tradeNo = "" then s.setStage i c .done
  else match s.db.findOrder tradeNo with
    | none => s.setStage i c .done
    | some order =>
      if s.orderFree tradeNo = false then s
      else if expectedPaymentProvider ≠ "" ∧ order.paymentProvider ≠ expectedPaymentProvider then
        s.setStage i c .done
      else if order.status ≠ .pending then s.setStage i c .done
      else s.setStage i c (.orderLocked order)

/-- The locking read of the user. -/
def lockUser (s : ShopState) (i : ℕ) (c : Call) (order : Option SubscriptionOrder)
    (snapshot : Option (List UserSubscription)) : ShopState :=
  if s.userFree then s.setStage i c (.userLocked order snapshot) else s

/-- What a commit writes, or nothing when the call fails and is rolled back. -/
def commit (shop : Shop) (s : ShopState) (op : OrderOp) (order : Option SubscriptionOrder)
    (count : ℕ) : Option OrderDb :=
  let create := createUserSubscriptionFromPlanTx shop.cal s.clock count s.db.nextId shop.userId
    s.db.group shop.plan
  match op, order with
  | .complete tradeNo providerPayload _ actualPaymentMethod, some order =>
    match create .order with
    | .error _ => none
    | .ok (sub, group) =>
      match upsertSubscriptionTopUpTx s.clock order s.db.topUps with
      | none => none
      | some topUps => some
          { (s.db.addSub sub group).saveOrder { order with
              status := .success
              completeTime := s.clock
              providerPayload := if providerPayload = "" then order.providerPayload else providerPayload
              paymentMethod :=
                if actualPaymentMethod = "" then order.paymentMethod else actualPaymentMethod } with
            topUps
            made := s.db.made ++ [(tradeNo, sub.id)] }
  | .adminBind, none =>
    match create .admin with
    | .error _ => none
    | .ok (sub, group) => some (s.db.addSub sub group)
  | .balance tradeNo, none =>
    match create .balance, calcSubscriptionBalanceQuota shop.quotaPerUnit shop.plan.priceAmount with
    | .ok (sub, group), some required =>
      match s.db.findOrder tradeNo with
      | some _ => none
      | none => some
          { s.db.addSub sub group with
            orders := s.db.orders ++ [{
              tradeNo
              money := shop.plan.priceAmount
              paymentMethod := "balance"
              paymentProvider := "balance"
              status := .success
              createTime := s.clock
              completeTime := s.clock
              providerPayload := "charged_quota=" ++ toString required }]
            quota := s.db.quota - required
            made := s.db.made ++ [(tradeNo, sub.id)] }
    | _, _ => none
  | _, _ => none

/-- The checks of a balance purchase on the plan. -/
def payable (shop : Shop) : Bool :=
  shop.plan.enabled && decide (0 ≤ shop.plan.priceAmount.coef) && shop.plan.allowBalancePay &&
    (calcSubscriptionBalanceQuota shop.quotaPerUnit shop.plan.priceAmount).isSome

def proceed (shop : Shop) (s : ShopState) (i : ℕ) (c : Call) (cached : Bool) : ShopState :=
  match c.stage, c.op with
  | .begun, .complete tradeNo _ provider _ => s.lockOrder i c tradeNo provider
  | .begun, .expire tradeNo provider => s.lockOrder i c tradeNo provider
  | .begun, .adminBind =>
    if shop.userId ≤ 0 ∨ shop.plan.id ≤ 0 then s.setStage i c .done else s.lockUser i c none none
  | .begun, .balance _ =>
    if shop.userId ≤ 0 ∨ shop.plan.id ≤ 0 then s.setStage i c .done
    else if payable shop then
      -- a cached plan is not read from the database
      s.setStage i c (.planRead (if shop.repeatableRead && !cached then some s.db.subs else none))
    else s.setStage i c .done
  | .planRead snapshot, _ =>
    match calcSubscriptionBalanceQuota shop.quotaPerUnit shop.plan.priceAmount with
    | none => s.setStage i c .done
    | some required =>
      if s.userFree ∧ 0 < required ∧ s.db.quota < required then s.setStage i c .done
      else s.lockUser i c none snapshot
  | .orderLocked order, .expire _ _ =>
    { s.setStage i c .done with
      db := s.db.saveOrder { order with status := .expired, completeTime := s.clock } }
  | .orderLocked order, _ => s.lockUser i c (some order) none
  | .userLocked order snapshot, _ =>
    s.setStage i c (.counted order (countByPlan shop (snapshot.getD s.db.subs)))
  | .counted order count, op =>
    match s.commit shop op order count with
    | none => s.setStage i c .done
    | some db => { s.setStage i c .done with db }
  | .done, _ => s

end ShopState

/-- A statement of another call that changes the wallet waits for the row of the user. -/
def shopStep (shop : Shop) (s : ShopState) : ShopAction → ShopState
  | .tick seconds => { s with clock := s.clock + seconds }
  | .checkout tradeNo paymentMethod paymentProvider =>
    match s.db.findOrder tradeNo with
    | some _ => s
    | none =>
      { s with db := { s.db with orders := s.db.orders ++ [{
          tradeNo, paymentMethod, paymentProvider
          money := shop.plan.priceAmount
          status := .pending
          createTime := s.clock }] } }
  | .credit amount =>
    if s.userFree then
      { s with db := { s.db with quota := s.db.quota + amount }, credited := s.credited + amount }
    else s
  | .begin op => { s with calls := s.calls ++ [⟨op, .begun⟩] }
  | .proceed i fault cached =>
    match s.calls[i]? with
    | none => s
    | some c => if fault then s.setStage i c .done else s.proceed shop i c cached

/-! ## What one step can do -/

/-- The trade number of the order the call is for. -/
def OrderOp.orderNo : OrderOp → Option String
  | .complete tradeNo _ _ _ => some tradeNo
  | .expire tradeNo _ => some tradeNo
  | .adminBind | .balance _ => none

/-- A call moves on without a write: a row it locks is free and is read as it is, it counts what it
sees, and a snapshot is taken under `repeatableRead` only. -/
structure StageMove (shop : Shop) (s : ShopState) (c : Call) (stage : Stage) : Prop where
  order : ∀ o, stage.order = some o → c.stage.order = some o ∨
    (s.db.findOrder o.tradeNo = some o ∧ o.status = .pending ∧ s.orderFree o.tradeNo = true ∧
      c.op.orderNo = some o.tradeNo)
  user : stage.holdsUser = some () → c.stage.holdsUser = some () ∨ s.userFree = true
  count : ∀ order n, stage = .counted order n →
    ∃ snapshot, c.stage = .userLocked order snapshot ∧
      n = countByPlan shop (snapshot.getD s.db.subs)
  snapshot : stage.snapshot ≠ none → c.stage.snapshot ≠ none ∨ shop.repeatableRead = true

inductive ShopMove (shop : Shop) (s : ShopState) : ShopAction → ShopState → Prop
  | stay (a : ShopAction) : ShopMove shop s a s
  | tick (seconds : ℕ) : ShopMove shop s (.tick seconds) { s with clock := s.clock + seconds }
  | checkout {a : ShopAction} {order : SubscriptionOrder} (hnew : s.db.findOrder order.tradeNo = none)
      (hpend : order.status = .pending) :
      ShopMove shop s a { s with db := { s.db with orders := s.db.orders ++ [order] } }
  | credit (amount : ℤ) (hfree : s.userFree = true) :
      ShopMove shop s (.credit amount)
        { s with db := { s.db with quota := s.db.quota + amount }, credited := s.credited + amount }
  | begin (op : OrderOp) : ShopMove shop s (.begin op) { s with calls := s.calls ++ [⟨op, .begun⟩] }
  | fail {i : ℕ} {cached : Bool} {c : Call} (hc : s.calls[i]? = some c) :
      ShopMove shop s (.proceed i true cached) (s.setStage i c .done)
  | stage {i : ℕ} {cached : Bool} {c : Call} {stage : Stage} (hc : s.calls[i]? = some c)
      (hmove : StageMove shop s c stage) :
      ShopMove shop s (.proceed i false cached) (s.setStage i c stage)
  | expire {i : ℕ} {cached : Bool} {c : Call} {order : SubscriptionOrder} (hc : s.calls[i]? = some c)
      (hstage : c.stage = .orderLocked order) :
      ShopMove shop s (.proceed i false cached)
        { s.setStage i c .done with
          db := s.db.saveOrder { order with status := .expired, completeTime := s.clock } }
  | commit {i : ℕ} {cached : Bool} {c : Call} {order : Option SubscriptionOrder} {count : ℕ}
      {db : OrderDb} (hc : s.calls[i]? = some c) (hstage : c.stage = .counted order count)
      (hcommit : s.commit shop c.op order count = some db) :
      ShopMove shop s (.proceed i false cached) { s.setStage i c .done with db := db }

section Move

variable {shop : Shop} {s : ShopState} {i : ℕ} {c : Call}

theorem StageMove.done : StageMove shop s c .done :=
  ⟨nofun, nofun, nofun, fun h => absurd rfl h⟩

theorem lockOrder_move (hc : s.calls[i]? = some c) (cached : Bool) {tradeNo provider : String}
    (hop : c.op.orderNo = some tradeNo) :
    ShopMove shop s (.proceed i false cached) (s.lockOrder i c tradeNo provider) := by
  unfold ShopState.lockOrder
  by_cases hempty : tradeNo = ""
  · rw [if_pos hempty]; exact .stage hc .done
  rw [if_neg hempty]
  cases ho : s.db.findOrder tradeNo with
  | none => exact .stage hc .done
  | some order =>
    have hkey : order.tradeNo = tradeNo := Table.find_key ho
    dsimp only
    split_ifs with hfree hprov hpend
    · exact .stay _
    · exact .stage hc .done
    · exact .stage hc .done
    · refine .stage hc ⟨fun o h => ?_, nofun, nofun, fun h => absurd rfl h⟩
      cases h
      rw [hkey]
      exact .inr ⟨ho, by simpa using hpend, by simpa using hfree, hop⟩

theorem lockUser_move (hc : s.calls[i]? = some c) (cached : Bool) {order : Option SubscriptionOrder}
    {snapshot : Option (List UserSubscription)} (hord : c.stage.order = order)
    (hsnap : snapshot ≠ none → c.stage.snapshot ≠ none) :
    ShopMove shop s (.proceed i false cached) (s.lockUser i c order snapshot) := by
  unfold ShopState.lockUser
  split_ifs with hfree
  · refine .stage hc ⟨fun o h => ?_, fun _ => .inr hfree, nofun, fun h => .inl (hsnap h)⟩
    left
    rw [hord]; exact h
  · exact .stay _

theorem proceed_move (hc : s.calls[i]? = some c) (cached : Bool) :
    ShopMove shop s (.proceed i false cached) (s.proceed shop i c cached) := by
  unfold ShopState.proceed
  split
  · rename_i hs ho
    exact lockOrder_move hc cached (by rw [ho]; rfl)
  · rename_i hs ho
    exact lockOrder_move hc cached (by rw [ho]; rfl)
  · rename_i hs ho
    split_ifs
    · exact .stage hc .done
    · exact lockUser_move hc cached (by rw [hs]; rfl) (fun h => absurd rfl h)
  · rename_i hs ho
    split_ifs with hid hpay hrr
    · exact .stage hc .done
    · refine .stage hc ⟨nofun, nofun, nofun, fun _ => .inr ?_⟩
      simp only [Bool.and_eq_true] at hrr
      exact hrr.1
    · exact .stage hc ⟨nofun, nofun, nofun, fun h => absurd rfl h⟩
    · exact .stage hc .done
  · rename_i hs
    split
    · exact .stage hc .done
    · split_ifs
      · exact .stage hc .done
      · exact lockUser_move hc cached (by rw [hs]; rfl) (by rw [hs]; exact id)
  · rename_i hs ho
    exact .expire hc hs
  · rename_i hs _
    exact lockUser_move hc cached (by rw [hs]; rfl) (fun h => absurd rfl h)
  · rename_i snapshot hs
    refine .stage hc ⟨fun o h => ?_, fun _ => ?_, fun order' n h => ?_, fun h => absurd rfl h⟩
    · left; rw [hs]; exact h
    · left; rw [hs]; rfl
    · cases h; exact ⟨snapshot, hs, rfl⟩
  · rename_i hs
    split
    · exact .stage hc .done
    · rename_i hcommit
      exact .commit hc hs hcommit
  · exact .stay _

theorem shopStep_move (shop : Shop) (s : ShopState) (a : ShopAction) : ShopMove shop s a (shopStep shop s a) := by
  cases a with
  | tick seconds => exact .tick seconds
  | checkout tradeNo paymentMethod paymentProvider =>
    unfold shopStep
    dsimp only
    cases ho : s.db.findOrder tradeNo with
    | some order => exact .stay _
    | none => exact .checkout ho rfl
  | credit amount =>
    unfold shopStep
    dsimp only
    split_ifs with hfree
    · exact .credit amount hfree
    · exact .stay _
  | begin op => exact .begin op
  | proceed i fault cached =>
    unfold shopStep
    dsimp only
    cases hc : s.calls[i]? with
    | none => exact .stay _
    | some c =>
      dsimp only
      cases fault with
      | true => exact .fail hc
      | false => exact proceed_move hc cached

end Move

end Vancine.Purchase
