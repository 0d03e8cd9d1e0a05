import Vancine.Purchase.Groups
import Vancine.Purchase.Orders

/-!
# One subscription per order, and the cap

Three parts. `Locked` is what the row locks give: a call's copy of its order is the row as it is, and
only one call is past the lock of the user. `Booked` is the accounting: the pairs of `made` match the
successful orders with the subscriptions that were not bound by an administrator, one to one, and the
wallet is down by the price of each balance purchase. Both hold in every run.

The cap holds as long as no purchase counts on a snapshot that shows room that is gone
(`CountsCurrent`). With `READ COMMITTED` there is no snapshot and nothing to ask.
-/

namespace Vancine.Purchase

open Lib
open Payment (Decimal)

/-! ## What a commit writes -/

/-- The row that a call inserts when its count was `count`. -/
structure NewSub (shop : Shop) (s : ShopState) (count : ℕ) (source : SubscriptionSource)
    (sub : UserSubscription) : Prop where
  id : sub.id = s.db.nextId
  planId : sub.planId = shop.plan.id
  source : sub.source = source
  cap : 0 < shop.plan.maxPurchasePerUser → (count : ℤ) < shop.plan.maxPurchasePerUser

/-- What a balance purchase costs. -/
def Shop.charge (shop : Shop) : ℤ :=
  (calcSubscriptionBalanceQuota shop.quotaPerUnit shop.plan.priceAmount).getD 0

/-- A commit inserts one subscription. For an order it also makes that order successful, and a balance
purchase adds an order that is. -/
inductive CommitMove (shop : Shop) (s : ShopState) (count : ℕ) (db : OrderDb) :
    OrderOp → Option SubscriptionOrder → UserSubscription → Prop
  | complete {order row : SubscriptionOrder} {sub : UserSubscription}
      {tradeNo payload provider method : String} (hsub : NewSub shop s count .order sub)
      (horders : db.orders = Table.save SubscriptionOrder.tradeNo row s.db.orders)
      (hkey : row.tradeNo = order.tradeNo) (hstatus : row.status = .success)
      (hquota : db.quota = s.db.quota) (hmade : db.made = s.db.made ++ [(tradeNo, sub.id)]) :
      CommitMove shop s count db (.complete tradeNo payload provider method) (some order) sub
  | adminBind {sub : UserSubscription} (hsub : NewSub shop s count .admin sub)
      (horders : db.orders = s.db.orders) (hquota : db.quota = s.db.quota)
      (hmade : db.made = s.db.made) :
      CommitMove shop s count db .adminBind none sub
  | balance {row : SubscriptionOrder} {sub : UserSubscription} {tradeNo : String}
      (hsub : NewSub shop s count .balance sub) (hnew : s.db.findOrder tradeNo = none)
      (horders : db.orders = s.db.orders ++ [row]) (hkey : row.tradeNo = tradeNo)
      (hstatus : row.status = .success) (hquota : db.quota = s.db.quota - shop.charge)
      (hmade : db.made = s.db.made ++ [(tradeNo, sub.id)]) :
      CommitMove shop s count db (.balance tradeNo) none sub

section Commit

variable {shop : Shop} {s : ShopState} {count : ℕ} {op : OrderOp} {order : Option SubscriptionOrder}
  {db : OrderDb}

theorem newSub_of_create {source : SubscriptionSource} {sub : UserSubscription} {group : String}
    (h : createUserSubscriptionFromPlanTx shop.cal s.clock count s.db.nextId shop.userId s.db.group
      shop.plan source = .ok (sub, group)) : NewSub shop s count source sub := by
  unfold createUserSubscriptionFromPlanTx at h
  split_ifs at h with hplan huser hcap
  cases he : calcPlanEndTime shop.cal s.clock shop.plan with
  | error e => rw [he] at h; cases h
  | ok endUnix =>
    rw [he] at h
    cases h
    refine ⟨rfl, rfl, rfl, fun hpos => ?_⟩
    by_contra hge
    exact hcap ⟨hpos, by omega⟩

theorem commit_move (h : s.commit shop op order count = some db) :
    ∃ sub, CommitMove shop s count db op order sub ∧ db.subs = s.db.subs ++ [sub] ∧ db.nextId = s.db.nextId + 1 := by
  unfold ShopState.commit at h
  dsimp only at h
  split at h
  · rename_i tradeNo payload provider method o
    split at h
    · cases h
    · rename_i sub group hcreate
      split at h
      · cases h
      · cases h
        exact ⟨sub, .complete (newSub_of_create hcreate) rfl rfl rfl rfl rfl, rfl, rfl⟩
  · split at h
    · cases h
    · rename_i sub group hcreate
      cases h
      exact ⟨sub, .adminBind (newSub_of_create hcreate) rfl rfl rfl, rfl, rfl⟩
  · split at h
    · rename_i sub group required hcreate hreq
      split at h
      · cases h
      · rename_i hnew
        cases h
        refine ⟨sub, .balance (newSub_of_create hcreate) hnew rfl rfl rfl ?_ rfl, rfl, rfl⟩
        rw [Shop.charge, hreq]
        rfl
    · cases h
  · cases h

end Commit

/-! ## Locks -/

/-- A locked order is read as it is and is pending, and no row is locked twice. -/
structure Locked (s : ShopState) : Prop where
  order : ∀ c ∈ s.calls, ∀ o, c.stage.order = some o →
    s.db.findOrder o.tradeNo = some o ∧ o.status = .pending ∧ c.op.orderNo = some o.tradeNo
  orders : Exclusive Call.tradeNo s.calls
  users : Exclusive Call.holdsUser s.calls

variable {tradeNo : String} {shop : Shop} {s s' : ShopState} {a : ShopAction}

theorem not_tradeNo_of_free {s : ShopState} (h : s.orderFree tradeNo = true) {c : Call} (hc : c ∈ s.calls) :
    c.tradeNo ≠ some tradeNo := by
  unfold ShopState.orderFree at h
  rw [List.all_eq_true] at h
  simpa using h c hc

theorem not_holdsUser_of_free {s : ShopState} (h : s.userFree = true) {c : Call}
    (hc : c ∈ s.calls) : c.holdsUser ≠ some () := by
  unfold ShopState.userFree at h
  rw [List.all_eq_true] at h
  simpa using h c hc

/-- A row that is there is found as before when a new one is added behind it. -/
theorem findOrder_append {orders : List SubscriptionOrder} {o : SubscriptionOrder} (row : SubscriptionOrder)
    (h : Table.find SubscriptionOrder.tradeNo tradeNo orders = some o) :
    Table.find SubscriptionOrder.tradeNo tradeNo (orders ++ [row]) = some o := by
  unfold Table.find at h ⊢
  rw [List.find?_append, h]
  rfl

namespace Locked

variable {shop : Shop} {s : ShopState} {i : ℕ} {c : Call}

theorem start (group : String) (quota clock : ℤ) : Locked (ShopState.start group quota clock) :=
  ⟨fun _ hc => absurd hc List.not_mem_nil, exclusive_nil, exclusive_nil⟩

theorem of_orders (h : Locked s) {s' : ShopState} (hcalls : s'.calls = s.calls)
    (horders : ∀ tradeNo o, s.db.findOrder tradeNo = some o → s'.db.findOrder tradeNo = some o) : Locked s' := by
  refine ⟨fun c hc o ho => ?_, hcalls ▸ h.orders, hcalls ▸ h.users⟩
  obtain ⟨hfind, hrest⟩ := h.order c (hcalls ▸ hc) o ho
  exact ⟨horders _ _ hfind, hrest⟩

theorem begin (h : Locked s) (op : OrderOp) : Locked { s with calls := s.calls ++ [⟨op, .begun⟩] } := by
  refine ⟨fun c hc o ho => ?_, h.orders.append rfl, h.users.append rfl⟩
  rcases List.mem_append.mp hc with hold | hnew
  · exact h.order c hold o ho
  · rw [List.mem_singleton.mp hnew] at ho
    cases ho

theorem stage (h : Locked s) (hc : s.calls[i]? = some c) {stage : Stage}
    (hmove : StageMove shop s c stage) : Locked (s.setStage i c stage) := by
  have hmem : c ∈ s.calls := List.mem_of_getElem? hc
  have hlocked : ∀ o, stage.order = some o →
      s.db.findOrder o.tradeNo = some o ∧ o.status = .pending ∧ c.op.orderNo = some o.tradeNo := by
    intro o ho
    rcases hmove.order o ho with hheld | ⟨hfind, hpend, -, hop⟩
    · exact h.order c hmem o hheld
    · exact ⟨hfind, hpend, hop⟩
  refine ⟨fun d hd o ho => ?_, h.orders.set hc fun key hkey => ?_, h.users.set hc fun key hkey => ?_⟩
  · rcases List.mem_or_eq_of_mem_set hd with hold | rfl
    · exact h.order d hold o ho
    · exact hlocked o ho
  · obtain ⟨o, ho, rfl⟩ := Option.map_eq_some_iff.mp hkey
    rcases hmove.order o ho with hheld | ⟨-, -, hfree, -⟩
    · left
      rw [Call.tradeNo, hheld]
      rfl
    · right
      exact fun z hz => not_tradeNo_of_free hfree hz
  · rcases hmove.user hkey with hheld | hfree
    · exact .inl hheld
    · exact .inr fun z hz => not_holdsUser_of_free hfree hz

/-- A call that ends writes its own order, which no other call holds. -/
theorem save (h : Locked s) (shop : Shop) (hc : s.calls[i]? = some c) {o row : SubscriptionOrder}
    (ho : c.stage.order = some o) (hkey : row.tradeNo = o.tradeNo) {s' : ShopState}
    (hcalls : s'.calls = s.calls.set i { c with stage := .done })
    (horders : s'.db.orders = Table.save SubscriptionOrder.tradeNo row s.db.orders) : Locked s' := by
  have hdone : Locked (s.setStage i c .done) := h.stage hc (.done : StageMove shop s c .done)
  refine ⟨fun d hd q hq => ?_, hcalls ▸ hdone.orders, hcalls ▸ hdone.users⟩
  rw [hcalls] at hd
  obtain ⟨j, hj⟩ := List.mem_iff_getElem?.mp hd
  rcases getElem?_set_cases hc hj with ⟨-, rfl⟩ | ⟨hne, hold⟩
  · cases hq
  · obtain ⟨hfind, hrest⟩ := h.order d (List.mem_of_getElem? hold) q hq
    refine ⟨?_, hrest⟩
    have hother : q.tradeNo ≠ row.tradeNo := by
      intro he
      refine hne (h.orders j i d c q.tradeNo hold hc ?_ ?_)
      · rw [Call.tradeNo, hq]; rfl
      · rw [Call.tradeNo, ho, he, hkey]; rfl
    rw [OrderDb.findOrder, horders, Table.find_save_ne _ hother]
    exact hfind

end Locked

theorem Locked.step (h : Locked s) (hmove : ShopMove shop s a s') : Locked s' := by
  cases hmove with
  | stay => exact h
  | tick seconds => exact h.of_orders rfl fun _ _ hfind => hfind
  | checkout hnew hpend => exact h.of_orders rfl fun _ _ hfind => findOrder_append _ hfind
  | credit amount hfree => exact h.of_orders rfl fun _ _ hfind => hfind
  | begin op => exact h.begin op
  | @fail i cached c hc => exact h.stage hc (.done : StageMove shop s c .done)
  | stage hc hstage => exact h.stage hc hstage
  | @expire i cached c order hc hstage =>
    have horder : c.stage.order = some order := by rw [hstage]; rfl
    refine h.save shop hc horder ?_ rfl rfl
    rfl
  | @commit i cached c order count db hc hstage hcommit =>
    have hdone : Locked (s.setStage i c .done) := h.stage hc (.done : StageMove shop s c .done)
    have horder : c.stage.order = order := by rw [hstage]; rfl
    obtain ⟨sub, hwrite, -, -⟩ := commit_move hcommit
    generalize c.op = op at hwrite
    cases hwrite with
    | complete hsub horders hkey hstatus hquota hmade => exact h.save shop hc horder hkey rfl horders
    | adminBind hsub horders hquota hmade =>
      refine hdone.of_orders rfl fun tradeNo o hfind => ?_
      rw [OrderDb.findOrder, horders]
      exact hfind
    | balance hsub hnew horders hkey hstatus hquota hmade =>
      refine hdone.of_orders rfl fun tradeNo o hfind => ?_
      rw [OrderDb.findOrder, horders]
      exact findOrder_append _ hfind

/-! ## Accounting -/

/-- The pairs of `made` are the successful orders, each with its own subscription, and the wallet paid
for the subscriptions bought with balance. -/
structure Booked (shop : Shop) (quota credited : ℤ) (db : OrderDb) : Prop where
  tradeNos : (db.orders.map SubscriptionOrder.tradeNo).Nodup
  ids : (db.subs.map UserSubscription.id).Nodup
  nextId : ∀ r ∈ db.subs, r.id < db.nextId
  onePerOrder : (db.made.map Prod.fst).Nodup
  successful : ∀ tradeNo, tradeNo ∈ db.made.map Prod.fst ↔
    ∃ o ∈ db.orders, o.tradeNo = tradeNo ∧ o.status = .success
  bought : db.made.map Prod.snd =
    (db.subs.filter fun r => r.source ≠ .admin).map UserSubscription.id
  wallet : db.quota = quota + credited -
    shop.charge * (db.subs.countP fun r => r.source = .balance : ℕ)

/-- A status stays, or leaves pending for good. -/
def OrderStatus.Moves (old new : OrderStatus) : Prop :=
  new = old ∨ (old = .pending ∧ (new = .success ∨ new = .expired))

/-- Every order is still there, with a status that only left pending. -/
def StatusesMove (db db' : OrderDb) : Prop :=
  ∀ o ∈ db.orders, ∃ o' ∈ db'.orders, o'.tradeNo = o.tradeNo ∧ o.status.Moves o'.status

theorem statusesMove_of_subset {db db' : OrderDb} (h : db.orders ⊆ db'.orders) : StatusesMove db db' :=
  fun o ho => ⟨o, h ho, rfl, .inl rfl⟩

theorem findOrder_none {db : OrderDb} :
    db.findOrder tradeNo = none ↔ tradeNo ∉ db.orders.map SubscriptionOrder.tradeNo := by
  unfold OrderDb.findOrder Table.find
  rw [List.find?_eq_none]
  simp

theorem nodup_append_singleton {α : Type*} {l : List α} {x : α} (hl : l.Nodup) (hx : x ∉ l) : (l ++ [x]).Nodup := by
  rw [← List.concat_eq_append]
  exact hl.concat hx

namespace Booked

variable {shop : Shop} {quota credited : ℤ} {db : OrderDb}

theorem start (group : String) : Booked shop quota 0 { quota, group } where
  tradeNos := List.nodup_nil
  ids := List.nodup_nil
  nextId := fun _ hr => absurd hr List.not_mem_nil
  onePerOrder := List.nodup_nil
  successful := by simp
  bought := rfl
  wallet := by simp

theorem checkout (h : Booked shop quota credited db) {order : SubscriptionOrder}
    (hnew : db.findOrder order.tradeNo = none) (hpend : order.status = .pending) :
    Booked shop quota credited { db with orders := db.orders ++ [order] } where
  tradeNos := by
    rw [List.map_append, List.map_singleton]
    exact nodup_append_singleton h.tradeNos (findOrder_none.mp hnew)
  ids := h.ids
  nextId := h.nextId
  onePerOrder := h.onePerOrder
  successful := by
    intro tradeNo
    rw [h.successful]
    simp [or_and_right, exists_or, hpend]
  bought := h.bought
  wallet := h.wallet

theorem credit (h : Booked shop quota credited db) (amount : ℤ) :
    Booked shop quota (credited + amount) { db with quota := db.quota + amount } where
  tradeNos := h.tradeNos
  ids := h.ids
  nextId := h.nextId
  onePerOrder := h.onePerOrder
  successful := h.successful
  bought := h.bought
  wallet := by
    have hwallet := h.wallet
    dsimp only
    omega

theorem eq_of_tradeNo (h : Booked shop quota credited db) {o o' : SubscriptionOrder}
    (ho : o ∈ db.orders) (ho' : o' ∈ db.orders) (he : o'.tradeNo = o.tradeNo) : o' = o :=
  List.inj_on_of_nodup_map h.tradeNos ho' ho he

variable {order row : SubscriptionOrder}

theorem successful_save (h : Booked shop quota credited db) (hmem : order ∈ db.orders)
    (hpend : order.status = .pending) (hkey : row.tradeNo = order.tradeNo) (tradeNo : String) :
    (∃ o ∈ Table.save SubscriptionOrder.tradeNo row db.orders, o.tradeNo = tradeNo ∧ o.status = .success) ↔
      tradeNo ∈ db.made.map Prod.fst ∨ (row.status = .success ∧ tradeNo = order.tradeNo) := by
  rw [h.successful]
  constructor
  · rintro ⟨o, ho, rfl, hs⟩
    rcases Table.mem_save ho with rfl | ⟨hold, -⟩
    · exact .inr ⟨hs, hkey⟩
    · exact .inl ⟨o, hold, rfl, hs⟩
  · rintro (⟨o, ho, rfl, hs⟩ | ⟨hs, rfl⟩)
    · refine ⟨o, List.mem_map.mpr ⟨o, ho, if_neg fun he => ?_⟩, rfl, hs⟩
      rw [h.eq_of_tradeNo hmem ho (he.trans hkey), hpend] at hs
      cases hs
    · exact ⟨row, List.mem_map.mpr ⟨order, hmem, if_pos hkey.symm⟩, hkey, hs⟩

theorem expire (h : Booked shop quota credited db) (hmem : order ∈ db.orders) (hpend : order.status = .pending)
    (hkey : row.tradeNo = order.tradeNo) (hrow : row.status = .expired) :
    Booked shop quota credited (db.saveOrder row) where
  tradeNos := by
    rw [OrderDb.saveOrder, Table.map_key_save]
    exact h.tradeNos
  ids := h.ids
  nextId := h.nextId
  onePerOrder := h.onePerOrder
  successful := by
    intro tradeNo
    refine ((h.successful_save hmem hpend hkey tradeNo).trans ?_).symm
    simp [hrow, OrderDb.saveOrder]
  bought := h.bought
  wallet := h.wallet

variable {sub : UserSubscription}

theorem ids_append (h : Booked shop quota credited db) (hid : sub.id = db.nextId) :
    ((db.subs ++ [sub]).map UserSubscription.id).Nodup := by
  rw [List.map_append, List.map_singleton]
  refine nodup_append_singleton h.ids fun hmem => ?_
  obtain ⟨r, hr, he⟩ := List.mem_map.mp hmem
  have hlt := h.nextId r hr
  omega

theorem lt_append (h : Booked shop quota credited db) (hid : sub.id = db.nextId) :
    ∀ r ∈ db.subs ++ [sub], r.id < db.nextId + 1 := by
  intro r hr
  rcases List.mem_append.mp hr with hold | hnew
  · exact (h.nextId r hold).trans (Nat.lt_succ_self _)
  · rw [List.mem_singleton.mp hnew, hid]
    exact Nat.lt_succ_self _

theorem commit {s : ShopState} {count : ℕ} {op : OrderOp} {order : Option SubscriptionOrder} {db : OrderDb}
    (h : Booked shop quota credited s.db) (hsubs : db.subs = s.db.subs ++ [sub]) (hnext : db.nextId = s.db.nextId + 1)
    (hlocked : ∀ o, order = some o → s.db.findOrder o.tradeNo = some o ∧ o.status = .pending ∧ op.orderNo = some o.tradeNo)
    (hwrite : CommitMove shop s count db op order sub) : Booked shop quota credited db := by
  have hwallet := h.wallet
  cases hwrite with
  | @complete o row _ tradeNo _ _ _ hsub horders hkey hstatus hquota hmade =>
    obtain ⟨hfind, hpend, hop⟩ := hlocked o rfl
    obtain rfl : tradeNo = o.tradeNo := Option.some.inj hop
    have hmem : o ∈ s.db.orders := Table.find_mem hfind
    have hnot : o.tradeNo ∉ s.db.made.map Prod.fst := by
      rw [h.successful]
      rintro ⟨o', ho', he, hs⟩
      rw [h.eq_of_tradeNo hmem ho' he, hpend] at hs
      cases hs
    refine
      { tradeNos := ?_
        ids := hsubs ▸ h.ids_append hsub.id
        nextId := hsubs ▸ hnext ▸ h.lt_append hsub.id
        onePerOrder := ?_
        successful := fun t => ?_
        bought := ?_
        wallet := ?_ }
    · rw [horders, Table.map_key_save]; exact h.tradeNos
    · rw [hmade, List.map_append]; exact nodup_append_singleton h.onePerOrder hnot
    · rw [horders, h.successful_save hmem hpend hkey, hmade]
      simp [hstatus]
    · rw [hmade, hsubs]
      simp [h.bought, hsub.source]
    · rw [hquota, hsubs]
      simpa [hsub.source] using hwallet
  | adminBind hsub horders hquota hmade =>
    refine
      { tradeNos := horders ▸ h.tradeNos
        ids := hsubs ▸ h.ids_append hsub.id
        nextId := hsubs ▸ hnext ▸ h.lt_append hsub.id
        onePerOrder := hmade ▸ h.onePerOrder
        successful := ?_
        bought := ?_
        wallet := ?_ }
    · rw [horders, hmade]; exact h.successful
    · rw [hmade, hsubs]
      simp [h.bought, hsub.source]
    · rw [hquota, hsubs]
      simpa [hsub.source] using hwallet
  | @balance row _ tradeNo hsub hnew horders hkey hstatus hquota hmade =>
    have hfresh : tradeNo ∉ s.db.orders.map SubscriptionOrder.tradeNo := findOrder_none.mp hnew
    have hnot : tradeNo ∉ s.db.made.map Prod.fst := by
      rw [h.successful]
      rintro ⟨o', ho', he, -⟩
      exact hfresh (List.mem_map.mpr ⟨o', ho', he⟩)
    refine
      { tradeNos := ?_
        ids := hsubs ▸ h.ids_append hsub.id
        nextId := hsubs ▸ hnext ▸ h.lt_append hsub.id
        onePerOrder := ?_
        successful := fun t => ?_
        bought := ?_
        wallet := ?_ }
    · rw [horders, List.map_append, List.map_singleton, hkey]
      exact nodup_append_singleton h.tradeNos hfresh
    · rw [hmade, List.map_append]; exact nodup_append_singleton h.onePerOrder hnot
    · rw [horders, hmade, List.map_append, List.mem_append, h.successful]
      simp [or_and_right, exists_or, hstatus, hkey, eq_comm]
    · rw [hmade, hsubs]
      simp [h.bought, hsub.source]
    · rw [hquota, hsubs, hwallet]
      simp [hsub.source, Int.mul_add]
      omega

end Booked

theorem Booked.step {quota : ℤ} (hlock : Locked s) (h : Booked shop quota s.credited s.db)
    (hmove : ShopMove shop s a s') : Booked shop quota s'.credited s'.db := by
  cases hmove with
  | stay => exact h
  | tick seconds => exact h
  | checkout hnew hpend => exact h.checkout hnew hpend
  | credit amount hfree => exact h.credit amount
  | begin op | fail hc | stage hc hstage => exact h
  | @expire i cached c order hc hstage =>
    have horder : c.stage.order = some order := by rw [hstage]; rfl
    obtain ⟨hfind, hpend, -⟩ := hlock.order c (List.mem_of_getElem? hc) order horder
    refine h.expire (Table.find_mem hfind) hpend ?_ ?_ <;> rfl
  | @commit i cached c order count db hc hstage hcommit =>
    obtain ⟨sub, hwrite, hsubs, hnext⟩ := commit_move hcommit
    refine h.commit hsubs hnext (fun o ho => ?_) hwrite
    exact hlock.order c (List.mem_of_getElem? hc) o (by rw [hstage]; exact ho)

theorem statusesMove_save {db db' : OrderDb} (hnodup : (db.orders.map SubscriptionOrder.tradeNo).Nodup)
    {order row : SubscriptionOrder} (hfind : db.findOrder order.tradeNo = some order)
    (hpend : order.status = .pending) (hkey : row.tradeNo = order.tradeNo)
    (hrow : row.status = .success ∨ row.status = .expired)
    (horders : db'.orders = Table.save SubscriptionOrder.tradeNo row db.orders) : StatusesMove db db' := by
  intro o ho
  rw [horders]
  by_cases he : o.tradeNo = row.tradeNo
  · have hsame : o = order := List.inj_on_of_nodup_map hnodup ho (Table.find_mem hfind) (he.trans hkey)
    refine ⟨row, List.mem_map.mpr ⟨o, ho, if_pos he⟩, he.symm, .inr ⟨?_, hrow⟩⟩
    rw [hsame]; exact hpend
  · exact ⟨o, List.mem_map.mpr ⟨o, ho, if_neg he⟩, rfl, .inl rfl⟩

theorem statuses_move {quota : ℤ} (hlock : Locked s) (h : Booked shop quota s.credited s.db)
    (hmove : ShopMove shop s a s') : StatusesMove s.db s'.db := by
  cases hmove with
  | stay => exact statusesMove_of_subset (List.Subset.refl _)
  | tick seconds => exact statusesMove_of_subset (List.Subset.refl _)
  | checkout hnew hpend => exact statusesMove_of_subset (List.subset_append_left _ _)
  | credit amount hfree | begin op | fail hc | stage hc hstage => exact statusesMove_of_subset (List.Subset.refl _)
  | @expire i cached c order hc hstage =>
    have horder : c.stage.order = some order := by rw [hstage]; rfl
    obtain ⟨hfind, hpend, -⟩ := hlock.order c (List.mem_of_getElem? hc) order horder
    refine statusesMove_save h.tradeNos hfind hpend ?_ (.inr ?_) rfl <;> rfl
  | @commit i cached c order count db hc hstage hcommit =>
    have horder : c.stage.order = order := by rw [hstage]; rfl
    obtain ⟨sub, hwrite, -, -⟩ := commit_move hcommit
    generalize c.op = op at hwrite
    cases hwrite with
    | complete hsub horders hkey hstatus hquota hmade =>
      obtain ⟨hfind, hpend, -⟩ := hlock.order c (List.mem_of_getElem? hc) _ horder
      exact statusesMove_save h.tradeNos hfind hpend hkey (.inl hstatus) horders
    | adminBind hsub horders hquota hmade =>
      refine statusesMove_of_subset ?_
      rw [horders]; exact List.Subset.refl _
    | balance hsub hnew horders hkey hstatus hquota hmade =>
      refine statusesMove_of_subset ?_
      rw [horders]; exact List.subset_append_left _ _

/-! ## The cap -/

/-- A purchase that counts on a snapshot does not see room that is gone. -/
def CountsCurrent (shop : Shop) (s : ShopState) : ShopAction → Prop
  | .proceed i false _ =>
    match (s.calls[i]?).map Call.stage with
    | some (.userLocked _ (some snapshot)) =>
      (countByPlan shop snapshot : ℤ) < shop.plan.maxPurchasePerUser →
        (countByPlan shop s.db.subs : ℤ) < shop.plan.maxPurchasePerUser
    | _ => True
  | _ => True

instance (shop : Shop) (s : ShopState) : (a : ShopAction) → Decidable (CountsCurrent shop s a)
  | .proceed i false _ => by unfold CountsCurrent; dsimp only; split <;> infer_instance
  | .proceed _ true _ | .tick _ | .checkout _ _ _ | .credit _ | .begin _ => .isTrue trivial

/-- The cap, and the room that a call has counted is there. -/
structure Capped (shop : Shop) (s : ShopState) : Prop where
  count : 0 < shop.plan.maxPurchasePerUser →
    (countByPlan shop s.db.subs : ℤ) ≤ shop.plan.maxPurchasePerUser
  room : ∀ c ∈ s.calls, ∀ order n, c.stage = .counted order n →
    (n : ℤ) < shop.plan.maxPurchasePerUser →
      (countByPlan shop s.db.subs : ℤ) < shop.plan.maxPurchasePerUser

namespace Capped

variable {shop : Shop} {s s' : ShopState}

theorem start (group : String) (quota clock : ℤ) : Capped shop (ShopState.start group quota clock) :=
  ⟨fun hpos => hpos.le, fun _ hc => absurd hc List.not_mem_nil⟩

theorem of_subs (h : Capped shop s) (hcalls : s'.calls = s.calls) (hsubs : s'.db.subs = s.db.subs) :
    Capped shop s' := by
  refine ⟨?_, ?_⟩
  · rw [hsubs]; exact h.count
  · rw [hcalls, hsubs]; exact h.room

theorem set (h : Capped shop s) {i : ℕ} {c : Call} (hcalls : s'.calls = s.calls.set i c)
    (hsubs : s'.db.subs = s.db.subs)
    (hroom : ∀ order n, c.stage = .counted order n → (n : ℤ) < shop.plan.maxPurchasePerUser →
      (countByPlan shop s.db.subs : ℤ) < shop.plan.maxPurchasePerUser) : Capped shop s' := by
  refine ⟨?_, fun d hd order n hst hn => ?_⟩
  · rw [hsubs]; exact h.count
  · rw [hsubs]
    rw [hcalls] at hd
    rcases List.mem_or_eq_of_mem_set hd with hold | rfl
    · exact h.room d hold order n hst hn
    · exact hroom order n hst hn

theorem step {a : ShopAction} (h : Capped shop s) (hlock : Locked s) (hcur : CountsCurrent shop s a)
    (hmove : ShopMove shop s a s') : Capped shop s' := by
  cases hmove with
  | stay => exact h
  | tick seconds | checkout hnew hpend | credit amount hfree => exact h.of_subs rfl rfl
  | begin op =>
    refine ⟨h.count, fun c hc order n hst hn => ?_⟩
    rcases List.mem_append.mp hc with hold | hnew
    · exact h.room c hold order n hst hn
    · rw [List.mem_singleton.mp hnew] at hst
      cases hst
  | fail hc => exact h.set rfl rfl nofun
  | @stage i cached c stage hc hstage =>
    refine h.set rfl rfl fun order n hst hn => ?_
    obtain ⟨snapshot, hfrom, hcount⟩ := hstage.count order n hst
    -- the count is of the rows as they are, or of the snapshot
    cases snapshot with
    | none => rw [hcount] at hn; exact hn
    | some snapshot =>
      unfold CountsCurrent at hcur
      simp only [hc, Option.map_some, hfrom] at hcur
      rw [hcount] at hn
      exact hcur hn
  | expire hc hstage => exact h.set rfl rfl nofun
  | @commit i cached c order count db hc hstage hcommit =>
    obtain ⟨sub, hwrite, hsubs, -⟩ := commit_move hcommit
    have hcap : 0 < shop.plan.maxPurchasePerUser → (count : ℤ) < shop.plan.maxPurchasePerUser := by
      generalize c.op = op at hwrite
      cases hwrite with
      | complete hsub | adminBind hsub | balance hsub => exact hsub.cap
    have hone : countByPlan shop db.subs ≤ countByPlan shop s.db.subs + 1 := by
      unfold countByPlan
      rw [hsubs, List.countP_append]
      have := List.countP_le_length (p := fun r => decide (r.planId = shop.plan.id)) (l := [sub])
      simpa using this
    refine ⟨fun hpos => ?_, fun d hd order' n hst hn => ?_⟩
    · have hroom := h.room c (List.mem_of_getElem? hc) order count hstage (hcap hpos)
      dsimp only
      omega
    · -- nobody else holds the row of the user
      obtain ⟨j, hj⟩ := List.mem_iff_getElem?.mp hd
      rcases getElem?_set_cases hc hj with ⟨-, rfl⟩ | ⟨hne, hold⟩
      · cases hst
      · refine absurd (hlock.users j i d c () hold hc ?_ ?_) hne
        · rw [Call.holdsUser, hst]; rfl
        · rw [Call.holdsUser, hstage]; rfl

end Capped

/-! ## Runs -/

/-- In every run, each order leaves pending at most once, the successful orders and the bought
subscriptions match one to one, and the wallet pays once for each balance purchase. The cap holds when
no purchase counts on a snapshot that shows room that is gone. -/
theorem orders_booked_and_capped (shop : Shop) (group : String) (quota clock : ℤ)
    {as : List ShopAction}
    (h : Along (shopStep shop) (CountsCurrent shop) (.start group quota clock) as) :
    Along (shopStep shop) (fun s a => StatusesMove s.db (shopStep shop s a).db)
        (.start group quota clock) as ∧
      Booked shop quota (run (shopStep shop) (.start group quota clock) as).credited
        (run (shopStep shop) (.start group quota clock) as).db ∧
      (0 < shop.plan.maxPurchasePerUser →
        (countByPlan shop (run (shopStep shop) (.start group quota clock) as).db.subs : ℤ) ≤
          shop.plan.maxPurchasePerUser) := by
  have hinit : Locked (.start group quota clock) ∧
      Booked shop quota (ShopState.start group quota clock).credited
        (ShopState.start group quota clock).db ∧ Capped shop (.start group quota clock) :=
    ⟨Locked.start group quota clock, Booked.start group, Capped.start group quota clock⟩
  have hstep : ∀ s a, (Locked s ∧ Booked shop quota s.credited s.db ∧ Capped shop s) →
      CountsCurrent shop s a →
      Locked (shopStep shop s a) ∧ Booked shop quota (shopStep shop s a).credited
        (shopStep shop s a).db ∧ Capped shop (shopStep shop s a) := by
    rintro s a ⟨hlock, hbook, hcap⟩ hcur
    have hmove := shopStep_move shop s a
    exact ⟨hlock.step hmove, hbook.step hlock hmove, hcap.step hlock hcur hmove⟩
  obtain ⟨-, hbook, hcap⟩ := run_invariant_along hstep hinit h
  refine ⟨along_of_invariant_along hstep ?_ hinit h, hbook, hcap.count⟩
  rintro s a ⟨hlock, hbook, -⟩ -
  exact statuses_move hlock hbook (shopStep_move shop s a)

/-- A free plan that may be bought once, on a database with the default isolation of InnoDB. -/
def oncePlan (repeatableRead : Bool) : Shop where
  cal := thirtyDays
  userId := 7
  plan := { id := 1, durationUnit := .day, durationValue := 30, maxPurchasePerUser := 1 }
  quotaPerUnit := ⟨500000, 0⟩
  repeatableRead := repeatableRead

/-- A paid order with its callback twice, and a balance purchase after it. -/
def paidOnce : List ShopAction :=
  [.checkout "A" "alipay" "epay", .begin (.complete "A" "" "epay" ""),
    .begin (.complete "A" "" "epay" ""), .proceed 0 false true, .proceed 1 false true,
    .proceed 0 false true, .proceed 0 false true, .proceed 0 false true, .proceed 1 false true,
    .begin (.balance "B"), .proceed 2 false false, .proceed 2 false true, .proceed 2 false true,
    .proceed 2 false true]

theorem orders_booked_and_capped_paid_once :
    (run (shopStep (oncePlan true)) (.start "default" 100 0) paidOnce).db.made = [("A", 1)] ∧
      (countByPlan (oncePlan true)
        (run (shopStep (oncePlan true)) (.start "default" 100 0) paidOnce).db.subs : ℤ) ≤ 1 := by
  have h : Along (shopStep (oncePlan true)) (CountsCurrent (oncePlan true)) (.start "default" 100 0)
      paidOnce := by decide
  exact ⟨by decide,
    (orders_booked_and_capped (oncePlan true) "default" 100 0 h).2.2 (by decide)⟩

/-- Two balance purchases read the plan in their transactions before either locks the user. The second
waits for the first and then still counts none. -/
def readBeforeLock : List ShopAction :=
  [.begin (.balance "A"), .begin (.balance "B"), .proceed 0 false false, .proceed 1 false false,
    .proceed 0 false false, .proceed 0 false false, .proceed 0 false false, .proceed 1 false false,
    .proceed 1 false false, .proceed 1 false false]

/-- The cap is one, and the user holds two. -/
theorem second_purchase_over_cap :
    (oncePlan true).plan.maxPurchasePerUser = 1 ∧
      countByPlan (oncePlan true)
        (run (shopStep (oncePlan true)) (.start "default" 100 0) readBeforeLock).db.subs = 2 := by
  decide

end Vancine.Purchase
