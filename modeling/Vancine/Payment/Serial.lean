import Vancine.Payment.Refund

/-!
# Top-ups one transaction at a time

What the payment system is for: a set of orders and wallets and a log of what was credited and refunded,
changed by one whole transaction after another. `Vancine.Payment.Locks` shows that transactions which
interleave under row locks do no more than this.

Every step is nothing or an `Effect` on the current row of one order, and the facts of this file are about
one such effect: the status machine, the credit that comes with a success, the balance of the log, and
the first top-up history.
-/

namespace Vancine.Payment

open Lib Lib.Table
open Vancine.Subscription (isBlank)

/-! ## Transactions -/

/-- The calls that lock an order. -/
inductive Tx
  | rechargeEpay (tradeNo actualPaymentMethod : String)
  | recharge (referenceId : String)
  | rechargeCreem (referenceId : String)
  | rechargeWaffo (tradeNo : String)
  | rechargeWaffoPancake (tradeNo : String)
  | rechargePayPal (tradeNo transactionId : String)
  | manualCompleteTopUp (tradeNo : String)
  | updatePendingTopUpStatus (tradeNo : String) (expectedPaymentProvider : Option PaymentProvider)
      (targetStatus : ClosedStatus)
  | refundPayPalTopUp (tradeNo : String) (quota : ℤ)
  | applyPayPalSettlement (input : PayPalSettlementInput)

namespace Tx

def tradeNo : Tx → String
  | .rechargeEpay tradeNo _ => tradeNo
  | .recharge referenceId => referenceId
  | .rechargeCreem referenceId => referenceId
  | .rechargeWaffo tradeNo => tradeNo
  | .rechargeWaffoPancake tradeNo => tradeNo
  | .rechargePayPal tradeNo _ => tradeNo
  | .manualCompleteTopUp tradeNo => tradeNo
  | .updatePendingTopUpStatus tradeNo _ _ => tradeNo
  | .refundPayPalTopUp tradeNo _ => tradeNo
  | .applyPayPalSettlement input => input.tradeNo

/-- The checks made before the transaction opens. -/
def check (cfg : Settings) : Tx → Except TopUpError Unit
  | .rechargePayPal tradeNo transactionId =>
    if tradeNo = "" then .error .tradeNoEmpty
    else if isBlank transactionId then .error .transactionIdEmpty
    else .ok ()
  | .refundPayPalTopUp _ _ => .ok ()
  | .applyPayPalSettlement input => validateSettlementInput cfg input
  | t => if t.tradeNo = "" then .error .tradeNoEmpty else .ok ()

/-- The transaction, from the locked row of its order on. -/
def body (cfg : Settings) (o : TopUp) (completed : Bool) (db : TopUpDb) :
    Tx → Except TopUpError Commit
  | .rechargeEpay _ method => Payment.rechargeEpay method cfg o completed db
  | .recharge _ => Payment.recharge cfg o completed db
  | .rechargeCreem _ => Payment.rechargeCreem cfg o completed db
  | .rechargeWaffo _ => Payment.rechargeWaffo cfg o completed db
  | .rechargeWaffoPancake _ => Payment.rechargeWaffoPancake cfg o completed db
  | .rechargePayPal _ transactionId => Payment.rechargePayPal transactionId cfg o completed db
  | .manualCompleteTopUp _ => Payment.manualCompleteTopUp cfg o db
  | .updatePendingTopUpStatus _ p st => Payment.updatePendingTopUpStatus p st o db
  | .refundPayPalTopUp _ quota => Payment.refundPayPalTopUp quota o db
  | .applyPayPalSettlement input => Payment.applyPayPalSettlement cfg input o db

/-- One of the six settlements that may grant the first top-up bonus. -/
def isRecharge : Tx → Bool
  | .rechargeEpay _ _ | .recharge _ | .rechargeCreem _ | .rechargeWaffo _
  | .rechargeWaffoPancake _ | .rechargePayPal _ _ => true
  | _ => false

/-- The whole call. -/
def exec (cfg : Settings) (t : Tx) (db : TopUpDb) : Except TopUpError Commit :=
  match t.check cfg with
  | .error e => .error e
  | .ok () =>
    match db.orderByTradeNo t.tradeNo with
    | none => .error .topUpNotFound
    | some o => t.body cfg o (hasCompletedRealTopUp db o.userId o.id) db

variable {cfg : Settings} {o : TopUp} {completed : Bool} {db : TopUpDb} {c : Commit} {t : Tx}

theorem body_effect (h : t.body cfg o completed db = .ok c) : Effect o completed db c := by
  cases t with
  | rechargeEpay _ _ => exact settle_effect (by simp [epay, realTopUpProviders]) h
  | recharge _ | rechargeCreem _ | rechargeWaffo _ | rechargeWaffoPancake _ => exact settle_effect (by decide) h
  | rechargePayPal _ _ => exact settle_effect (by simp [payPal, realTopUpProviders]) h
  | manualCompleteTopUp _ => exact manualCompleteTopUp_effect h
  | updatePendingTopUpStatus _ _ _ => exact updatePendingTopUpStatus_effect h
  | refundPayPalTopUp _ _ => exact refundPayPalTopUp_effect h
  | applyPayPalSettlement _ => exact applyPayPalSettlement_effect h

end Tx

/-! ## Books -/

/-- The database and what was done to the wallets so far. -/
structure Books where
  db : TopUpDb
  log : List WalletEvent

def Books.commit (b : Books) (c : Commit) : Books := ⟨c.db, b.log ++ c.event.toList⟩

inductive SerialAction
  | tx (cfg : Settings) (t : Tx)
  | clean (cutoff : ℤ) (id : ℤ)

def serialStep (b : Books) : SerialAction → Books
  | .tx cfg t =>
    match t.exec cfg b.db with
    | .error _ => b
    | .ok c => b.commit c
  | .clean cutoff id =>
    match b.db.order id with
    | none => b
    | some o => b.commit ⟨cleanExpiredPendingTopUp cutoff o b.db, none⟩

/-- `b'` is `b` after an effect on the current row of an order, with the current history. -/
def Posted (b b' : Books) : Prop :=
  ∃ o c, b.db.order o.id = some o ∧
    Effect o (hasCompletedRealTopUp b.db o.userId o.id) b.db c ∧ b' = b.commit c

/-- **One step** of the books. -/
theorem serialStep_posted {b : Books} (hb : b.db.Valid) (a : SerialAction) :
    serialStep b a = b ∨ Posted b (serialStep b a) := by
  cases a with
  | tx cfg t =>
    unfold serialStep
    dsimp only
    cases he : t.exec cfg b.db with
    | error e => exact .inl rfl
    | ok c =>
      right
      unfold Tx.exec at he
      split at he
      · cases he
      split at he
      · cases he
      rename_i o ho
      exact ⟨o, c, hb.order_of_tradeNo ho, Tx.body_effect he, rfl⟩
  | clean cutoff id =>
    unfold serialStep
    dsimp only
    cases ho : b.db.order id with
    | none => exact .inl rfl
    | some o =>
      have hid : o.id = id := find_key ho
      exact .inr ⟨o, _, hid ▸ ho, cleanExpiredPendingTopUp_effect cutoff, rfl⟩

/-! ## The log -/

/-- The quota an event put into the wallet of `u`. -/
def WalletEvent.creditFor (u : ℤ) : WalletEvent → ℤ
  | .credit _ userId base bonus => if userId = u then base + bonus else 0
  | .refund _ _ _ => 0

/-- The quota an event took from the wallet of `u`. -/
def WalletEvent.refundFor (u : ℤ) : WalletEvent → ℤ
  | .credit _ _ _ _ => 0
  | .refund _ userId amount => if userId = u then amount else 0

def creditTotal (log : List WalletEvent) (u : ℤ) : ℤ := (log.map (WalletEvent.creditFor u)).sum

def refundTotal (log : List WalletEvent) (u : ℤ) : ℤ := (log.map (WalletEvent.refundFor u)).sum

/-- How often the order was credited. -/
def creditCount (log : List WalletEvent) (id : ℤ) : ℕ :=
  log.countP fun
    | .credit orderId _ _ _ => orderId = id
    | .refund _ _ _ => false

/-- How often the user was granted the first top-up bonus. -/
def bonusCount (log : List WalletEvent) (u : ℤ) : ℕ :=
  log.countP fun
    | .credit _ userId _ bonus => userId = u ∧ 0 < bonus
    | .refund _ _ _ => false

/-! ## The row of an order -/

/-- The moves of the status machine. -/
inductive StatusMove : TopUpStatus → TopUpStatus → Prop
  | stay (st : TopUpStatus) : StatusMove st st
  | settle : StatusMove .pending .success
  | fail : StatusMove .pending .failed
  | expire : StatusMove .pending .expired
  | refund : StatusMove .success .refunded

/-- `db'` is `db` with `o'` in place of the row `o`. -/
structure Moved (o : TopUp) (db db' : TopUpDb) (o' : TopUp) : Prop where
  here : db'.order o.id = some o'
  same : o'.SameOrder o
  others : ∀ id, id ≠ o.id → db'.order id = db.order id
  ids : db'.orders.map TopUp.id = db.orders.map TopUp.id
  byTradeNo : ∀ tradeNo r, db.orderByTradeNo tradeNo = some r → r.id ≠ o.id →
    db'.orderByTradeNo tradeNo = some r

section Row

variable {o : TopUp} {completed : Bool} {db : TopUpDb} {c : Commit}

theorem TopUp.SameOrder.refl (o : TopUp) : o.SameOrder o := ⟨rfl, rfl, rfl, rfl, rfl⟩

theorem TopUp.SameOrder.status (o : TopUp) (st : TopUpStatus) :
    ({ o with status := st } : TopUp).SameOrder o := ⟨rfl, rfl, rfl, rfl, rfl⟩

theorem Moved.refl (ho : db.order o.id = some o) (users : List User)
    (ledger : List PayPalSettlementEvent) : Moved o db ⟨db.orders, users, ledger⟩ o :=
  ⟨ho, .refl o, fun _ _ => rfl, rfl, fun _ _ h _ => h⟩

theorem moved_save (hdb : db.Valid) (ho : db.order o.id = some o) {o' : TopUp}
    (hsame : o'.SameOrder o) (users : List User) (ledger : List PayPalSettlementEvent) :
    Moved o db ⟨save TopUp.id o' db.orders, users, ledger⟩ o' := by
  refine ⟨find_save_self ho hsame.id, hsame, ?_, map_key_save _ _, ?_⟩
  · intro id hid
    exact find_save_ne _ (hsame.id ▸ hid)
  · intro tradeNo r hr hne
    have hcol : ∀ x ∈ db.orders,
        (if x.id = o'.id then o' else x).tradeNo = x.tradeNo := by
      intro x hx
      by_cases h : x.id = o'.id
      · have hxo : x = o := List.inj_on_of_nodup_map hdb hx (find_mem ho) (h.trans hsame.id)
        rw [if_pos h, hxo, hsame.tradeNo]
      · rw [if_neg h]
    have hfind : find TopUp.tradeNo tradeNo (save TopUp.id o' db.orders) =
        (find TopUp.tradeNo tradeNo db.orders).map fun x => if x.id = o'.id then o' else x :=
      find_map hcol
    have hr' : find TopUp.tradeNo tradeNo db.orders = some r := hr
    unfold TopUpDb.orderByTradeNo
    rw [hfind, hr', Option.map_some, if_neg (hsame.id ▸ hne)]

/-- **The status machine.** An effect moves its order along one edge and leaves all others alone; it
turns the order from pending to success exactly if it credits. -/
theorem Effect.moved (h : Effect o completed db c) (hdb : db.Valid) (ho : db.order o.id = some o) :
    ∃ o', Moved o db c.db o' ∧ StatusMove o.status o'.status ∧ ∀ id, creditCount c.event.toList id =
        if id = o.id ∧ o.status = .pending ∧ o'.status = .success then 1 else 0 := by
  -- where the row stays, it does not enter success
  have hstay : ∀ id, ¬(id = o.id ∧ o.status = .pending ∧ o.status = .success) := by
    rintro id ⟨-, hp, hs⟩
    rw [hp] at hs; cases hs
  cases h with
  | keep =>
    refine ⟨o, .refl ho _ _, .stay _, fun id => ?_⟩
    rw [if_neg (hstay id)]; rfl
  | close st hst hp =>
    refine ⟨{ o with status := st }, moved_save hdb ho (.status o _) _ _, ?_, fun id => ?_⟩
    · rw [hp]
      rcases hst with rfl | rfl
      · exact .fail
      · exact .expire
    · rw [if_neg]
      · rfl
      · rintro ⟨-, -, hs⟩
        rcases hst with rfl | rfl <;> cases hs
  | credit settled users base bonus hp hs hsame =>
    refine ⟨settled, moved_save hdb ho hsame _ _, ?_, fun id => ?_⟩
    · rw [hp, hs]; exact .settle
    · simp [creditCount, hp, hs, eq_comm]
  | refund amount users ledger hs =>
    refine ⟨{ o with status := .refunded }, moved_save hdb ho (.status o _) _ _, ?_, fun id => ?_⟩
    · rw [hs]; exact .refund
    · simp [creditCount]
  | record ledger =>
    refine ⟨o, .refl ho _ _, .stay _, fun id => ?_⟩
    rw [if_neg (hstay id)]; rfl

theorem Moved.valid {db' : TopUpDb} {o' : TopUp} (h : Moved o db db' o') (hdb : db.Valid) : db'.Valid := by
  unfold TopUpDb.Valid
  rw [h.ids]
  exact hdb

end Row

/-! ## Effects on the log -/

section Log

variable {o : TopUp} {completed : Bool} {db : TopUpDb} {c : Commit}

/-- **Wallets follow the log.** -/
theorem Effect.wallet_eq (h : Effect o completed db c) (u : ℤ) : wallet c.db.users u = (wallet db.users u).map
      (· + (creditTotal c.event.toList u - refundTotal c.event.toList u)) := by
  cases h with
  | credit settled users base bonus _ _ _ _ _ _ hshift =>
    rw [hshift.2 u]
    by_cases hu : u = o.userId
    · rw [if_pos hu]
      simp [creditTotal, refundTotal, WalletEvent.creditFor, WalletEvent.refundFor, hu]
    · rw [if_neg hu]
      simp [creditTotal, refundTotal, WalletEvent.creditFor, WalletEvent.refundFor, Ne.symm hu]
  | refund amount users ledger _ hshift =>
    rw [hshift.2 u]
    by_cases hu : u = o.userId
    · rw [if_pos hu]
      simp [creditTotal, refundTotal, WalletEvent.creditFor, WalletEvent.refundFor, hu]
    · rw [if_neg hu]
      simp [creditTotal, refundTotal, WalletEvent.creditFor, WalletEvent.refundFor, Ne.symm hu]
  | keep | close _ _ _ | record _ => simp [creditTotal, refundTotal]

variable (l l' : List WalletEvent)

@[simp] theorem creditTotal_append (u : ℤ) : creditTotal (l ++ l') u = creditTotal l u + creditTotal l' u := by
  simp [creditTotal]

@[simp] theorem refundTotal_append (u : ℤ) : refundTotal (l ++ l') u = refundTotal l u + refundTotal l' u := by
  simp [refundTotal]

@[simp] theorem creditCount_append (id : ℤ) : creditCount (l ++ l') id = creditCount l id + creditCount l' id := by
  simp [creditCount]

@[simp] theorem bonusCount_append (u : ℤ) : bonusCount (l ++ l') u = bonusCount l u + bonusCount l' u := by
  simp [bonusCount]

/-- A bonus goes to the user of the order, for a real order, and only without history. -/
theorem Effect.bonus_due (h : Effect o completed db c) (u : ℤ) : bonusCount c.event.toList u = 0 ∨
      (bonusCount c.event.toList u = 1 ∧ u = o.userId ∧ completed = false ∧
        o.paymentProvider ∈ realTopUpProviders ∧ creditCount c.event.toList o.id = 1) := by
  cases h with
  | credit settled users base bonus hp _ _ _ _ hdue =>
    by_cases hb : o.userId = u ∧ 0 < bonus
    · obtain ⟨hc, hreal⟩ := hdue hb.2
      exact .inr ⟨by simp [bonusCount, hb], hb.1.symm, hc, hreal,
        by simp [creditCount]⟩
    · left
      simp only [bonusCount, Option.toList_some, List.countP_singleton, hb, decide_false]
      rfl
  | keep | close _ _ _ | refund _ _ _ _ _ | record _ => exact .inl rfl

end Log

/-! ## Postings -/

/-- The order takes one move of the status machine, and is credited exactly if the move is from pending
to success. -/
def OrderStep (b b' : Books) (id : ℤ) : Prop :=
  (b.db.status id = none ∧ b'.db.status id = none ∧ creditCount b'.log id = creditCount b.log id) ∨
    ∃ st st', b.db.status id = some st ∧ b'.db.status id = some st' ∧ StatusMove st st' ∧
      creditCount b'.log id =
        creditCount b.log id + if st = .pending ∧ st' = .success then 1 else 0

theorem OrderStep.refl (b : Books) (id : ℤ) : OrderStep b b id := by
  unfold OrderStep
  cases b.db.status id with
  | none => exact .inl ⟨rfl, rfl, rfl⟩
  | some st =>
    have hstay : ¬(st = .pending ∧ st = .success) := by
      rintro ⟨rfl, h⟩
      cases h
    refine .inr ⟨st, st, rfl, rfl, .stay st, ?_⟩
    rw [if_neg hstay, Nat.add_zero]

/-- **One posting and the orders.** -/
theorem Posted.orderStep {b b' : Books} (h : Posted b b') (hb : b.db.Valid) (id : ℤ) : OrderStep b b' id := by
  obtain ⟨o, c, ho, he, rfl⟩ := h
  obtain ⟨o', hm, hmove, hcount⟩ := he.moved hb ho
  have hlog : creditCount (b.commit c).log id =
      creditCount b.log id + creditCount c.event.toList id := creditCount_append _ _ _
  by_cases hid : id = o.id
  · subst hid
    refine .inr ⟨o.status, o'.status, ?_, ?_, hmove, ?_⟩
    · rw [TopUpDb.status, ho, Option.map_some]
    · rw [TopUpDb.status, Books.commit, hm.here, Option.map_some]
    · rw [hlog, hcount]
      simp only [true_and]
  · -- another order: its row and its credits stay
    have hrow : (b.commit c).db.status id = b.db.status id := by
      unfold TopUpDb.status Books.commit
      rw [hm.others id hid]
    have hsame : creditCount (b.commit c).log id = creditCount b.log id := by
      rw [hlog, hcount, if_neg (fun h => hid h.1), Nat.add_zero]
    rcases OrderStep.refl b id with ⟨hn, -, -⟩ | ⟨st, st', hst, hst', hmv, hk⟩
    · exact .inl ⟨hn, hrow.trans hn, hsame⟩
    · exact .inr ⟨st, st', hst, hrow.trans hst', hmv, hsame.trans hk⟩

/-- **One posting and the wallets.** -/
theorem Posted.wallet_eq {b b' : Books} (h : Posted b b') (u : ℤ) : wallet b'.db.users u = (wallet b.db.users u).map
      (· + (creditTotal b'.log u - creditTotal b.log u - (refundTotal b'.log u - refundTotal b.log u))) := by
  obtain ⟨o, c, ho, he, rfl⟩ := h
  rw [Books.commit, he.wallet_eq u, creditTotal_append, refundTotal_append]
  congr 1
  funext q
  omega

/-! ## First top-up history -/

section History

variable {o : TopUp} {completed : Bool} {db : TopUpDb} {c : Commit} {u : ℤ}

theorem hasCompletedRealTopUp_iff (hdb : db.Valid) (e : ℤ) : hasCompletedRealTopUp db u e = true ↔
      ∃ id r, db.order id = some r ∧ r.completedReal u = true ∧ (e ≤ 0 ∨ id ≠ e) := by
  unfold hasCompletedRealTopUp
  rw [List.any_eq_true]
  constructor
  · rintro ⟨r, hr, h⟩
    rw [Bool.and_eq_true, Bool.or_eq_true, decide_eq_true_iff, decide_eq_true_iff] at h
    exact ⟨r.id, r, find_of_mem hdb hr, h.1, h.2⟩
  · rintro ⟨id, r, hr, hreal, he⟩
    obtain rfl : r.id = id := find_key hr
    refine ⟨r, find_mem hr, ?_⟩
    rw [Bool.and_eq_true, Bool.or_eq_true, decide_eq_true_iff, decide_eq_true_iff]
    exact ⟨hreal, he⟩

theorem not_completedReal {r : TopUp} (h : r.status ∉ firstTopUpHistoryStatuses) : r.completedReal u = false := by
  simp [TopUp.completedReal, h]

/-- An order that counts as history still counts after any move of its status. -/
theorem completedReal_of_move {r r' : TopUp} (hsame : r'.SameOrder r)
    (hmove : StatusMove r.status r'.status) (h : r.completedReal u = true) : r'.completedReal u = true := by
  unfold TopUp.completedReal at h ⊢
  rw [decide_eq_true_iff] at h ⊢
  obtain ⟨huser, hst, hprov⟩ := h
  rw [hsame.userId, hsame.amount, hsame.paymentProvider]
  refine ⟨huser, ?_, hprov⟩
  generalize r.status = st at hst hmove
  generalize r'.status = st' at hmove ⊢
  rcases hmove with st | - | - | - | -
  · exact hst
  all_goals revert hst; decide

/-- **A refund restores nothing.** History is never lost. -/
theorem Effect.history_mono (h : Effect o completed db c) (hdb : db.Valid)
    (ho : db.order o.id = some o) (hc : hasCompletedRealTopUp db u 0 = true) :
    hasCompletedRealTopUp c.db u 0 = true := by
  obtain ⟨o', hm, hmove, -⟩ := h.moved hdb ho
  obtain ⟨id, r, hr, hreal, he⟩ := (hasCompletedRealTopUp_iff hdb 0).mp hc
  rw [hasCompletedRealTopUp_iff (hm.valid hdb)]
  by_cases hid : id = o.id
  · subst hid
    obtain rfl : o = r := Option.some.inj (ho.symm.trans hr)
    exact ⟨o.id, o', hm.here, completedReal_of_move hm.same hmove hreal, he⟩
  · exact ⟨id, r, (hm.others id hid).trans hr, hreal, he⟩

/-- An effect without an event, or on the order of another user, keeps the history of a user. -/
theorem Effect.history_eq (h : Effect o completed db c) (hdb : db.Valid)
    (ho : db.order o.id = some o) (hne : c.event = none ∨ o.userId ≠ u) (e : ℤ) :
    hasCompletedRealTopUp c.db u e = hasCompletedRealTopUp db u e := by
  have hrow : ∃ o', Moved o db c.db o' ∧ o'.completedReal u = o.completedReal u := by
    obtain ⟨o', hm, -, -⟩ := h.moved hdb ho
    rcases hne with hnone | huser
    · cases h with
      | keep => exact ⟨o, .refl ho _ _, rfl⟩
      | close st hst hp =>
        refine ⟨_, moved_save hdb ho (.status o st) _ _, ?_⟩
        rw [not_completedReal (r := o) (by rw [hp]; decide), not_completedReal]
        rcases hst with rfl | rfl <;> simp [firstTopUpHistoryStatuses]
      | credit => cases hnone
      | refund => cases hnone
      | record ledger => exact ⟨o, .refl ho _ _, rfl⟩
    · exact ⟨o', hm, by simp [TopUp.completedReal, hm.same.userId, huser]⟩
  obtain ⟨o', hm, hreal⟩ := hrow
  rw [Bool.eq_iff_iff, hasCompletedRealTopUp_iff (hm.valid hdb), hasCompletedRealTopUp_iff hdb]
  constructor
  · rintro ⟨id, r, hr, hcr, he⟩
    by_cases hid : id = o.id
    · subst hid
      obtain rfl : o' = r := Option.some.inj (hm.here.symm.trans hr)
      exact ⟨o.id, o, ho, hreal ▸ hcr, he⟩
    · exact ⟨id, r, (hm.others id hid).symm.trans hr, hcr, he⟩
  · rintro ⟨id, r, hr, hcr, he⟩
    by_cases hid : id = o.id
    · subst hid
      obtain rfl : o = r := Option.some.inj (ho.symm.trans hr)
      exact ⟨o.id, o', hm.here, hreal ▸ hcr, he⟩
    · exact ⟨id, r, (hm.others id hid).trans hr, hcr, he⟩

/-- **The bonus ends the eligibility.** A step that grants a user the bonus finds no history and leaves
one. -/
theorem Effect.bonus_history (h : Effect o (hasCompletedRealTopUp db o.userId o.id) db c)
    (hdb : db.Valid) (ho : db.order o.id = some o) (hb : bonusCount c.event.toList u ≠ 0) :
    bonusCount c.event.toList u = 1 ∧ hasCompletedRealTopUp db u 0 = false ∧ hasCompletedRealTopUp c.db u 0 = true := by
  rcases h.bonus_due u with h0 | ⟨h1, rfl, hcomp, hreal, hcredit⟩
  · exact absurd h0 hb
  obtain ⟨o', hm, -, hcount⟩ := h.moved hdb ho
  rw [hcount o.id] at hcredit
  have hentered : o.id = o.id ∧ o.status = .pending ∧ o'.status = .success := by
    by_contra hn
    rw [if_neg hn] at hcredit
    cases hcredit
  obtain ⟨-, hpending, hsuccess⟩ := hentered
  refine ⟨h1, ?_, ?_⟩
  · -- history without the order itself is all the history: the order is pending
    rw [Bool.eq_false_iff, Ne, hasCompletedRealTopUp_iff hdb] at hcomp ⊢
    rintro ⟨id, r, hr, hcr, -⟩
    refine hcomp ⟨id, r, hr, hcr, .inr ?_⟩
    rintro rfl
    obtain rfl : o = r := Option.some.inj (ho.symm.trans hr)
    rw [not_completedReal (by rw [hpending]; decide)] at hcr
    cases hcr
  · rw [hasCompletedRealTopUp_iff (hm.valid hdb)]
    refine ⟨o.id, o', hm.here, ?_, .inl le_rfl⟩
    unfold TopUp.completedReal
    rw [decide_eq_true_iff, hm.same.userId, hm.same.paymentProvider, hsuccess]
    exact ⟨rfl, by decide, .inl hreal⟩

/-- **One posting and the bonus.** -/
theorem Posted.bonus {b b' : Books} (h : Posted b b') (hb : b.db.Valid) (u : ℤ) :
    (bonusCount b'.log u = bonusCount b.log u ∨
      (bonusCount b'.log u = bonusCount b.log u + 1 ∧ hasCompletedRealTopUp b.db u 0 = false ∧
        hasCompletedRealTopUp b'.db u 0 = true)) ∧
      (hasCompletedRealTopUp b.db u 0 = true → hasCompletedRealTopUp b'.db u 0 = true) := by
  obtain ⟨o, c, ho, he, rfl⟩ := h
  refine ⟨?_, he.history_mono hb ho⟩
  unfold Books.commit
  rw [bonusCount_append]
  by_cases h0 : bonusCount c.event.toList u = 0
  · left; rw [h0]; rfl
  · obtain ⟨h1, hbefore, hafter⟩ := he.bonus_history hb ho h0
    right
    exact ⟨by rw [h1], hbefore, hafter⟩

end History

end Vancine.Payment
