import Vancine.Payment.Refund

/-!
# Sequences of settlement events

Any sequence of `ApplyPayPalSettlement` calls for one order: refunds and reversals, replays under the
same event id or under another one for the same resource, conflicting content, and calls at different
settings. The events before the first one that is applied change nothing; that one deducts the quota and
turns the order to refunded; those after it record their row or change nothing.
-/

namespace Vancine.Payment

open Lib Lib.Table

/-- A call of `ApplyPayPalSettlement`, with the settings it reads. -/
structure SettlementCall where
  cfg : Settings
  input : PayPalSettlementInput

def deductedQuota : Option WalletEvent → ℤ
  | some (.refund _ _ amount) => amount
  | _ => 0

/-- `ApplyPayPalSettlement`: the quota deducted and the database after the commit. -/
def SettlementCall.exec (call : SettlementCall) (db : TopUpDb) : Except TopUpError (ℤ × TopUpDb) :=
  match validateSettlementInput call.cfg call.input with
  | .error e => .error e
  | .ok () =>
    match db.orderByTradeNo call.input.tradeNo with
    | none => .error .settlementNotApplicable
    | some o =>
      match applyPayPalSettlement call.cfg call.input o db with
      | .error e => .error e
      | .ok c => .ok (deductedQuota c.event, c.db)

/-- An error rolls the transaction back. -/
def settlementStep (db : TopUpDb) (call : SettlementCall) : TopUpDb :=
  match call.exec db with
  | .ok (_, db') => db'
  | .error _ => db

def deductedBy (db : TopUpDb) (call : SettlementCall) : ℤ :=
  match call.exec db with
  | .ok (deducted, _) => deducted
  | .error _ => 0

/-- The quota deducted by a sequence of calls. -/
def totalDeducted : TopUpDb → List SettlementCall → ℤ
  | _, [] => 0
  | db, call :: calls => deductedBy db call + totalDeducted (settlementStep db call) calls

/-- The call put its event into the ledger. -/
def Applied (db : TopUpDb) (call : SettlementCall) : Prop :=
  (settlementStep db call).ledger ≠ db.ledger

instance (db : TopUpDb) (call : SettlementCall) : Decidable (Applied db call) :=
  inferInstanceAs (Decidable (_ ≠ _))

/-- The first call of the sequence that is applied, in the state it meets. -/
def firstApplied : TopUpDb → List SettlementCall → Option SettlementCall
  | _, [] => none
  | db, call :: calls =>
    if Applied db call then some call else firstApplied (settlementStep db call) calls

/-- The two unique indexes of the ledger. -/
structure LedgerUnique (ledger : List PayPalSettlementEvent) : Prop where
  eventID : (ledger.map PayPalSettlementEvent.eventID).Nodup
  resourceKey : (ledger.map PayPalSettlementEvent.resourceKey).Nodup

/-! ## One call -/

section Step

variable {db : TopUpDb} {o : TopUp} {call : SettlementCall}

theorem settlementStep_error {e : TopUpError} (h : call.exec db = .error e) : settlementStep db call = db := by
  unfold settlementStep; rw [h]

/-- **One call** for the order `o`. A call that fails counts as a replay: nothing changes. -/
theorem settlementStep_outcome (ho : db.orderByTradeNo call.input.tradeNo = some o) :
    ∃ c, Outcome call.cfg call.input o db c ∧ settlementStep db call = c.db ∧
      deductedBy db call = deductedQuota c.event := by
  unfold settlementStep deductedBy
  cases he : call.exec db with
  | error e => exact ⟨⟨db, none⟩, .replay, rfl, rfl⟩
  | ok r =>
    unfold SettlementCall.exec at he
    split at he
    · cases he
    rw [ho] at he
    dsimp only at he
    split at he
    · cases he
    rename_i c hc
    obtain rfl := Except.ok.inj he
    exact ⟨c, applyPayPalSettlement_outcome hc, rfl, rfl⟩

theorem not_mem_keys {κ : Type} [DecidableEq κ] {k : PayPalSettlementEvent → κ} {key : κ}
    {ledger : List PayPalSettlementEvent} (h : find k key ledger = none) : key ∉ ledger.map k := by
  intro hmem
  obtain ⟨r, hr, rfl⟩ := List.mem_map.mp hmem
  simpa using List.find?_eq_none.mp h r hr

theorem LedgerUnique.append {i : PayPalSettlementInput} {cfg : Settings}
    (h : LedgerUnique db.ledger) (hf : FreshEvent i db) : LedgerUnique (db.ledger ++ [ledgerRow cfg i o]) := by
  have hnodup : ∀ (k : PayPalSettlementEvent → String), (db.ledger.map k).Nodup →
      find k (k (ledgerRow cfg i o)) db.ledger = none →
      ((db.ledger ++ [ledgerRow cfg i o]).map k).Nodup := by
    intro k hk hnone
    rw [List.map_append, List.map_singleton]
    refine List.nodup_append.mpr ⟨hk, List.nodup_singleton _, ?_⟩
    rintro a ha b hb rfl
    obtain rfl := List.mem_singleton.mp hb
    exact not_mem_keys hnone ha
  exact ⟨hnodup _ h.eventID hf.1, hnodup _ h.resourceKey hf.2⟩

theorem ledgerUnique_step (call : SettlementCall) (h : LedgerUnique db.ledger)
    (ho : db.orderByTradeNo call.input.tradeNo = some o) : LedgerUnique (settlementStep db call).ledger := by
  obtain ⟨c, hc, hdb, -⟩ := settlementStep_outcome ho
  rw [hdb]
  rcases hc with - | ⟨-, hf⟩ | ⟨users, -, hf, -⟩
  · exact h
  · exact h.append hf
  · exact h.append hf

end Step

/-! ## The whole sequence -/

section Sequence

variable {db : TopUpDb} {tradeNo : String} {o : TopUp} {calls : List SettlementCall}

/-- **After the refund.** Once the order is refunded, no call deducts. -/
theorem refunded_sequence (ho : db.orderByTradeNo tradeNo = some o) (hs : o.status = .refunded)
    (hu : LedgerUnique db.ledger) (hcalls : ∀ call ∈ calls, call.input.tradeNo = tradeNo) :
    totalDeducted db calls = 0 ∧ (run settlementStep db calls).users = db.users ∧
      LedgerUnique (run settlementStep db calls).ledger := by
  induction calls generalizing db with
  | nil => exact ⟨rfl, rfl, hu⟩
  | cons call calls ih =>
    obtain ⟨hcall, hrest⟩ := List.forall_mem_cons.mp hcalls
    subst hcall
    have hu' := ledgerUnique_step call hu ho
    obtain ⟨c, hc, hdb, hd⟩ := settlementStep_outcome ho
    rw [run_cons, totalDeducted, hd]
    rw [hdb] at hu' ⊢
    rcases hc with - | - | ⟨users, hsucc, -, -⟩
    · obtain ⟨ht, hw, hl⟩ := ih ho hu' hrest
      exact ⟨by rw [ht]; rfl, hw, hl⟩
    · have ho' : TopUpDb.orderByTradeNo
          { db with ledger := db.ledger ++ [ledgerRow call.cfg call.input o] }
          call.input.tradeNo = some o := ho
      obtain ⟨ht, hw, hl⟩ := ih ho' hu' hrest
      exact ⟨by rw [ht]; rfl, hw, hl⟩
    · rw [hs] at hsucc; cases hsucc

/-- The wallets after `amount` was taken from the user of the order. -/
def Deducted (o : TopUp) (amount : ℤ) (users users' : List User) : Prop :=
  ∀ id, wallet users' id =
    if id = o.userId then (wallet users id).map (· - amount) else wallet users id

theorem Deducted.zero (o : TopUp) (users : List User) : Deducted o 0 users users := by
  intro id
  by_cases h : id = o.userId
  · rw [if_pos h]; simp
  · rw [if_neg h]

theorem Shifted.deducted {users users' : List User} {amount : ℤ}
    (h : Shifted users o.userId (-amount) users') : Deducted o amount users users' := by
  intro id
  rw [h.2 id]
  simp only [Int.sub_eq_add_neg]

/-- **Exactly once.** Over every sequence of settlement events for an order that is not yet refunded, the
user pays the refund amount once if some event was applied and nothing otherwise; a failed call changes
nothing; and the ledger keeps both of its keys unique. -/
theorem settlement_deducts_once (db : TopUpDb) (tradeNo : String) (o : TopUp)
    (calls : List SettlementCall) (hdb : db.Valid) (hu : LedgerUnique db.ledger)
    (ho : db.orderByTradeNo tradeNo = some o) (hs : o.status ≠ .refunded)
    (hcalls : ∀ call ∈ calls, call.input.tradeNo = tradeNo) :
    totalDeducted db calls =
        (match firstApplied db calls with
          | some call => refundAmount call.cfg o
          | none => 0) ∧
      Deducted o (totalDeducted db calls) db.users (run settlementStep db calls).users ∧
      Along settlementStep
        (fun db call => ∀ e, call.exec db = .error e → settlementStep db call = db) db calls ∧
      LedgerUnique (run settlementStep db calls).ledger := by
  suffices h : totalDeducted db calls =
        (match firstApplied db calls with
          | some call => refundAmount call.cfg o
          | none => 0) ∧
      Deducted o (totalDeducted db calls) db.users (run settlementStep db calls).users ∧
      LedgerUnique (run settlementStep db calls).ledger from
    ⟨h.1, h.2.1, .of_forall (fun _ _ e he => settlementStep_error he) db calls, h.2.2⟩
  induction calls with
  | nil => exact ⟨rfl, Deducted.zero o _, hu⟩
  | cons call calls ih =>
    obtain ⟨hcall, hrest⟩ := List.forall_mem_cons.mp hcalls
    subst hcall
    have hu' := ledgerUnique_step call hu ho
    obtain ⟨c, hc, hstep, hd⟩ := settlementStep_outcome ho
    rw [run_cons, totalDeducted, firstApplied, hd]
    rcases hc with - | ⟨href, -⟩ | ⟨users, -, -, hshift⟩
    · -- nothing changed, the rest of the sequence starts from the same state
      have hskip : ¬Applied db call := by unfold Applied; rw [hstep]; simp
      rw [if_neg hskip, hstep]
      simpa [deductedQuota] using ih hrest
    · exact absurd href hs
    · have hfirst : Applied db call := by unfold Applied; rw [hstep]; simp
      rw [if_pos hfirst, hstep]
      rw [hstep] at hu'
      have ho' : TopUpDb.orderByTradeNo
          { orders := save TopUp.id { o with status := .refunded } db.orders, users := users,
            ledger := db.ledger ++ [ledgerRow call.cfg call.input o] } call.input.tradeNo =
          some { o with status := .refunded } := find_save_other hdb ho rfl rfl
      obtain ⟨ht, hw, hl⟩ := refunded_sequence ho' rfl hu' hrest
      refine ⟨by rw [ht]; simp [deductedQuota], ?_, hl⟩
      rw [hw, ht]
      simpa [deductedQuota] using hshift.deducted

end Sequence

/-- A captured PayPal order of ten dollars. -/
def capturedOrder (baseQuota bonusQuota : ℤ) : TopUp where
  id := 1
  userId := 7
  amount := 10
  money := ⟨10, 0⟩
  tradeNo := "T1"
  paymentMethod := "paypal"
  paymentProvider := .payPal
  transactionId := some "CAP1"
  createTime := 100
  completeTime := 200
  status := .success
  baseQuota := baseQuota
  bonusQuota := bonusQuota

def capturedDb (baseQuota bonusQuota : ℤ) : TopUpDb where
  orders := [capturedOrder baseQuota bonusQuota]
  users := [⟨7, 6000000⟩]
  ledger := []

def tenDollars : Settings where
  quotaPerUnit := ⟨500000, 0⟩
  quotaForFirstTopUp := 0
  now := 300
  decimalFromString s := if s = "10.00" then some ⟨1000, 2⟩ else none

def settlementEvent (eventID eventType resourceID : String) : SettlementCall where
  cfg := tenDollars
  input :=
    { eventID := eventID, eventType := eventType, resourceID := resourceID, tradeNo := "T1",
      captureID := "CAP1", amount := "10.00", currency := "USD", expectedCurrency := "USD" }

/-- A refund, its replay, the refund under a second event id, and the reversal of the capture. -/
def refundThenReversal : List SettlementCall :=
  [settlementEvent "E1" payPalSettlementRefunded "R1",
    settlementEvent "E1" payPalSettlementRefunded "R1",
    settlementEvent "E2" payPalSettlementRefunded "R1",
    settlementEvent "E3" payPalSettlementReversed "CAP1"]

theorem settlement_deducts_once_replayed :
    (run settlementStep (capturedDb 5000000 250) refundThenReversal).ledger.length = 2 ∧
      totalDeducted (capturedDb 5000000 250) refundThenReversal =
        (match firstApplied (capturedDb 5000000 250) refundThenReversal with
          | some call => refundAmount call.cfg (capturedOrder 5000000 250)
          | none => 0) :=
  ⟨by decide,
    (settlement_deducts_once (capturedDb 5000000 250) "T1" (capturedOrder 5000000 250)
      refundThenReversal (List.nodup_singleton _) ⟨List.nodup_nil, List.nodup_nil⟩ rfl (by decide)
      (by decide)).1⟩

/-- **An order without a record.** Its base quota is 0, and the first event takes ten dollars' worth of
quota at the current `QuotaPerUnit`. -/
theorem unrecorded_order_pays_product :
    Applied (capturedDb 0 0) (settlementEvent "E1" payPalSettlementRefunded "R1") ∧
      totalDeducted (capturedDb 0 0) [settlementEvent "E1" payPalSettlementRefunded "R1"] = 5000000 ∧
      ¬totalDeducted (capturedDb 0 0) [settlementEvent "E1" payPalSettlementRefunded "R1"] =
        (capturedOrder 0 0).baseQuota + (capturedOrder 0 0).bonusQuota := by
  decide

end Vancine.Payment
