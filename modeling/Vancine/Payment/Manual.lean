import Vancine.Payment.Recharge

/-!
# Manual completion against the provider's own settlement

`ManualCompleteTopUp` credits an order that a callback never reached, and ought to leave it as the
callback would have. It never does: it does not record the base quota, so a completed order differs from
a settled one at least there, and for Creem and PayPal the credited amount differs as well. The two agree
exactly on the orders that neither of them can complete (`manual_agrees_iff`).
-/

namespace Vancine.Payment

open Lib Lib.Table
open Vancine.Billing (maxWalletQuota)

/-- The recharge function of a provider, with what its callback brings along. -/
def ownChannel (actualPaymentMethod transactionId : String) : PaymentProvider → Option Channel
  | .epay => some (epay actualPaymentMethod)
  | .stripe => some stripe
  | .creem => some creem
  | .payPal => some (payPal transactionId)
  | .waffo => some waffo
  | .waffoPancake => some waffoPancake
  | .balance => none
  | .unassigned => none

/-! ## Agreement -/

/-- The paid quota a call credited. -/
def baseCredited : Except TopUpError Commit → ℤ
  | .ok ⟨_, some (.credit _ _ base _)⟩ => base
  | _ => 0

/-- The order after the call. -/
def orderAfter (db : TopUpDb) (id : ℤ) : Except TopUpError Commit → Option TopUp
  | .ok c => c.db.order id
  | .error _ => db.order id

/-- The status and the columns that refunds read. -/
def TopUp.refundFields (o : TopUp) : TopUpStatus × ℤ × ℤ := (o.status, o.baseQuota, o.bonusQuota)

/-- Both calls credit the same base quota and leave the order in the same state for a refund. -/
def Agree (cfg : Settings) (ch : Channel) (o : TopUp) (db : TopUpDb) : Prop :=
  let own := settle ch cfg o (hasCompletedRealTopUp db o.userId o.id) db
  let manual := manualCompleteTopUp cfg o db
  baseCredited manual = baseCredited own ∧
    (orderAfter db o.id manual).map TopUp.refundFields =
      (orderAfter db o.id own).map TopUp.refundFields

/-! ## When a call completes the order -/

/-- The wallet exists and has room for the quota. -/
def creditable (users : List User) (userId q : ℤ) : Bool :=
  (wallet users userId).any fun quota => quota ≤ maxWalletQuota - q

def manualCompletable (cfg : Settings) (o : TopUp) (db : TopUpDb) : Bool :=
  (manualQuota cfg o).any fun q => 0 < q ∧ creditable db.users o.userId q

/-- The bonus the settlement would grant. -/
def dueBonus (cfg : Settings) (o : TopUp) (db : TopUpDb) : ℤ :=
  if hasCompletedRealTopUp db o.userId o.id then 0 else (validFirstTopUpBonusQuota cfg).getD 0

/-- No other order has the transaction id. -/
def transactionIdFree (ch : Channel) (o : TopUp) (db : TopUpDb) : Bool :=
  ch.transactionId = none ∨
    ¬db.orders.any fun r => r.id ≠ o.id ∧ r.transactionId = ch.transactionId

def rechargeable (cfg : Settings) (ch : Channel) (o : TopUp) (db : TopUpDb) : Bool :=
  (ch.quota cfg o).any fun q =>
    0 < q ∧ ((validFirstTopUpBonusQuota cfg).isSome → o.id ≠ 0 ∧ 0 < o.userId) ∧
      creditable db.users o.userId (q + dueBonus cfg o db) ∧ transactionIdFree ch o db

section Completes

variable {cfg : Settings} {ch : Channel} {o : TopUp} {db : TopUpDb}

theorem walletQuota_le {d : Decimal} {q : ℤ} (h : walletQuotaFromDecimalStrict d = some q) : q ≤ maxWalletQuota := by
  unfold walletQuotaFromDecimalStrict at h
  dsimp only at h
  split_ifs at h with hr
  rw [← Option.some.inj h]
  exact hr.1

variable {p : PaymentProvider} {userId q : ℤ}

theorem ownChannel_quota_le {m t : String} (hch : ownChannel m t p = some ch) {q : ℤ} (h : ch.quota cfg o = some q) :
    q ≤ maxWalletQuota := by
  cases p <;> simp only [ownChannel, Option.some.injEq, reduceCtorEq] at hch <;> subst hch <;>
    exact walletQuota_le h

theorem ownChannel_provider {m t : String} (hch : ownChannel m t p = some ch) : ch.provider = p := by
  cases p <;> simp only [ownChannel, Option.some.injEq, reduceCtorEq] at hch <;> subst hch <;> rfl

variable {users : List User}

/-- A credit within the domain goes through exactly if the wallet can take it. -/
theorem creditTopUpQuota_ok_iff (hpos : 0 < q) (hle : q ≤ maxWalletQuota) :
    (∃ users', creditTopUpQuota userId q users = .ok users') ↔ creditable users userId q = true := by
  unfold creditTopUpQuota creditable wallet
  rw [if_neg (by omega)]
  cases hu : find User.id userId users with
  | none => simp
  | some u =>
    dsimp only
    by_cases hq : u.quota ≤ maxWalletQuota - q
    · rw [if_pos hq]; simp [hq]
    · rw [if_neg hq]; simp [hq]

theorem creditable_of_shifted {users users' : List User} {userId b : ℤ} (h : Shifted users userId b users') (q : ℤ) :
    creditable users' userId q = creditable users userId (q + b) := by
  unfold creditable
  rw [h.2 userId, if_pos rfl]
  cases wallet users userId with
  | none => rfl
  | some w =>
    simp only [Option.map_some, Option.any_some, decide_eq_decide]
    omega

theorem isSome_of_creditable (h : creditable users userId q = true) : find User.id userId users ≠ none := by
  intro hnone
  unfold creditable wallet at h
  rw [hnone] at h
  cases h

theorem creditable_mono {userId a b : ℤ} (hab : a ≤ b) (h : creditable users userId b = true) :
    creditable users userId a = true := by
  unfold creditable at h ⊢
  cases hw : wallet users userId with
  | none => rw [hw] at h; cases h
  | some w =>
    rw [hw] at h
    simp only [Option.any_some, decide_eq_true_eq] at h ⊢
    omega

theorem credit_unbonused_iff (hpos : 0 < q) (hle : q ≤ maxWalletQuota) :
    (∃ bonus users' users'', (.ok (0, users) : Except TopUpError (ℤ × List User)) =
        .ok (bonus, users') ∧ creditTopUpQuota userId q users' = .ok users'') ↔ creditable users userId q = true := by
  rw [← creditTopUpQuota_ok_iff hpos hle]
  constructor
  · rintro ⟨bonus, users', users'', h, hcredit⟩
    obtain ⟨-, rfl⟩ := Prod.mk.inj (Except.ok.inj h)
    exact ⟨users'', hcredit⟩
  · rintro ⟨users'', hcredit⟩
    exact ⟨0, users, users'', rfl, hcredit⟩

theorem credit_bonused_iff {userId b q : ℤ} (hb : 0 < b) (hbmax : b ≤ maxWalletQuota) (hpos : 0 < q)
    (hle : q ≤ maxWalletQuota) : (∃ users' users'', creditTopUpQuota userId b users = .ok users' ∧
        creditTopUpQuota userId q users' = .ok users'') ↔ creditable users userId (q + b) = true := by
  constructor
  · rintro ⟨users', users'', hbonus, hcredit⟩
    obtain ⟨-, hshift⟩ := creditTopUpQuota_ok hbonus
    rw [← creditable_of_shifted hshift]
    exact (creditTopUpQuota_ok_iff hpos hle).mp ⟨users'', hcredit⟩
  · intro hc
    have hroom : creditable users userId b = true := creditable_mono (by omega) hc
    obtain ⟨users', hbonus⟩ := (creditTopUpQuota_ok_iff hb hbmax).mpr hroom
    obtain ⟨-, hshift⟩ := creditTopUpQuota_ok hbonus
    rw [← creditable_of_shifted hshift] at hc
    obtain ⟨users'', hcredit⟩ := (creditTopUpQuota_ok_iff hpos hle).mpr hc
    exact ⟨users', users'', hbonus, hcredit⟩

theorem validFirstTopUpBonusQuota_bounds {b : ℤ} (h : validFirstTopUpBonusQuota cfg = some b) :
    0 < b ∧ b ≤ maxWalletQuota := by
  unfold validFirstTopUpBonusQuota at h
  split_ifs at h with hr
  exact Option.some.inj h ▸ hr

/-- The bonus and the paid quota go through together exactly if the wallet can take both. -/
theorem grant_credit_ok_iff (cfg : Settings) (o : TopUp) (users : List User) (completed : Bool)
    {q : ℤ} (hpos : 0 < q) (hle : q ≤ maxWalletQuota) :
    (∃ bonus users' users'', grantFirstTopUpBonusTx cfg o completed users = .ok (bonus, users') ∧
        creditTopUpQuota o.userId q users' = .ok users'') ↔
      ((validFirstTopUpBonusQuota cfg).isSome → o.id ≠ 0 ∧ 0 < o.userId) ∧ creditable users o.userId
          (q + if completed then 0 else (validFirstTopUpBonusQuota cfg).getD 0) = true := by
  unfold grantFirstTopUpBonusTx
  cases hb : validFirstTopUpBonusQuota cfg with
  | none =>
    simp only [Option.isSome_none, Bool.false_eq_true, false_implies, true_and, Option.getD_none,
      ite_self, Int.add_zero]
    exact credit_unbonused_iff hpos hle
  | some b =>
    obtain ⟨hb0, hbmax⟩ := validFirstTopUpBonusQuota_bounds hb
    simp only [Option.isSome_some, true_implies, Option.getD_some]
    by_cases hid : o.id = 0 ∨ o.userId ≤ 0
    · rw [if_pos hid]
      apply iff_of_false (by simp)
      rintro ⟨⟨h0, hu⟩, -⟩
      omega
    rw [if_neg hid, and_iff_right (show o.id ≠ 0 ∧ 0 < o.userId by omega)]
    by_cases huser : find User.id o.userId users = none
    · rw [if_pos huser]
      apply iff_of_false (by simp)
      exact fun hc => isSome_of_creditable hc huser
    rw [if_neg huser]
    cases completed with
    | true =>
      simp only [if_true, Int.add_zero]
      exact credit_unbonused_iff hpos hle
    | false =>
      simp only [Bool.false_eq_true, if_false]
      rw [← credit_bonused_iff hb0 hbmax hpos hle]
      constructor
      · rintro ⟨bonus, users', users'', h, hcredit⟩
        cases hc : creditTopUpQuota o.userId b users with
        | error e => rw [hc] at h; cases h
        | ok us =>
          rw [hc] at h
          obtain ⟨-, rfl⟩ := Prod.mk.inj (Except.ok.inj h)
          exact ⟨us, users'', rfl, hcredit⟩
      · rintro ⟨users', users'', hbonus, hcredit⟩
        exact ⟨b, users', users'', by rw [hbonus], hcredit⟩

/-- The settled row can be saved exactly if its transaction id is free. -/
theorem saveTopUp_settled_iff (cfg : Settings) (hnull : o.transactionId = none) (q bonus : ℤ) :
    (∃ orders, saveTopUp { ch.settled cfg q o with bonusQuota := bonus } db.orders = .ok orders) ↔
      transactionIdFree ch o db = true := by
  have htid : (ch.settled cfg q o).transactionId = ch.transactionId := by
    simp [Channel.settled, hnull]
  have hid : (ch.settled cfg q o).id = o.id := rfl
  unfold saveTopUp transactionIdFree
  simp only [htid, hid]
  by_cases h : ch.transactionId ≠ none ∧
      (db.orders.any fun r => r.id ≠ o.id ∧ r.transactionId = ch.transactionId) = true
  · rw [if_pos h]
    apply iff_of_false (by simp)
    rw [decide_eq_true_iff]
    rintro (h0 | hfree)
    · exact h.1 h0
    · exact hfree h.2
  · rw [if_neg h]
    refine iff_of_true ⟨_, rfl⟩ ?_
    rw [decide_eq_true_iff]
    by_contra hn
    push Not at hn
    exact h ⟨hn.1, hn.2⟩

/-- **The provider's settlement** of a pending order goes through exactly if the order is rechargeable. -/
theorem settle_ok_iff (hprov : o.paymentProvider = ch.provider) (hp : o.status = .pending)
    (hnull : o.transactionId = none) (hle : ∀ q, ch.quota cfg o = some q → q ≤ maxWalletQuota) :
    (∃ c, settle ch cfg o (hasCompletedRealTopUp db o.userId o.id) db = .ok c) ↔ rechargeable cfg ch o db = true := by
  unfold settle rechargeable
  rw [if_neg (not_not.mpr hprov), if_neg (not_not.mpr hp)]
  cases hquota : ch.quota cfg o with
  | none => simp
  | some q =>
    dsimp only
    rw [Option.any_some, decide_eq_true_iff]
    by_cases hq : q ≤ 0
    · rw [if_pos hq]
      apply iff_of_false (by simp)
      rintro ⟨hpos, -⟩
      omega
    rw [if_neg hq]
    have hpos : 0 < q := by omega
    have hwallet := grant_credit_ok_iff cfg (ch.settled cfg q o) db.users
      (hasCompletedRealTopUp db o.userId o.id) hpos (hle q hquota)
    constructor
    · rintro ⟨c, h⟩
      obtain ⟨⟨bonus, users⟩, hgrant, h⟩ := committed_bind h
      obtain ⟨orders, hsave, h⟩ := committed_bind h
      obtain ⟨users', hcredit, -⟩ := committed_bind h
      obtain ⟨hids, hroom⟩ := hwallet.mp ⟨bonus, users, users', hgrant, hcredit⟩
      exact ⟨hpos, hids, hroom, (saveTopUp_settled_iff cfg hnull q bonus).mp ⟨orders, hsave⟩⟩
    · rintro ⟨-, hids, hroom, htid⟩
      obtain ⟨bonus, users, users', hgrant, hcredit⟩ := hwallet.mpr ⟨hids, hroom⟩
      obtain ⟨orders, hsave⟩ := (saveTopUp_settled_iff cfg hnull q bonus).mpr htid
      have hcredit' : creditTopUpQuota o.userId q users = .ok users' := hcredit
      exact ⟨_, by simp only [hgrant, hsave, hcredit', bind, Except.bind, pure, Except.pure]; rfl⟩

/-- **Manual completion** of a pending order goes through exactly if the order is completable. -/
theorem manualCompleteTopUp_ok_iff (hp : o.status = .pending) (hnull : o.transactionId = none) :
    (∃ c, manualCompleteTopUp cfg o db = .ok c) ↔ manualCompletable cfg o db = true := by
  have hsave : ∀ t : ℤ, saveTopUp { o with completeTime := t, status := .success } db.orders =
      .ok (save TopUp.id { o with completeTime := t, status := .success } db.orders) := by
    intro t
    simp [saveTopUp, hnull]
  unfold manualCompleteTopUp manualCompletable
  rw [if_neg (by rw [hp]; decide), if_neg (not_not.mpr hp)]
  cases hquota : manualQuota cfg o with
  | none => simp
  | some q =>
    dsimp only
    rw [Option.any_some, decide_eq_true_iff]
    by_cases hq : q ≤ 0
    · rw [if_pos hq]
      apply iff_of_false (by simp)
      rintro ⟨hpos, -⟩
      omega
    rw [if_neg hq]
    have hpos : 0 < q := by omega
    have hle : q ≤ maxWalletQuota := by
      unfold manualQuota at hquota
      split_ifs at hquota
      · exact walletQuota_le hquota
      · exact walletQuota_le hquota
    rw [hsave, ← creditTopUpQuota_ok_iff hpos hle]
    constructor
    · rintro ⟨c, h⟩
      obtain ⟨orders, -, h⟩ := committed_bind h
      obtain ⟨users, hcredit, -⟩ := committed_bind h
      exact ⟨hpos, users, hcredit⟩
    · rintro ⟨-, users, hcredit⟩
      exact ⟨_, by simp only [hcredit, bind, Except.bind, pure, Except.pure]; rfl⟩

end Completes

/-! ## Agreement exactly where nothing happens -/

section Agreement

variable {cfg : Settings} {ch : Channel} {o : TopUp} {db : TopUpDb} {c : Commit}

/-- A completed settlement leaves a success with a positive base quota. -/
theorem refundFields_settle {completed : Bool} (hp : o.status = .pending)
    (ho : db.order o.id = some o) (h : settle ch cfg o completed db = .ok c) :
    ∃ q bonus, 0 < q ∧ (c.db.order o.id).map TopUp.refundFields = some (.success, q, bonus) := by
  rcases settle_ok h with ⟨hne, -⟩ | ⟨q, bonus, users, users', -, -, -, -, hcredit, rfl⟩
  · exact absurd hp hne
  refine ⟨q, bonus, (creditTopUpQuota_ok hcredit).1, ?_⟩
  have hrow : find TopUp.id o.id (save TopUp.id { ch.settled cfg q o with bonusQuota := bonus }
      db.orders) = some { ch.settled cfg q o with bonusQuota := bonus } := find_save_self ho rfl
  unfold TopUpDb.order
  rw [hrow]
  rfl

theorem refundFields_manual (hp : o.status = .pending) (ho : db.order o.id = some o)
    (h : manualCompleteTopUp cfg o db = .ok c) :
    (c.db.order o.id).map TopUp.refundFields = some (.success, o.baseQuota, o.bonusQuota) := by
  rcases manualCompleteTopUp_ok h with ⟨hs, -⟩ | ⟨q, users, -, -, -, rfl⟩
  · rw [hp] at hs; cases hs
  have hrow : find TopUp.id o.id (save TopUp.id
      { o with completeTime := cfg.now, status := .success } db.orders) =
      some { o with completeTime := cfg.now, status := .success } := find_save_self ho rfl
  unfold TopUpDb.order
  rw [hrow]
  rfl

/-- **Manual completion agrees with the provider exactly where neither completes the order.** The order is
pending and, as a pending order has, holds no quota and no transaction id. -/
theorem manual_agrees_iff (cfg : Settings) (actualPaymentMethod transactionId : String) (ch : Channel)
    (o : TopUp) (db : TopUpDb)
    (hch : ownChannel actualPaymentMethod transactionId o.paymentProvider = some ch)
    (ho : db.order o.id = some o) (hp : o.status = .pending) (hbase : o.baseQuota = 0)
    (hnull : o.transactionId = none) :
    Agree cfg ch o db ↔
      manualCompletable cfg o db = false ∧ rechargeable cfg ch o db = false := by
  have hpending : (db.order o.id).map TopUp.refundFields =
      some (.pending, o.baseQuota, o.bonusQuota) := by
    rw [ho, Option.map_some, TopUp.refundFields, hp]
  rw [Bool.eq_false_iff, Bool.eq_false_iff, Ne, Ne, ← manualCompleteTopUp_ok_iff hp hnull,
    ← settle_ok_iff (ownChannel_provider hch).symm hp hnull
      (fun q => ownChannel_quota_le hch)]
  unfold Agree
  dsimp only
  cases hown : settle ch cfg o (hasCompletedRealTopUp db o.userId o.id) db with
  | ok c =>
    -- the settled order has a base quota, which no other path gives it
    refine iff_of_false ?_ (fun h => h.2 ⟨c, rfl⟩)
    rintro ⟨-, hfields⟩
    obtain ⟨q, bonus, hq, hc⟩ := refundFields_settle hp ho hown
    simp only [orderAfter, hc] at hfields
    cases hman : manualCompleteTopUp cfg o db with
    | ok c' =>
      simp only [hman, refundFields_manual hp ho hman, Option.some.injEq, Prod.mk.injEq] at hfields
      omega
    | error e => simp [hman, hpending] at hfields
  | error e =>
    cases hman : manualCompleteTopUp cfg o db with
    | ok c' =>
      refine iff_of_false ?_ (fun h => h.1 ⟨c', rfl⟩)
      rintro ⟨-, hfields⟩
      simp [orderAfter, refundFields_manual hp ho hman, hpending] at hfields
    | error e' => simp [baseCredited, orderAfter]

end Agreement

/-- A pending order over an amount of 500000, with ten dollars paid. -/
def amountOrder (provider : PaymentProvider) : TopUp where
  id := 1
  userId := 7
  amount := 500000
  money := ⟨10, 0⟩
  tradeNo := "T1"
  paymentMethod := ""
  paymentProvider := provider
  transactionId := none
  createTime := 100
  completeTime := 0
  status := .pending
  baseQuota := 0
  bonusQuota := 0

def amountDb (provider : PaymentProvider) : TopUpDb where
  orders := [amountOrder provider]
  users := [⟨7, 0⟩]
  ledger := []

def unitSettings : Settings where
  quotaPerUnit := ⟨500000, 0⟩
  quotaForFirstTopUp := 0
  now := 200
  decimalFromString _ := none

theorem manual_agrees_iff_creem :
    manualCompletable unitSettings (amountOrder .creem) (amountDb .creem) = true ∧
      (Agree unitSettings creem (amountOrder .creem) (amountDb .creem) ↔
        manualCompletable unitSettings (amountOrder .creem) (amountDb .creem) = false ∧
          rechargeable unitSettings creem (amountOrder .creem) (amountDb .creem) = false) :=
  ⟨by decide,
    manual_agrees_iff unitSettings "" "" creem (amountOrder .creem) (amountDb .creem) rfl rfl rfl rfl
      rfl⟩

/-- **Manual completion differs.** A Creem order over 500000 quota is credited 500000 times as much by
hand, a PayPal order by its amount and not by its money, and a Waffo order as much but without a record of
it. -/
theorem manual_credit_differs :
    baseCredited (rechargeCreem unitSettings (amountOrder .creem) false (amountDb .creem)) = 500000 ∧
      baseCredited (manualCompleteTopUp unitSettings (amountOrder .creem) (amountDb .creem)) =
        250000000000 ∧
      baseCredited (rechargePayPal "CAP1" unitSettings (amountOrder .payPal) false
        (amountDb .payPal)) = 5000000 ∧
      baseCredited (manualCompleteTopUp unitSettings (amountOrder .payPal) (amountDb .payPal)) =
        250000000000 ∧
      (orderAfter (amountDb .waffo) 1
        (rechargeWaffo unitSettings (amountOrder .waffo) false (amountDb .waffo))).map
          TopUp.refundFields = some (.success, 250000000000, 0) ∧
      (orderAfter (amountDb .waffo) 1
        (manualCompleteTopUp unitSettings (amountOrder .waffo) (amountDb .waffo))).map
          TopUp.refundFields = some (.success, 0, 0) := by
  decide

end Vancine.Payment
