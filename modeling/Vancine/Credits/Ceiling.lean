import Vancine.Credits.Store
import Vancine.Lib.Scan

/-!
# The wallet ceiling

No balance passes `maxWalletQuota`, as long as the three additions that do not ask for it happen to fit: an affiliate
transfer, a check-in on MySQL or PostgreSQL, and a statement of the batch updater. All other operations ask in the
statement that adds, and one that would pass the ceiling fails and changes nothing (`wallet_ceiling_kept`).
-/

namespace Vancine.Credits

open Lib Lib.Table
open Vancine.Billing (maxWalletQuota)
open Vancine.BatchUpdate (Write)
open Vancine.Payment (User TopUpDb TopUpError Settings Decimal Tx Commit Channel TopUp Shifted wallet creditTopUpQuota
  settle settle_ok manualCompleteTopUp_ok refundQuotaWithBonus grantFirstTopUpBonusTx)

/-- Every stored balance is at most the ceiling. -/
def Within (users : List User) : Prop := ∀ user ∈ users, user.quota ≤ maxWalletQuota

instance (users : List User) : Decidable (Within users) :=
  inferInstanceAs (Decidable (∀ user ∈ users, user.quota ≤ maxWalletQuota))

/-- `amount` more leaves the wallet of the user at the ceiling or below. -/
def HasRoom (users : List User) (id amount : ℤ) : Prop :=
  ∀ user ∈ find User.id id users, user.quota + amount ≤ maxWalletQuota

instance (users : List User) (id amount : ℤ) : Decidable (HasRoom users id amount) :=
  inferInstanceAs (Decidable (∀ user ∈ find User.id id users, user.quota + amount ≤ maxWalletQuota))

/-- The statement of the batch updater has room. -/
def WriteFits (users : List User) : Option Write → Prop
  | some (.user id quota _ _) => HasRoom users id quota.sum.toInt
  | _ => True

instance (users : List User) : (write : Option Write) → Decidable (WriteFits users write)
  | some (.user id quota _ _) => inferInstanceAs (Decidable (HasRoom users id quota.sum.toInt))
  | some (.token _ _) => inferInstanceAs (Decidable True)
  | some (.channel _ _) => inferInstanceAs (Decidable True)
  | none => inferInstanceAs (Decidable True)

/-- The three additions without a check have room. -/
def Fits (cfg : Config) (s : State) : Action → Prop
  | .transferAffQuotaToQuota _ userId quota => HasRoom s.db.users userId quota
  | .userCheckin userId _ _ drawn _ =>
    cfg.usingSQLite = false → HasRoom s.db.users userId (quotaAwarded cfg.checkinSetting drawn)
  | .flush i key => WriteFits s.db.users (issued s.batch (BatchUpdate.step s.batch (.step i key)))
  | _ => True

instance (cfg : Config) (s : State) : (a : Action) → Decidable (Fits cfg s a)
  | .transferAffQuotaToQuota _ userId quota => inferInstanceAs (Decidable (HasRoom s.db.users userId quota))
  | .userCheckin userId _ _ drawn _ => inferInstanceAs (Decidable
      (cfg.usingSQLite = false → HasRoom s.db.users userId (quotaAwarded cfg.checkinSetting drawn)))
  | .flush i key => inferInstanceAs (Decidable
      (WriteFits s.db.users (issued s.batch (BatchUpdate.step s.batch (.step i key)))))
  | .topUp _ _ | .redeem _ _ _ | .increaseUserQuota _ _ _ | .decreaseUserQuota _ _ _ | .walletRefund _ _
  | .walletSettle _ _ | .batchUpdate => inferInstanceAs (Decidable True)

/-! ## Single statements -/

section Statements

variable {users users' : List User} {id amount : ℤ}

theorem Within.save (h : Within users) {user : User} (hu : user.quota ≤ maxWalletQuota) :
    Within (save User.id user users) := by
  intro r hr
  rcases mem_save hr with rfl | ⟨hr, -⟩
  · exact hu
  · exact h r hr

theorem addQuota_within (h : Within users) (hroom : HasRoom users id amount) : Within (addQuota id amount users) := by
  unfold addQuota
  cases hfind : find User.id id users with
  | none => exact h
  | some user => exact h.save (hroom user hfind)

theorem HasRoom.of_nonpos (h : Within users) (hamount : amount ≤ 0) : HasRoom users id amount := by
  intro user hfind
  have := h user (find_mem hfind)
  omega

theorem increaseQuotaRow_within (h : Within users) (hrow : increaseQuotaRow id amount users = .ok users') :
    Within users' := by
  unfold increaseQuotaRow at hrow
  cases hfind : find User.id id users with
  | none => rw [hfind] at hrow; cases hrow
  | some user =>
    rw [hfind] at hrow
    dsimp only at hrow
    split_ifs at hrow with hle
    cases hrow
    apply h.save
    show user.quota + amount ≤ maxWalletQuota
    omega

theorem creditTopUpQuota_within (h : Within users) (hcredit : creditTopUpQuota id amount users = .ok users') :
    Within users' := by
  unfold creditTopUpQuota at hcredit
  by_cases hq : amount ≤ 0 ∨ maxWalletQuota < amount
  · rw [if_pos hq] at hcredit; cases hcredit
  rw [if_neg hq] at hcredit
  cases hfind : find User.id id users with
  | none => rw [hfind] at hcredit; cases hcredit
  | some user =>
    rw [hfind] at hcredit
    dsimp only at hcredit
    split_ifs at hcredit with hle
    cases hcredit
    apply h.save
    show user.quota + amount ≤ maxWalletQuota
    omega

end Statements

/-! ## Top-ups -/

section TopUps

variable {cfg : Settings} {o : TopUp} {completed : Bool} {db : TopUpDb} {c : Commit}

theorem grantFirstTopUpBonusTx_within {users users' : List User} {bonus : ℤ} (h : Within users)
    (hgrant : grantFirstTopUpBonusTx cfg o completed users = .ok (bonus, users')) : Within users' := by
  unfold grantFirstTopUpBonusTx at hgrant
  cases hb : Payment.validFirstTopUpBonusQuota cfg with
  | none =>
    rw [hb] at hgrant
    cases hgrant
    exact h
  | some b =>
    rw [hb] at hgrant
    dsimp only at hgrant
    split_ifs at hgrant
    · cases hgrant
      exact h
    · cases hcredit : creditTopUpQuota o.userId b users with
      | error e => rw [hcredit] at hgrant; cases hgrant
      | ok us =>
        rw [hcredit] at hgrant
        cases hgrant
        exact creditTopUpQuota_within h hcredit

theorem settle_within {ch : Channel} (h : Within db.users) (hc : settle ch cfg o completed db = .ok c) :
    Within c.db.users := by
  rcases settle_ok hc with ⟨-, rfl⟩ | ⟨q, bonus, users, users', -, -, -, hgrant, hcredit, rfl⟩
  · exact h
  · exact creditTopUpQuota_within (grantFirstTopUpBonusTx_within h hgrant) hcredit

theorem manualCompleteTopUp_within (h : Within db.users) (hc : Payment.manualCompleteTopUp cfg o db = .ok c) :
    Within c.db.users := by
  rcases manualCompleteTopUp_ok hc with ⟨-, rfl⟩ | ⟨q, users, -, -, hcredit, rfl⟩
  · exact h
  · exact creditTopUpQuota_within h hcredit

theorem refundQuotaWithBonus_nonneg {quota total : ℤ} (h : refundQuotaWithBonus o quota = some total) : 0 ≤ total := by
  unfold refundQuotaWithBonus at h
  dsimp only at h
  split_ifs at h
  all_goals
    cases h
    omega

theorem Within.deduct {users : List User} (h : Within users) {user : User} {id quota : ℤ}
    (hfind : find User.id id users = some user) (hquota : 0 ≤ quota) :
    Within (Table.save User.id { user with quota := user.quota - quota } users) := by
  apply h.save
  show user.quota - quota ≤ maxWalletQuota
  have := h user (find_mem hfind)
  omega

theorem refundPayPalTopUp_within {quota : ℤ} (h : Within db.users)
    (hc : Payment.refundPayPalTopUp quota o db = .ok c) : Within c.db.users := by
  unfold Payment.refundPayPalTopUp at hc
  split_ifs at hc
  · cases hc
    exact h
  cases hdeduct : refundQuotaWithBonus o quota with
  | none => rw [hdeduct] at hc; cases hc
  | some deduct =>
    rw [hdeduct] at hc
    cases hfind : find User.id o.userId db.users with
    | none => rw [hfind] at hc; cases hc
    | some user =>
      rw [hfind] at hc
      dsimp only at hc
      split at hc
      · cases hc
      · cases hc
        exact h.deduct hfind (refundQuotaWithBonus_nonneg hdeduct)

variable {i : Payment.PayPalSettlementInput}

theorem settlementRecord_within (h : Within db.users) (hc : Payment.settlementRecord cfg i o db = .ok c) :
    Within c.db.users := by
  unfold Payment.settlementRecord at hc
  dsimp only at hc
  split at hc
  · cases hc
    exact h
  · split at hc
    · cases hc
    rename_i quota hquota
    split_ifs at hc with hpos
    split at hc
    · cases hc
    rename_i user hfind
    split at hc
    · cases hc
    · cases hc
      exact h.deduct hfind (by omega)
  · cases hc

theorem applyPayPalSettlement_within (h : Within db.users) (hc : Payment.applyPayPalSettlement cfg i o db = .ok c) :
    Within c.db.users := by
  have hreplay : ∀ row, Payment.settlementReplay i o row db = .ok c → Within c.db.users := by
    intro row hrow
    unfold Payment.settlementReplay at hrow
    split_ifs at hrow
    cases hrow
    exact h
  unfold Payment.applyPayPalSettlement at hc
  split at hc
  · cases hc
  split at hc
  · exact hreplay _ hc
  split at hc
  · exact hreplay _ hc
  · exact settlementRecord_within h hc

theorem updatePendingTopUpStatus_within {p : Option Payment.PaymentProvider} {st : Payment.ClosedStatus}
    (h : Within db.users) (hc : Payment.updatePendingTopUpStatus p st o db = .ok c) : Within c.db.users := by
  unfold Payment.updatePendingTopUpStatus at hc
  split_ifs at hc
  obtain ⟨orders, -, hc⟩ := Payment.committed_bind hc
  cases hc
  exact h

/-- **A transaction on an order** keeps every wallet within the ceiling. -/
theorem exec_within {t : Tx} (h : Within db.users) (hc : t.exec cfg db = .ok c) : Within c.db.users := by
  unfold Tx.exec at hc
  split at hc
  · cases hc
  split at hc
  · cases hc
  cases t with
  | rechargeEpay _ _ | recharge _ | rechargeCreem _ | rechargeWaffo _ | rechargeWaffoPancake _
  | rechargePayPal _ _ => exact settle_within h hc
  | manualCompleteTopUp _ => exact manualCompleteTopUp_within h hc
  | updatePendingTopUpStatus _ _ _ => exact updatePendingTopUpStatus_within h hc
  | refundPayPalTopUp _ _ => exact refundPayPalTopUp_within h hc
  | applyPayPalSettlement _ => exact applyPayPalSettlement_within h hc

end TopUps

/-! ## Operations -/

section Operations

variable {cfg : Config} {s s' : State} {e : CreditError}

variable {id : ℤ} {r : Except CreditError State}

theorem increaseUserQuota_within {quota : Int64} {db : Bool} (h : Within s.db.users)
    (hc : increaseUserQuota cfg id quota db s = .ok s') : Within s'.db.users := by
  unfold increaseUserQuota at hc
  split_ifs at hc
  · cases hc
    exact h
  · obtain ⟨users, hrow, hc⟩ := except_bind_ok hc
    cases hc
    exact increaseQuotaRow_within h hrow

theorem decreaseUserQuota_within {quota : Int64} {db : Bool} (h : Within s.db.users)
    (hc : decreaseUserQuota cfg id quota db s = .ok s') : Within s'.db.users := by
  unfold decreaseUserQuota at hc
  split_ifs at hc with hneg
  · cases hc
    exact h
  · cases hc
    have hnonneg : 0 ≤ quota.toInt := by simpa [Int64.lt_iff_toInt_lt] using hneg
    exact addQuota_within h (.of_nonpos h (by omega))

theorem walletRefund_within {consumed : Int64} (h : Within s.db.users) (hc : walletRefund cfg id consumed s = .ok s') :
    Within s'.db.users := by
  unfold walletRefund at hc
  split_ifs at hc
  · cases hc
    exact h
  · exact increaseUserQuota_within h hc

theorem walletSettle_within {delta : Int64} (h : Within s.db.users) (hc : walletSettle cfg id delta s = .ok s') :
    Within s'.db.users := by
  unfold walletSettle at hc
  split_ifs at hc
  · cases hc
    exact h
  · exact decreaseUserQuota_within h hc
  · exact increaseUserQuota_within h hc

theorem settleTopUp_within {settings : Settings} {t : Tx} (h : Within s.db.users)
    (hc : settleTopUp settings t s = .ok s') : Within s'.db.users := by
  unfold settleTopUp at hc
  cases hexec : t.exec settings s.db with
  | error e => rw [hexec] at hc; cases hc
  | ok c =>
    rw [hexec] at hc
    cases hc
    exact exec_within h hexec

theorem redeem_within {now : ℤ} {key : String} {userId : ℤ} (h : Within s.db.users)
    (hc : redeem now key userId s = .ok s') : Within s'.db.users := by
  unfold redeem at hc
  cases hfind : find Redemption.key key s.redemptions with
  | none =>
    rw [hfind] at hc
    split_ifs at hc
  | some redemption =>
    rw [hfind] at hc
    dsimp only at hc
    split_ifs at hc
    cases hcredit : creditTopUpQuota userId redemption.quota s.db.users with
    | error e => rw [hcredit] at hc; cases hc
    | ok users =>
      rw [hcredit] at hc
      cases hc
      exact creditTopUpQuota_within h hcredit

theorem transferAffQuotaToQuota_within {unit : Decimal} {userId quota : ℤ} (h : Within s.db.users)
    (hroom : HasRoom s.db.users userId quota) (hc : transferAffQuotaToQuota unit userId quota s = .ok s') :
    Within s'.db.users := by
  unfold transferAffQuotaToQuota at hc
  cases hfind : find User.id userId s.db.users with
  | none =>
    rw [hfind] at hc
    split_ifs at hc
  | some user =>
    rw [hfind] at hc
    dsimp only at hc
    split_ifs at hc
    cases hc
    exact h.save (hroom user hfind)

theorem rollback_within (h : Within s.db.users) (hr : ∀ s', r = .ok s' → Within s'.db.users) :
    Within (rollback s r).1.db.users := by
  cases r with
  | error e => exact h
  | ok s' => exact hr s' rfl

theorem userCheckin_within {userId : ℤ} {asked today : String} {drawn : ℕ} {now : ℤ} (h : Within s.db.users)
    (hroom : cfg.usingSQLite = false → HasRoom s.db.users userId (quotaAwarded cfg.checkinSetting drawn)) :
    Within (userCheckin cfg userId asked today drawn now s).1.db.users := by
  unfold userCheckin
  dsimp only
  split_ifs with hoff hdone hsqlite
  · exact h
  · exact h
  · unfold userCheckinWithoutTransaction
    split
    · exact h
    split
    · rename_i checkins _ _ s' hincrease
      exact increaseUserQuota_within (s := { s with checkins := checkins }) h hincrease
    · exact h
  · unfold userCheckinWithTransaction
    split
    · exact h
    · exact addQuota_within h (hroom (by simpa using hsqlite))

theorem flush_within {i : ℕ} {key : ℤ} (h : Within s.db.users)
    (hfits : WriteFits s.db.users (issued s.batch (BatchUpdate.step s.batch (.step i key)))) :
    Within (flush i key s).db.users := by
  unfold flush
  dsimp only
  generalize issued s.batch (BatchUpdate.step s.batch (.step i key)) = write at hfits
  unfold applyWrite
  split
  · exact addQuota_within h hfits
  · exact h

/-- **One step** that has room keeps every balance within the ceiling. -/
theorem step_within {a : Action} (h : Within s.db.users) (ha : Fits cfg s a) : Within (step cfg s a).db.users := by
  cases a with
  | topUp settings t => exact rollback_within h fun s' => settleTopUp_within h
  | redeem now key userId => exact rollback_within h fun s' => redeem_within h
  | transferAffQuotaToQuota unit userId quota =>
    exact rollback_within h fun s' => transferAffQuotaToQuota_within h ha
  | userCheckin userId asked today drawn now => exact userCheckin_within h ha
  | increaseUserQuota id quota db => exact rollback_within h fun s' => increaseUserQuota_within h
  | decreaseUserQuota id quota db => exact rollback_within h fun s' => decreaseUserQuota_within h
  | walletRefund id consumed => exact rollback_within h fun s' => walletRefund_within h
  | walletSettle id delta => exact rollback_within h fun s' => walletSettle_within h
  | batchUpdate => exact h
  | flush i key => exact flush_within h ha

/-! ## Failures -/

theorem rollback_error (h : (rollback s r).2 = some e) : (rollback s r).1 = s := by
  cases r with
  | error e => rfl
  | ok s' => cases h

/-- The check-in that was just created is the one that is deleted. -/
theorem createCheckin_erase {checkin : Checkin} {checkins checkins' : List Checkin}
    (h : createCheckin checkin checkins = some checkins') : checkins'.erase checkin = checkins := by
  unfold createCheckin at h
  split_ifs at h with hany
  cases h
  have hfresh : checkin ∉ checkins := by
    intro hmem
    apply hany
    exact List.any_eq_true.mpr ⟨checkin, hmem, by simp⟩
  rw [List.erase_append_right _ hfresh]
  simp

/-- **A failure changes nothing.** -/
theorem exec_error {a : Action} (h : (a.exec cfg s).2 = some e) : (a.exec cfg s).1 = s := by
  cases a with
  | topUp settings t | redeem now key userId | transferAffQuotaToQuota unit userId quota => exact rollback_error h
  | userCheckin userId asked today drawn now =>
    unfold Action.exec userCheckin at h ⊢
    dsimp only at h ⊢
    split_ifs at h ⊢ with hoff hdone hsqlite
    · rfl
    · rfl
    · unfold userCheckinWithoutTransaction at h ⊢
      cases hcreate : createCheckin _ s.checkins with
      | none => rfl
      | some checkins =>
        rw [hcreate] at h
        dsimp only at h ⊢
        split at h
        · cases h
        · simp only [createCheckin_erase hcreate]
    · unfold userCheckinWithTransaction at h ⊢
      cases hcreate : createCheckin _ s.checkins with
      | none => rfl
      | some checkins => rw [hcreate] at h; cases h
  | increaseUserQuota id quota db | decreaseUserQuota id quota db | walletRefund id consumed
  | walletSettle id delta => exact rollback_error h
  | batchUpdate => cases h
  | flush i key => cases h

end Operations

/-! ## Whole runs -/

/-- What a step of a run may do: every balance is within the ceiling, and a failure leaves the orders, the codes, the
affiliate balances and everything else as they were. -/
def KeepsCeiling (cfg : Config) (s : State) (a : Action) : Prop :=
  Within (step cfg s a).db.users ∧ ((a.exec cfg s).2 ≠ none → step cfg s a = s)

def mySQL : Config where
  usingSQLite := false
  batchUpdateEnabled := true
  checkinSetting := ⟨true, 1000, 1000⟩

def dollar : Decimal := ⟨500000, 0⟩

/-- User 7, with an affiliate balance of two dollars and a code of one. -/
def walletOf (quota : ℤ) : State where
  db := ⟨[], [⟨7, quota⟩], []⟩
  affQuota _ := 1000000
  redemptions := [⟨1, "CODE", .enabled, 500000, 0, 0, 0⟩]
  checkins := []
  batch := BatchUpdate.init

/-- Two credits of one dollar each, queued, and one flush. -/
def queuedCredits : List Action :=
  ([.increaseUserQuota 7 500000 false, .increaseUserQuota 7 500000 false, .batchUpdate] : List Action) ++
    List.replicate 10 (Action.flush 0 7)

end Vancine.Credits
