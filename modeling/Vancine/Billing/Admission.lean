import Vancine.Billing.Ledger
import Vancine.Lib.Text

/-!
# The admission of a request

`NewBillingSession` funds a session from the wallet or from a subscription, in the order of the user's billing
preference. When the first source is too small it falls back to the other one. Whether it is too small is read off
the text of the error, which for an error of the database is any text.
-/

namespace Vancine.Billing

open Lib Vancine.Subscription

/-! ## Preferences -/

inductive BillingPreference
  | subscriptionFirst
  | walletFirst
  | subscriptionOnly
  | walletOnly

def normalizeBillingPreference (pref : String) : BillingPreference :=
  match trimSpace pref with
  | "wallet_first" => .walletFirst
  | "subscription_only" => .subscriptionOnly
  | "wallet_only" => .walletOnly
  | _ => .subscriptionFirst

/-! ## Error codes -/

inductive ErrorCode
  | insufficientUserQuota
  | preConsumeTokenQuotaFailed
  | queryDataError
  | updateDataError

/-- What the steps of an admission meet. -/
structure AdmissionEnv where
  /-- What `GetUserQuota` returns, from the cache or the database; none when it fails. -/
  userQuota : Option ℤ
  hasSubFails : Bool := false
  overflowFails : Bool := false
  wallet : PreConsumeFaults := {}
  subscription : PreConsumeFaults := {}
  /-- The text of an error of the database. -/
  databaseText : String := "database error"
  /-- The rows with `allow_wallet_overflow = false`. -/
  disallowsOverflow : UserSubscription → Bool := fun _ => false

/-- The text of an error of a subscription. -/
def subscriptionErrorText (env : AdmissionEnv) : SubscriptionError → String
  | .invalidUserId => "invalid userId"
  | .requestIdEmpty => "requestId is empty"
  | .amountNotPositive => "amount must be > 0"
  | .alreadyRefunded => "subscription pre-consume already refunded"
  | .noActiveSubscription => "no active subscription"
  | .quotaInsufficient need => "subscription quota insufficient, need=" ++ toString need
  | .invalidUserSubscriptionId => "invalid userSubscriptionId"
  | .usedExceedsTotal used total =>
    "subscription used exceeds total, used=" ++ toString used ++ " total=" ++ toString total
  | .invalidPlanId => "invalid plan id"
  | .recordNotFound => "record not found"
  | .noSubscriptionOfPlan => "该用户没有有效的此套餐订阅"
  | .database => env.databaseText

/-- `strings.Contains`. -/
def contains (text sub : String) : Bool := decide (sub.toList <:+: text.toList)

/-- The code of an error of the funding step. -/
def fundingErrorCode (env : AdmissionEnv) (error : BillingError) : ErrorCode :=
  let coded (text : String) : ErrorCode :=
    if contains text "no active subscription" || contains text "subscription quota insufficient" then
      .insufficientUserQuota
    else .updateDataError
  match error with
  | .insufficientWalletQuota => .insufficientUserQuota
  | .subscription e => coded (subscriptionErrorText env e)
  | .database => coded env.databaseText
  | .negativeQuota | .walletQuotaExceeded | .tokenQuotaNotEnough => .updateDataError

/-- The token step of a pre-consume fails. -/
def BillingState.tokenStepFails (srv : Server) (f : PreConsumeFaults) (quota : ℤ) (s : BillingState) : Bool :=
  !s.session.shouldTrust srv.cfg && decide (0 < quota) &&
    !(preConsumeTokenQuota srv.cfg s.session.relayInfo f.token quota s.account).toBool

/-- `session.preConsume`, with the code of its error. -/
def BillingState.preConsumeCoded (srv : Server) (env : AdmissionEnv) (f : PreConsumeFaults) (quota : ℤ) (s : BillingState) :
    Account × Except ErrorCode BillingSession :=
  match s.preConsume srv f quota with
  | (s', none) => (s'.account, .ok s'.session)
  | (s', some error) =>
    (s'.account, .error <|
      if s.tokenStepFails srv f quota then .preConsumeTokenQuotaFailed else fundingErrorCode env error)

/-! ## Admission -/

def tryWallet (srv : Server) (env : AdmissionEnv) (info : RelayInfo) (quota : ℤ) (acc : Account) :
    Account × Except ErrorCode BillingSession :=
  match env.userQuota with
  | none => (acc, .error .queryDataError)
  | some userQuota =>
    if userQuota ≤ 0 then (acc, .error .insufficientUserQuota)
    else if userQuota - quota < 0 then (acc, .error .insufficientUserQuota)
    else (newSession { info with userQuota } (.wallet 0) acc).preConsumeCoded srv env env.wallet quota

def trySubscription (srv : Server) (env : AdmissionEnv) (info : RelayInfo) (quota : ℤ) (acc : Account) :
    Account × Except ErrorCode BillingSession :=
  let subConsume := if quota ≤ 0 then 1 else quota
  let funding : SubscriptionFunding := { requestId := info.requestId, userId := info.userId, amount := subConsume }
  (newSession info (.subscription funding) acc).preConsumeCoded srv env env.subscription subConsume

/-- None for an error. -/
def hasActiveUserSubscription (srv : Server) (env : AdmissionEnv) (userId : ℤ) (acc : Account) : Option Bool :=
  if userId ≤ 0 then none
  else if env.hasSubFails then none
  else some (decide (candidates acc.subscriptions userId srv.now ≠ []))

def userActiveSubscriptionsAllowWalletOverflow (srv : Server) (env : AdmissionEnv) (userId : ℤ) (acc : Account) :
    Option Bool :=
  if userId ≤ 0 then none
  else if env.overflowFails then none
  else some (decide ((candidates acc.subscriptions userId srv.now).filter env.disallowsOverflow = []))

/-- What the request knows of the wallet after a try. -/
def walletTried (env : AdmissionEnv) (info : RelayInfo) (quota : ℤ) : RelayInfo :=
  match env.userQuota with
  | some userQuota => if userQuota ≤ 0 ∨ userQuota - quota < 0 then info else { info with userQuota }
  | none => info

def newBillingSession (srv : Server) (env : AdmissionEnv) (pref : String) (info : RelayInfo) (quota : ℤ)
    (acc : Account) : Account × Except ErrorCode BillingSession :=
  match normalizeBillingPreference pref with
  | .subscriptionOnly => trySubscription srv env info quota acc
  | .walletOnly => tryWallet srv env info quota acc
  | .walletFirst =>
    match tryWallet srv env info quota acc with
    | (acc', .error .insufficientUserQuota) => trySubscription srv env (walletTried env info quota) quota acc'
    | result => result
  | .subscriptionFirst =>
    match hasActiveUserSubscription srv env info.userId acc with
    | none => (acc, .error .queryDataError)
    | some false => tryWallet srv env info quota acc
    | some true =>
      match trySubscription srv env info quota acc with
      | (acc', .error .insufficientUserQuota) =>
        match userActiveSubscriptionsAllowWalletOverflow srv env info.userId acc' with
        | none => (acc', .error .queryDataError)
        | some true => tryWallet srv env info quota acc'
        | some false => (acc', .error .insufficientUserQuota)
      | result => result

/-! ## What an admission changes -/

section Effect

variable {srv : Server} {env : AdmissionEnv} {f : PreConsumeFaults} {info : RelayInfo} {quota : ℤ} {acc : Account}

theorem increaseTokenQuota_consume {cfg : BillingConfig} (hpos : 0 < quota) :
    increaseTokenQuota cfg false quota { acc with token := acc.token.consume quota } = .ok acc := by
  unfold increaseTokenQuota
  rw [if_neg (by omega), if_neg (by simp)]
  simp only [Token.consume_consume, Int.add_right_neg, Token.consume_zero]

/-- A failed pre-consume of a new session gives the token back. -/
theorem preConsume_error {s s' : BillingState} {error : BillingError} (hundo : f.undo = false)
    (hnew : s.session.tokenConsumed = 0) (h : s.preConsume srv f quota = (s', some error)) :
    s'.account = s.account := by
  unfold BillingState.preConsume at h
  dsimp only at h
  set session := if s.session.shouldTrust srv.cfg = true then { s.session with trusted := true } else s.session
    with hsession
  set effective := if s.session.shouldTrust srv.cfg = true then 0 else quota
  have hconsumed : session.tokenConsumed = 0 := by
    rw [hsession]
    split_ifs
    · exact hnew
    · exact hnew
  clear_value session effective
  by_cases hpos : 0 < effective
  · simp only [if_pos hpos] at h
    cases htoken : preConsumeTokenQuota srv.cfg session.relayInfo f.token effective s.account with
    | error e =>
      rw [htoken] at h
      cases h
      rfl
    | ok charged =>
      obtain rfl := preConsumeTokenQuota_ok htoken
      rw [htoken] at h
      dsimp only at h
      cases hfunding : session.funding.preConsume srv f.funding effective _ with
      | ok r =>
        rw [hfunding] at h
        cases h
      | error e =>
        rw [hfunding] at h
        dsimp only at h
        by_cases hplayground : session.relayInfo.isPlayground = true
        · rw [if_neg (by simp [hplayground])] at h
          cases h
          dsimp only
          rw [if_pos hplayground]
        · rw [if_pos ⟨hpos, hplayground⟩, if_neg hplayground, hundo, increaseTokenQuota_consume hpos] at h
          cases h
          rfl
  · simp only [if_neg hpos] at h
    cases hfunding : session.funding.preConsume srv f.funding effective s.account with
    | ok r =>
      rw [hfunding] at h
      cases h
    | error e =>
      rw [hfunding] at h
      dsimp only at h
      rw [if_neg (by simp [hconsumed])] at h
      cases h
      rfl

/-- The source that does not fund a session is as before. -/
def FundingSource.LeavesOther (acc acc' : Account) : FundingSource → Prop
  | .wallet _ => acc'.subscriptions = acc.subscriptions
  | .subscription _ => acc'.walletQuota = acc.walletQuota

/-- The source that funds the session is charged, and the token once; the other source is as before. -/
def Admitted (acc : Account) (session : BillingSession) (acc' : Account) : Prop :=
  session.funding.LeavesOther acc acc' ∧
  acc'.token = if session.relayInfo.isPlayground then acc.token else acc.token.consume session.tokenConsumed

/-- A failure leaves the account as it was, and a success charges one source. -/
def Clean (acc : Account) (result : Account × Except ErrorCode BillingSession) : Prop :=
  match result.2 with
  | .error _ => result.1 = acc
  | .ok session => Admitted acc session result.1

theorem fundingPreConsume_ok {env : PreConsumeEnv} {amount : ℤ} {source funding : FundingSource} {acc' : Account}
    (h : source.preConsume srv env amount acc = .ok (funding, acc')) :
    acc'.token = acc.token ∧ funding.LeavesOther acc acc' := by
  cases source with
  | wallet consumed =>
    unfold FundingSource.preConsume at h
    dsimp only at h
    cases hwallet : walletPreConsume env.fault amount consumed acc with
    | error e =>
      rw [hwallet] at h
      cases h
    | ok r =>
      rw [hwallet] at h
      cases h
      by_cases hpos : 0 < amount
      · obtain ⟨-, hacc⟩ := walletPreConsume_ok hpos hwallet
        rw [hacc]
        exact ⟨rfl, rfl⟩
      · unfold walletPreConsume at hwallet
        rw [if_pos (by omega)] at hwallet
        cases hwallet
        exact ⟨rfl, rfl⟩
  | subscription f =>
    unfold FundingSource.preConsume subscriptionPreConsume at h
    dsimp only at h
    cases hsub : preConsumeUserSubscription srv.cal srv.now env f.requestId f.userId f.amount acc.subscriptions with
    | error e =>
      rw [hsub] at h
      cases h
    | ok c =>
      rw [hsub] at h
      cases h
      exact ⟨rfl, rfl⟩

theorem syncRelayInfo_funding (session : BillingSession) : session.syncRelayInfo.funding = session.funding := rfl

theorem syncRelayInfo_tokenConsumed (session : BillingSession) :
    session.syncRelayInfo.tokenConsumed = session.tokenConsumed := rfl

theorem preConsumeCoded_clean {s : BillingState} (hundo : f.undo = false) (hnew : s.session.tokenConsumed = 0) :
    Clean s.account (s.preConsumeCoded srv env f quota) := by
  unfold BillingState.preConsumeCoded
  cases h : s.preConsume srv f quota with
  | mk s' error =>
    cases error with
    | some error => exact preConsume_error hundo hnew h
    | none =>
      obtain ⟨session, effective, acc, funding, acc', hsession, -, htoken, hfree, hfunding, rfl⟩ := preConsume_ok_cases h
      have hinfo : session.relayInfo.isPlayground = s.session.relayInfo.isPlayground := by
        rcases hsession with rfl | rfl <;> rfl
      obtain ⟨hsame, hother⟩ := fundingPreConsume_ok hfunding
      unfold Clean Admitted
      dsimp only
      rw [syncRelayInfo_funding, BillingSession.syncRelayInfo_isPlayground, syncRelayInfo_tokenConsumed, hsame, hnew]
      dsimp only
      rw [hinfo]
      by_cases hpos : 0 < effective
      · obtain rfl := preConsumeTokenQuota_ok (htoken hpos)
        rw [if_pos hpos]
        refine ⟨?_, rfl⟩
        cases funding with
        | wallet consumed => exact hother
        | subscription f => exact hother
      · obtain rfl := hfree (by omega)
        rw [if_neg hpos, Token.consume_zero, ite_self]
        exact ⟨hother, rfl⟩

theorem tryWallet_clean (srv : Server) (info : RelayInfo) (quota : ℤ) (acc : Account)
    (hundo : env.wallet.undo = false) : Clean acc (tryWallet srv env info quota acc) := by
  unfold tryWallet
  cases env.userQuota with
  | none => exact rfl
  | some userQuota =>
    dsimp only
    split_ifs
    · exact rfl
    · exact rfl
    · exact preConsumeCoded_clean hundo rfl

theorem trySubscription_clean (srv : Server) (info : RelayInfo) (quota : ℤ) (acc : Account)
    (hundo : env.subscription.undo = false) : Clean acc (trySubscription srv env info quota acc) :=
  preConsumeCoded_clean hundo rfl

/-- Every admission is one try on the account, after at most one that has failed. -/
theorem newBillingSession_cases (hwallet : env.wallet.undo = false) (hsubscription : env.subscription.undo = false)
    (pref : String) : (∃ code, newBillingSession srv env pref info quota acc = (acc, .error code)) ∨
      newBillingSession srv env pref info quota acc = tryWallet srv env info quota acc ∨
      newBillingSession srv env pref info quota acc = trySubscription srv env info quota acc ∨
      newBillingSession srv env pref info quota acc =
        trySubscription srv env (walletTried env info quota) quota acc := by
  unfold newBillingSession
  cases normalizeBillingPreference pref with
  | subscriptionOnly => exact .inr (.inr (.inl rfl))
  | walletOnly => exact .inr (.inl rfl)
  | walletFirst =>
    dsimp only
    have hclean := tryWallet_clean srv info quota acc hwallet
    split
    case h_1 acc' htried =>
      rw [htried] at hclean
      obtain rfl : acc' = acc := hclean
      exact .inr (.inr (.inr rfl))
    case h_2 => exact .inr (.inl rfl)
  | subscriptionFirst =>
    dsimp only
    have hclean := trySubscription_clean srv info quota acc hsubscription
    cases hasActiveUserSubscription srv env info.userId acc with
    | none => exact .inl ⟨_, rfl⟩
    | some hasSub =>
      cases hasSub with
      | false => exact .inr (.inl rfl)
      | true =>
        dsimp only
        split
        case h_1 acc' htried =>
          rw [htried] at hclean
          obtain rfl : acc' = acc := hclean
          cases userActiveSubscriptionsAllowWalletOverflow srv env info.userId acc' with
          | none => exact .inl ⟨_, rfl⟩
          | some allowOverflow =>
            cases allowOverflow with
            | true => exact .inr (.inl rfl)
            | false => exact .inl ⟨_, rfl⟩
        case h_2 => exact .inr (.inr (.inl rfl))

/-- An admission that fails changes nothing, whatever fails on the way, if tokens can be given back. One that
succeeds is a single try on the account as it was: it charges one source and the token once, and an earlier try of
the other source has left no trace. -/
theorem failed_admission_changes_nothing (srv : Server) (env : AdmissionEnv) (pref : String) (info : RelayInfo)
    (quota : ℤ) (acc : Account) (hwallet : env.wallet.undo = false) (hsubscription : env.subscription.undo = false) :
    (∀ code, (newBillingSession srv env pref info quota acc).2 = .error code →
      (newBillingSession srv env pref info quota acc).1 = acc) ∧
    ∀ session, (newBillingSession srv env pref info quota acc).2 = .ok session →
      Admitted acc session (newBillingSession srv env pref info quota acc).1 ∧
      (newBillingSession srv env pref info quota acc = tryWallet srv env info quota acc ∨
        newBillingSession srv env pref info quota acc = trySubscription srv env info quota acc ∨
        newBillingSession srv env pref info quota acc =
          trySubscription srv env (walletTried env info quota) quota acc) := by
  have hclean : Clean acc (newBillingSession srv env pref info quota acc) := by
    rcases newBillingSession_cases hwallet hsubscription pref with ⟨code, h⟩ | h | h | h
    · rw [h]
      exact rfl
    · rw [h]
      exact tryWallet_clean srv info quota acc hwallet
    · rw [h]
      exact trySubscription_clean srv info quota acc hsubscription
    · rw [h]
      exact trySubscription_clean srv (walletTried env info quota) quota acc hsubscription
  unfold Clean at hclean
  constructor
  · intro code hcode
    rw [hcode] at hclean
    exact hclean
  · intro session hsession
    rw [hsession] at hclean
    refine ⟨hclean, (newBillingSession_cases hwallet hsubscription pref).resolve_left ?_⟩
    rintro ⟨code, h⟩
    rw [h] at hsession
    cases hsession

end Effect

/-- A user with 5 units in the wallet and a subscription of 100. -/
def bothSources : Account :=
  ⟨5, ⟨50, 0⟩,
    { plans := [⟨1, .never, 0⟩], subs := [⟨1, 7, 1, 100, 0, 0, 1000, .active, 0, 0⟩], records := [] }⟩

def sourcesServer : Server := ⟨⟨1000, false⟩, utc, 0⟩

def sourcesRequest : RelayInfo :=
  { requestId := "r1", userId := 7, userQuota := 0, tokenQuota := 50, tokenUnlimited := false
    isPlayground := false, forcePreConsume := false, imageRequest := false, imageRequestCount := 0 }

/-- The cache still has 20 units, so the wallet is tried first; the subscription is charged, and the token once. -/
theorem fallback_charges_once :
    (newBillingSession sourcesServer { userQuota := some 20 } "wallet_first" sourcesRequest 10 bothSources).1 =
        ⟨5, ⟨40, 10⟩,
          { plans := [⟨1, .never, 0⟩], subs := [⟨1, 7, 1, 100, 10, 0, 1000, .active, 0, 0⟩]
            records := [⟨"r1", 7, 1, 10, .consumed⟩] }⟩ ∧
      ∀ session, (newBillingSession sourcesServer { userQuota := some 20 } "wallet_first" sourcesRequest 10
          bothSources).2 = .ok session →
        Admitted bothSources session
          (newBillingSession sourcesServer { userQuota := some 20 } "wallet_first" sourcesRequest 10 bothSources).1 := by
  refine ⟨by decide +kernel, fun session hsession => ?_⟩
  exact ((failed_admission_changes_nothing sourcesServer { userQuota := some 20 } "wallet_first" sourcesRequest 10
    bothSources rfl rfl).2 session hsession).1

end Vancine.Billing
