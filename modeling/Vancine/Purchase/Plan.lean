import Vancine.Lib.Text
import Vancine.Payment.Quota

/-!
# Plans and the subscriptions made from them

The columns of a plan and of a subscription row that buying and ending a subscription read, and
`CreateUserSubscriptionFromPlanTx`, which every way of buying ends in: it counts the user's rows of
the plan against the cap, computes the end time, and moves the user to the plan's group with a
snapshot of the group held before.

The quota columns of the same rows are in `Vancine.Subscription.Store`.
-/

namespace Vancine.Purchase

open Lib
open Subscription (SubscriptionStatus)
open Payment (Decimal)

/-! ## Go's time -/

/-- The value an `int64` operation leaves. -/
def wrapInt64 (n : ℤ) : ℤ := (n + 2 ^ 63) % 2 ^ 64 - 2 ^ 63

/-- `time.Time.AddDate` in the server's zone, for a positive number of years or months. -/
structure DateCalendar where
  addYears : ℤ → ℤ → ℤ
  addMonths : ℤ → ℤ → ℤ
  lt_addYears : ∀ t n, 0 < n → t < addYears t n
  lt_addMonths : ∀ t n, 0 < n → t < addMonths t n

/-- `start.Add(time.Duration(count) * unit)` in seconds; a duration is an `int64` of nanoseconds. -/
def addSeconds (start count unitSeconds : ℤ) : ℤ :=
  start + wrapInt64 (count * (unitSeconds * 10 ^ 9)) / 10 ^ 9

/-! ## Rows -/

inductive DurationUnit
  | year
  | month
  | day
  | hour
  | custom
  | other (text : String)
  deriving DecidableEq

structure SubscriptionPlan where
  id : ℤ
  priceAmount : Decimal := ⟨0, 0⟩
  durationUnit : DurationUnit
  durationValue : ℤ
  customSeconds : ℤ := 0
  enabled : Bool := true
  /-- After `NormalizeDefaults`: absent means true. -/
  allowBalancePay : Bool := true
  maxPurchasePerUser : ℤ := 0
  upgradeGroup : String := ""
  downgradeGroup : String := ""
  deriving DecidableEq

inductive SubscriptionSource
  | order
  | admin
  | balance
  deriving DecidableEq

structure UserSubscription where
  id : ℕ
  userId : ℤ
  planId : ℤ
  startTime : ℤ
  endTime : ℤ
  status : SubscriptionStatus
  source : SubscriptionSource
  upgradeGroup : String
  prevUserGroup : String
  downgradeGroup : String
  deriving DecidableEq

inductive PurchaseError
  | invalidPlan
  | invalidUserId
  | invalidPlanId
  | capReached
  | durationValue
  | customSeconds
  | durationUnit
  | planNotFound
  | planDisabled
  | negativePrice
  | balancePayNotAllowed
  | quotaOutOfRange
  | userNotFound
  | insufficientBalance
  | tradeNoEmpty
  | orderNotFound
  | paymentMethodMismatch
  | orderStatusInvalid
  | database

/-! ## Creating a subscription -/

def calcPlanEndTime (cal : DateCalendar) (start : ℤ) (plan : SubscriptionPlan) :
    Except PurchaseError ℤ :=
  if plan.durationValue ≤ 0 ∧ plan.durationUnit ≠ .custom then .error .durationValue
  else match plan.durationUnit with
    | .year => .ok (cal.addYears start plan.durationValue)
    | .month => .ok (cal.addMonths start plan.durationValue)
    | .day => .ok (addSeconds start plan.durationValue 86400)
    | .hour => .ok (addSeconds start plan.durationValue 3600)
    | .custom =>
      if plan.customSeconds ≤ 0 then .error .customSeconds
      else .ok (addSeconds start plan.customSeconds 1)
    | .other _ => .error .durationUnit

/-- The plan's duration in nanoseconds fits an `int64`: 292 years. -/
def SubscriptionPlan.DurationFits (plan : SubscriptionPlan) : Prop :=
  match plan.durationUnit with
  | .day => plan.durationValue * (86400 * 10 ^ 9) < 2 ^ 63
  | .hour => plan.durationValue * (3600 * 10 ^ 9) < 2 ^ 63
  | .custom => plan.customSeconds * (1 * 10 ^ 9) < 2 ^ 63
  | _ => True

instance (plan : SubscriptionPlan) : Decidable plan.DurationFits := by
  unfold SubscriptionPlan.DurationFits; split <;> infer_instance

theorem lt_addSeconds {start count unit : ℤ} (hcount : 0 < count) (hunit : 1 ≤ unit)
    (hfit : count * (unit * 10 ^ 9) < 2 ^ 63) : start < addSeconds start count unit := by
  unfold addSeconds wrapInt64
  have hunit' : (10 : ℤ) ^ 9 ≤ unit * 10 ^ 9 := by omega
  have hbig : 1 * 10 ^ 9 ≤ count * (unit * 10 ^ 9) :=
    Int.mul_le_mul (by omega) hunit' (by decide) (by omega)
  generalize count * (unit * 10 ^ 9) = n at hfit hbig
  have hmod : (n + 2 ^ 63) % 2 ^ 64 = n + 2 ^ 63 := Int.emod_eq_of_lt (by omega) (by omega)
  rw [hmod]
  omega

theorem lt_calcPlanEndTime {cal : DateCalendar} {start endUnix : ℤ} {plan : SubscriptionPlan}
    (hfit : plan.DurationFits) (h : calcPlanEndTime cal start plan = .ok endUnix) : start < endUnix := by
  unfold calcPlanEndTime at h
  unfold SubscriptionPlan.DurationFits at hfit
  by_cases hval : plan.durationValue ≤ 0 ∧ plan.durationUnit ≠ .custom
  · rw [if_pos hval] at h; cases h
  rw [if_neg hval] at h
  cases hunit : plan.durationUnit with
  | year =>
    rw [hunit] at h hval
    cases h
    exact cal.lt_addYears _ _ (by simp at hval; omega)
  | month =>
    rw [hunit] at h hval
    cases h
    exact cal.lt_addMonths _ _ (by simp at hval; omega)
  | day =>
    rw [hunit] at h hval hfit
    cases h
    exact lt_addSeconds (by simp at hval; omega) (by decide) hfit
  | hour =>
    rw [hunit] at h hval hfit
    cases h
    exact lt_addSeconds (by simp at hval; omega) (by decide) hfit
  | custom =>
    rw [hunit] at h hfit
    dsimp only at h hfit
    by_cases hc : plan.customSeconds ≤ 0
    · rw [if_pos hc] at h; cases h
    · rw [if_neg hc] at h
      cases h
      exact lt_addSeconds (by omega) (by decide) hfit
  | other text => rw [hunit] at h; cases h

/-- The row a purchase inserts and the user's group after it. `count` is what the count of the user's
rows of the plan gave, and `nextId` the id the database assigns. -/
def createUserSubscriptionFromPlanTx (cal : DateCalendar) (nowUnix : ℤ) (count nextId : ℕ)
    (userId : ℤ) (currentGroup : String) (plan : SubscriptionPlan) (source : SubscriptionSource) :
    Except PurchaseError (UserSubscription × String) :=
  if plan.id = 0 then .error .invalidPlan
  else if userId ≤ 0 then .error .invalidUserId
  else if 0 < plan.maxPurchasePerUser ∧ plan.maxPurchasePerUser ≤ count then .error .capReached
  else match calcPlanEndTime cal nowUnix plan with
    | .error e => .error e
    | .ok endUnix =>
      let upgradeGroup := trimSpace plan.upgradeGroup
      let moves := upgradeGroup ≠ "" ∧ currentGroup ≠ upgradeGroup
      .ok (
        { id := nextId
          userId
          planId := plan.id
          startTime := nowUnix
          endTime := endUnix
          status := .active
          source
          upgradeGroup
          prevUserGroup := if moves then currentGroup else ""
          downgradeGroup := trimSpace plan.downgradeGroup },
        if moves then upgradeGroup else currentGroup)

end Vancine.Purchase
