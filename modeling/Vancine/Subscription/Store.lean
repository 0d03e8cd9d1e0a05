import Mathlib.Data.List.Sort
import Vancine.Lib.Table

/-!
# User subscriptions and their pre-consume records

The subscription tables of `model/subscription.go` and the functions that charge them:
`PreConsumeUserSubscription`, `PostConsumeUserSubscriptionDelta`, `RefundSubscriptionPreConsume`,
the lazy period reset and the reset jobs.

A transaction is one function on the store: it returns the new store when it commits and an error
when it rolls back. `RefundSubscriptionPreConsume` is the exception. It calls
`PostConsumeUserSubscriptionDelta`, which opens a transaction of its own, so the amount may be
committed while the record is not; it returns a store in both cases.

Times are Unix seconds. Go's calendar arithmetic in the server's zone is the structure `Calendar`.
-/

namespace Vancine.Subscription

open Lib

/-! ## Calendar and plans -/

/-- The `time.Date(…).AddDate(…)` computations of `calcNextResetTime`, in the server's zone. Each
moves strictly forward. -/
structure Calendar where
  /-- Midnight after the given instant. -/
  nextMidnight : ℤ → ℤ
  /-- Monday 00:00 after the given instant. -/
  nextMonday : ℤ → ℤ
  /-- 00:00 on the first day of the month after the given instant. -/
  nextMonth : ℤ → ℤ
  lt_nextMidnight : ∀ t, t < nextMidnight t
  lt_nextMonday : ∀ t, t < nextMonday t
  lt_nextMonth : ∀ t, t < nextMonth t

/-- The day of the month of a day counted from 1970-01-01, in the Gregorian calendar. -/
def dayOfMonth (day : ℤ) : ℤ :=
  let doe := (day + 719468) % 146097
  let yoe := (doe - doe / 1460 + doe / 36524 - doe / 146096) / 365
  let doy := doe - (365 * yoe + yoe / 4 - yoe / 100)
  doy - (153 * ((5 * doy + 2) / 153) + 2) / 5 + 1

/-- The calendar of a server in UTC. 1970-01-01 is a Thursday. -/
def utc : Calendar where
  nextMidnight t := (t / 86400 + 1) * 86400
  nextMonday t := (t / 86400 + 7 - (t / 86400 + 3) % 7) * 86400
  nextMonth t :=
    let ahead : Option ℕ := (List.range 31).find? fun k : ℕ => dayOfMonth (t / 86400 + k + 1) = 1
    (t / 86400 + (ahead.getD 30 : ℕ) + 1) * 86400
  lt_nextMidnight t := by omega
  lt_nextMonday t := by omega
  lt_nextMonth t := by dsimp only; omega

/-- `NormalizeResetPeriod` of a plan's `QuotaResetPeriod`; every other string is `never`. -/
inductive ResetPeriod
  | never
  | daily
  | weekly
  | monthly
  | custom
  deriving DecidableEq

structure SubscriptionPlan where
  id : ℤ
  quotaResetPeriod : ResetPeriod
  quotaResetCustomSeconds : ℤ
  deriving DecidableEq

/-- The next reset after `base`, or 0 when there is none before the subscription ends. -/
def calcNextResetTime (cal : Calendar) (base : ℤ) (plan : SubscriptionPlan) (endUnix : ℤ) : ℤ :=
  let clip (next : ℤ) : ℤ := if 0 < endUnix ∧ endUnix < next then 0 else next
  match plan.quotaResetPeriod with
  | .never => 0
  | .daily => clip (cal.nextMidnight base)
  | .weekly => clip (cal.nextMonday base)
  | .monthly => clip (cal.nextMonth base)
  | .custom =>
    if plan.quotaResetCustomSeconds ≤ 0 then 0 else clip (base + plan.quotaResetCustomSeconds)

variable {cal : Calendar} {userId amount : ℤ} {c : PreConsumeCommit}

theorem lt_calcNextResetTime {base : ℤ} {plan : SubscriptionPlan} {endUnix : ℤ}
    (h : 0 < calcNextResetTime cal base plan endUnix) : base < calcNextResetTime cal base plan endUnix := by
  have clip : ∀ next, base < next → 0 < (if 0 < endUnix ∧ endUnix < next then 0 else next) →
      base < (if 0 < endUnix ∧ endUnix < next then 0 else next) := by
    intro next hlt hpos
    by_cases hc : 0 < endUnix ∧ endUnix < next
    · rw [if_pos hc] at hpos; omega
    · rw [if_neg hc]; exact hlt
  unfold calcNextResetTime at h ⊢
  dsimp only at h ⊢
  cases hp : plan.quotaResetPeriod with
  | never => rw [hp] at h; simp at h
  | daily => rw [hp] at h; exact clip _ (cal.lt_nextMidnight base) h
  | weekly => rw [hp] at h; exact clip _ (cal.lt_nextMonday base) h
  | monthly => rw [hp] at h; exact clip _ (cal.lt_nextMonth base) h
  | custom =>
    rw [hp] at h
    dsimp only at h ⊢
    by_cases hs : plan.quotaResetCustomSeconds ≤ 0
    · rw [if_pos hs] at h; omega
    · rw [if_neg hs] at h ⊢; exact clip _ (by omega) h

-- 1970-01-15 is a Thursday; the next Monday is the 19th and the next month starts 17 days later
example : utc.nextMonday (14 * 86400) = 18 * 86400 ∧ utc.nextMonth (14 * 86400) = 31 * 86400 := by
  decide

/-! ## Rows -/

inductive SubscriptionStatus
  | active
  | expired
  | cancelled
  deriving DecidableEq

structure UserSubscription where
  id : ℤ
  userId : ℤ
  planId : ℤ
  amountTotal : ℤ
  amountUsed : ℤ
  startTime : ℤ
  endTime : ℤ
  status : SubscriptionStatus
  lastResetTime : ℤ
  nextResetTime : ℤ
  deriving DecidableEq

inductive PreConsumeStatus
  | consumed
  | refunded
  deriving DecidableEq

/-- The idempotency record of one request. -/
structure SubscriptionPreConsumeRecord where
  requestId : String
  userId : ℤ
  userSubscriptionId : ℤ
  preConsumed : ℤ
  status : PreConsumeStatus
  deriving DecidableEq

structure SubscriptionStore where
  plans : List SubscriptionPlan
  subs : List UserSubscription
  records : List SubscriptionPreConsumeRecord
  deriving DecidableEq

inductive SubscriptionError
  | invalidUserId
  | requestIdEmpty
  | amountNotPositive
  | alreadyRefunded
  | noActiveSubscription
  | quotaInsufficient (need : ℤ)
  | invalidUserSubscriptionId
  | usedExceedsTotal (used total : ℤ)
  | invalidPlanId
  | recordNotFound
  | noSubscriptionOfPlan
  | database
  deriving DecidableEq

namespace SubscriptionStore

def findSub (st : SubscriptionStore) (id : ℤ) : Option UserSubscription :=
  Table.find UserSubscription.id id st.subs

def saveSub (st : SubscriptionStore) (sub : UserSubscription) : SubscriptionStore :=
  { st with subs := Table.save UserSubscription.id sub st.subs }

def findRecord (st : SubscriptionStore) (requestId : String) :
    Option SubscriptionPreConsumeRecord :=
  Table.find SubscriptionPreConsumeRecord.requestId requestId st.records

def saveRecord (st : SubscriptionStore) (record : SubscriptionPreConsumeRecord) :
    SubscriptionStore :=
  { st with records := Table.save SubscriptionPreConsumeRecord.requestId record st.records }

/-- `getSubscriptionPlanByIdTx`. -/
def getSubscriptionPlanById (st : SubscriptionStore) (id : ℤ) : Option SubscriptionPlan :=
  if id ≤ 0 then none else Table.find SubscriptionPlan.id id st.plans

/-- The used amount of a row. -/
def used (st : SubscriptionStore) (id : ℤ) : Option ℤ := (st.findSub id).map UserSubscription.amountUsed

/-- What the tables promise: unique positive ids, and used amounts within their bounds. -/
structure Valid (st : SubscriptionStore) : Prop where
  nodup : (st.subs.map UserSubscription.id).Nodup
  pos : ∀ sub ∈ st.subs, 0 < sub.id
  bounded : ∀ sub ∈ st.subs, 0 ≤ sub.amountUsed ∧
    (0 < sub.amountTotal → sub.amountUsed ≤ sub.amountTotal)

end SubscriptionStore

/-! ## Resets -/

/-- The loop of `maybeResetUserSubscriptionWithPlanTx`: step from period to period until the next
reset is past `now`. Every round moves `base` forward, so `(now - base).toNat + 1` rounds are
enough. -/
def advanceReset (cal : Calendar) (plan : SubscriptionPlan) (endUnix now : ℤ) :
    ℕ → ℤ → ℤ → Bool → ℤ × ℤ × Bool
  | 0, base, next, advanced => (base, next, advanced)
  | n + 1, base, next, advanced =>
    if 0 < next ∧ next ≤ now then
      advanceReset cal plan endUnix now n next (calcNextResetTime cal next plan endUnix) true
    else (base, next, advanced)

/-- The lazy reset of one row. The flag tells whether the usage was zeroed; otherwise at most the
reset times are filled in. -/
def maybeResetUserSubscriptionWithPlanTx (cal : Calendar) (plan : SubscriptionPlan) (now : ℤ)
    (sub : UserSubscription) : UserSubscription × Bool :=
  if 0 < sub.nextResetTime ∧ now < sub.nextResetTime then (sub, false)
  else if plan.quotaResetPeriod = .never then (sub, false)
  else
    let baseUnix := if sub.lastResetTime ≤ 0 then sub.startTime else sub.lastResetTime
    let next := calcNextResetTime cal baseUnix plan sub.endTime
    match advanceReset cal plan sub.endTime now ((now - baseUnix).toNat + 1) baseUnix next false with
    | (base, next, false) =>
      if sub.nextResetTime = 0 ∧ 0 < next then
        ({ sub with nextResetTime := next, lastResetTime := base }, false)
      else (sub, false)
    | (base, next, true) =>
      ({ sub with amountUsed := 0, lastResetTime := base, nextResetTime := next }, true)

/-- An administrator's reset of one row. -/
def resetUserSubscriptionTx (cal : Calendar) (plan : SubscriptionPlan) (now : ℤ)
    (advanceResetTime : Bool) (sub : UserSubscription) : UserSubscription :=
  if advanceResetTime then
    let nextReset := calcNextResetTime cal now plan sub.endTime
    { sub with
      amountUsed := 0
      nextResetTime := nextReset
      lastResetTime := if 0 < nextReset then now else 0 }
  else { sub with amountUsed := 0 }

/-- Reset every row of a query; the ids of the rows reset are returned with the store. -/
def resetAll (cal : Calendar) (plan : SubscriptionPlan) (now : ℤ) (advanceResetTime : Bool)
    (subs : List UserSubscription) (st : SubscriptionStore) : SubscriptionStore × List ℤ :=
  (subs.foldl
    (fun st sub => st.saveSub (resetUserSubscriptionTx cal plan now advanceResetTime sub)) st,
    subs.map UserSubscription.id)

def adminResetUserSubscriptionsByPlan (cal : Calendar) (now userId planId : ℤ)
    (advanceResetTime : Bool) (st : SubscriptionStore) :
    Except SubscriptionError (SubscriptionStore × List ℤ) :=
  if userId ≤ 0 then .error .invalidUserId
  else match st.getSubscriptionPlanById planId with
    | none => .error .invalidPlanId
    | some plan =>
      let subs := st.subs.filter fun s =>
        s.userId = userId ∧ s.planId = plan.id ∧ s.status = .active ∧ now < s.endTime
      if subs = [] then .error .noSubscriptionOfPlan
      else .ok (resetAll cal plan now advanceResetTime subs st)

def adminResetPlanSubscriptions (cal : Calendar) (now planId : ℤ) (advanceResetTime : Bool)
    (st : SubscriptionStore) : Except SubscriptionError (SubscriptionStore × List ℤ) :=
  match st.getSubscriptionPlanById planId with
  | none => .error .invalidPlanId
  | some plan =>
    let subs := st.subs.filter fun s =>
      s.planId = plan.id ∧ s.status = .active ∧ now < s.endTime
    .ok (resetAll cal plan now advanceResetTime subs st)

/-- One round of the loop of `ResetDueSubscriptions`: re-read the row under its lock and reset it
when its period is over. The round does nothing when the plan is missing or the row is no longer
due. -/
def resetDueSubscription (cal : Calendar) (now id : ℤ) (st : SubscriptionStore) :
    SubscriptionStore × List ℤ :=
  match st.findSub id with
  | none => (st, [])
  | some locked =>
    match st.getSubscriptionPlanById locked.planId with
    | none => (st, [])
    | some plan =>
      if 0 < locked.nextResetTime ∧ locked.nextResetTime ≤ now then
        let r := maybeResetUserSubscriptionWithPlanTx cal plan now locked
        (st.saveSub r.1, if r.2 then [id] else [])
      else (st, [])

/-! ## Charging -/

/-- `strings.TrimSpace(s) == ""`. -/
def isBlank (s : String) : Bool := s.toList.all Char.isWhitespace

structure SubscriptionPreConsumeResult where
  userSubscriptionId : ℤ
  preConsumed : ℤ
  amountTotal : ℤ
  amountUsedBefore : ℤ
  amountUsedAfter : ℤ
  deriving DecidableEq

/-- What a committed pre-consume leaves behind: the store, the value returned, and, for the
accounting, the rows it reset on the way and the row it charged (none on a replayed request). -/
structure PreConsumeCommit where
  store : SubscriptionStore
  result : SubscriptionPreConsumeResult
  resets : List ℤ
  charged : Option ℤ

/-- `ORDER BY end_time ASC, id ASC`. -/
def endsBefore (a b : UserSubscription) : Prop :=
  a.endTime < b.endTime ∨ (a.endTime = b.endTime ∧ a.id ≤ b.id)

instance : DecidableRel endsBefore := fun a b => by unfold endsBefore; infer_instance

/-- The active rows of a user, soonest end first. -/
def candidates (st : SubscriptionStore) (userId now : ℤ) : List UserSubscription :=
  (st.subs.filter fun s => s.userId = userId ∧ s.status = .active ∧ now < s.endTime).insertionSort
    endsBefore

/-- The candidate loop of `PreConsumeUserSubscription`. A row that is too small is passed over, with
its lazy reset already saved. When the record cannot be created because a request with the same id
committed meanwhile, that record is answered and nothing is charged. -/
def consumeFrom (cal : Calendar) (now : ℤ) (requestId : String) (userId amount : ℤ)
    (st : SubscriptionStore) (resets : List ℤ) :
    List UserSubscription → Except SubscriptionError PreConsumeCommit
  | [] => .error (.quotaInsufficient amount)
  | candidate :: rest =>
    match st.getSubscriptionPlanById candidate.planId with
    | none => .error .invalidPlanId
    | some plan =>
      let r := maybeResetUserSubscriptionWithPlanTx cal plan now candidate
      let sub := r.1
      let st' := st.saveSub sub
      let resets' := if r.2 then resets ++ [sub.id] else resets
      if 0 < sub.amountTotal ∧ sub.amountTotal - sub.amountUsed < amount then
        consumeFrom cal now requestId userId amount st' resets' rest
      else match st'.findRecord requestId with
        | some dup =>
          if dup.status = .refunded then .error .alreadyRefunded
          else .ok
            { store := st'
              result :=
                { userSubscriptionId := sub.id
                  preConsumed := dup.preConsumed
                  amountTotal := sub.amountTotal
                  amountUsedBefore := sub.amountUsed
                  amountUsedAfter := sub.amountUsed }
              resets := resets'
              charged := none }
        | none =>
          let record : SubscriptionPreConsumeRecord :=
            { requestId, userId, userSubscriptionId := sub.id, preConsumed := amount,
              status := .consumed }
          let sub' := { sub with amountUsed := sub.amountUsed + amount }
          .ok
            { store := { st'.saveSub sub' with records := st'.records ++ [record] }
              result :=
                { userSubscriptionId := sub.id
                  preConsumed := amount
                  amountTotal := sub.amountTotal
                  amountUsedBefore := sub.amountUsed
                  amountUsedAfter := sub.amountUsed + amount }
              resets := resets'
              charged := some sub.id }

/-- What the database does to a pre-consume: `fault` is a statement that fails and rolls the
transaction back; with `early` the first read of the record ran before a concurrent request with the
same id committed, so it found nothing. -/
structure PreConsumeEnv where
  fault : Bool := false
  early : Bool := false
  deriving DecidableEq

def preConsumeUserSubscription (cal : Calendar) (now : ℤ) (env : PreConsumeEnv)
    (requestId : String) (userId amount : ℤ) (st : SubscriptionStore) :
    Except SubscriptionError PreConsumeCommit :=
  if userId ≤ 0 then .error .invalidUserId
  else if isBlank requestId then .error .requestIdEmpty
  else if amount ≤ 0 then .error .amountNotPositive
  else if env.fault then .error .database
  else match (if env.early then none else st.findRecord requestId) with
    | some existing =>
      if existing.status = .refunded then .error .alreadyRefunded
      else match st.findSub existing.userSubscriptionId with
        | none => .error .recordNotFound
        | some sub => .ok
            { store := st
              result :=
                { userSubscriptionId := sub.id
                  preConsumed := existing.preConsumed
                  amountTotal := sub.amountTotal
                  amountUsedBefore := sub.amountUsed
                  amountUsedAfter := sub.amountUsed }
              resets := []
              charged := none }
    | none =>
      let subs := candidates st userId now
      if subs = [] then .error .noActiveSubscription
      else consumeFrom cal now requestId userId amount st [] subs

/-- Change the used amount by `delta` (positive consume more, negative refund), not below zero and
not above the total. -/
def postConsumeUserSubscriptionDelta (fault : Bool) (userSubscriptionId delta : ℤ)
    (st : SubscriptionStore) : Except SubscriptionError SubscriptionStore :=
  if userSubscriptionId ≤ 0 then .error .invalidUserSubscriptionId
  else if delta = 0 then .ok st
  else if fault then .error .database
  else match st.findSub userSubscriptionId with
    | none => .error .recordNotFound
    | some sub =>
      let newUsed := max (sub.amountUsed + delta) 0
      if 0 < sub.amountTotal ∧ sub.amountTotal < newUsed then
        .error (.usedExceedsTotal newUsed sub.amountTotal)
      else .ok (st.saveSub { sub with amountUsed := newUsed })

/-- Which statement of a refund attempt fails: the read of the record, the transaction of
`PostConsumeUserSubscriptionDelta`, or the write of the record. -/
structure RefundFaults where
  lookup : Bool := false
  delta : Bool := false
  save : Bool := false
  deriving DecidableEq

/-- What a refund attempt leaves behind. `givenBack` is the row and the amount the inner transaction
committed, whether or not the record was written after it. -/
structure RefundAttempt where
  store : SubscriptionStore
  error : Option SubscriptionError
  givenBack : Option (ℤ × ℤ)

/-- One refund attempt. The amount is committed by the inner transaction before the record is
written. -/
def refundSubscriptionPreConsume (f : RefundFaults) (requestId : String) (st : SubscriptionStore) :
    RefundAttempt :=
  let fail (e : SubscriptionError) : RefundAttempt := ⟨st, some e, none⟩
  if isBlank requestId then fail .requestIdEmpty
  else if f.lookup then fail .database
  else match st.findRecord requestId with
    | none => fail .recordNotFound
    | some record =>
      let refunded := { record with status := PreConsumeStatus.refunded }
      if record.status = .refunded then ⟨st, none, none⟩
      else if record.preConsumed ≤ 0 then
        if f.save then fail .database else ⟨st.saveRecord refunded, none, none⟩
      else match postConsumeUserSubscriptionDelta f.delta record.userSubscriptionId
          (-record.preConsumed) st with
        | .error e => fail e
        | .ok st' =>
          let back := some (record.userSubscriptionId, record.preConsumed)
          if f.save then ⟨st', some .database, back⟩
          else ⟨st'.saveRecord refunded, none, back⟩

/-! ## Rows after a write -/

namespace SubscriptionStore

@[simp] theorem findRecord_saveSub (st : SubscriptionStore) (sub : UserSubscription)
    (requestId : String) : (st.saveSub sub).findRecord requestId = st.findRecord requestId := rfl

variable {st : SubscriptionStore} {sub : UserSubscription}

theorem findSub_id {id : ℤ} (h : st.findSub id = some sub) : sub.id = id := Table.find_key h

theorem findSub_mem {id : ℤ} (h : st.findSub id = some sub) : sub ∈ st.subs := Table.find_mem h

theorem findSub_saveSub {sub old : UserSubscription} (h : st.findSub sub.id = some old) (id : ℤ) :
    (st.saveSub sub).findSub id = if id = sub.id then some sub else st.findSub id :=
  Table.find_save h

theorem used_saveSub (sub : UserSubscription) {old : UserSubscription} (h : st.findSub sub.id = some old) (id : ℤ) :
    (st.saveSub sub).used id = if id = sub.id then some sub.amountUsed else st.used id := by
  unfold used
  rw [findSub_saveSub h]
  by_cases hid : id = sub.id
  · rw [if_pos hid, if_pos hid]; rfl
  · rw [if_neg hid, if_neg hid]

theorem Valid.findSub (hv : st.Valid) (h : sub ∈ st.subs) : st.findSub sub.id = some sub :=
  Table.find_of_mem hv.nodup h

/-- Writing a row with its old id and a used amount within its bounds keeps the tables valid. -/
theorem Valid.saveSub (hv : st.Valid) {sub sub' : UserSubscription} (hfind : st.findSub sub.id = some sub)
    (hid : sub'.id = sub.id) (hb : 0 ≤ sub'.amountUsed ∧ (0 < sub'.amountTotal → sub'.amountUsed ≤ sub'.amountTotal)) :
    (st.saveSub sub').Valid := by
  refine ⟨?_, ?_, ?_⟩
  · exact (Table.map_key_save (k := UserSubscription.id) sub' st.subs).symm ▸ hv.nodup
  · intro x hx
    rcases Table.mem_save hx with rfl | ⟨hm, -⟩
    · rw [hid]; exact hv.pos _ (findSub_mem hfind)
    · exact hv.pos x hm
  · intro x hx
    rcases Table.mem_save hx with rfl | ⟨hm, -⟩
    · exact hb
    · exact hv.bounded x hm

theorem Valid.of_subs {st st' : SubscriptionStore} (hv : st.Valid) (h : st'.subs = st.subs) : st'.Valid :=
  ⟨by rw [h]; exact hv.nodup, by rw [h]; exact hv.pos, by rw [h]; exact hv.bounded⟩

end SubscriptionStore

/-- The lazy reset keeps every column but the used amount and the reset times, and zeroes the used
amount exactly when it says so. -/
theorem maybeReset_spec (cal : Calendar) (plan : SubscriptionPlan) (now : ℤ) (sub : UserSubscription) :
    ∃ last next zeroed, maybeResetUserSubscriptionWithPlanTx cal plan now sub = ({ sub with
          amountUsed := if zeroed then 0 else sub.amountUsed
          lastResetTime := last
          nextResetTime := next }, zeroed) := by
  unfold maybeResetUserSubscriptionWithPlanTx
  by_cases h1 : 0 < sub.nextResetTime ∧ now < sub.nextResetTime
  · rw [if_pos h1]; exact ⟨_, _, false, rfl⟩
  rw [if_neg h1]
  by_cases h2 : plan.quotaResetPeriod = .never
  · rw [if_pos h2]; exact ⟨_, _, false, rfl⟩
  rw [if_neg h2]
  dsimp only
  split
  · split_ifs
    · exact ⟨_, _, false, rfl⟩
    · exact ⟨_, _, false, rfl⟩
  · exact ⟨_, _, true, rfl⟩

theorem resetUserSubscriptionTx_spec (cal : Calendar) (plan : SubscriptionPlan) (now : ℤ)
    (adv : Bool) (sub : UserSubscription) : ∃ last next, resetUserSubscriptionTx cal plan now adv sub =
      { sub with amountUsed := 0, lastResetTime := last, nextResetTime := next } := by
  unfold resetUserSubscriptionTx
  cases adv with
  | false => exact ⟨_, _, rfl⟩
  | true => exact ⟨_, _, rfl⟩

variable {st : SubscriptionStore}

theorem mem_candidates {userId now : ℤ} {c : UserSubscription} : c ∈ candidates st userId now ↔
      c ∈ st.subs ∧ c.userId = userId ∧ c.status = .active ∧ now < c.endTime := by
  unfold candidates
  rw [(List.perm_insertionSort _ _).mem_iff]
  simp

theorem candidates_nodup (hn : (st.subs.map UserSubscription.id).Nodup) (userId now : ℤ) :
    ((candidates st userId now).map UserSubscription.id).Nodup := by
  unfold candidates
  refine ((List.perm_insertionSort _ _).map _).nodup_iff.mpr ?_
  exact hn.sublist (List.filter_sublist.map _)

/-- A committed pre-consume either replays an earlier record and changes nothing, or comes from the
candidate loop. -/
theorem preConsume_ok {now : ℤ} {env : PreConsumeEnv} {requestId : String}
    (h : preConsumeUserSubscription cal now env requestId userId amount st = .ok c) :
    0 < amount ∧ isBlank requestId = false ∧
      ((c.store = st ∧ c.resets = [] ∧ c.charged = none ∧ st.findRecord requestId ≠ none) ∨
        consumeFrom cal now requestId userId amount st [] (candidates st userId now) = .ok c) := by
  unfold preConsumeUserSubscription at h
  by_cases h1 : userId ≤ 0
  · rw [if_pos h1] at h; cases h
  rw [if_neg h1] at h
  by_cases h2 : isBlank requestId = true
  · rw [if_pos h2] at h; cases h
  rw [if_neg h2] at h
  by_cases h3 : amount ≤ 0
  · rw [if_pos h3] at h; cases h
  rw [if_neg h3] at h
  by_cases h4 : env.fault = true
  · rw [if_pos h4] at h; cases h
  rw [if_neg h4] at h
  refine ⟨by omega, by simpa using h2, ?_⟩
  cases hr : (if env.early = true then none else st.findRecord requestId) with
  | some existing =>
    rw [hr] at h
    left
    dsimp only at h
    by_cases h5 : existing.status = .refunded
    · rw [if_pos h5] at h; cases h
    rw [if_neg h5] at h
    have hrec : st.findRecord requestId ≠ none := by
      intro e; rw [e] at hr; simp at hr
    cases hs : st.findSub existing.userSubscriptionId with
    | none => rw [hs] at h; cases h
    | some sub => rw [hs] at h; cases h; exact ⟨rfl, rfl, rfl, hrec⟩
  | none =>
    rw [hr] at h
    right
    dsimp only at h
    by_cases h5 : candidates st userId now = []
    · rw [if_pos h5] at h; cases h
    · rw [if_neg h5] at h; exact h

/-- No lazy reset is due on the rows a pre-consume of the user would look at. -/
def NoResetDue (cal : Calendar) (now : ℤ) (st : SubscriptionStore) (userId : ℤ) : Prop :=
  ∀ sub ∈ candidates st userId now, ∀ plan ∈ st.getSubscriptionPlanById sub.planId,
    (maybeResetUserSubscriptionWithPlanTx cal plan now sub).2 = false

/-- **The charge of a new request.** Without a reset and without an earlier record, the candidate
loop adds the amount to one row, writes the record of the request and changes no other used
amount. -/
theorem consumeFrom_charges {now : ℤ} {requestId : String} (subs : List UserSubscription) :
    ∀ (st : SubscriptionStore) (resets : List ℤ), (∀ s ∈ subs, st.findSub s.id = some s) →
      (subs.map UserSubscription.id).Nodup → (∀ s ∈ subs, ∀ plan ∈ st.getSubscriptionPlanById s.planId,
        (maybeResetUserSubscriptionWithPlanTx cal plan now s).2 = false) → st.findRecord requestId = none →
      consumeFrom cal now requestId userId amount st resets subs = .ok c →
      ∃ sub ∈ subs, c.result.userSubscriptionId = sub.id ∧ c.result.preConsumed = amount ∧ (∀ id, c.store.used id =
          if id = sub.id then some (sub.amountUsed + amount) else st.used id) ∧
        c.store.findRecord requestId = some ⟨requestId, userId, sub.id, amount, .consumed⟩ := by
  induction subs with
  | nil => intro st resets _ _ _ _ h; simp [consumeFrom] at h
  | cons sub rest ih =>
    intro st resets hfind hnodup hreset hrec h
    rw [List.map_cons, List.nodup_cons] at hnodup
    have hsub : st.findSub sub.id = some sub := hfind sub (by simp)
    unfold consumeFrom at h
    cases hp : st.getSubscriptionPlanById sub.planId with
    | none => rw [hp] at h; cases h
    | some plan =>
      rw [hp] at h
      dsimp only at h
      have hz := hreset sub (by simp) plan hp
      obtain ⟨last, next, zeroed, hr⟩ := maybeReset_spec cal plan now sub
      rw [hr] at hz h
      obtain rfl : zeroed = false := hz
      simp only [Bool.false_eq_true, if_false] at h
      -- the write of the reset times changes no used amount
      set sub' : UserSubscription := { sub with lastResetTime := last, nextResetTime := next }
      have hused : ∀ id, (st.saveSub sub').used id = st.used id := by
        intro id
        rw [SubscriptionStore.used_saveSub sub' hsub]
        by_cases hid : id = sub'.id
        · rw [if_pos hid, hid]
          exact (congrArg (Option.map UserSubscription.amountUsed) hsub).symm
        · rw [if_neg hid]
      have hsub' : (st.saveSub sub').findSub sub.id = some sub' := Table.find_save_self hsub rfl
      by_cases hsmall : 0 < sub.amountTotal ∧ sub.amountTotal - sub.amountUsed < amount
      · rw [if_pos hsmall] at h
        have hrest : ∀ s ∈ rest, (st.saveSub sub').findSub s.id = some s := by
          intro s hs
          have hne : s.id ≠ sub'.id := fun e => hnodup.1 (e ▸ List.mem_map_of_mem hs)
          exact (Table.find_save_ne st.subs hne).trans (hfind s (by simp [hs]))
        obtain ⟨x, hx, h1, h2, h3, h4⟩ := ih (st.saveSub sub') resets hrest hnodup.2
          (fun s hs plan hplan => hreset s (by simp [hs]) plan hplan) hrec h
        refine ⟨x, by simp [hx], h1, h2, fun id => ?_, h4⟩
        rw [h3 id, hused]
      · rw [if_neg hsmall, SubscriptionStore.findRecord_saveSub, hrec] at h
        cases h
        refine ⟨sub, by simp, rfl, rfl, fun id => ?_, ?_⟩
        · have hw := SubscriptionStore.used_saveSub
            { sub' with amountUsed := sub.amountUsed + amount } hsub' id
          exact hw.trans (by rw [hused])
        · show Table.find _ requestId (st.records ++ _) = _
          unfold Table.find
          rw [List.find?_append]
          have hnone : st.records.find? (fun r => decide (r.requestId = requestId)) = none := hrec
          rw [hnone]
          simp

/-- A committed change of the used amount writes one row, unless the delta is zero. -/
theorem postConsume_ok {fault : Bool} {id delta : ℤ} {st st' : SubscriptionStore}
    (h : postConsumeUserSubscriptionDelta fault id delta st = .ok st') : (delta = 0 ∧ st' = st) ∨
      (delta ≠ 0 ∧ fault = false ∧ 0 < id ∧ ∃ sub, st.findSub id = some sub ∧
        (0 < sub.amountTotal → max (sub.amountUsed + delta) 0 ≤ sub.amountTotal) ∧
        st' = st.saveSub { sub with amountUsed := max (sub.amountUsed + delta) 0 }) := by
  unfold postConsumeUserSubscriptionDelta at h
  by_cases h1 : id ≤ 0
  · rw [if_pos h1] at h; cases h
  rw [if_neg h1] at h
  by_cases h2 : delta = 0
  · rw [if_pos h2] at h; cases h; exact .inl ⟨h2, rfl⟩
  rw [if_neg h2] at h
  by_cases h3 : fault = true
  · rw [if_pos h3] at h; cases h
  rw [if_neg h3] at h
  refine .inr ⟨h2, by simpa using h3, by omega, ?_⟩
  cases hs : st.findSub id with
  | none => rw [hs] at h; cases h
  | some sub =>
    rw [hs] at h
    dsimp only at h
    by_cases h4 : 0 < sub.amountTotal ∧ sub.amountTotal < max (sub.amountUsed + delta) 0
    · rw [if_pos h4] at h; cases h
    · rw [if_neg h4] at h
      cases h
      exact ⟨sub, rfl, fun ht => by omega, rfl⟩

/-- Without a fault, a change of a row that stays within its total commits. -/
theorem postConsume_eq {id delta : ℤ} {sub : UserSubscription} (hid : 0 < id) (hdelta : delta ≠ 0)
    (hfind : st.findSub id = some sub) (hfit : 0 < sub.amountTotal → max (sub.amountUsed + delta) 0 ≤ sub.amountTotal) :
    postConsumeUserSubscriptionDelta false id delta st =
      .ok (st.saveSub { sub with amountUsed := max (sub.amountUsed + delta) 0 }) := by
  unfold postConsumeUserSubscriptionDelta
  rw [if_neg (by omega), if_neg hdelta, if_neg (by decide), hfind]
  dsimp only
  rw [if_neg (by omega)]

end Vancine.Subscription
