import Mathlib.Data.List.Infix
import Vancine.Lib.Run
import Vancine.Subscription.Store

/-!
# One charge a request

A call of `PreConsumeUserSubscription` first reads the record of its request without a lock. If there is
one, the call answers from it. If there is none, it locks the subscriptions of the user and charges the first
one with room; it creates the record in the same transaction, and the unique index on the request id lets
only one of the calls that came this far do so. The others find the record when they cannot create theirs,
and answer from it with the subscription they were looking at.

The rows that a call locks stay locked until it commits, so that what follows the first read is one step
here. Any number of calls and refunds, of any requests, are under way at the same time. A refund gives the
amount back in a transaction of its own, before it writes the record that it holds locked.
-/

namespace Vancine.Subscription

open Lib

/-! ## Calls and charges -/

/-- A call that found no record of its request. -/
structure PreConsumeCall where
  requestId : String
  userId : ℤ
  amount : ℤ
  deriving DecidableEq

/-- An amount that was added to a subscription for a request. -/
structure Charge where
  requestId : String
  userSubscriptionId : ℤ
  amount : ℤ
  deriving DecidableEq

structure PreConsumeState where
  store : SubscriptionStore
  calls : List PreConsumeCall
  refunding : List String
  charges : List Charge
  reports : List (String × SubscriptionPreConsumeResult)

inductive PreConsumeAction
  | call (requestId : String) (userId amount : ℤ) (fault : Bool)
  | finish (i : ℕ) (now : ℤ) (fault : Bool)
  | refund (faults : RefundFaults) (requestId : String)
  | refundRecord (requestId : String) (fault : Bool)

/-- A committed transaction: what it charged and what it returned. -/
def PreConsumeState.commit (s : PreConsumeState) (call : PreConsumeCall) (c : PreConsumeCommit) :
    PreConsumeState :=
  { s with
    store := c.store
    charges := s.charges ++ (c.charged.map fun id => ⟨call.requestId, id, call.amount⟩).toList
    reports := (call.requestId, c.result) :: s.reports }

def preConsumeStep (cal : Calendar) (s : PreConsumeState) : PreConsumeAction → PreConsumeState
  | .call requestId userId amount fault =>
    if userId ≤ 0 ∨ isBlank requestId ∨ amount ≤ 0 ∨ fault then s
    else match s.store.findRecord requestId with
      | none => { s with calls := s.calls ++ [⟨requestId, userId, amount⟩] }
      | some _ =>
        match preConsumeUserSubscription cal 0 {} requestId userId amount s.store with
        | .ok c => s.commit ⟨requestId, userId, amount⟩ c
        | .error _ => s
  | .finish i now fault =>
    match s.calls[i]? with
    | none => s
    | some call =>
      let s' := { s with calls := s.calls.eraseIdx i }
      match preConsumeUserSubscription cal now { fault, early := true } call.requestId call.userId
          call.amount s.store with
      | .ok c => s'.commit call c
      | .error _ => s'
  | .refund faults requestId =>
    -- the record is locked by a refund that has not written it yet
    if requestId ∈ s.refunding then s
    else
      let r := refundSubscriptionPreConsume { faults with save := true } requestId s.store
      { s with
        store := r.store
        refunding := if r.givenBack.isSome then requestId :: s.refunding else s.refunding }
  | .refundRecord requestId fault =>
    if requestId ∈ s.refunding then
      match s.store.findRecord requestId with
      | some record =>
        { s with
          store := if fault then s.store else s.store.saveRecord { record with status := .refunded }
          refunding := s.refunding.erase requestId }
      | none => s
    else s

def SubscriptionPreConsumeRecord.charge (record : SubscriptionPreConsumeRecord) : Charge :=
  ⟨record.requestId, record.userSubscriptionId, record.preConsumed⟩

/-- A state with the charges of the records that are there, and no call under way. -/
def PreConsumeState.start (st : SubscriptionStore) : PreConsumeState :=
  ⟨st, [], [], st.records.map SubscriptionPreConsumeRecord.charge, []⟩

/-! ## What is promised -/

/-- Every request is charged to at most one subscription and at most once. -/
def ChargedOnce (s : PreConsumeState) : Prop := (s.charges.map Charge.requestId).Nodup

/-- Every successful call reported a charge of its request. -/
def Reported (s : PreConsumeState) : Prop :=
  ∀ report ∈ s.reports, ⟨report.1, report.2.userSubscriptionId, report.2.preConsumed⟩ ∈ s.charges

section Room

variable (cal : Calendar) (now amount : ℤ) (st : SubscriptionStore)

/-- The row has too little left, after the reset that may be due. -/
def TooSmall (plan : SubscriptionPlan) (candidate : UserSubscription) : Prop :=
  let sub := (maybeResetUserSubscriptionWithPlanTx cal plan now candidate).1
  0 < sub.amountTotal ∧ sub.amountTotal - sub.amountUsed < amount

instance (plan : SubscriptionPlan) (candidate : UserSubscription) :
    Decidable (TooSmall cal now amount plan candidate) :=
  inferInstanceAs (Decidable (_ ∧ _))

/-- The first row with room for the amount. -/
def FirstWithRoom (subs : List UserSubscription) (sub : UserSubscription) : Prop :=
  ∃ pre rest, subs = pre ++ sub :: rest ∧
    (∀ c ∈ pre, ∃ plan, st.getSubscriptionPlanById c.planId = some plan ∧ TooSmall cal now amount plan c) ∧
    ∃ plan, st.getSubscriptionPlanById sub.planId = some plan ∧ ¬TooSmall cal now amount plan sub

end Room

/-- A call that goes on after another one has committed is looking at the subscription that was charged. -/
def Undivided (cal : Calendar) (s : PreConsumeState) : PreConsumeAction → Prop
  | .finish i now false => ∀ call ∈ s.calls[i]?, ∀ record ∈ s.store.findRecord call.requestId,
      record.status = .consumed →
      ∀ sub, FirstWithRoom cal now call.amount s.store (candidates s.store call.userId now) sub →
        sub.id = record.userSubscriptionId
  | _ => True

/-! ## The loop -/

section Loop

variable {cal : Calendar} {now : ℤ} {requestId : String} {userId amount : ℤ}

variable {st : SubscriptionStore} {subs : List UserSubscription}

theorem firstWithRoom_cons {c sub : UserSubscription} {plan : SubscriptionPlan}
    (hplan : st.getSubscriptionPlanById c.planId = some plan) : FirstWithRoom cal now amount st (c :: subs) sub ↔
      if TooSmall cal now amount plan c then FirstWithRoom cal now amount st subs sub else sub = c := by
  constructor
  · rintro ⟨pre, rest, hsubs, hpre, hsub⟩
    cases pre with
    | nil =>
      cases hsubs
      obtain ⟨plan', hplan', hroom⟩ := hsub
      rw [hplan] at hplan'
      cases hplan'
      rw [if_neg hroom]
    | cons c' pre =>
      cases hsubs
      rw [List.forall_mem_cons] at hpre
      obtain ⟨⟨plan', hplan', hsmall⟩, hpre⟩ := hpre
      rw [hplan] at hplan'
      cases hplan'
      rw [if_pos hsmall]
      exact ⟨pre, rest, rfl, hpre, hsub⟩
  · intro h
    split_ifs at h with hsmall
    · obtain ⟨pre, rest, rfl, hpre, hsub⟩ := h
      exact ⟨c :: pre, rest, rfl, List.forall_mem_cons.mpr ⟨⟨plan, hplan, hsmall⟩, hpre⟩, hsub⟩
    · subst h
      exact ⟨[], subs, rfl, List.forall_mem_nil _, plan, hplan, hsmall⟩

theorem firstWithRoom_unique {sub sub' : UserSubscription} (h : FirstWithRoom cal now amount st subs sub)
    (h' : FirstWithRoom cal now amount st subs sub') : sub = sub' := by
  induction subs with
  | nil =>
    obtain ⟨pre, rest, heq, -⟩ := h
    cases pre <;> cases heq
  | cons c subs ih =>
    have hplan : ∃ plan, st.getSubscriptionPlanById c.planId = some plan := by
      obtain ⟨pre, rest, heq, hpre, plan, hplan, -⟩ := h
      cases pre with
      | nil =>
        cases heq
        exact ⟨plan, hplan⟩
      | cons c' pre =>
        cases heq
        obtain ⟨plan', hplan', -⟩ := hpre _ List.mem_cons_self
        exact ⟨plan', hplan'⟩
    obtain ⟨plan, hplan⟩ := hplan
    rw [firstWithRoom_cons hplan] at h h'
    split_ifs at h h'
    · exact ih h h'
    · rw [h, h']

theorem consumeFrom_spec (cal : Calendar) (subs : List UserSubscription) (st : SubscriptionStore) (resets : List ℤ) :
    (∃ e, consumeFrom cal now requestId userId amount st resets subs = .error e ∧
      ∀ sub, FirstWithRoom cal now amount st subs sub → ∃ dup, st.findRecord requestId = some dup ∧
        dup.status = .refunded) ∨ ∃ c sub, consumeFrom cal now requestId userId amount st resets subs = .ok c ∧
      FirstWithRoom cal now amount st subs sub ∧ c.result.userSubscriptionId = sub.id ∧
      ((st.findRecord requestId = none ∧ c.charged = some sub.id ∧ c.result.preConsumed = amount ∧
          c.store.records = st.records ++ [⟨requestId, userId, sub.id, amount, .consumed⟩]) ∨
        ∃ dup, st.findRecord requestId = some dup ∧ dup.status = .consumed ∧ c.charged = none ∧
          c.result.preConsumed = dup.preConsumed ∧ c.store.records = st.records) := by
  induction subs generalizing st resets with
  | nil =>
    refine .inl ⟨_, rfl, ?_⟩
    rintro sub ⟨pre, rest, h, -⟩
    cases pre <;> cases h
  | cons candidate rest ih =>
    unfold consumeFrom
    cases hplan : st.getSubscriptionPlanById candidate.planId with
    | none =>
      refine .inl ⟨_, rfl, ?_⟩
      rintro sub ⟨pre, rest', h, hpre, plan, hsome, -⟩
      cases pre with
      | nil =>
        cases h
        rw [hplan] at hsome
        cases hsome
      | cons c pre =>
        cases h
        obtain ⟨plan', hplan', -⟩ := hpre _ List.mem_cons_self
        rw [hplan] at hplan'
        cases hplan'
    | some plan =>
      obtain ⟨last, next, zeroed, hreset⟩ := maybeReset_spec cal plan now candidate
      have hid : (maybeResetUserSubscriptionWithPlanTx cal plan now candidate).1.id = candidate.id := by
        rw [hreset]
      have hfirst (sub : UserSubscription) : FirstWithRoom cal now amount st (candidate :: rest) sub ↔ _ :=
        firstWithRoom_cons hplan
      dsimp only
      by_cases hsmall : TooSmall cal now amount plan candidate
      · have hsmall' : 0 < (maybeResetUserSubscriptionWithPlanTx cal plan now candidate).1.amountTotal ∧
            (maybeResetUserSubscriptionWithPlanTx cal plan now candidate).1.amountTotal -
              (maybeResetUserSubscriptionWithPlanTx cal plan now candidate).1.amountUsed < amount := hsmall
        rw [if_pos hsmall']
        simp only [hfirst, if_pos hsmall]
        exact ih _ _
      · have hsmall' : ¬(0 < (maybeResetUserSubscriptionWithPlanTx cal plan now candidate).1.amountTotal ∧
            (maybeResetUserSubscriptionWithPlanTx cal plan now candidate).1.amountTotal -
              (maybeResetUserSubscriptionWithPlanTx cal plan now candidate).1.amountUsed < amount) := hsmall
        rw [if_neg hsmall']
        simp only [hfirst, if_neg hsmall, SubscriptionStore.findRecord_saveSub]
        cases hrec : st.findRecord requestId with
        | none => exact .inr ⟨_, candidate, rfl, rfl, hid, .inl ⟨rfl, congrArg some hid, rfl, by rw [hid]; rfl⟩⟩
        | some dup =>
          dsimp only
          cases hstatus : dup.status with
          | refunded =>
            rw [if_pos rfl]
            exact .inl ⟨_, rfl, fun _ _ => ⟨dup, rfl, hstatus⟩⟩
          | consumed =>
            rw [if_neg (by decide)]
            exact .inr ⟨_, candidate, rfl, rfl, hid, .inr ⟨dup, rfl, hstatus, rfl, rfl, rfl⟩⟩

end Loop

/-! ## One step -/

/-- The charges are those of the records, each request has one, and every call under way passed its checks. -/
structure Consistent (s : PreConsumeState) : Prop where
  charges : s.charges = s.store.records.map SubscriptionPreConsumeRecord.charge
  unique : (s.store.records.map SubscriptionPreConsumeRecord.requestId).Nodup
  calls : ∀ call ∈ s.calls, 0 < call.userId ∧ isBlank call.requestId = false ∧ 0 < call.amount

section Step

variable {cal : Calendar} {s : PreConsumeState}

theorem Consistent.chargedOnce (h : Consistent s) : ChargedOnce s := by
  unfold ChargedOnce
  rw [h.charges, List.map_map]
  exact h.unique

variable {record : SubscriptionPreConsumeRecord} {st : SubscriptionStore} {call : PreConsumeCall} {c : PreConsumeCommit}

theorem Consistent.mem_charges (h : Consistent s) {requestId : String}
    (hrec : s.store.findRecord requestId = some record) {id amount : ℤ} :
    ⟨requestId, id, amount⟩ ∈ s.charges ↔ id = record.userSubscriptionId ∧ amount = record.preConsumed := by
  have hmem : record ∈ s.store.records := Table.find_mem hrec
  have hkey : record.requestId = requestId := Table.find_key hrec
  rw [h.charges, List.mem_map]
  constructor
  · rintro ⟨other, hother, heq⟩
    have hsame : other = record := by
      refine List.inj_on_of_nodup_map h.unique hother hmem ?_
      rw [hkey]
      exact congrArg Charge.requestId heq
    subst hsame
    cases heq
    exact ⟨rfl, rfl⟩
  · rintro ⟨rfl, rfl⟩
    exact ⟨record, hmem, by rw [← hkey]; rfl⟩

variable {calls : List PreConsumeCall} {refunding : List String}
  {reports : List (String × SubscriptionPreConsumeResult)}

/-- A record that is not there names no charge yet, and a new one keeps the ids apart. -/
theorem Consistent.append (h : Consistent s) (hrec : s.store.findRecord record.requestId = none)
    (hst : st.records = s.store.records ++ [record]) (hcalls : ∀ call ∈ calls, call ∈ s.calls) :
    Consistent ⟨st, calls, refunding, s.charges ++ [record.charge], reports⟩ := by
  refine ⟨?_, ?_, fun call hcall => h.calls call (hcalls call hcall)⟩
  · show s.charges ++ [record.charge] = st.records.map _
    rw [hst, h.charges, List.map_append]
    rfl
  · show (st.records.map _).Nodup
    rw [hst, List.map_append, List.nodup_append]
    refine ⟨h.unique, List.nodup_singleton _, ?_⟩
    intro a ha b hb
    rw [List.map_singleton, List.mem_singleton] at hb
    subst hb
    rintro rfl
    obtain ⟨other, hother, hid⟩ := List.mem_map.mp ha
    have hfind := Table.find_of_mem h.unique hother
    rw [hid] at hfind
    have hfind' : s.store.findRecord record.requestId = some other := hfind
    rw [hrec] at hfind'
    cases hfind'

theorem Consistent.of_records (h : Consistent s)
    (hst : st.records.map SubscriptionPreConsumeRecord.charge = s.store.records.map SubscriptionPreConsumeRecord.charge)
    (hcalls : ∀ call ∈ calls, 0 < call.userId ∧ isBlank call.requestId = false ∧ 0 < call.amount) :
    Consistent ⟨st, calls, refunding, s.charges, reports⟩ := by
  have hids : st.records.map SubscriptionPreConsumeRecord.requestId =
      s.store.records.map SubscriptionPreConsumeRecord.requestId := by
    have hmap := congrArg (List.map Charge.requestId) hst
    rwa [List.map_map, List.map_map] at hmap
  refine ⟨h.charges.trans hst.symm, ?_, hcalls⟩
  show (st.records.map SubscriptionPreConsumeRecord.requestId).Nodup
  rw [hids]
  exact h.unique

theorem saveRecord_charge {requestId : String} (hn : (st.records.map SubscriptionPreConsumeRecord.requestId).Nodup)
    (h : st.findRecord requestId = some record) :
    (st.saveRecord { record with status := .refunded }).records.map SubscriptionPreConsumeRecord.charge =
      st.records.map SubscriptionPreConsumeRecord.charge := by
  unfold SubscriptionStore.saveRecord Table.save
  rw [List.map_map]
  refine List.map_congr_left fun other hother => ?_
  by_cases hid : other.requestId = record.requestId
  · have hsame : other = record := List.inj_on_of_nodup_map hn hother (Table.find_mem h) hid
    subst hsame
    simp [SubscriptionPreConsumeRecord.charge]
  · simp [hid]

/-- A refund that has not written its record leaves the records alone. -/
theorem refund_records (faults : RefundFaults) (requestId : String) (st : SubscriptionStore) :
    (refundSubscriptionPreConsume { faults with save := true } requestId st).store.records = st.records := by
  unfold refundSubscriptionPreConsume
  simp only [if_true]
  split_ifs
  · rfl
  · rfl
  · cases st.findRecord requestId with
    | none => rfl
    | some record =>
      dsimp only
      split_ifs
      · rfl
      · rfl
      · cases hpost : postConsumeUserSubscriptionDelta faults.delta record.userSubscriptionId
            (-record.preConsumed) st with
        | error e => rfl
        | ok st' =>
          dsimp only
          rcases postConsume_ok hpost with ⟨-, rfl⟩ | ⟨-, -, -, sub, -, -, rfl⟩
          · rfl
          · rfl

theorem preConsume_early (cal : Calendar) (hcall : 0 < call.userId ∧ isBlank call.requestId = false ∧ 0 < call.amount)
    (now : ℤ) (st : SubscriptionStore) :
    preConsumeUserSubscription cal now { early := true } call.requestId call.userId call.amount st =
      if candidates st call.userId now = [] then .error .noActiveSubscription
      else consumeFrom cal now call.requestId call.userId call.amount st [] (candidates st call.userId now) := by
  unfold preConsumeUserSubscription
  rw [if_neg (by omega), if_neg (by simp [hcall.2.1]), if_neg (by omega), if_neg (by decide)]
  rfl

/-- A call that fails, or one that found nothing to go on with, leaves no trace. -/
theorem Consistent.drop (h : Consistent s) (i : ℕ) : Consistent { s with calls := s.calls.eraseIdx i } :=
  h.of_records rfl fun call hcall => h.calls call (List.mem_of_mem_eraseIdx hcall)

theorem reported_commit (hr : Reported s) : Reported (s.commit call c) ↔
      ⟨call.requestId, c.result.userSubscriptionId, c.result.preConsumed⟩ ∈ (s.commit call c).charges := by
  unfold Reported
  constructor
  · intro h
    exact h (call.requestId, c.result) List.mem_cons_self
  · intro h report hreport
    rcases List.mem_cons.mp hreport with rfl | hreport
    · exact h
    · exact List.mem_append_left _ (hr report hreport)

theorem commit_new (h : Consistent s) {id : ℤ} (hrec : s.store.findRecord call.requestId = none)
    (hid : c.result.userSubscriptionId = id) (hcharged : c.charged = some id)
    (hamount : c.result.preConsumed = call.amount)
    (hrecords : c.store.records = s.store.records ++ [⟨call.requestId, call.userId, id, call.amount, .consumed⟩]) :
    Consistent (s.commit call c) ∧ (Reported s → Reported (s.commit call c)) := by
  have hcharges : (s.commit call c).charges = s.charges ++ [⟨call.requestId, id, call.amount⟩] := by
    show s.charges ++ (c.charged.map _).toList = _
    rw [hcharged]
    rfl
  constructor
  · have happend : Consistent ⟨c.store, s.calls, s.refunding, s.charges ++ [⟨call.requestId, id, call.amount⟩],
        (call.requestId, c.result) :: s.reports⟩ := h.append hrec hrecords fun _ hcall => hcall
    rw [← hcharges] at happend
    exact happend
  · intro hr
    rw [reported_commit hr, hcharges, hid, hamount]
    exact List.mem_append_right _ List.mem_cons_self

/-- A transaction that answers from the record of its request. -/
theorem commit_recorded (h : Consistent s) (hrec : s.store.findRecord call.requestId = some record)
    (hcharged : c.charged = none) (hamount : c.result.preConsumed = record.preConsumed)
    (hrecords : c.store.records = s.store.records) : Consistent (s.commit call c) ∧ (Reported s →
      (Reported (s.commit call c) ↔ c.result.userSubscriptionId = record.userSubscriptionId)) := by
  have hcharges : (s.commit call c).charges = s.charges := by
    show s.charges ++ (c.charged.map _).toList = _
    rw [hcharged]
    exact List.append_nil _
  constructor
  · have hkeep : Consistent ⟨c.store, s.calls, s.refunding, s.charges,
        (call.requestId, c.result) :: s.reports⟩ := h.of_records (by rw [hrecords]) h.calls
    rw [← hcharges] at hkeep
    exact hkeep
  · intro hr
    rw [reported_commit hr, hcharges, h.mem_charges hrec, hamount, and_iff_left rfl]

/-- What a call does that goes on: it charges the request, or it answers from the record. -/
theorem finish_law (h : Consistent s) (i : ℕ) (now : ℤ) (fault : Bool) :
    Consistent (preConsumeStep cal s (.finish i now fault)) ∧
      (Reported s → (Reported (preConsumeStep cal s (.finish i now fault)) ↔
        Undivided cal s (.finish i now fault))) := by
  cases hi : s.calls[i]? with
  | none =>
    have hstep : preConsumeStep cal s (.finish i now fault) = s := by
      simp only [preConsumeStep, hi]
    rw [hstep]
    refine ⟨h, fun hr => iff_of_true hr ?_⟩
    cases fault with
    | true => trivial
    | false =>
      intro call hcall
      rw [hi] at hcall
      cases hcall
  | some call =>
    have hvalid := h.calls call (List.mem_of_getElem? hi)
    have hdrop := h.drop i
    have hfail {e : SubscriptionError} {env : PreConsumeEnv} (henv : env = { fault, early := true })
        (herror : preConsumeUserSubscription cal now env call.requestId call.userId call.amount s.store = .error e) :
        preConsumeStep cal s (.finish i now fault) = { s with calls := s.calls.eraseIdx i } := by
      simp only [preConsumeStep, hi]
      rw [← henv, herror]
    have hcommit {c : PreConsumeCommit} {env : PreConsumeEnv} (henv : env = { fault, early := true })
        (hok : preConsumeUserSubscription cal now env call.requestId call.userId call.amount s.store = .ok c) :
        preConsumeStep cal s (.finish i now fault) =
          ({ s with calls := s.calls.eraseIdx i } : PreConsumeState).commit call c := by
      simp only [preConsumeStep, hi]
      rw [← henv, hok]
    cases fault with
    | true =>
      have herror : preConsumeUserSubscription cal now { fault := true, early := true } call.requestId
          call.userId call.amount s.store = .error .database := by
        unfold preConsumeUserSubscription
        rw [if_neg (by omega), if_neg (by simp [hvalid.2.1]), if_neg (by omega), if_pos rfl]
      rw [hfail rfl herror]
      exact ⟨hdrop, fun hr => iff_of_true hr trivial⟩
    | false =>
      have hearly := preConsume_early cal hvalid now s.store
      have hundivided : Undivided cal s (.finish i now false) ↔
          ∀ record ∈ s.store.findRecord call.requestId, record.status = .consumed →
          ∀ sub, FirstWithRoom cal now call.amount s.store (candidates s.store call.userId now) sub →
            sub.id = record.userSubscriptionId := by
        show (∀ call' ∈ s.calls[i]?, _) ↔ _
        rw [hi]
        simp
      rw [hundivided]
      by_cases hnone : candidates s.store call.userId now = []
      · rw [if_pos hnone] at hearly
        rw [hfail rfl hearly]
        refine ⟨hdrop, fun hr => iff_of_true hr ?_⟩
        rintro record - - sub ⟨pre, rest, heq, -⟩
        rw [hnone] at heq
        cases pre <;> cases heq
      · rw [if_neg hnone] at hearly
        rcases consumeFrom_spec cal (candidates s.store call.userId now) s.store [] with
          ⟨e, herror, hrefunded⟩ | ⟨c, sub, hok, hfirst, hid, hnew | hdup⟩
        · rw [hfail rfl (hearly.trans herror)]
          refine ⟨hdrop, fun hr => iff_of_true hr ?_⟩
          intro record hrec hconsumed sub hfirst
          obtain ⟨dup, hdup, hstatus⟩ := hrefunded sub hfirst
          rw [hdup] at hrec
          cases hrec
          rw [hstatus] at hconsumed
          cases hconsumed
        · obtain ⟨hrec, hcharged, hamount, hrecords⟩ := hnew
          rw [hcommit rfl (hearly.trans hok)]
          obtain ⟨hcons, hrep⟩ := commit_new hdrop hrec hid hcharged hamount hrecords
          refine ⟨hcons, fun hr => iff_of_true (hrep hr) ?_⟩
          intro record hsome
          rw [hrec] at hsome
          cases hsome
        · obtain ⟨dup, hrec, hstatus, hcharged, hamount, hrecords⟩ := hdup
          rw [hcommit rfl (hearly.trans hok)]
          obtain ⟨hcons, hrep⟩ := commit_recorded hdrop hrec hcharged hamount hrecords
          refine ⟨hcons, fun hr => (hrep hr).trans ?_⟩
          rw [hid, hrec]
          constructor
          · intro heq record hsome _ sub' hfirst'
            cases hsome
            rw [← firstWithRoom_unique hfirst hfirst']
            exact heq
          · intro hall
            exact hall dup rfl hstatus sub hfirst

theorem call_law (h : Consistent s) (requestId : String) (userId amount : ℤ) (fault : Bool) :
    Consistent (preConsumeStep cal s (.call requestId userId amount fault)) ∧
      (Reported s → Reported (preConsumeStep cal s (.call requestId userId amount fault))) := by
  simp only [preConsumeStep]
  split_ifs with hreject
  · exact ⟨h, id⟩
  have hvalid : 0 < userId ∧ isBlank requestId = false ∧ 0 < amount := by
    simp only [not_or, Bool.not_eq_true] at hreject
    exact ⟨by omega, hreject.2.1, by omega⟩
  cases hrec : s.store.findRecord requestId with
  | none =>
    refine ⟨h.of_records rfl ?_, id⟩
    intro call hcall
    rcases List.mem_append.mp hcall with hcall | hcall
    · exact h.calls call hcall
    · rw [List.mem_singleton.mp hcall]
      exact hvalid
  | some record =>
    dsimp only
    unfold preConsumeUserSubscription
    rw [if_neg (by omega), if_neg (by simp [hvalid.2.1]), if_neg (by omega), if_neg (by decide),
      if_neg (by decide), hrec]
    dsimp only
    split_ifs
    · exact ⟨h, id⟩
    cases hsub : s.store.findSub record.userSubscriptionId with
    | none => exact ⟨h, id⟩
    | some sub =>
      dsimp only
      have hcall : s.store.findRecord (PreConsumeCall.mk requestId userId amount).requestId = some record := hrec
      obtain ⟨hcons, hrep⟩ := commit_recorded (c := ⟨s.store, ⟨sub.id, record.preConsumed, sub.amountTotal,
        sub.amountUsed, sub.amountUsed⟩, [], none⟩) h hcall rfl rfl rfl
      exact ⟨hcons, fun hr => (hrep hr).mpr (SubscriptionStore.findSub_id hsub)⟩

/-- **One step.** Every step keeps the charges to one a request, and what it reports is a charge exactly when
the call is looking at the subscription that was charged. -/
theorem preConsumeStep_law (h : Consistent s) (a : PreConsumeAction) : Consistent (preConsumeStep cal s a) ∧
      (Reported s → (Reported (preConsumeStep cal s a) ↔ Undivided cal s a)) := by
  cases a with
  | call requestId userId amount fault =>
    obtain ⟨hcons, hrep⟩ := call_law h requestId userId amount fault
    exact ⟨hcons, fun hr => iff_of_true (hrep hr) trivial⟩
  | finish i now fault => exact finish_law h i now fault
  | refund faults requestId =>
    simp only [preConsumeStep]
    by_cases hlocked : requestId ∈ s.refunding
    · rw [if_pos hlocked]
      exact ⟨h, fun hr => iff_of_true hr trivial⟩
    · rw [if_neg hlocked]
      refine ⟨h.of_records ?_ h.calls, fun hr => iff_of_true hr trivial⟩
      exact congrArg (List.map SubscriptionPreConsumeRecord.charge) (refund_records faults requestId s.store)
  | refundRecord requestId fault =>
    simp only [preConsumeStep]
    by_cases hlocked : requestId ∈ s.refunding
    · rw [if_pos hlocked]
      cases hrec : s.store.findRecord requestId with
      | none => exact ⟨h, fun hr => iff_of_true hr trivial⟩
      | some record =>
        refine ⟨h.of_records ?_ h.calls, fun hr => iff_of_true hr trivial⟩
        cases fault with
        | true => rfl
        | false => exact saveRecord_charge h.unique hrec
    · rw [if_neg hlocked]
      exact ⟨h, fun hr => iff_of_true hr trivial⟩

end Step

/-! ## Whole runs -/

theorem start_consistent {st : SubscriptionStore} (h : (st.records.map SubscriptionPreConsumeRecord.requestId).Nodup) :
    Consistent (PreConsumeState.start st) :=
  ⟨rfl, h, fun _ hcall => nomatch hcall⟩

/-- **Idempotency.** In every run each request is charged to at most one subscription and at most once. Every
successful call of the run reports the subscription and the amount that were charged, exactly when no call
goes on, after another call of its request has committed, with a first subscription with room that is not
the one that was charged. -/
theorem pre_consume_once (cal : Calendar) (st : SubscriptionStore)
    (h : (st.records.map SubscriptionPreConsumeRecord.requestId).Nodup) (as : List PreConsumeAction) :
    (∀ pre, pre <+: as → ChargedOnce (run (preConsumeStep cal) (PreConsumeState.start st) pre)) ∧
    ((∀ pre, pre <+: as → Reported (run (preConsumeStep cal) (PreConsumeState.start st) pre)) ↔
      Along (preConsumeStep cal) (Undivided cal) (PreConsumeState.start st) as) := by
  have hstart := start_consistent h
  have hstep : ∀ s a, Consistent s → Consistent (preConsumeStep cal s a) :=
    fun s a hs => (preConsumeStep_law hs a).1
  constructor
  · intro pre _
    exact (run_invariant hstep hstart pre).chargedOnce
  · exact run_forall_iff_along (I := Consistent) hstep
      (fun _ a hs hr => (preConsumeStep_law hs a).2 hr) hstart (fun _ hreport => nomatch hreport) as

/-! Two subscriptions of user 7. -/

def twoSubscriptions : SubscriptionStore :=
  let sub : UserSubscription :=
    { id := 3, userId := 7, planId := 1, amountTotal := 100, amountUsed := 0, startTime := 0,
      endTime := 864000, status := .active, lastResetTime := 0, nextResetTime := 0 }
  ⟨[⟨1, .never, 0⟩], [sub, { sub with id := 4 }], []⟩

/-- Two calls at once, a later one, and a refund. -/
theorem pre_consume_once_small : ∃ as, Along (preConsumeStep utc) (Undivided utc)
    (PreConsumeState.start twoSubscriptions) as ∧
    (run (preConsumeStep utc) (PreConsumeState.start twoSubscriptions) as).charges = [⟨"r", 3, 30⟩] ∧
    (run (preConsumeStep utc) (PreConsumeState.start twoSubscriptions) as).reports.length = 3 := by
  let as : List PreConsumeAction := [.call "r" 7 30 false, .call "r" 7 30 false, .finish 0 10 false,
    .call "r" 7 30 false, .finish 0 10 false, .refund {} "r", .refundRecord "r" false, .call "r" 7 30 false]
  have hreported : ∀ pre ∈ as.inits,
      Reported (run (preConsumeStep utc) (PreConsumeState.start twoSubscriptions) pre) := by
    unfold Reported
    decide
  refine ⟨as, ?_, by decide, by decide⟩
  exact (pre_consume_once utc twoSubscriptions (by decide) as).2.mp fun pre hpre =>
    hreported pre ((List.mem_inits _ _).mpr hpre)

/-- Two calls at once, with room for one of them in the first subscription: the second call charges nothing
and reports the second subscription. -/
theorem second_call_reports_other_subscription :
    (run (preConsumeStep utc) (PreConsumeState.start twoSubscriptions) [.call "r" 7 60 false,
      .call "r" 7 60 false, .finish 0 10 false, .finish 0 10 false]).charges = [⟨"r", 3, 60⟩] ∧
    ¬Reported (run (preConsumeStep utc) (PreConsumeState.start twoSubscriptions) [.call "r" 7 60 false,
      .call "r" 7 60 false, .finish 0 10 false, .finish 0 10 false]) := by
  unfold Reported
  decide

end Vancine.Subscription
