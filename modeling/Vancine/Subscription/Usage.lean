import Vancine.Lib.Run
import Vancine.Lib.Tally
import Vancine.Subscription.Store

/-!
# What the used amount of a subscription stands for

Beside the store, a ledger keeps for every subscription the net amount each request was charged
since the last reset. A reset empties the subscription's tally; a charge adds to the request's
entry; an amount given back is taken from the request's entry, and no more than that entry holds,
because what was charged before the reset is no longer in the used amount.

Every transaction writes single rows (`RowWrite`): it keeps the used amount, zeroes it together
with the tally, or charges both. Only a give-back may part the two: the code subtracts from the
row, clamped at zero, without asking whether the charge was before the last reset. `GivesBack` says
when that is the same as taking it from the request's entry.
-/

namespace Vancine.Subscription

open Lib

/-! ## The ledger -/

/-- The net amount each request was charged on each subscription since its last reset. -/
abbrev Usage := ℤ → Tally String

namespace Usage

def clear (u : Usage) (id : ℤ) : Usage := Function.update u id []

def charge (u : Usage) (id : ℤ) (requestId : String) (amount : ℤ) : Usage :=
  Function.update u id ((u id).add requestId amount)

/-- Take an amount back from a request, at most what the request was charged since the reset. -/
def giveBack (u : Usage) (id : ℤ) (requestId : String) (amount : ℤ) : Usage :=
  u.charge id requestId (-min amount ((u id).get requestId))

end Usage

structure UsageState where
  store : SubscriptionStore
  usage : Usage

/-- One transaction of the run. `PostConsumeUserSubscriptionDelta` takes no request id; the request
it is called for is recorded in the action. A round of `ResetDueSubscriptions` is one action. -/
inductive UsageAction
  | preConsume (now : ℤ) (env : PreConsumeEnv) (requestId : String) (userId amount : ℤ)
  | postDelta (fault : Bool) (requestId : String) (userSubscriptionId delta : ℤ)
  | refund (faults : RefundFaults) (requestId : String)
  | resetDue (now id : ℤ)
  | adminResetUser (now userId planId : ℤ) (advanceResetTime : Bool)
  | adminResetPlan (now planId : ℤ) (advanceResetTime : Bool)

/-- The ledger after a committed reset. -/
def UsageState.applyResets (s : UsageState) (r : SubscriptionStore × List ℤ) : UsageState :=
  ⟨r.1, r.2.foldl Usage.clear s.usage⟩

def usageStep (cal : Calendar) (s : UsageState) : UsageAction → UsageState
  | .preConsume now env requestId userId amount =>
    match preConsumeUserSubscription cal now env requestId userId amount s.store with
    | .error _ => s
    | .ok c =>
      let usage := c.resets.foldl Usage.clear s.usage
      match c.charged with
      | none => ⟨c.store, usage⟩
      | some id => ⟨c.store, usage.charge id requestId amount⟩
  | .postDelta fault requestId id delta =>
    match postConsumeUserSubscriptionDelta fault id delta s.store with
    | .error _ => s
    | .ok st =>
      if delta = 0 then ⟨st, s.usage⟩
      else if 0 < delta then ⟨st, s.usage.charge id requestId delta⟩
      else ⟨st, s.usage.giveBack id requestId (-delta)⟩
  | .refund f requestId =>
    let r := refundSubscriptionPreConsume f requestId s.store
    match r.givenBack with
    | none => ⟨r.store, s.usage⟩
    | some (id, amount) => ⟨r.store, s.usage.giveBack id requestId amount⟩
  | .resetDue now id => s.applyResets (resetDueSubscription cal now id s.store)
  | .adminResetUser now userId planId adv =>
    match adminResetUserSubscriptionsByPlan cal now userId planId adv s.store with
    | .error _ => s
    | .ok r => s.applyResets r
  | .adminResetPlan now planId adv =>
    match adminResetPlanSubscriptions cal now planId adv s.store with
    | .error _ => s
    | .ok r => s.applyResets r

/-- **The accounting law.** The used amount is the net amount charged since the last reset, never
negative and never above the total of a limited subscription. -/
def Accounted (s : UsageState) : Prop :=
  ∀ sub ∈ s.store.subs, sub.amountUsed = (s.usage sub.id).total ∧ 0 ≤ sub.amountUsed ∧
    (0 < sub.amountTotal → sub.amountUsed ≤ sub.amountTotal)

/-- Giving `amount` back to the request undoes only the request's own charge: it was charged that
much since the last reset, or no other request was charged since. -/
def GivesBack (s : UsageState) (id : ℤ) (requestId : String) (amount : ℤ) : Prop :=
  amount ≤ (s.usage id).get requestId ∨ (s.usage id).total = (s.usage id).get requestId

/-- The condition on one action: what a refund or a negative delta gives back, if its statements
succeed, was charged to the same request since the last reset. -/
def Covered (s : UsageState) : UsageAction → Prop
  | .postDelta fault requestId id delta =>
    fault = false → delta < 0 → GivesBack s id requestId (-delta)
  | .refund f requestId =>
    isBlank requestId = false → f.lookup = false → f.delta = false →
      ∀ record ∈ s.store.findRecord requestId, record.status = .consumed →
        0 < record.preConsumed →
        GivesBack s record.userSubscriptionId requestId record.preConsumed
  | _ => True

/-! ## Row writes -/

/-- What a write does to the used amount of a row and to its tally, give-backs apart. -/
inductive Change (total used : ℤ) (t : Tally String) : ℤ → Tally String → Prop
  | keep : Change total used t used t
  | zero : Change total used t 0 []
  | charge (requestId : String) (amount : ℤ) (hpos : 0 < amount)
      (hfit : 0 < total → used + amount ≤ total) :
      Change total used t (used + amount) (t.add requestId amount)

/-- Write one row and its tally, or only records. -/
inductive RowWrite (s : UsageState) : UsageState → Prop
  | row {sub : UserSubscription} (sub' : UserSubscription) {t : Tally String}
      (hfind : s.store.findSub sub.id = some sub) (hid : sub'.id = sub.id)
      (htotal : sub'.amountTotal = sub.amountTotal)
      (hchange : Change sub.amountTotal sub.amountUsed (s.usage sub.id) sub'.amountUsed t) :
      RowWrite s ⟨s.store.saveSub sub', Function.update s.usage sub.id t⟩
  | records (st : SubscriptionStore) (hsubs : st.subs = s.store.subs) : RowWrite s ⟨st, s.usage⟩

/-- What holds of every state of a run, whatever is given back. -/
structure Sound (s : UsageState) : Prop where
  valid : s.store.Valid
  nonneg : ∀ id, (s.usage id).Nonneg
  absent : ∀ id, s.store.findSub id = none → s.usage id = []

section Write

variable {s : UsageState} {sub sub' : UserSubscription} {t : Tally String}

theorem mem_write {x : UserSubscription} (hid : sub'.id = sub.id) (hx : x ∈ (s.store.saveSub sub').subs) :
    (x = sub' ∧ Function.update s.usage sub.id t x.id = t) ∨
      (x ∈ s.store.subs ∧ Function.update s.usage sub.id t x.id = s.usage x.id) := by
  rcases Table.mem_save hx with rfl | ⟨hm, hne⟩
  · left
    rw [hid]
    exact ⟨rfl, Function.update_self ..⟩
  · right
    rw [hid] at hne
    exact ⟨hm, Function.update_of_ne hne ..⟩

theorem Sound.write (hs : Sound s) (hfind : s.store.findSub sub.id = some sub) (hid : sub'.id = sub.id) (ht : t.Nonneg)
    (hb : 0 ≤ sub'.amountUsed ∧ (0 < sub'.amountTotal → sub'.amountUsed ≤ sub'.amountTotal)) :
    Sound ⟨s.store.saveSub sub', Function.update s.usage sub.id t⟩ := by
  have hfind' : s.store.findSub sub'.id = some sub := by rw [hid]; exact hfind
  refine ⟨hs.valid.saveSub hfind hid hb, ?_, ?_⟩
  · intro id
    by_cases h : id = sub.id
    · subst h
      show (Function.update s.usage sub.id t sub.id).Nonneg
      rw [Function.update_self]; exact ht
    · show (Function.update s.usage sub.id t id).Nonneg
      rw [Function.update_of_ne h]; exact hs.nonneg id
  · intro id hnone
    rw [SubscriptionStore.findSub_saveSub hfind', hid] at hnone
    by_cases h : id = sub.id
    · rw [if_pos h] at hnone; cases hnone
    · rw [if_neg h] at hnone
      show Function.update s.usage sub.id t id = []
      rw [Function.update_of_ne h]
      exact hs.absent id hnone

theorem Accounted.write (ha : Accounted s) (hid : sub'.id = sub.id) (ht : sub'.amountUsed = t.total)
    (hb : 0 ≤ sub'.amountUsed ∧ (0 < sub'.amountTotal → sub'.amountUsed ≤ sub'.amountTotal)) :
    Accounted ⟨s.store.saveSub sub', Function.update s.usage sub.id t⟩ := by
  intro x hx
  rcases mem_write (t := t) hid hx with ⟨rfl, hu⟩ | ⟨hm, hu⟩
  · exact ⟨ht.trans (congrArg Tally.total hu.symm), hb⟩
  · obtain ⟨hused, hb'⟩ := ha x hm
    exact ⟨hused.trans (congrArg Tally.total hu.symm), hb'⟩

end Write

variable {total used used' : ℤ} {t t' : Tally String} {sub : UserSubscription}

/-- A change keeps the tally non-negative and the used amount within its bounds. -/
theorem Change.bounds (h : Change total used t used' t') (ht : t.Nonneg) (hb : 0 ≤ used ∧ (0 < total → used ≤ total)) :
    t'.Nonneg ∧ 0 ≤ used' ∧ (0 < total → used' ≤ total) := by
  cases h with
  | keep => exact ⟨ht, hb⟩
  | zero => exact ⟨Tally.nonneg_nil, le_refl 0, fun h => h.le⟩
  | charge requestId amount hpos hfit =>
    have hget := Tally.get_nonneg ht requestId
    exact ⟨Tally.nonneg_add ht (by omega), by omega, hfit⟩

/-- A change moves the used amount and the total of the tally together. -/
theorem Change.total_eq (h : Change total used t used' t') (ht : used = t.total) : used' = t'.total := by
  cases h with
  | keep => exact ht
  | zero => rfl
  | charge requestId amount _ _ => rw [Tally.total_add, ht]

theorem RowWrite.sound {s s' : UsageState} (h : RowWrite s s') (hs : Sound s) : Sound s' := by
  cases h with
  | row sub' hfind hid htotal hchange =>
    have hb := hs.valid.bounded _ (SubscriptionStore.findSub_mem hfind)
    obtain ⟨ht, hb'⟩ := hchange.bounds (hs.nonneg _) hb
    apply hs.write hfind hid ht
    rw [htotal]; exact hb'
  | records st hsubs =>
    have hf : ∀ id, st.findSub id = s.store.findSub id := by
      intro id; unfold SubscriptionStore.findSub; rw [hsubs]
    exact ⟨hs.valid.of_subs hsubs, hs.nonneg, fun id h => hs.absent id (by rw [← hf]; exact h)⟩

theorem RowWrite.accounted {s s' : UsageState} (h : RowWrite s s') (hs : Sound s)
    (ha : Accounted s) : Accounted s' := by
  cases h with
  | row sub' hfind hid htotal hchange =>
    have hm := SubscriptionStore.findSub_mem hfind
    obtain ⟨-, hb'⟩ := hchange.bounds (hs.nonneg _) (hs.valid.bounded _ hm)
    apply ha.write hid (hchange.total_eq (ha _ hm).1)
    rw [htotal]; exact hb'
  | records st hsubs =>
    intro x hx
    rw [hsubs] at hx
    exact ha x hx

/-- Row after row. -/
abbrev RowWrites := Relation.ReflTransGen RowWrite

theorem RowWrites.sound {s s' : UsageState} (h : RowWrites s s') (hs : Sound s) : Sound s' := by
  induction h with
  | refl => exact hs
  | tail _ hw ih => exact hw.sound ih

theorem RowWrites.accounted {s s' : UsageState} (h : RowWrites s s') (hs : Sound s)
    (ha : Accounted s) : Accounted s' := by
  induction h with
  | refl => exact ha
  | tail hws hw ih => exact hw.accounted (RowWrites.sound hws hs) ih

/-! ## The transactions as row writes -/

variable {st : SubscriptionStore} {s : UsageState}

theorem maybeReset_write (cal : Calendar) (plan : SubscriptionPlan) (now : ℤ) {u : Usage}
    (hfind : st.findSub sub.id = some sub) : let r := maybeResetUserSubscriptionWithPlanTx cal plan now sub
    r.1.id = sub.id ∧ r.1.amountTotal = sub.amountTotal ∧
      RowWrite ⟨st, u⟩ ⟨st.saveSub r.1, if r.2 then u.clear sub.id else u⟩ := by
  obtain ⟨last, next, zeroed, hr⟩ := maybeReset_spec cal plan now sub
  rw [hr]
  refine ⟨rfl, rfl, ?_⟩
  cases zeroed with
  | true => exact .row _ (t := []) hfind rfl rfl .zero
  | false =>
    have hw := RowWrite.row (s := ⟨st, u⟩) (t := u sub.id)
      { sub with lastResetTime := last, nextResetTime := next } hfind rfl rfl .keep
    rwa [Function.update_eq_self] at hw

/-- The candidates still to come are unchanged by a write of another row. -/
theorem findSub_of_notMem {sub' : UserSubscription} {rest : List UserSubscription}
    (hrest : ∀ c ∈ rest, st.findSub c.id = some c) (hnot : sub'.id ∉ rest.map UserSubscription.id) :
    ∀ c ∈ rest, (st.saveSub sub').findSub c.id = some c := by
  intro c hc
  have hne : c.id ≠ sub'.id := fun e => hnot (e ▸ List.mem_map_of_mem hc)
  exact (Table.find_save_ne st.subs hne).trans (hrest c hc)

variable (cal : Calendar)

/-- The candidate loop writes row after row: the lazy resets, and last the charge. -/
theorem consumeFrom_writes (now : ℤ) (requestId : String) (userId : ℤ) {amount : ℤ} (hpos : 0 < amount) (u : Usage)
    (subs : List UserSubscription) :
    ∀ (st : SubscriptionStore) (resets : List ℤ), (∀ c ∈ subs, st.findSub c.id = some c) →
      (subs.map UserSubscription.id).Nodup → ∀ c, consumeFrom cal now requestId userId amount st resets subs = .ok c →
        RowWrites ⟨st, resets.foldl Usage.clear u⟩ ⟨c.store, match c.charged with
            | none => c.resets.foldl Usage.clear u
            | some id => (c.resets.foldl Usage.clear u).charge id requestId amount⟩ := by
  induction subs with
  | nil => intro st resets _ _ c h; simp [consumeFrom] at h
  | cons sub rest ih =>
    intro st resets hfind hnodup c h
    rw [List.map_cons, List.nodup_cons] at hnodup
    have hsub : st.findSub sub.id = some sub := hfind sub (by simp)
    unfold consumeFrom at h
    cases hp : st.getSubscriptionPlanById sub.planId with
    | none => rw [hp] at h; cases h
    | some plan =>
      rw [hp] at h
      dsimp only at h
      obtain ⟨hid, htotal, hw⟩ := maybeReset_write cal plan now
        (u := resets.foldl Usage.clear u) hsub
      generalize maybeResetUserSubscriptionWithPlanTx cal plan now sub = r at h hid htotal hw
      -- the ledger after the lazy reset is the fold over the resets recorded so far
      have hclear : (if r.2 then (resets.foldl Usage.clear u).clear sub.id
          else resets.foldl Usage.clear u) =
          (if r.2 then resets ++ [r.1.id] else resets).foldl Usage.clear u := by
        cases r.2 <;> simp [hid]
      rw [hclear] at hw
      by_cases hsmall : 0 < r.1.amountTotal ∧ r.1.amountTotal - r.1.amountUsed < amount
      · rw [if_pos hsmall] at h
        have hnot : r.1.id ∉ rest.map UserSubscription.id := by rw [hid]; exact hnodup.1
        exact .head hw (ih _ _ (findSub_of_notMem (fun c hc => hfind c (by simp [hc])) hnot)
          hnodup.2 c h)
      · rw [if_neg hsmall] at h
        cases hdup : (st.saveSub r.1).findRecord requestId with
        | some dup =>
          rw [hdup] at h
          dsimp only at h
          by_cases hre : dup.status = .refunded
          · rw [if_pos hre] at h; cases h
          · rw [if_neg hre] at h
            cases h
            exact .single hw
        | none =>
          rw [hdup] at h
          cases h
          have hsub' : (st.saveSub r.1).findSub r.1.id = some r.1 :=
            Table.find_save_self (by rw [hid]; exact hsub) rfl
          refine .head hw (.head (.row { r.1 with amountUsed := r.1.amountUsed + amount }
            hsub' rfl rfl (.charge requestId amount hpos fun _ => by omega)) (.single ?_))
          exact .records _ rfl

theorem preConsume_writes (hs : Sound s) (now : ℤ) (env : PreConsumeEnv) (requestId : String) (userId amount : ℤ) :
    RowWrites s (usageStep cal s (.preConsume now env requestId userId amount)) := by
  simp only [usageStep]
  cases h : preConsumeUserSubscription cal now env requestId userId amount s.store with
  | error e => exact .refl
  | ok c =>
    dsimp only
    obtain ⟨hpos, -, ⟨hst, hre, hch, -⟩ | h⟩ := preConsume_ok h
    · -- a replayed request charges nothing
      rw [hst, hre, hch]; exact .refl
    · have hw := consumeFrom_writes cal now requestId userId hpos s.usage _ s.store []
        (fun c hc => hs.valid.findSub (mem_candidates.mp hc).1) (candidates_nodup hs.valid.nodup userId now) c h
      cases hch : c.charged with
      | none => rw [hch] at hw; exact hw
      | some id => rw [hch] at hw; exact hw

theorem resetAll_writes (plan : SubscriptionPlan) (now : ℤ) (adv : Bool) (subs : List UserSubscription) :
    ∀ s : UsageState, (∀ c ∈ subs, s.store.findSub c.id = some c) → (subs.map UserSubscription.id).Nodup →
      RowWrites s (s.applyResets (resetAll cal plan now adv subs s.store)) := by
  induction subs with
  | nil => intro s _ _; exact .refl
  | cons sub rest ih =>
    intro s hfind hnodup
    rw [List.map_cons, List.nodup_cons] at hnodup
    obtain ⟨last, next, hr⟩ := resetUserSubscriptionTx_spec cal plan now adv sub
    have hid : (resetUserSubscriptionTx cal plan now adv sub).id = sub.id := by rw [hr]
    have hw : RowWrite s ⟨s.store.saveSub (resetUserSubscriptionTx cal plan now adv sub), s.usage.clear sub.id⟩ :=
      .row _ (hfind sub (by simp)) hid (by rw [hr]) (by rw [hr]; exact .zero)
    refine .head hw (ih _ (findSub_of_notMem (fun c hc => hfind c (by simp [hc])) ?_) hnodup.2)
    rw [hid]; exact hnodup.1

theorem resetQuery_writes (plan : SubscriptionPlan) (now : ℤ) (adv : Bool) (hs : Sound s)
    (q : UserSubscription → Bool) :
    RowWrites s (s.applyResets (resetAll cal plan now adv (s.store.subs.filter q) s.store)) := by
  refine resetAll_writes cal plan now adv _ s ?_ ?_
  · intro c hc
    exact hs.valid.findSub (List.mem_filter.mp hc).1
  · exact hs.valid.nodup.sublist (List.filter_sublist.map _)

theorem resetDue_writes (s : UsageState) (now id : ℤ) : RowWrites s (usageStep cal s (.resetDue now id)) := by
  simp only [usageStep, resetDueSubscription, UsageState.applyResets]
  cases hf : s.store.findSub id with
  | none => exact .refl
  | some locked =>
    have hid := SubscriptionStore.findSub_id hf
    dsimp only
    cases hp : s.store.getSubscriptionPlanById locked.planId with
    | none => exact .refl
    | some plan =>
      dsimp only
      by_cases hdue : 0 < locked.nextResetTime ∧ locked.nextResetTime ≤ now
      · rw [if_pos hdue]
        have hf' : s.store.findSub locked.id = some locked := by rw [hid]; exact hf
        obtain ⟨-, -, hw⟩ := maybeReset_write cal plan now (u := s.usage) hf'
        generalize maybeResetUserSubscriptionWithPlanTx cal plan now locked = r at hw
        rw [hid] at hw
        cases hz : r.2 with
        | true => rw [hz] at hw; exact .single hw
        | false => rw [hz] at hw; exact .single hw
      · rw [if_neg hdue]; exact .refl

/-! ## Give-backs -/

/-- The row and the tally after a give-back. -/
def UsageState.givenBack (s : UsageState) (sub : UserSubscription) (requestId : String)
    (amount : ℤ) : UsageState :=
  ⟨s.store.saveSub { sub with amountUsed := max (sub.amountUsed - amount) 0 },
    s.usage.giveBack sub.id requestId amount⟩

section GiveBack

variable {s : UsageState} {sub : UserSubscription} {requestId : String} {amount : ℤ}

theorem givenBack_bounded (hs : Sound s) (hfind : s.store.findSub sub.id = some sub) (hpos : 0 < amount) :
    0 ≤ max (sub.amountUsed - amount) 0 ∧
      (0 < sub.amountTotal → max (sub.amountUsed - amount) 0 ≤ sub.amountTotal) := by
  obtain ⟨h0, h1⟩ := hs.valid.bounded sub (SubscriptionStore.findSub_mem hfind)
  exact ⟨by omega, fun h => by have := h1 h; omega⟩

theorem givenBack_sound (hs : Sound s) (hfind : s.store.findSub sub.id = some sub)
    (hpos : 0 < amount) : Sound (s.givenBack sub requestId amount) := by
  refine hs.write hfind rfl (Tally.nonneg_add (hs.nonneg _) ?_) (givenBack_bounded hs hfind hpos)
  have := Tally.get_nonneg (hs.nonneg sub.id) requestId
  omega

/-- **Give-backs.** The law survives a give-back exactly when it undoes the request's own charge. -/
theorem givenBack_accounted_iff (hs : Sound s) (ha : Accounted s)
    (hfind : s.store.findSub sub.id = some sub) (hpos : 0 < amount) :
    Accounted (s.givenBack sub requestId amount) ↔ GivesBack s sub.id requestId amount := by
  have hused := (ha sub (SubscriptionStore.findSub_mem hfind)).1
  have hget := Tally.get_nonneg (hs.nonneg sub.id) requestId
  have hle := Tally.get_le_total (hs.nonneg sub.id) requestId
  have htotal : ((s.usage.giveBack sub.id requestId amount) sub.id).total =
      (s.usage sub.id).total - min amount ((s.usage sub.id).get requestId) := by
    unfold Usage.giveBack Usage.charge
    rw [Function.update_self, Tally.total_add]
    omega
  constructor
  · intro h
    have hm : { sub with amountUsed := max (sub.amountUsed - amount) 0 } ∈
        (s.givenBack sub requestId amount).store.subs :=
      Table.find_mem (Table.find_save_self hfind rfl)
    have h' : max (sub.amountUsed - amount) 0 = ((s.usage.giveBack sub.id requestId amount) sub.id).total := (h _ hm).1
    rw [htotal] at h'
    unfold GivesBack
    omega
  · intro h
    refine ha.write rfl ?_ (givenBack_bounded hs hfind hpos)
    have hsame : (s.usage sub.id).add requestId
        (-min amount ((s.usage sub.id).get requestId)) =
        (s.usage.giveBack sub.id requestId amount) sub.id := by
      unfold Usage.giveBack Usage.charge; rw [Function.update_self]
    rw [hsame, htotal]
    show max (sub.amountUsed - amount) 0 = _
    unfold GivesBack at h
    omega

end GiveBack

/-- A subscription that is not there was charged nothing, so nothing wrong can be given back. -/
theorem givesBack_absent (hs : Sound s) {id : ℤ} (h : s.store.findSub id = none) (requestId : String) (amount : ℤ) :
    GivesBack s id requestId amount := by
  unfold GivesBack
  rw [hs.absent id h]
  exact .inr rfl

/-- A negative delta without a fault fails only when the row is missing. -/
theorem postConsume_neg (hs : Sound s) (id : ℤ) {amount : ℤ} (hpos : 0 < amount) : (s.store.findSub id = none ∧
      ∃ e, postConsumeUserSubscriptionDelta false id (-amount) s.store = .error e) ∨
    ∃ sub, s.store.findSub id = some sub ∧ postConsumeUserSubscriptionDelta false id (-amount) s.store =
        .ok (s.store.saveSub { sub with amountUsed := max (sub.amountUsed - amount) 0 }) := by
  cases hf : s.store.findSub id with
  | none =>
    refine .inl ⟨rfl, ?_⟩
    unfold postConsumeUserSubscriptionDelta
    by_cases hid : id ≤ 0
    · rw [if_pos hid]; exact ⟨_, rfl⟩
    · rw [if_neg hid, if_neg (by omega), if_neg (by decide), hf]; exact ⟨_, rfl⟩
  | some sub =>
    refine .inr ⟨sub, rfl, ?_⟩
    have hid := SubscriptionStore.findSub_id hf
    have hp := hs.valid.pos sub (SubscriptionStore.findSub_mem hf)
    have hf' : s.store.findSub sub.id = some sub := by rw [hid]; exact hf
    have hb := givenBack_bounded hs hf' hpos
    rw [Int.sub_eq_add_neg] at hb ⊢
    exact postConsume_eq (by omega) (by omega) hf hb.2

/-! ## One step -/

/-- What one step owes: the invariant, and the law exactly when the step meets `P`. -/
def StepLaw (s s' : UsageState) (P : Prop) : Prop :=
  Sound s' ∧ (Accounted s → (Accounted s' ↔ P))

theorem StepLaw.of_writes {s s' : UsageState} {P : Prop} (hs : Sound s) (h : RowWrites s s')
    (hP : P) : StepLaw s s' P :=
  ⟨h.sound hs, fun ha => iff_of_true (RowWrites.accounted h hs ha) hP⟩

theorem StepLaw.of_giveBack (hs : Sound s) {id amount : ℤ} (requestId : String)
    (hfind : s.store.findSub id = some sub) (hpos : 0 < amount)
    (hst : st.subs = (s.store.saveSub { sub with amountUsed := max (sub.amountUsed - amount) 0 }).subs) :
    StepLaw s ⟨st, s.usage.giveBack id requestId amount⟩ (GivesBack s id requestId amount) := by
  obtain rfl := SubscriptionStore.findSub_id hfind
  have hw : RowWrite (s.givenBack sub requestId amount)
      ⟨st, s.usage.giveBack sub.id requestId amount⟩ := .records st hst
  refine ⟨hw.sound (givenBack_sound hs hfind hpos), fun ha => ?_⟩
  rw [← givenBack_accounted_iff hs ha hfind hpos]
  unfold Accounted
  rw [hst]
  rfl

theorem postDelta_law (hs : Sound s) (fault : Bool) (requestId : String) (id delta : ℤ) :
    StepLaw s (usageStep cal s (.postDelta fault requestId id delta))
      (Covered s (.postDelta fault requestId id delta)) := by
  simp only [usageStep, Covered]
  by_cases hneg : delta < 0 ∧ fault = false
  · obtain ⟨hneg, rfl⟩ := hneg
    obtain ⟨amount, rfl⟩ : ∃ amount, delta = -amount := ⟨-delta, by omega⟩
    have hpos : 0 < amount := by omega
    rcases postConsume_neg hs id hpos with ⟨hf, e, he⟩ | ⟨sub, hf, hok⟩
    · rw [he]
      exact .of_writes hs .refl fun _ _ => givesBack_absent hs hf requestId _
    · rw [hok]
      dsimp only
      rw [if_neg (by omega), if_neg (by omega), Int.neg_neg]
      have hlaw := StepLaw.of_giveBack hs requestId hf hpos rfl
      refine ⟨hlaw.1, fun ha => (hlaw.2 ha).trans ?_⟩
      exact ⟨fun h _ _ => h, fun h => h rfl hneg⟩
  · have hcov : fault = false → delta < 0 → GivesBack s id requestId (-delta) :=
      fun hf hd => absurd ⟨hd, hf⟩ hneg
    cases h : postConsumeUserSubscriptionDelta fault id delta s.store with
    | error e => exact .of_writes hs .refl hcov
    | ok st =>
      dsimp only
      rcases postConsume_ok h with ⟨h0, rfl⟩ | ⟨hne, hfault, -, sub, hfind, hfit, rfl⟩
      · rw [if_pos h0]; exact .of_writes hs .refl hcov
      · have hpos : 0 < delta := by
          by_contra hle
          exact hneg ⟨by omega, hfault⟩
        obtain rfl := SubscriptionStore.findSub_id hfind
        have hb := (hs.valid.bounded sub (SubscriptionStore.findSub_mem hfind)).1
        have hmax : max (sub.amountUsed + delta) 0 = sub.amountUsed + delta := by omega
        rw [if_neg hne, if_pos hpos]
        rw [hmax] at hfit ⊢
        exact .of_writes hs (.single (.row _ hfind rfl rfl (.charge requestId delta hpos hfit))) hcov

theorem postConsume_fault (id : ℤ) {delta : ℤ} (hd : delta ≠ 0) (st : SubscriptionStore) :
    ∃ e, postConsumeUserSubscriptionDelta true id delta st = .error e := by
  unfold postConsumeUserSubscriptionDelta
  by_cases hid : id ≤ 0
  · rw [if_pos hid]
    exact ⟨_, rfl⟩
  · rw [if_neg hid, if_neg hd, if_pos rfl]
    exact ⟨_, rfl⟩

theorem refund_law (hs : Sound s) (f : RefundFaults) (requestId : String) :
    StepLaw s (usageStep cal s (.refund f requestId)) (Covered s (.refund f requestId)) := by
  simp only [usageStep, Covered, refundSubscriptionPreConsume]
  by_cases hblank : isBlank requestId = true
  · rw [if_pos hblank]
    exact .of_writes hs .refl fun h => by rw [hblank] at h; cases h
  rw [if_neg hblank]
  by_cases hlook : f.lookup = true
  · rw [if_pos hlook]
    exact .of_writes hs .refl fun _ h => by rw [hlook] at h; cases h
  rw [if_neg hlook]
  cases hr : s.store.findRecord requestId with
  | none => exact .of_writes hs .refl fun _ _ _ _ hmem => by cases hmem
  | some record =>
    dsimp only
    by_cases hst : record.status = .refunded
    · rw [if_pos hst]
      refine .of_writes hs .refl fun _ _ _ x hx hc => ?_
      obtain rfl : record = x := by simpa using hx
      rw [hst] at hc; cases hc
    rw [if_neg hst]
    by_cases hpos : record.preConsumed ≤ 0
    · rw [if_pos hpos]
      have hcov : ∀ x ∈ some record, x.status = .consumed → 0 < x.preConsumed →
          GivesBack s x.userSubscriptionId requestId x.preConsumed := by
        intro x hx _ h0
        obtain rfl : record = x := by simpa using hx
        omega
      cases f.save with
      | true => exact .of_writes hs .refl fun _ _ _ => hcov
      | false => exact .of_writes hs (.single (.records _ rfl)) fun _ _ _ => hcov
    rw [if_neg hpos]
    cases hd : f.delta with
    | true =>
      -- the inner transaction fails and rolls back
      obtain ⟨e, he⟩ := postConsume_fault record.userSubscriptionId
        (show -record.preConsumed ≠ 0 by omega) s.store
      rw [he]
      exact .of_writes hs .refl fun _ _ h => by cases h
    | false =>
      have hpos : 0 < record.preConsumed := by omega
      have hcons : record.status = .consumed := by
        cases hc : record.status with
        | consumed => rfl
        | refunded => exact absurd hc hst
      have hcov : (isBlank requestId = false → f.lookup = false → false = false →
          ∀ x ∈ some record, x.status = .consumed → 0 < x.preConsumed →
            GivesBack s x.userSubscriptionId requestId x.preConsumed) ↔
          GivesBack s record.userSubscriptionId requestId record.preConsumed := by
        constructor
        · intro h
          exact h (by simpa using hblank) (by simpa using hlook) rfl record rfl hcons hpos
        · intro h _ _ _ x hx _ _
          obtain rfl : record = x := by simpa using hx
          exact h
      rw [hcov]
      rcases postConsume_neg hs record.userSubscriptionId hpos with
        ⟨hf, e, he⟩ | ⟨sub, hf, hok⟩
      · rw [he]
        exact .of_writes hs .refl (givesBack_absent hs hf requestId _)
      · rw [hok]
        dsimp only
        cases f.save with
        | true => exact .of_giveBack hs requestId hf hpos rfl
        | false => exact .of_giveBack hs requestId hf hpos rfl

/-- **One step.** Every transaction keeps the invariant, and keeps the law exactly when what it
gives back is covered. -/
theorem usageStep_law (hs : Sound s) (a : UsageAction) : StepLaw s (usageStep cal s a) (Covered s a) := by
  cases a with
  | preConsume now env requestId userId amount =>
    exact .of_writes hs (preConsume_writes cal hs now env requestId userId amount) trivial
  | postDelta fault requestId id delta => exact postDelta_law cal hs fault requestId id delta
  | refund f requestId => exact refund_law cal hs f requestId
  | resetDue now id => exact .of_writes hs (resetDue_writes cal s now id) trivial
  | adminResetUser now userId planId adv =>
    refine .of_writes hs ?_ trivial
    simp only [usageStep, adminResetUserSubscriptionsByPlan]
    by_cases hu : userId ≤ 0
    · simp only [if_pos hu]; exact .refl
    simp only [if_neg hu]
    cases s.store.getSubscriptionPlanById planId with
    | none => exact .refl
    | some plan =>
      dsimp only
      split
      · exact .refl
      · rename_i r hr
        split_ifs at hr
        cases hr
        exact resetQuery_writes cal plan now adv hs _
  | adminResetPlan now planId adv =>
    refine .of_writes hs ?_ trivial
    simp only [usageStep, adminResetPlanSubscriptions]
    cases s.store.getSubscriptionPlanById planId with
    | none => exact .refl
    | some plan => exact resetQuery_writes cal plan now adv hs _

/-! ## Whole runs -/

/-- A store of subscriptions as they are bought: ids are unique and nothing is used yet. -/
structure Fresh (st : SubscriptionStore) : Prop where
  nodup : (st.subs.map UserSubscription.id).Nodup
  pos : ∀ sub ∈ st.subs, 0 < sub.id
  unused : ∀ sub ∈ st.subs, sub.amountUsed = 0

/-- The ledger of a fresh store is empty. -/
def UsageState.start (st : SubscriptionStore) : UsageState := ⟨st, fun _ => []⟩

theorem Fresh.sound (h : Fresh st) : Sound (UsageState.start st) :=
  ⟨⟨h.nodup, h.pos, fun sub hm => by
    rw [h.unused sub hm]; exact ⟨le_refl 0, fun h => h.le⟩⟩, fun _ => Tally.nonneg_nil, fun _ _ => rfl⟩

theorem Fresh.accounted (h : Fresh st) : Accounted (UsageState.start st) := by
  intro sub hm
  have hu := h.unused sub hm
  exact ⟨hu, by omega, by omega⟩

/-- **Validity.** Whatever is given back, every run keeps the ids unique and every used amount
between zero and the total of a limited subscription. -/
theorem run_valid (h : Fresh st) (as : List UsageAction) : (run (usageStep cal) (UsageState.start st) as).store.Valid :=
  (run_invariant (I := Sound) (fun _ a hs => (usageStep_law cal hs a).1) h.sound as).valid

/-- **Bounds.** Where the law is broken too, no run uses less than nothing or more than the total. -/
theorem used_within_total (h : Fresh st) (as : List UsageAction) :
    ∀ sub ∈ (run (usageStep cal) (UsageState.start st) as).store.subs, 0 ≤ sub.amountUsed ∧
      (0 < sub.amountTotal → sub.amountUsed ≤ sub.amountTotal) :=
  (run_valid cal h as).bounded

/-- **Usage accounting.** The law holds in every state of a run exactly when every give-back of the
run is covered by what the same request was charged since the last reset, or no other request was
charged since. -/
theorem usage_accounted_iff (cal : Calendar) {st : SubscriptionStore} (h : Fresh st)
    (as : List UsageAction) :
    (∀ pre, pre <+: as → Accounted (run (usageStep cal) (UsageState.start st) pre)) ↔
      Along (usageStep cal) Covered (UsageState.start st) as :=
  run_forall_iff_along (I := Sound) (J := Accounted) (fun _ a hs => (usageStep_law cal hs a).1)
    (fun _ a hs ha => (usageStep_law cal hs a).2 ha) h.sound h.accounted as

/-! A plan that resets daily, with one subscription of user 7. -/

def dailyPlan : SubscriptionPlan := ⟨1, .daily, 0⟩

def dailySubscription : UserSubscription :=
  { id := 3, userId := 7, planId := 1, amountTotal := 100, amountUsed := 0, startTime := 0,
    endTime := 10 * 86400, status := .active, lastResetTime := 0, nextResetTime := 86400 }

def dailyStore : SubscriptionStore := ⟨[dailyPlan], [dailySubscription], []⟩

theorem dailyStore_fresh : Fresh dailyStore :=
  ⟨by decide, by decide, by decide⟩

/-- A request charged and refunded within one period. -/
theorem usage_accounted_same_period :
    Fresh dailyStore ∧ ∀ pre,
      pre <+: [.preConsume 10 {} "r1" 7 10, .preConsume 20 {} "r2" 7 7, .refund {} "r1"] →
      Accounted (run (usageStep utc) (UsageState.start dailyStore) pre) := by
  refine ⟨dailyStore_fresh, (usage_accounted_iff utc dailyStore_fresh _).mpr ?_⟩
  refine ⟨trivial, trivial, ?_, trivial⟩
  intro _ _ _ record hr _ _
  have hrec : record = ⟨"r1", 7, 3, 10, .consumed⟩ := by
    have h : (run (usageStep utc) (UsageState.start dailyStore)
        [.preConsume 10 {} "r1" 7 10, .preConsume 20 {} "r2" 7 7]).store.findRecord "r1" =
        some ⟨"r1", 7, 3, 10, .consumed⟩ := by decide
    exact Option.some.inj (hr.symm.trans h)
  rw [hrec]
  unfold GivesBack
  left
  decide

/-- A request charged on the first day and refunded on the second takes away what another request
used on the second day: seven units were charged since the reset, none are left. -/
theorem refund_after_reset_erases_usage :
    ¬ ∀ pre, pre <+: [.preConsume 10 {} "r1" 7 10, .resetDue 86400 3,
        .preConsume 86410 {} "r2" 7 7, .refund {} "r1"] →
      Accounted (run (usageStep utc) (UsageState.start dailyStore) pre) := by
  intro h
  have hlast := h _ (List.prefix_refl _)
  revert hlast
  unfold Accounted
  decide

/-- The refund of a charge that the reset had taken off already. -/
theorem used_within_total_after_reset :
    ∃ sub ∈ (run (usageStep utc) (UsageState.start dailyStore) [.preConsume 10 {} "r1" 7 10, .resetDue 86400 3,
      .preConsume 86410 {} "r2" 7 7, .refund {} "r1"]).store.subs, sub.id = 3 ∧ 0 ≤ sub.amountUsed ∧
        (0 < sub.amountTotal → sub.amountUsed ≤ sub.amountTotal) := by
  obtain ⟨sub, hmem, hid⟩ : ∃ sub ∈ (run (usageStep utc) (UsageState.start dailyStore) [.preConsume 10 {} "r1" 7 10,
    .resetDue 86400 3, .preConsume 86410 {} "r2" 7 7, .refund {} "r1"]).store.subs, sub.id = 3 := by decide
  exact ⟨sub, hmem, hid, used_within_total utc dailyStore_fresh _ sub hmem⟩

end Vancine.Subscription
