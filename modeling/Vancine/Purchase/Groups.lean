import Vancine.Lib.Run
import Vancine.Purchase.Plan

/-!
# The group of a user through the subscriptions' lives

Buying a plan with an upgrade group moves the user there and keeps the group held before in the row.
Three paths end a subscription: the expiry job, an administrator's invalidation and a deletion. Each
leaves the group alone while another upgrading subscription is active, and otherwise restores the
snapshot of one row: its own, or for the job the row that ended last.

A row bought while the user was already upgraded has the upgraded group for a snapshot, or none. When
the purchases do not overlap (`OneAtATime`) every snapshot is the first group, and the group comes back.
-/

namespace Vancine.Purchase

open Lib
open Subscription (SubscriptionStatus)

/-- The user's group and subscription rows. `clock` is the database clock. -/
structure GroupState where
  group : String
  subs : List UserSubscription
  nextId : ℕ
  clock : ℤ

/-- `status = active AND end_time > now AND upgrade_group <> ''`. -/
def UserSubscription.upgrades (s : UserSubscription) (now : ℤ) : Bool :=
  s.status = .active && now < s.endTime && s.upgradeGroup ≠ ""

/-- The group `downgradeUserGroupForSubscriptionTx` leaves the user in when `sub` ends. -/
def downgradeUserGroupForSubscriptionTx (subs : List UserSubscription) (currentGroup : String)
    (sub : UserSubscription) (now : ℤ) : String :=
  let downgradeGroup := trimSpace sub.downgradeGroup
  let upgradeGroup := trimSpace sub.upgradeGroup
  if downgradeGroup = "" ∧ upgradeGroup = "" then currentGroup
  else if subs.any fun s => s.id ≠ sub.id && s.upgrades now then currentGroup
  else if downgradeGroup = "" ∧ currentGroup ≠ upgradeGroup then currentGroup
  else
    let target := if downgradeGroup = "" then trimSpace sub.prevUserGroup else downgradeGroup
    if target = "" then currentGroup else target

def findSubscription (s : GroupState) (id : ℕ) : Option UserSubscription :=
  s.subs.find? fun sub => sub.id = id

def adminInvalidateUserSubscription (id : ℕ) (now : ℤ) (s : GroupState) : GroupState :=
  match findSubscription s id with
  | none => s
  | some sub =>
    let subs := s.subs.map fun r =>
      if r.id = id then { r with status := .cancelled, endTime := now } else r
    { s with subs, group := downgradeUserGroupForSubscriptionTx subs s.group sub now }

def adminDeleteUserSubscription (id : ℕ) (now : ℤ) (s : GroupState) : GroupState :=
  match findSubscription s id with
  | none => s
  | some sub =>
    { s with
      subs := s.subs.filter fun r => r.id ≠ id
      group := downgradeUserGroupForSubscriptionTx s.subs s.group sub now }

/-- `ORDER BY end_time DESC, id DESC LIMIT 1`. -/
def latestEnding : List UserSubscription → Option UserSubscription
  | [] => none
  | s :: rest =>
    match latestEnding rest with
    | none => some s
    | some b => if s.endTime < b.endTime ∨ (s.endTime = b.endTime ∧ s.id ≤ b.id) then some b else some s

/-- The status update of the job. -/
def expireDue (now : ℤ) (r : UserSubscription) : UserSubscription :=
  if r.status = .active ∧ 0 < r.endTime ∧ r.endTime ≤ now then { r with status := .expired } else r

/-- The group the job restores after its status update. -/
def groupAfterExpiry (subs : List UserSubscription) (currentGroup : String) (now : ℤ) : String :=
  if subs.any fun s => s.upgrades now then currentGroup
  else match latestEnding (subs.filter fun s =>
      s.status = .expired && (s.downgradeGroup ≠ "" || s.upgradeGroup ≠ "")) with
    | none => currentGroup
    | some lastExpired =>
      let downgradeGroup := trimSpace lastExpired.downgradeGroup
      if downgradeGroup ≠ "" then downgradeGroup
      else
        let upgradeGroup := trimSpace lastExpired.upgradeGroup
        let prevGroup := trimSpace lastExpired.prevUserGroup
        if upgradeGroup = "" ∨ prevGroup = "" then currentGroup
        else if currentGroup ≠ upgradeGroup then currentGroup
        else prevGroup

/-- The transaction of `ExpireDueSubscriptions` for the user. -/
def expireDueSubscriptions (now : ℤ) (s : GroupState) : GroupState :=
  let subs := s.subs.map (expireDue now)
  { s with subs, group := groupAfterExpiry subs s.group now }

/-- One of the ways to buy: each is `CreateUserSubscriptionFromPlanTx` under the user's lock. -/
def purchase (cal : DateCalendar) (userId : ℤ) (plan : SubscriptionPlan)
    (source : SubscriptionSource) (s : GroupState) : GroupState :=
  let count := s.subs.countP fun r => r.planId = plan.id
  match createUserSubscriptionFromPlanTx cal s.clock count s.nextId userId s.group plan source with
  | .error _ => s
  | .ok (sub, group) => { s with subs := s.subs ++ [sub], group, nextId := s.nextId + 1 }

inductive GroupAction
  | tick (seconds : ℕ)
  | purchase (plan : SubscriptionPlan) (source : SubscriptionSource)
  | expire (now : ℤ)
  | invalidate (id : ℕ) (now : ℤ)
  | delete (id : ℕ) (now : ℤ)

/-- The job reads the database clock before its transactions, so its time is not ahead of the clock.
An administrator's request has the time of its own node. -/
def groupStep (cal : DateCalendar) (userId : ℤ) (s : GroupState) : GroupAction → GroupState
  | .tick seconds => { s with clock := s.clock + seconds }
  | .purchase plan source => purchase cal userId plan source s
  | .expire now => if now ≤ s.clock then expireDueSubscriptions now s else s
  | .invalidate id now => adminInvalidateUserSubscription id now s
  | .delete id now => adminDeleteUserSubscription id now s

def GroupState.start (group : String) (clock : ℤ) : GroupState := ⟨group, [], 1, clock⟩

/-! ## The condition -/

/-- An upgrading row the job has not closed. -/
def UserSubscription.live (s : UserSubscription) : Bool :=
  s.status = .active && s.upgradeGroup ≠ ""

/-- A plan with an upgrade group is bought when no other upgrading subscription of the user is
active, and its duration fits. -/
def OneAtATime (s : GroupState) : GroupAction → Prop
  | .purchase plan _ =>
    trimSpace plan.upgradeGroup ≠ "" → (∀ r ∈ s.subs, r.live = false) ∧ plan.DurationFits
  | _ => True

/-- The plans of the history set no explicit downgrade group. -/
def GroupAction.Reverts : GroupAction → Prop
  | .purchase plan _ => trimSpace plan.downgradeGroup = ""
  | _ => True

/-- The step ends subscriptions, at this time. -/
def GroupAction.endsAt : GroupAction → Option ℤ
  | .expire now | .invalidate _ now | .delete _ now => some now
  | .tick _ | .purchase _ _ => none

/-! ## Snapshots -/

/-- A row bought in the first group: it holds that group, or it left the user there. -/
def Snapshot (first : String) (r : UserSubscription) : Prop :=
  (r.prevUserGroup = first ∧ r.upgradeGroup ≠ first) ∨ (r.prevUserGroup = "" ∧ r.upgradeGroup = first)

/-- What holds of the user when upgrading plans are bought one at a time. -/
structure Restorable (first : String) (s : GroupState) : Prop where
  ids : (s.subs.map UserSubscription.id).Nodup
  fresh : ∀ r ∈ s.subs, r.id < s.nextId
  trimmed : ∀ r ∈ s.subs, trimSpace r.upgradeGroup = r.upgradeGroup
  plain : ∀ r ∈ s.subs, r.downgradeGroup = ""
  snapshot : ∀ r ∈ s.subs, r.upgradeGroup ≠ "" → Snapshot first r
  one : ∀ r ∈ s.subs, ∀ r' ∈ s.subs, r.live = true → r'.live = true → r = r'
  idle : (∀ r ∈ s.subs, r.live = false) → s.group = first
  busy : ∀ r ∈ s.subs, r.live = true → s.group = r.upgradeGroup ∨ s.group = first
  past : ∀ e ∈ s.subs, e.status = .expired → e.endTime ≤ s.clock
  later : ∀ r ∈ s.subs, r.live = true → ∀ e ∈ s.subs, e.status = .expired → e.upgradeGroup ≠ "" →
    e.endTime < r.endTime

section Restore

variable {first : String}

variable {r : UserSubscription}

theorem live_iff : r.live = true ↔ r.status = .active ∧ r.upgradeGroup ≠ "" := by
  simp [UserSubscription.live]

theorem live_of_upgrades {now : ℤ} (h : r.upgrades now = true) : r.live = true := by
  simp only [UserSubscription.upgrades, Bool.and_eq_true, decide_eq_true_eq] at h
  exact live_iff.mpr ⟨h.1.1, h.2⟩

/-- The group a snapshot restores is the first group, and only from its own upgrade group. -/
theorem Snapshot.restores {group : String} (h : Snapshot first r) (htrim : trimSpace first = first) (hne : first ≠ "")
    (hgroup : group = r.upgradeGroup) :
    (if trimSpace r.prevUserGroup = "" then group else trimSpace r.prevUserGroup) = first := by
  rcases h with ⟨hprev, -⟩ | ⟨hprev, hup⟩
  · rw [hprev, htrim, if_neg hne]
  · rw [hprev, trimSpace_empty, if_pos rfl, hgroup, hup]

/-- When a subscription ends, the group stays or goes back to the first group. -/
theorem downgrade_cases (subs : List UserSubscription) (group : String) (now : ℤ)
    {sub : UserSubscription} (htrim : trimSpace first = first) (hne : first ≠ "")
    (hsub : trimSpace sub.upgradeGroup = sub.upgradeGroup) (hplain : sub.downgradeGroup = "")
    (hsnap : sub.upgradeGroup ≠ "" → Snapshot first sub) :
    let after := downgradeUserGroupForSubscriptionTx subs group sub now
    (after = group ∨ after = first) ∧ ((∀ s ∈ subs, s.id ≠ sub.id → s.upgrades now = false) → sub.upgradeGroup ≠ "" →
        group = sub.upgradeGroup → after = first) := by
  unfold downgradeUserGroupForSubscriptionTx
  dsimp only
  rw [hplain, trimSpace_empty, hsub]
  by_cases hup : sub.upgradeGroup = ""
  · rw [if_pos ⟨rfl, hup⟩]
    exact ⟨.inl rfl, fun _ h => absurd hup h⟩
  rw [if_neg (fun h => hup h.2)]
  by_cases hany : (subs.any fun s => s.id ≠ sub.id && s.upgrades now) = true
  · rw [if_pos hany]
    refine ⟨.inl rfl, fun hnone => ?_⟩
    obtain ⟨s, hs, h⟩ := List.any_eq_true.mp hany
    simp only [Bool.and_eq_true, decide_eq_true_eq] at h
    rw [hnone s hs h.1] at h
    cases h.2
  rw [if_neg hany]
  by_cases hcur : group = sub.upgradeGroup
  · rw [if_neg (fun h => h.2 hcur), if_pos rfl]
    have hres := (hsnap hup).restores htrim hne hcur
    exact ⟨.inr hres, fun _ _ _ => hres⟩
  · rw [if_pos ⟨rfl, hcur⟩]
    exact ⟨.inl rfl, fun _ _ h => absurd h hcur⟩

variable {l : List UserSubscription}

theorem latestEnding_some {b : UserSubscription} (h : latestEnding l = some b) :
    b ∈ l ∧ ∀ s ∈ l, s.endTime ≤ b.endTime := by
  induction l generalizing b with
  | nil => cases h
  | cons s rest ih =>
    unfold latestEnding at h
    cases hr : latestEnding rest with
    | none =>
      rw [hr] at h
      cases h
      have hnil : rest = [] := by
        cases rest with
        | nil => rfl
        | cons x xs =>
          exfalso
          unfold latestEnding at hr
          revert hr
          cases latestEnding xs with
          | none => intro hr; cases hr
          | some y => dsimp only; split_ifs <;> (intro hr; cases hr)
      subst hnil
      exact ⟨List.mem_cons_self, fun x hx => by rw [List.mem_singleton.mp hx]⟩
    | some c =>
      rw [hr] at h
      obtain ⟨hc, hmax⟩ := ih hr
      dsimp only at h
      split_ifs at h with hcmp
      · cases h
        refine ⟨List.mem_cons_of_mem _ hc, fun x hx => ?_⟩
        rcases List.mem_cons.mp hx with rfl | hx
        · omega
        · exact hmax x hx
      · cases h
        refine ⟨List.mem_cons_self, fun x hx => ?_⟩
        rcases List.mem_cons.mp hx with rfl | hx
        · exact le_refl _
        · have := hmax x hx; omega

theorem latestEnding_isSome {s : UserSubscription} (hs : s ∈ l) : ∃ b, latestEnding l = some b := by
  cases l with
  | nil => cases hs
  | cons x xs =>
    unfold latestEnding
    cases latestEnding xs with
    | none => exact ⟨x, rfl⟩
    | some y => dsimp only; split_ifs <;> exact ⟨_, rfl⟩

/-- After the job's status update, the group stays or goes back to the first group; it goes back when
the row that ended last is the one that holds the user. -/
theorem groupAfterExpiry_cases {subs : List UserSubscription} (group : String) (now : ℤ)
    (htrim : trimSpace first = first) (hne : first ≠ "") (hsub : ∀ r ∈ subs, trimSpace r.upgradeGroup = r.upgradeGroup)
    (hplain : ∀ r ∈ subs, r.downgradeGroup = "") (hsnap : ∀ r ∈ subs, r.upgradeGroup ≠ "" → Snapshot first r) :
    let after := groupAfterExpiry subs group now
    (after = group ∨ after = first) ∧ ∀ r ∈ subs, r.status = .expired → r.upgradeGroup ≠ "" → group = r.upgradeGroup →
        (∀ e ∈ subs, e.status = .expired → e.upgradeGroup ≠ "" → e ≠ r → e.endTime < r.endTime) →
        (∀ s ∈ subs, s.upgrades now = false) → after = first := by
  unfold groupAfterExpiry
  dsimp only
  by_cases hany : (subs.any fun s => s.upgrades now) = true
  · rw [if_pos hany]
    refine ⟨.inl rfl, fun r _ _ _ _ _ hnone => ?_⟩
    obtain ⟨s, hs, h⟩ := List.any_eq_true.mp hany
    rw [hnone s hs] at h
    cases h
  rw [if_neg hany]
  cases hlast : latestEnding (subs.filter fun s =>
      s.status = .expired && (s.downgradeGroup ≠ "" || s.upgradeGroup ≠ "")) with
  | none =>
    refine ⟨.inl rfl, fun r hr hexp hup _ _ _ => ?_⟩
    have hmem : r ∈ subs.filter fun s =>
        s.status = .expired && (s.downgradeGroup ≠ "" || s.upgradeGroup ≠ "") :=
      List.mem_filter.mpr ⟨hr, by simp [hexp, hup]⟩
    obtain ⟨b, hb⟩ := latestEnding_isSome hmem
    rw [hlast] at hb
    cases hb
  | some last =>
    obtain ⟨hmem, hmax⟩ := latestEnding_some hlast
    obtain ⟨hin, hprop⟩ := List.mem_filter.mp hmem
    have hdown := hplain last hin
    obtain ⟨hexp, hup⟩ : last.status = .expired ∧ last.upgradeGroup ≠ "" := by
      simpa [hdown] using hprop
    have hsnap' := hsnap last hin hup
    dsimp only
    rw [hdown, trimSpace_empty, hsub last hin, if_neg (by simp)]
    have hrest : group = last.upgradeGroup → (if last.upgradeGroup = "" ∨ trimSpace last.prevUserGroup = "" then group
          else if group ≠ last.upgradeGroup then group else trimSpace last.prevUserGroup) = first := by
      intro hcur
      have hres := hsnap'.restores htrim hne hcur
      by_cases hp : trimSpace last.prevUserGroup = ""
      · rw [if_pos (.inr hp)]; rwa [if_pos hp] at hres
      · rw [if_neg (by simp [hup, hp]), if_neg (by simp [hcur])]; rwa [if_neg hp] at hres
    refine ⟨?_, fun r hr hrexp hrup hcur hlater _ => ?_⟩
    · by_cases hcur : group = last.upgradeGroup
      · exact .inr (hrest hcur)
      · left
        by_cases hp : last.upgradeGroup = "" ∨ trimSpace last.prevUserGroup = ""
        · rw [if_pos hp]
        · rw [if_neg hp, if_pos hcur]
    · -- the row that ended last is `r`
      have hrmem : r ∈ subs.filter fun s =>
          s.status = .expired && (s.downgradeGroup ≠ "" || s.upgradeGroup ≠ "") :=
        List.mem_filter.mpr ⟨hr, by simp [hrexp, hrup]⟩
      have hle := hmax r hrmem
      obtain rfl : last = r := by
        by_contra hneq
        have := hlater last hin hexp hup hneq
        omega
      exact hrest hcur

end Restore

theorem createUserSubscription_ok {cal : DateCalendar} {nowUnix : ℤ} {count nextId : ℕ} {userId : ℤ}
    {currentGroup group : String} {plan : SubscriptionPlan} {source : SubscriptionSource} {sub : UserSubscription}
    (h : createUserSubscriptionFromPlanTx cal nowUnix count nextId userId currentGroup plan source = .ok (sub, group)) :
    sub.id = nextId ∧ sub.downgradeGroup = trimSpace plan.downgradeGroup ∧
      sub.upgradeGroup = trimSpace plan.upgradeGroup ∧ sub.status = .active ∧ (sub.prevUserGroup =
        if sub.upgradeGroup ≠ "" ∧ currentGroup ≠ sub.upgradeGroup then currentGroup else "") ∧ (group =
        if sub.upgradeGroup ≠ "" ∧ currentGroup ≠ sub.upgradeGroup then sub.upgradeGroup else currentGroup) ∧
      calcPlanEndTime cal nowUnix plan = .ok sub.endTime := by
  unfold createUserSubscriptionFromPlanTx at h
  split_ifs at h
  cases he : calcPlanEndTime cal nowUnix plan with
  | error e => rw [he] at h; cases h
  | ok endUnix =>
    rw [he] at h
    cases h
    exact ⟨rfl, rfl, rfl, rfl, rfl, rfl, rfl⟩

/-! ## Steps -/

namespace Restorable

variable {first : String} {s : GroupState}

theorem start (clock : ℤ) : Restorable first (GroupState.start first clock) where
  ids := List.nodup_nil
  fresh r hr := by cases hr
  trimmed r hr := by cases hr
  plain r hr := by cases hr
  snapshot r hr := by cases hr
  one r hr := by cases hr
  idle _ := rfl
  busy r hr := by cases hr
  past e he := by cases he
  later r hr := by cases hr

theorem tick (h : Restorable first s) (seconds : ℕ) : Restorable first { s with clock := s.clock + seconds } :=
  { h with past := fun e he hexp => by have := h.past e he hexp; dsimp only; omega }

theorem purchase (h : Restorable first s) {cal : DateCalendar} {userId : ℤ}
    {plan : SubscriptionPlan} {source : SubscriptionSource} (hplain : trimSpace plan.downgradeGroup = "")
    (hone : OneAtATime s (.purchase plan source)) : Restorable first (Purchase.purchase cal userId plan source s) := by
  unfold Purchase.purchase
  dsimp only
  cases hc : createUserSubscriptionFromPlanTx cal s.clock (s.subs.countP fun r => r.planId = plan.id)
      s.nextId userId s.group plan source with
  | error e => exact h
  | ok r =>
    obtain ⟨sub, group⟩ := r
    obtain ⟨hid, hdown, hup, hstatus, hprev, hgroup, hend⟩ := createUserSubscription_ok hc
    rw [hplain] at hdown
    have hmem : ∀ {r}, r ∈ s.subs ++ [sub] → r ∈ s.subs ∨ r = sub := by
      intro r hr
      rcases List.mem_append.mp hr with hr | hr
      · exact .inl hr
      · exact .inr (List.mem_singleton.mp hr)
    -- a live new row means that there was no other and the user was in the first group
    have hlive : sub.live = true → (∀ r ∈ s.subs, r.live = false) ∧ plan.DurationFits := by
      intro hl
      exact hone (by rw [← hup]; exact (live_iff.mp hl).2)
    have hnone : sub.upgradeGroup ≠ "" → ∀ r ∈ s.subs, r.live = false := fun hu =>
      (hlive (live_iff.mpr ⟨hstatus, hu⟩)).1
    refine ⟨?_, ?_, ?_, ?_, ?_, ?_, ?_, ?_, ?_, ?_⟩
    · rw [List.map_append, List.nodup_append]
      refine ⟨h.ids, by simp, ?_⟩
      intro a ha b hb e
      obtain ⟨r, hr, rfl⟩ := List.mem_map.mp ha
      rw [List.map_singleton, List.mem_singleton] at hb
      have := h.fresh r hr
      omega
    · intro r hr
      rcases hmem hr with hr | rfl
      · have := h.fresh r hr; dsimp only; omega
      · dsimp only; omega
    · intro r hr
      rcases hmem hr with hr | rfl
      · exact h.trimmed r hr
      · rw [hup, trimSpace_trimSpace]
    · intro r hr
      rcases hmem hr with hr | rfl
      · exact h.plain r hr
      · exact hdown
    · intro r hr hu
      rcases hmem hr with hr | rfl
      · exact h.snapshot r hr hu
      · have hfirst : s.group = first := h.idle (hnone hu)
        rw [hfirst] at hprev
        by_cases hmove : first ≠ r.upgradeGroup
        · exact .inl ⟨by rw [hprev, if_pos ⟨hu, hmove⟩], hmove.symm⟩
        · rw [not_not] at hmove
          exact .inr ⟨by rw [hprev, if_neg (fun hm => hm.2 hmove)], hmove.symm⟩
    · intro r hr r' hr' hl hl'
      rcases hmem hr with hin | e
      · rcases hmem hr' with hin' | e'
        · exact h.one r hin r' hin' hl hl'
        · rw [(hlive (e' ▸ hl')).1 r hin] at hl; cases hl
      · rcases hmem hr' with hin' | e'
        · rw [(hlive (e ▸ hl)).1 r' hin'] at hl'; cases hl'
        · rw [e, e']
    · intro hidle
      have hsub := hidle sub (by simp)
      have hu : sub.upgradeGroup = "" := by
        by_contra hu
        rw [live_iff.mpr ⟨hstatus, hu⟩] at hsub
        cases hsub
      rw [hgroup, if_neg (fun hm => hm.1 hu)]
      exact h.idle fun r hr => hidle r (by simp [hr])
    · intro r hr hl
      rcases hmem hr with hr | rfl
      · have hu : sub.upgradeGroup = "" := by
          by_contra hu
          rw [hnone hu r hr] at hl
          cases hl
        dsimp only
        rw [hgroup, if_neg (fun hm => hm.1 hu)]
        exact h.busy r hr hl
      · left
        dsimp only
        rw [hgroup]
        by_cases hm : r.upgradeGroup ≠ "" ∧ s.group ≠ r.upgradeGroup
        · rw [if_pos hm]
        · rw [if_neg hm]
          by_contra hne
          exact hm ⟨(live_iff.mp hl).2, hne⟩
    · intro e he hexp
      rcases hmem he with he | rfl
      · exact h.past e he hexp
      · rw [hstatus] at hexp; cases hexp
    · intro r hr hl e he hexp hu
      rcases hmem he with hin | rfl
      · rcases hmem hr with hr | rfl
        · exact h.later r hr hl e hin hexp hu
        · have hpast := h.past e hin hexp
          have := lt_calcPlanEndTime (hlive hl).2 hend
          omega
      · rw [hstatus] at hexp; cases hexp

/-- Ending one row: the other rows stay, and the row itself is gone or cancelled. -/
theorem ended (h : Restorable first s) (htrim : trimSpace first = first) (hne : first ≠ "")
    {sub : UserSubscription} (hsub : sub ∈ s.subs) {subs seen : List UserSubscription} {now : ℤ}
    (hids : (subs.map UserSubscription.id).Nodup) (hseen : ∀ r ∈ seen, r.id ≠ sub.id → r ∈ s.subs)
    (hkeep : ∀ r ∈ s.subs, r.id ≠ sub.id → r ∈ subs) (hfrom : ∀ r ∈ subs, (r ∈ s.subs ∧ r.id ≠ sub.id) ∨
      ∃ endTime, r = { sub with status := .cancelled, endTime := endTime }) :
    Restorable first { s with
      subs := subs, group := downgradeUserGroupForSubscriptionTx seen s.group sub now } := by
  obtain ⟨hcases, hback⟩ := downgrade_cases seen s.group now htrim hne
    (h.trimmed sub hsub) (h.plain sub hsub) (h.snapshot sub hsub)
  -- a live row after the step is another row and was live before
  have hlive : ∀ r ∈ subs, r.live = true → r ∈ s.subs ∧ r.id ≠ sub.id := by
    intro r hr hl
    rcases hfrom r hr with hin | ⟨endTime, rfl⟩
    · exact hin
    · have := (live_iff.mp hl).1; cases this
  have hback' : sub.live = true → downgradeUserGroupForSubscriptionTx seen s.group sub now = first := by
    intro hl
    rcases h.busy sub hsub hl with hg | hg
    · refine hback (fun r hr hid => ?_) (live_iff.mp hl).2 hg
      cases hu : r.upgrades now with
      | false => rfl
      | true =>
        exact absurd (congrArg UserSubscription.id
          (h.one r (hseen r hr hid) sub hsub (live_of_upgrades hu) hl)) hid
    · rcases hcases with e | e
      · rw [e, hg]
      · exact e
  refine ⟨hids, ?_, ?_, ?_, ?_, ?_, ?_, ?_, ?_, ?_⟩
  · intro r hr
    rcases hfrom r hr with ⟨hin, -⟩ | ⟨endTime, rfl⟩
    · exact h.fresh r hin
    · exact h.fresh sub hsub
  · intro r hr
    rcases hfrom r hr with ⟨hin, -⟩ | ⟨endTime, rfl⟩
    · exact h.trimmed r hin
    · exact h.trimmed sub hsub
  · intro r hr
    rcases hfrom r hr with ⟨hin, -⟩ | ⟨endTime, rfl⟩
    · exact h.plain r hin
    · exact h.plain sub hsub
  · intro r hr hu
    rcases hfrom r hr with ⟨hin, -⟩ | ⟨endTime, rfl⟩
    · exact h.snapshot r hin hu
    · exact h.snapshot sub hsub hu
  · intro r hr r' hr' hl hl'
    exact h.one r (hlive r hr hl).1 r' (hlive r' hr' hl').1 hl hl'
  · intro hidle
    cases hl : sub.live with
    | true => exact hback' hl
    | false =>
      have hfirst : s.group = first := by
        apply h.idle
        intro r hr
        by_cases hid : r.id = sub.id
        · rw [List.inj_on_of_nodup_map h.ids hr hsub hid]; exact hl
        · exact hidle r (hkeep r hr hid)
      dsimp only
      rcases hcases with e | e
      · rw [e, hfirst]
      · exact e
  · intro r hr hl
    obtain ⟨hin, hid⟩ := hlive r hr hl
    dsimp only
    rcases hcases with e | e
    · rw [e]; exact h.busy r hin hl
    · exact .inr e
  · intro e he hexp
    rcases hfrom e he with ⟨hin, -⟩ | ⟨endTime, rfl⟩
    · exact h.past e hin hexp
    · cases hexp
  · intro r hr hl e he hexp hu
    rcases hfrom e he with ⟨hin, -⟩ | ⟨endTime, rfl⟩
    · exact h.later r (hlive r hr hl).1 hl e hin hexp hu
    · cases hexp

theorem invalidate (h : Restorable first s) (htrim : trimSpace first = first) (hne : first ≠ "")
    (id : ℕ) (now : ℤ) : Restorable first (adminInvalidateUserSubscription id now s) := by
  unfold adminInvalidateUserSubscription
  cases hf : findSubscription s id with
  | none => exact h
  | some sub =>
    have hsub : sub ∈ s.subs := List.mem_of_find?_eq_some hf
    have hid : sub.id = id := by simpa using List.find?_some hf
    have hfrom : ∀ r ∈ s.subs.map (fun r =>
          if r.id = id then { r with status := SubscriptionStatus.cancelled, endTime := now } else r),
        (r ∈ s.subs ∧ r.id ≠ sub.id) ∨
          ∃ endTime, r = { sub with status := .cancelled, endTime := endTime } := by
      intro r hr
      obtain ⟨r₀, hr₀, rfl⟩ := List.mem_map.mp hr
      by_cases he : r₀.id = id
      · rw [if_pos he]
        obtain rfl : r₀ = sub := List.inj_on_of_nodup_map h.ids hr₀ hsub (he.trans hid.symm)
        exact .inr ⟨now, rfl⟩
      · rw [if_neg he]
        exact .inl ⟨hr₀, by rw [hid]; exact he⟩
    refine h.ended htrim hne hsub ?_ ?_ ?_ hfrom
    · have hmap : (s.subs.map (fun r => if r.id = id then
          { r with status := SubscriptionStatus.cancelled, endTime := now } else r)).map
          UserSubscription.id = s.subs.map UserSubscription.id := by
        rw [List.map_map]
        refine List.map_congr_left fun r _ => ?_
        by_cases he : r.id = id <;> simp [he]
      rw [hmap]
      exact h.ids
    · intro r hr hne'
      rcases hfrom r hr with ⟨hin, -⟩ | ⟨endTime, rfl⟩
      · exact hin
      · exact absurd rfl hne'
    · intro r hr hne'
      refine List.mem_map.mpr ⟨r, hr, if_neg ?_⟩
      rw [← hid]; exact hne'

theorem delete (h : Restorable first s) (htrim : trimSpace first = first) (hne : first ≠ "")
    (id : ℕ) (now : ℤ) : Restorable first (adminDeleteUserSubscription id now s) := by
  unfold adminDeleteUserSubscription
  cases hf : findSubscription s id with
  | none => exact h
  | some sub =>
    have hsub : sub ∈ s.subs := List.mem_of_find?_eq_some hf
    have hid : sub.id = id := by simpa using List.find?_some hf
    refine h.ended htrim hne hsub ?_ (fun r hr _ => hr) ?_ ?_
    · exact h.ids.sublist (List.filter_sublist.map _)
    · intro r hr hne'
      refine List.mem_filter.mpr ⟨hr, ?_⟩
      rw [← hid]; simpa using hne'
    · intro r hr
      obtain ⟨hin, hne'⟩ := List.mem_filter.mp hr
      left
      exact ⟨hin, by rw [hid]; simpa using hne'⟩

theorem expireDue_id (now : ℤ) (r : UserSubscription) : (expireDue now r).id = r.id := by
  unfold expireDue; split_ifs <;> rfl

/-- The job's update of a row: it is expired if it was due, and nothing else changes. -/
theorem expireDue_cases (now : ℤ) (r : UserSubscription) : expireDue now r = r ∨
      (r.status = .active ∧ r.endTime ≤ now ∧ expireDue now r = { r with status := .expired }) := by
  unfold expireDue
  split_ifs with hdue
  · exact .inr ⟨hdue.1, hdue.2.2, rfl⟩
  · exact .inl rfl

theorem expire (h : Restorable first s) (htrim : trimSpace first = first) (hne : first ≠ "")
    {now : ℤ} (hnow : now ≤ s.clock) : Restorable first (expireDueSubscriptions now s) := by
  -- a live row after the update is a row of before, and an upgrading row expired by it was live
  have hlive : ∀ r ∈ s.subs, (expireDue now r).live = true → expireDue now r = r := by
    intro r _ hl
    rcases expireDue_cases now r with e | ⟨-, -, e⟩
    · exact e
    · rw [e] at hl
      have := (live_iff.mp hl).1
      cases this
  have hexpired : ∀ r ∈ s.subs, (expireDue now r).status = .expired → r.upgradeGroup ≠ "" →
      r.status = .expired ∨ (r.live = true ∧ r.endTime ≤ now) := by
    intro r _ hexp hu
    rcases expireDue_cases now r with e | ⟨hactive, hend, -⟩
    · rw [e] at hexp; exact .inl hexp
    · exact .inr ⟨live_iff.mpr ⟨hactive, hu⟩, hend⟩
  have hup : ∀ r, (expireDue now r).upgradeGroup = r.upgradeGroup := by
    intro r; unfold expireDue; split_ifs <;> rfl
  have hprev : ∀ r, (expireDue now r).prevUserGroup = r.prevUserGroup := by
    intro r; unfold expireDue; split_ifs <;> rfl
  have hdown : ∀ r, (expireDue now r).downgradeGroup = r.downgradeGroup := by
    intro r; unfold expireDue; split_ifs <;> rfl
  have hend : ∀ r, (expireDue now r).endTime = r.endTime := by
    intro r; unfold expireDue; split_ifs <;> rfl
  have hmem : ∀ {p : UserSubscription → Prop}, (∀ r ∈ s.subs, p (expireDue now r)) →
      ∀ r ∈ s.subs.map (expireDue now), p r := by
    intro p hp r hr
    obtain ⟨r₀, hr₀, rfl⟩ := List.mem_map.mp hr
    exact hp r₀ hr₀
  have htrimmed : ∀ r ∈ s.subs.map (expireDue now), trimSpace r.upgradeGroup = r.upgradeGroup :=
    hmem fun r hr => by rw [hup]; exact h.trimmed r hr
  have hplain : ∀ r ∈ s.subs.map (expireDue now), r.downgradeGroup = "" :=
    hmem fun r hr => by rw [hdown]; exact h.plain r hr
  have hsnap : ∀ r ∈ s.subs.map (expireDue now), r.upgradeGroup ≠ "" → Snapshot first r :=
    hmem fun r hr hu => by
      unfold Snapshot
      rw [hup] at hu
      rw [hup, hprev]
      exact h.snapshot r hr hu
  obtain ⟨hcases, hback⟩ := groupAfterExpiry_cases s.group now htrim hne
    htrimmed hplain hsnap
  refine ⟨?_, ?_, htrimmed, hplain, hsnap, ?_, ?_, ?_, ?_, ?_⟩
  · show ((s.subs.map (expireDue now)).map UserSubscription.id).Nodup
    have hids : (s.subs.map (expireDue now)).map UserSubscription.id =
        s.subs.map UserSubscription.id := by
      rw [List.map_map]
      exact List.map_congr_left fun r _ => expireDue_id now r
    rw [hids]
    exact h.ids
  · exact hmem fun r hr => by rw [expireDue_id]; exact h.fresh r hr
  · refine hmem fun r hr => hmem fun r' hr' hl hl' => ?_
    have e := hlive r hr hl
    have e' := hlive r' hr' hl'
    rw [e] at hl ⊢
    rw [e'] at hl' ⊢
    exact h.one r hr r' hr' hl hl'
  · intro hidle
    have hnone : ∀ r ∈ s.subs.map (expireDue now), r.upgrades now = false := by
      intro r hr
      cases hu : r.upgrades now with
      | false => rfl
      | true => rw [← live_of_upgrades hu, hidle r hr]
    by_cases hwas : ∃ r ∈ s.subs, r.live = true
    · obtain ⟨r, hr, hl⟩ := hwas
      rcases h.busy r hr hl with hg | hg
      · have hmap : expireDue now r ∈ s.subs.map (expireDue now) := List.mem_map_of_mem hr
        have hexp : (expireDue now r).status = .expired := by
          rcases expireDue_cases now r with e | ⟨-, -, e⟩
          · have := hidle _ hmap
            rw [e, hl] at this
            cases this
          · rw [e]
        refine hback _ hmap hexp (by rw [hup]; exact (live_iff.mp hl).2) (by rw [hup]; exact hg) ?_
          hnone
        refine hmem fun e he heexp heup hne' => ?_
        rw [hup] at heup
        rw [hend, hend]
        rcases hexpired e he heexp heup with hold | ⟨hl', -⟩
        · exact h.later r hr hl e he hold heup
        · exact absurd (by rw [h.one e he r hr hl' hl]) hne'
      · show groupAfterExpiry _ s.group now = first
        rcases hcases with e | e
        · rw [e, hg]
        · exact e
    · have hg : s.group = first := by
        apply h.idle
        intro r hr
        cases hl : r.live with
        | false => rfl
        | true => exact absurd ⟨r, hr, hl⟩ hwas
      show groupAfterExpiry _ s.group now = first
      rcases hcases with e | e
      · rw [e, hg]
      · exact e
  · refine hmem fun r hr hl => ?_
    have e := hlive r hr hl
    rw [e] at hl ⊢
    show groupAfterExpiry _ s.group now = _ ∨ groupAfterExpiry _ s.group now = _
    rcases hcases with e | e
    · rw [e]; exact h.busy r hr hl
    · exact .inr e
  · refine hmem fun e he hexp => ?_
    rw [hend]
    rcases expireDue_cases now e with e' | ⟨-, hle, -⟩
    · rw [e'] at hexp; exact h.past e he hexp
    · exact le_trans hle hnow
  · refine hmem fun r hr hl => hmem fun e he hexp hu => ?_
    have er := hlive r hr hl
    rw [er] at hl
    rw [hend, hend]
    rw [hup] at hu
    rcases hexpired e he hexp hu with hold | ⟨hl', -⟩
    · exact h.later r hr hl e he hold hu
    · obtain rfl := h.one e he r hr hl' hl
      rw [er] at hexp
      have := (live_iff.mp hl).1
      rw [hexp] at this
      cases this

theorem step (h : Restorable first s) (htrim : trimSpace first = first) (hne : first ≠ "")
    (cal : DateCalendar) (userId : ℤ) {a : GroupAction} (hplan : a.Reverts) (hone : OneAtATime s a) :
    Restorable first (groupStep cal userId s a) := by
  cases a with
  | tick seconds => exact h.tick seconds
  | purchase plan source => exact h.purchase hplan hone
  | expire now =>
    unfold groupStep
    dsimp only
    split_ifs with hnow
    · exact h.expire htrim hne hnow
    · exact h
  | invalidate id now => exact h.invalidate htrim hne id now
  | delete id now => exact h.delete htrim hne id now

end Restorable

/-- **No early downgrade.** No step that ends subscriptions moves the user while an upgrading
subscription is active after it. -/
theorem ending_keeps_group (cal : DateCalendar) (userId : ℤ) (s : GroupState) {a : GroupAction}
    {now : ℤ} (ha : a.endsAt = some now) (hactive : ∃ r ∈ (groupStep cal userId s a).subs, r.upgrades now = true) :
    (groupStep cal userId s a).group = s.group := by
  obtain ⟨r, hr, hup⟩ := hactive
  have hkeep : ∀ {subs : List UserSubscription} {sub : UserSubscription}, r ∈ subs → r.id ≠ sub.id →
      downgradeUserGroupForSubscriptionTx subs s.group sub now = s.group := by
    intro subs sub hin hid
    have hany : (subs.any fun s => s.id ≠ sub.id && s.upgrades now) = true :=
      List.any_eq_true.mpr ⟨r, hin, by simp [hid, hup]⟩
    unfold downgradeUserGroupForSubscriptionTx
    dsimp only
    rw [if_pos hany, ite_self]
  cases a with
  | tick seconds => cases ha
  | purchase plan source => cases ha
  | expire now' =>
    cases ha
    unfold groupStep at hr ⊢
    dsimp only at hr ⊢
    split_ifs at hr ⊢ with hnow
    · show groupAfterExpiry _ s.group now = s.group
      have hany : ((s.subs.map (expireDue now)).any fun s => s.upgrades now) = true :=
        List.any_eq_true.mpr ⟨r, hr, hup⟩
      unfold groupAfterExpiry
      rw [if_pos hany]
    · rfl
  | invalidate id now' =>
    cases ha
    unfold groupStep adminInvalidateUserSubscription at hr ⊢
    dsimp only at hr ⊢
    cases hf : findSubscription s id with
    | none => rfl
    | some sub =>
      rw [hf] at hr
      have hid : sub.id = id := by simpa using List.find?_some hf
      refine hkeep hr ?_
      obtain ⟨r₀, hr₀, rfl⟩ := List.mem_map.mp hr
      by_cases he : r₀.id = id
      · rw [if_pos he] at hup; cases hup
      · rw [if_neg he, hid]; exact he
  | delete id now' =>
    cases ha
    unfold groupStep adminDeleteUserSubscription at hr ⊢
    dsimp only at hr ⊢
    cases hf : findSubscription s id with
    | none => rfl
    | some sub =>
      rw [hf] at hr
      have hid : sub.id = id := by simpa using List.find?_some hf
      obtain ⟨hin, hne⟩ := List.mem_filter.mp hr
      exact hkeep hin (by rw [hid]; simpa using hne)

/-- **The group comes back.** In every history whose upgrading plans are bought one at a time, the
user is in the first group whenever no upgrading subscription is active, and no step that ends
subscriptions moves the user while one is. -/
theorem group_restored (cal : DateCalendar) (userId : ℤ) {first : String} (clock : ℤ)
    (htrim : trimSpace first = first) (hne : first ≠ "") {as : List GroupAction}
    (hplans : ∀ a ∈ as, a.Reverts)
    (hone : Along (groupStep cal userId) OneAtATime (GroupState.start first clock) as) :
    let s := run (groupStep cal userId) (GroupState.start first clock) as
    ((∀ r ∈ s.subs, r.live = false) → s.group = first) ∧
      ∀ a now, a.endsAt = some now →
        (∃ r ∈ (groupStep cal userId s a).subs, r.upgrades now = true) →
        (groupStep cal userId s a).group = s.group := by
  intro s
  have hinv : Restorable first s :=
    run_invariant_along (fun s a h ha => h.step htrim hne cal userId ha.1 ha.2) (.start clock)
      ((Along.of_mem hplans _).and hone)
  exact ⟨hinv.idle, fun a now ha hactive => ending_keeps_group cal userId s ha hactive⟩

/-! A user of the group `default` and plans that upgrade to `vip`, bought on a server in a zone whose
months have 30 days. -/

def thirtyDays : DateCalendar where
  addYears t n := t + n * (365 * 86400)
  addMonths t n := t + n * (30 * 86400)
  lt_addYears t n h := by omega
  lt_addMonths t n h := by omega

def vipPlan (days : ℤ) : SubscriptionPlan :=
  { id := days, durationUnit := .day, durationValue := days, upgradeGroup := "vip" }

/-- Two subscriptions, the second bought after the job closed the first. -/
def vipTwice : List GroupAction :=
  [.purchase (vipPlan 10) .order, .tick 864000, .expire 864000, .purchase (vipPlan 20) .balance,
    .invalidate 2 900000]

theorem group_restored_twice :
    Along (groupStep thirtyDays 7) OneAtATime (GroupState.start "default" 0) vipTwice ∧
      (run (groupStep thirtyDays 7) (GroupState.start "default" 0) vipTwice).group = "default" := by
  have hone : Along (groupStep thirtyDays 7) OneAtATime (GroupState.start "default" 0) vipTwice := by
    refine ⟨fun _ => ⟨by decide, by decide⟩, trivial, trivial, fun _ => ⟨?_, by decide⟩, trivial,
      trivial⟩
    decide
  refine ⟨hone, ?_⟩
  have hplans : ∀ a ∈ vipTwice, a.Reverts := by
    intro a ha
    simp only [vipTwice, List.mem_cons, List.not_mem_nil, or_false] at ha
    rcases ha with rfl | rfl | rfl | rfl | rfl <;> first | trivial | exact trimSpace_empty
  exact (group_restored thirtyDays 7 0 (by decide +kernel) (by decide) hplans hone).1 (by decide +kernel)

/-- The second subscription is bought while the first has the user in `vip`, so it keeps no snapshot;
it ends last, and the user stays in `vip` with no subscription left. -/
theorem overlapping_vip_stays :
    let s := run (groupStep thirtyDays 7) (GroupState.start "default" 0)
      [.purchase (vipPlan 10) .order, .purchase (vipPlan 20) .order, .tick 864000, .expire 864000,
        .tick 864000, .expire 1728000]
    (∀ r ∈ s.subs, r.live = false) ∧ s.group = "vip" := by
  decide +kernel

end Vancine.Purchase
