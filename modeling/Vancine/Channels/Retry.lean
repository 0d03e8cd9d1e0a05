import Vancine.Channels.Status
import Vancine.Channels.Selection

/-!
# The retry loop of a relayed request

`Relay` tries channel after channel. The counter of the loop is reset from inside the selection, and a flag can hold
back the next increment, so that the counter alone does not show that the loop ends. A group and a retry number make
a slot: each attempt takes a later slot than the one before, and there are as many slots as groups times retries.

The first attempt is made on the channel that the distributor selected for the request, or on one that it took
for another reason (a preferred or a pinned channel). What happens outside the loop is part of the action: the
channels at each moment, the draws, and how an attempt ends.
-/

namespace Vancine.Channels

open Lib

/-! ## Errors -/

/-- What the retry rule reads of an error. -/
structure RelayError where
  channelError : Bool
  skipRetry : Bool
  statusCode : ℤ
  errorCode : Text

structure RetrySettings where
  /-- `operation_setting.IsAlwaysSkipRetryCode`. -/
  isAlwaysSkipRetryCode : Text → Bool
  /-- `operation_setting.ShouldRetryByStatusCode`. -/
  shouldRetryByStatusCode : ℤ → Bool

/-- `suppressed`: a failed preferred channel, or a pinned one, that is not tried again. -/
def shouldRetryRelayError (settings : RetrySettings) (suppressed : Bool) (error : RelayError) (retryTimes : ℤ) : Bool :=
  if suppressed then false
  else if error.channelError then true
  else if error.skipRetry then false
  else if retryTimes ≤ 0 then false
  else if 200 ≤ error.statusCode ∧ error.statusCode < 300 then false
  else if error.statusCode < 100 ∨ 599 < error.statusCode then true
  else if settings.isAlwaysSkipRetryCode error.errorCode then false
  else settings.shouldRetryByStatusCode error.statusCode

/-! ## Selection -/

/-- What stays the same during a request. -/
structure Request where
  tokenGroup : Text
  autoGroups : List Text
  crossGroupRetry : Bool
  retryTimes : ℤ
  model : Text
  filters : List ChannelFilter
  routing : Routing
  settings : RetrySettings

/-- The channels when one selection is made, and its draw. -/
structure Moment where
  store : ChannelStore
  draw : ℕ

namespace Moment

/-- `model.GetRandomSatisfiedChannel`. -/
def select (m : Moment) (request : Request) (group : Text) (retry : ℕ) : Except SelectError (Option Channel) :=
  if m.store.memoryCacheEnabled then
    getRandomSatisfiedChannel request.routing m.store.cache group request.model retry request.filters m.draw
  else getChannel request.routing m.store.db group request.model retry request.filters m.draw

/-- The same without its error; `GetChannel` returns the channel's id also when the row is not found. -/
def found (m : Moment) (request : Request) (group : Text) (retry : ℕ) : Option Channel :=
  match m.select request group retry with
  | .ok channel => channel
  | .error (.inconsistent id) => if m.store.memoryCacheEnabled then none else some { id }
  | .error .notFound => if m.store.memoryCacheEnabled then none else some { id := 0 }

/-- The priorities of the candidates. -/
def priorities (m : Moment) (request : Request) (group : Text) : List ℤ :=
  if m.store.memoryCacheEnabled then
    (m.store.cache.candidates request.routing group request.model request.filters).filterMap fun id =>
      (m.store.cache.channel id).map Channel.getPriority
  else (m.store.db.candidates request.routing group request.model request.filters).map Ability.getPriority

end Moment

/-- A channel that was selected: for the group at a position, with a retry number, among candidates with these
priorities. -/
structure Selection where
  position : ℕ
  retry : ℕ
  priorities : List ℤ
  channel : Channel

/-- The priority that a selection draws from. -/
def Selection.tier (selection : Selection) : ℤ := targetPriority selection.priorities selection.retry

/-- `RetryParam`, and the index of the group that the request keeps. -/
structure RetryParam where
  retry : ℕ := 0
  resetNextTry : Bool := false
  autoGroupIndex : Option ℕ := none

namespace RetryParam

def increaseRetry (param : RetryParam) : RetryParam :=
  if param.resetNextTry then { param with resetNextTry := false } else { param with retry := param.retry + 1 }

end RetryParam

def auto : Text := "auto".toList

/-- The groups from position `i` on, where the search started at `start`. -/
def selectAutoGroup (request : Request) (moments : ℕ → Moment) (start : ℕ) :
    ℕ → List Text → RetryParam → Option Selection × RetryParam
  | _, [], param => (none, param)
  | i, autoGroup :: rest, param =>
    let priorityRetry := if start < i then 0 else param.retry
    match (moments i).found request autoGroup priorityRetry with
    | none =>
      selectAutoGroup request moments start (i + 1) rest { param with autoGroupIndex := some (i + 1), retry := 0 }
    | some channel =>
      (some ⟨i, priorityRetry, (moments i).priorities request autoGroup, channel⟩,
        if request.crossGroupRetry ∧ request.retryTimes ≤ priorityRetry then
          { param with autoGroupIndex := some (i + 1), retry := 0, resetNextTry := true }
        else { param with autoGroupIndex := some i })

/-- None for an error and for no channel, which both end the request. -/
def cacheGetRandomSatisfiedChannel (request : Request) (moments : ℕ → Moment) (param : RetryParam) :
    Option Selection × RetryParam :=
  if request.tokenGroup = auto then
    let startGroupIndex := param.autoGroupIndex.getD 0
    selectAutoGroup request moments startGroupIndex startGroupIndex (request.autoGroups.drop startGroupIndex) param
  else
    match (moments 0).select request request.tokenGroup param.retry with
    | .ok (some channel) =>
      (some ⟨0, param.retry, (moments 0).priorities request request.tokenGroup, channel⟩, param)
    | _ => (none, param)

/-! ## The loop -/

/-- How an attempt ends. -/
inductive Outcome
  /-- The channel cannot be set up, or nothing is sent for want of quota or of a body. -/
  | notSent
  | success
  | failure (error : RelayError) (suppressed : Bool)

structure Attempt where
  moments : ℕ → Moment
  outcome : Outcome

structure Loop where
  param : RetryParam := {}
  /-- An attempt has set `ChannelMeta`. -/
  channelMeta : Bool := false
  /-- How the channel of the first attempt was selected, if it was. -/
  first : Option Selection := none
  running : Bool := true
  /-- The attempts on selected channels, the last one first. -/
  tried : List Selection := []

/-- The attempt on a channel, selected or not. -/
def Loop.attempt (request : Request) (selection : Option Selection) (outcome : Outcome) (loop : Loop) : Loop :=
  let tried := selection.toList ++ loop.tried
  match outcome with
  | .notSent => { loop with running := false }
  | .success => { loop with channelMeta := true, tried, running := false }
  | .failure error suppressed =>
    if shouldRetryRelayError request.settings suppressed error (request.retryTimes - loop.param.retry) then
      { loop with channelMeta := true, tried, param := loop.param.increaseRetry }
    else { loop with channelMeta := true, tried, running := false }

/-- One iteration. -/
def loopStep (request : Request) (loop : Loop) (attempt : Attempt) : Loop :=
  if ¬loop.running then loop
  else if ¬loop.param.retry ≤ request.retryTimes then { loop with running := false }
  else if ¬loop.channelMeta then loop.attempt request loop.first attempt.outcome
  else
    match cacheGetRandomSatisfiedChannel request attempt.moments loop.param with
    | (none, param) => { loop with param, running := false }
    | (some selection, param) => { loop with param }.attempt request (some selection) attempt.outcome

/-- What the distributor does before the loop. -/
inductive Distribution
  | selected (moments : ℕ → Moment)
  /-- Another channel, whatever index of a group the request has by then. -/
  | other (autoGroupIndex : Option ℕ)

def startLoop (request : Request) : Distribution → Loop
  | .selected moments =>
    match cacheGetRandomSatisfiedChannel request moments {} with
    | (none, _) => { running := false }
    | (some selection, param) => { param := { autoGroupIndex := param.autoGroupIndex }, first := some selection }
  | .other autoGroupIndex => { param := { autoGroupIndex } }

/-! ## Slots -/

section Slots

variable {request : Request} {moments : ℕ → Moment}

namespace Request

/-- How many attempts a group gets. -/
def triesPerGroup (request : Request) : ℕ := (request.retryTimes + 1).toNat

def groupCount (request : Request) : ℕ := if request.tokenGroup = auto then request.autoGroups.length else 1

/-- The slot of a group's position and a retry number. -/
def slot (request : Request) (position retry : ℕ) : ℕ := position * request.triesPerGroup + retry

/-- The slot from which the next selection starts. -/
def nextSlot (request : Request) (param : RetryParam) : ℕ :=
  request.slot (if request.tokenGroup = auto then param.autoGroupIndex.getD 0 else 0) param.retry

end Request

theorem lt_triesPerGroup {retry : ℕ} : retry < request.triesPerGroup ↔ (retry : ℤ) ≤ request.retryTimes := by
  unfold Request.triesPerGroup
  omega

theorem slot_lt_slot_succ {position retry : ℕ} (h : retry < request.triesPerGroup) :
    request.slot position retry < request.slot (position + 1) 0 := by
  unfold Request.slot
  rw [Nat.add_mul, Nat.one_mul]
  omega

theorem slot_le_of_position_lt {p q retry : ℕ} (h : p < q) (hretry : retry < request.triesPerGroup) (other : ℕ) :
    request.slot p retry < request.slot q other := by
  refine (slot_lt_slot_succ hretry).trans_le ?_
  unfold Request.slot
  have hmul : (p + 1) * request.triesPerGroup ≤ q * request.triesPerGroup := Nat.mul_le_mul_right _ h
  omega

variable {param after : RetryParam} {selection : Selection}

/-- A selection for the auto groups: its slot is not before the slot of the search, its group is one of the groups,
and the next search starts one slot later. -/
theorem selectAutoGroup_slot {start i : ℕ} {groups : List Text}
    (h : selectAutoGroup request moments start i groups param = (some selection, after)) (hstart : start ≤ i)
    (hreset : param.resetNextTry = false) (hretry : param.retry < request.triesPerGroup)
    (hzero : start < i → param.retry = 0) :
    request.slot i param.retry ≤ request.slot selection.position selection.retry ∧
      selection.position < i + groups.length ∧ selection.retry < request.triesPerGroup ∧
      request.slot (after.increaseRetry.autoGroupIndex.getD 0) after.increaseRetry.retry =
        request.slot selection.position selection.retry + 1 := by
  induction groups generalizing i param with
  | nil => cases h
  | cons group rest ih =>
    have hpriority : (if start < i then 0 else param.retry) = param.retry := by
      split_ifs with hi
      · rw [hzero hi]
      · rfl
    unfold selectAutoGroup at h
    simp only [hpriority] at h
    cases hfound : (moments i).found request group param.retry with
    | none =>
      simp only [hfound] at h
      obtain ⟨hslot, hposition, hrest⟩ := ih h (hstart.trans (Nat.le_succ i)) hreset (Nat.zero_lt_of_lt hretry)
        fun _ => rfl
      refine ⟨(slot_lt_slot_succ hretry).le.trans hslot, ?_, hrest⟩
      rw [List.length_cons]
      omega
    | some channel =>
      simp only [hfound, Prod.mk.injEq, Option.some.injEq] at h
      obtain ⟨rfl, rfl⟩ := h
      refine ⟨le_rfl, ?_, hretry, ?_⟩
      · rw [List.length_cons]
        exact Nat.lt_add_of_pos_right (Nat.succ_pos _)
      · by_cases hcross : request.crossGroupRetry = true ∧ request.retryTimes ≤ param.retry
        · rw [if_pos hcross]
          -- The group has had its last try.
          have hlast : param.retry + 1 = request.triesPerGroup := by
            have hle := lt_triesPerGroup.mp hretry
            unfold Request.triesPerGroup
            omega
          simp only [RetryParam.increaseRetry, if_true, Option.getD_some, Request.slot, Nat.add_mul, Nat.one_mul]
          omega
        · rw [if_neg hcross]
          simp only [RetryParam.increaseRetry, hreset, Bool.false_eq_true, if_false, Option.getD_some, Request.slot]
          omega

theorem selection_slot (h : cacheGetRandomSatisfiedChannel request moments param = (some selection, after))
    (hreset : param.resetNextTry = false) (hretry : param.retry < request.triesPerGroup) :
    request.nextSlot param ≤ request.slot selection.position selection.retry ∧
      selection.position < request.groupCount ∧ selection.retry < request.triesPerGroup ∧
      request.nextSlot after.increaseRetry = request.slot selection.position selection.retry + 1 := by
  unfold cacheGetRandomSatisfiedChannel at h
  unfold Request.nextSlot Request.groupCount
  by_cases hauto : request.tokenGroup = auto
  · simp only [if_pos hauto] at h ⊢
    obtain ⟨hslot, hposition, hrest⟩ := selectAutoGroup_slot h le_rfl hreset hretry fun hlt => absurd hlt (lt_irrefl _)
    refine ⟨hslot, ?_, hrest⟩
    rw [List.length_drop] at hposition
    rcases Nat.le_total (param.autoGroupIndex.getD 0) request.autoGroups.length with hle | hle
    · omega
    · rw [List.drop_eq_nil_of_le hle] at h
      cases h
  · simp only [if_neg hauto] at h ⊢
    cases hselect : (moments 0).select request request.tokenGroup param.retry with
    | error error =>
      simp only [hselect] at h
      cases h
    | ok channel =>
      cases channel with
      | none =>
        simp only [hselect] at h
        cases h
      | some channel =>
        simp only [hselect, Prod.mk.injEq, Option.some.injEq] at h
        obtain ⟨rfl, rfl⟩ := h
        refine ⟨le_rfl, Nat.one_pos, hretry, ?_⟩
        simp only [RetryParam.increaseRetry, hreset, Bool.false_eq_true, if_false, Request.slot]
        rfl

end Slots

/-! ## Steps -/

section Steps

variable {request : Request} {loop : Loop}

/-- The attempts take later and later slots, and the next search starts after them. -/
structure Loop.Ordered (request : Request) (loop : Loop) : Prop where
  bounded : ∀ selection ∈ loop.tried,
    selection.position < request.groupCount ∧ selection.retry < request.triesPerGroup
  later : loop.tried.Pairwise fun later earlier =>
    request.slot earlier.position earlier.retry < request.slot later.position later.retry
  reset : loop.running = true → loop.param.resetNextTry = false
  next : loop.running = true → ∀ selection ∈ loop.tried,
    request.slot selection.position selection.retry < request.nextSlot loop.param
  /-- Before the first attempt. -/
  first : loop.running = true → loop.channelMeta = false → 0 < request.triesPerGroup →
    loop.tried = [] ∧ loop.param.retry = 0 ∧
    ∀ selection, loop.first = some selection → selection.position < request.groupCount ∧ selection.retry = 0 ∧
      request.slot selection.position 0 ≤ request.nextSlot loop.param

theorem increaseRetry_resetNextTry (param : RetryParam) : param.increaseRetry.resetNextTry = false := by
  unfold RetryParam.increaseRetry
  split_ifs with h
  · rfl
  · exact Bool.eq_false_iff.mpr h

theorem ordered_of_stopped (hrunning : loop.running = false) (hbounded : ∀ selection ∈ loop.tried,
      selection.position < request.groupCount ∧ selection.retry < request.triesPerGroup)
    (hlater : loop.tried.Pairwise fun later earlier =>
      request.slot earlier.position earlier.retry < request.slot later.position later.retry) :
    loop.Ordered request := by
  refine ⟨hbounded, hlater, fun h => ?_, fun h => ?_, fun h => ?_⟩
  all_goals
    rw [hrunning] at h
    cases h

variable {selection : Option Selection}

/-- The attempts before, one more on a channel whose slot comes after theirs, and a search that starts after it. -/
theorem attempt_ordered {outcome : Outcome}
    (hbounded : ∀ old ∈ loop.tried, old.position < request.groupCount ∧ old.retry < request.triesPerGroup)
    (hlater : loop.tried.Pairwise fun later earlier =>
      request.slot earlier.position earlier.retry < request.slot later.position later.retry)
    (hnew : ∀ new ∈ selection, new.position < request.groupCount ∧ new.retry < request.triesPerGroup ∧
      (∀ old ∈ loop.tried, request.slot old.position old.retry < request.slot new.position new.retry) ∧
      request.slot new.position new.retry < request.nextSlot loop.param.increaseRetry)
    (hold : ∀ old ∈ loop.tried, request.slot old.position old.retry < request.nextSlot loop.param.increaseRetry) :
    (loop.attempt request selection outcome).Ordered request := by
  have htried : ∀ old ∈ selection.toList ++ loop.tried,
      (old.position < request.groupCount ∧ old.retry < request.triesPerGroup) ∧
        request.slot old.position old.retry < request.nextSlot loop.param.increaseRetry := by
    intro old hmem
    rcases List.mem_append.mp hmem with hmem | hmem
    · obtain ⟨hposition, hretry, -, hnext⟩ := hnew old (Option.mem_toList.mp hmem)
      exact ⟨⟨hposition, hretry⟩, hnext⟩
    · exact ⟨hbounded old hmem, hold old hmem⟩
  have hpairwise : (selection.toList ++ loop.tried).Pairwise fun later earlier =>
      request.slot earlier.position earlier.retry < request.slot later.position later.retry := by
    refine List.pairwise_append.mpr ⟨?_, hlater, fun new hmem old hold => ?_⟩
    · cases selection with
      | none => exact List.Pairwise.nil
      | some new => exact List.pairwise_singleton _ new
    · exact (hnew new (Option.mem_toList.mp hmem)).2.2.1 old hold
  unfold Loop.attempt
  cases outcome with
  | notSent => exact ordered_of_stopped rfl hbounded hlater
  | success => exact ordered_of_stopped rfl (fun old hmem => (htried old hmem).1) hpairwise
  | failure error suppressed =>
    dsimp only
    split_ifs
    · exact ⟨fun old hmem => (htried old hmem).1, hpairwise, fun _ => increaseRetry_resetNextTry _,
        fun _ old hmem => (htried old hmem).2, fun _ hmeta => Bool.noConfusion hmeta⟩
    · exact ordered_of_stopped rfl (fun old hmem => (htried old hmem).1) hpairwise

theorem nextSlot_increaseRetry {param : RetryParam} (h : param.resetNextTry = false) :
    request.nextSlot param.increaseRetry = request.nextSlot param + 1 := by
  unfold RetryParam.increaseRetry
  rw [if_neg (by simp [h])]
  rfl

theorem loopStep_ordered (h : loop.Ordered request) (attempt : Attempt) :
    (loopStep request loop attempt).Ordered request := by
  unfold loopStep
  by_cases hrunning : loop.running = true
  · rw [if_neg (not_not.mpr hrunning)]
    by_cases hretry : (loop.param.retry : ℤ) ≤ request.retryTimes
    · rw [if_neg (not_not.mpr hretry)]
      by_cases hmeta : loop.channelMeta = true
      · rw [if_neg (not_not.mpr hmeta)]
        cases hselect : cacheGetRandomSatisfiedChannel request attempt.moments loop.param with
        | mk selection after =>
          cases selection with
          | none => exact ordered_of_stopped rfl h.bounded h.later
          | some selection =>
            obtain ⟨hslot, hposition, htry, hnext⟩ := selection_slot hselect (h.reset hrunning) (lt_triesPerGroup.mpr hretry)
            have hold : ∀ old ∈ loop.tried, request.slot old.position old.retry <
                request.slot selection.position selection.retry := by
              intro old hmem
              exact (h.next hrunning old hmem).trans_le hslot
            refine attempt_ordered h.bounded h.later (fun new hnew => ?_) fun old hmem => ?_
            · cases hnew
              refine ⟨hposition, htry, hold, ?_⟩
              rw [hnext]
              exact Nat.lt_succ_self _
            · rw [hnext]
              exact (hold old hmem).trans (Nat.lt_succ_self _)
      · rw [if_pos hmeta]
        have htries : loop.param.retry < request.triesPerGroup := lt_triesPerGroup.mpr hretry
        obtain ⟨htried, hzero, hfirst⟩ := h.first hrunning (Bool.eq_false_iff.mpr hmeta) (Nat.zero_lt_of_lt htries)
        have hnext : request.nextSlot loop.param.increaseRetry = request.nextSlot loop.param + 1 :=
          nextSlot_increaseRetry (h.reset hrunning)
        refine attempt_ordered h.bounded h.later (fun new hnew => ?_) fun old hold => ?_
        · obtain ⟨hposition, hnewRetry, hslot⟩ := hfirst new hnew
          rw [hnewRetry, hnext]
          refine ⟨hposition, ?_, fun old hold => ?_, Nat.lt_succ_of_le hslot⟩
          · rw [← hzero]
            exact htries
          · rw [htried] at hold
            cases hold
        · rw [htried] at hold
          cases hold
    · rw [if_pos hretry]
      exact ordered_of_stopped rfl h.bounded h.later
  · rw [if_pos hrunning]
    exact h

theorem selectAutoGroup_first {moments : ℕ → Moment} {start i : ℕ} {groups : List Text} {param after : RetryParam}
    {selection : Selection} (h : selectAutoGroup request moments start i groups param = (some selection, after))
    (hzero : param.retry = 0) : selection.retry = 0 ∧ selection.position ≤ after.autoGroupIndex.getD 0 := by
  induction groups generalizing i param with
  | nil => cases h
  | cons group rest ih =>
    unfold selectAutoGroup at h
    simp only [hzero, ite_self] at h
    cases hfound : (moments i).found request group 0 with
    | none =>
      simp only [hfound] at h
      exact ih h rfl
    | some channel =>
      simp only [hfound, Prod.mk.injEq, Option.some.injEq] at h
      obtain ⟨rfl, rfl⟩ := h
      refine ⟨rfl, ?_⟩
      split_ifs
      · exact Nat.le_succ i
      · exact le_rfl

theorem startLoop_ordered (request : Request) (distribution : Distribution) :
    (startLoop request distribution).Ordered request := by
  have hstart : ∀ (param : RetryParam) (first : Option Selection), param.resetNextTry = false →
      (0 < request.triesPerGroup → param.retry = 0 ∧ ∀ selection, first = some selection →
        selection.position < request.groupCount ∧ selection.retry = 0 ∧
          request.slot selection.position 0 ≤ request.nextSlot param) →
      Loop.Ordered request { param, first } := by
    intro param first hreset hfirst
    exact ⟨List.forall_mem_nil _, List.Pairwise.nil, fun _ => hreset, fun _ => List.forall_mem_nil _,
      fun _ _ htries => ⟨rfl, hfirst htries⟩⟩
  cases distribution with
  | other autoGroupIndex => exact hstart _ none rfl fun _ => ⟨rfl, fun _ h => nomatch h⟩
  | selected moments =>
    cases hselect : cacheGetRandomSatisfiedChannel request moments {} with
    | mk selection after =>
      simp only [startLoop, hselect]
      cases selection with
      | none => exact ordered_of_stopped rfl (List.forall_mem_nil _) List.Pairwise.nil
      | some selection =>
        refine hstart { autoGroupIndex := after.autoGroupIndex } _ rfl fun htries => ⟨rfl, fun other hother => ?_⟩
        cases hother
        obtain ⟨-, hposition, -, -⟩ := selection_slot hselect rfl htries
        refine ⟨hposition, ?_⟩
        unfold cacheGetRandomSatisfiedChannel at hselect
        unfold Request.nextSlot Request.slot
        split_ifs at hselect with hauto
        · obtain ⟨hzero, hle⟩ := selectAutoGroup_first hselect rfl
          rw [if_pos hauto]
          exact ⟨hzero, Nat.add_le_add_right (Nat.mul_le_mul_right _ hle) 0⟩
        · rw [if_neg hauto]
          split at hselect
          · cases hselect
            exact ⟨rfl, le_rfl⟩
          · cases hselect

/-! ## The end of the loop -/

theorem attempt_running {outcome : Outcome} (h : (loop.attempt request selection outcome).running = true) :
    (loop.attempt request selection outcome).channelMeta = true ∧
      (loop.attempt request selection outcome).param = loop.param.increaseRetry := by
  unfold Loop.attempt at h ⊢
  cases outcome with
  | notSent => cases h
  | success => cases h
  | failure error suppressed =>
    dsimp only at h ⊢
    split_ifs at h ⊢
    exact ⟨rfl, rfl⟩

theorem slot_succ_le {position retry : ℕ} (hposition : position < request.groupCount)
    (hretry : retry < request.triesPerGroup) :
    request.slot position retry + 1 ≤ request.groupCount * request.triesPerGroup := by
  have hmul : (position + 1) * request.triesPerGroup ≤ request.groupCount * request.triesPerGroup :=
    Nat.mul_le_mul_right _ hposition
  rw [Nat.add_mul, Nat.one_mul] at hmul
  unfold Request.slot
  omega

/-- An iteration after which the loop goes on has moved on by a slot, and after the first one to a slot of a
group. -/
theorem loopStep_progress (h : loop.Ordered request) (attempt : Attempt)
    (hrunning : (loopStep request loop attempt).running = true) :
    loop.running = true ∧ (loopStep request loop attempt).channelMeta = true ∧
      request.nextSlot loop.param + 1 ≤ request.nextSlot (loopStep request loop attempt).param ∧
      (loop.channelMeta = true →
        request.nextSlot (loopStep request loop attempt).param ≤ request.groupCount * request.triesPerGroup) := by
  have hbefore : loop.running = true := by
    by_contra hstopped
    unfold loopStep at hrunning
    rw [if_pos hstopped] at hrunning
    exact hstopped hrunning
  unfold loopStep at hrunning ⊢
  rw [if_neg (not_not.mpr hbefore)] at hrunning ⊢
  by_cases hretry : (loop.param.retry : ℤ) ≤ request.retryTimes
  · rw [if_neg (not_not.mpr hretry)] at hrunning ⊢
    by_cases hmeta : loop.channelMeta = true
    · rw [if_neg (not_not.mpr hmeta)] at hrunning ⊢
      cases hselect : cacheGetRandomSatisfiedChannel request attempt.moments loop.param with
      | mk selection after =>
        rw [hselect] at hrunning
        cases selection with
        | none => cases hrunning
        | some selection =>
          obtain ⟨hslot, hposition, htry, hnext⟩ := selection_slot hselect (h.reset hbefore) (lt_triesPerGroup.mpr hretry)
          obtain ⟨hmeta', hparam⟩ := attempt_running hrunning
          refine ⟨hbefore, hmeta', ?_, fun _ => ?_⟩
          · rw [hparam, hnext]
            exact Nat.succ_le_succ hslot
          · rw [hparam, hnext]
            exact slot_succ_le hposition htry
    · rw [if_pos hmeta] at hrunning ⊢
      obtain ⟨hmeta', hparam⟩ := attempt_running hrunning
      refine ⟨hbefore, hmeta', ?_, fun htrue => absurd htrue hmeta⟩
      rw [hparam, nextSlot_increaseRetry (h.reset hbefore)]
  · rw [if_pos hretry] at hrunning
    cases hrunning

theorem run_ordered (h : loop.Ordered request) (attempts : List Attempt) :
    (run (loopStep request) loop attempts).Ordered request :=
  run_invariant (I := Loop.Ordered request) (fun _ attempt hordered => loopStep_ordered hordered attempt) h attempts

/-- While the loop goes on, every iteration has moved on by a slot. -/
theorem run_progress (h : loop.Ordered request) (attempts : List Attempt)
    (hrunning : (run (loopStep request) loop attempts).running = true) :
    request.nextSlot loop.param + attempts.length ≤ request.nextSlot (run (loopStep request) loop attempts).param := by
  induction attempts using List.reverseRecOn with
  | nil => exact le_rfl
  | append_singleton attempts attempt ih =>
    rw [run_append] at hrunning ⊢
    obtain ⟨hbefore, -, hslot, -⟩ := loopStep_progress (run_ordered h attempts) attempt hrunning
    rw [List.length_append, List.length_singleton]
    exact (Nat.succ_le_succ (ih hbefore)).trans hslot

/-- After two iterations for the first attempt and the failing search, and one for each slot, the loop has ended. -/
theorem run_stopped (h : loop.Ordered request) (attempts : List Attempt)
    (hlength : request.groupCount * request.triesPerGroup + 2 ≤ attempts.length) :
    (run (loopStep request) loop attempts).running = false := by
  by_contra hgoes
  have hrunning : (run (loopStep request) loop attempts).running = true := by simpa using hgoes
  have hslots := run_progress h attempts hrunning
  -- The last iteration was not the first.
  rcases List.eq_nil_or_concat attempts with rfl | ⟨before, last, rfl⟩
  · rw [List.length_nil] at hlength
    omega
  · rw [List.concat_eq_append, run_append] at hrunning hslots
    obtain ⟨hbefore, -, -, hbound⟩ := loopStep_progress (run_ordered h before) last hrunning
    rcases List.eq_nil_or_concat before with rfl | ⟨earlier, previous, rfl⟩
    · rw [List.concat_eq_append, List.nil_append, List.length_singleton] at hlength
      omega
    · rw [List.concat_eq_append, run_append] at hbefore
      obtain ⟨-, hmeta, -⟩ := loopStep_progress (run_ordered h earlier) previous hbefore
      have hlast := hbound (by
        rw [List.concat_eq_append, run_append]
        exact hmeta)
      simp only [List.concat_eq_append, List.length_append, List.length_singleton] at hlength hslots
      simp only [run_cons, run_nil, List.concat_eq_append] at hlast hslots
      omega

end Steps

/-! ## Tiers -/

theorem targetPriority_antitone (priorities : List ℤ) {retry retry' : ℕ} (h : retry ≤ retry') :
    targetPriority priorities retry' ≤ targetPriority priorities retry := by
  have hsorted := descending_sorted priorities
  unfold targetPriority
  dsimp only
  generalize descending priorities = sorted at hsorted
  rcases List.eq_nil_or_concat sorted with rfl | ⟨rest, last, rfl⟩
  · exact le_rfl
  · have hlt : min retry ((rest.concat last).length - 1) < (rest.concat last).length := by
      rw [List.length_concat]
      omega
    have hlt' : min retry' ((rest.concat last).length - 1) < (rest.concat last).length := by
      rw [List.length_concat]
      omega
    rw [List.getD_eq_getElem _ _ hlt, List.getD_eq_getElem _ _ hlt']
    rcases Nat.lt_or_ge (min retry ((rest.concat last).length - 1)) (min retry' ((rest.concat last).length - 1)) with
      hless | hge
    · exact List.pairwise_iff_getElem.mp hsorted _ _ hlt hlt' hless
    · have hsame : min retry ((rest.concat last).length - 1) = min retry' ((rest.concat last).length - 1) := by omega
      simp only [hsame, le_refl]

/-! ## The property -/

theorem slot_order {request : Request} {p q r r' : ℕ} (hr' : r' < request.triesPerGroup)
    (h : request.slot p r < request.slot q r') : p ≤ q ∧ (p = q → r < r') := by
  constructor
  · by_contra hlt
    exact absurd h (slot_le_of_position_lt (Nat.lt_of_not_le hlt) hr' r).asymm
  · rintro rfl
    exact Nat.lt_of_add_lt_add_left h

/-- Two channels, the first one with the higher priority. -/
def tieredDb : Db where
  channels := [{ listing 1 "gpt-4" with priority := some 10 }, { listing 2 "gpt-4" with priority := some 5 }]
  abilities := [{ ability 1 "gpt-4" with priority := some 10 }, { ability 2 "gpt-4" with priority := some 5 }]

/-- The cache after changes. -/
def tieredMoment (actions : List CacheAction) : Moment where
  store :=
    { memoryCacheEnabled := true
      db := tieredDb
      cache := run cacheStep emptyCache (.initChannelCache tieredDb :: actions) }
  draw := 0

def tieredRequest : Request where
  tokenGroup := "default".toList
  autoGroups := []
  crossGroupRetry := false
  retryTimes := 2
  model := "gpt-4".toList
  filters := []
  routing := plainRouting
  settings := ⟨fun _ => false, fun _ => true⟩

def serverError : Outcome := .failure ⟨false, false, 500, []⟩ false

end Vancine.Channels
