import Vancine.Lib.Run
import Vancine.Tasks.Billing

/-!
# The polling loop and the timeout sweeper

`service/task_polling.go`. An actor loads rows, works on its copies in memory, and writes a copy back under
the status it saw. What it then owes (a settlement or a refund) is billed in a later step of its own, so
other actors may come in between.

A poll is a function of the copy and the answer of the upstream (`updateVideoSingleTask`,
`updateBatchTasks`); so is a sweep. They return an `Intent`: the copy afterwards, the guard of the write,
and when to bill. `taskStep` carries intents out. The rows of tasks without an upstream id, or whose channel
is gone, are failed in bulk and without a guard.

A poller may come to the same copy twice: two tasks of a pass with one upstream id share it.
-/

namespace Vancine.Tasks

open Lib Lib.Table

/-! ## Answers of the upstream -/

inductive PollClass
  | ok | otherClient | notFound | auth | transient | unrecognized | hookError | transport
  deriving DecidableEq

def PollClass.name : PollClass → String
  | .ok => "ok"
  | .otherClient => "other_client"
  | .notFound => "not_found"
  | .auth => "auth"
  | .transient => "transient"
  | .unrecognized => "unrecognized"
  | .hookError => "hook_error"
  | .transport => "transport_error"

def classifyPollHTTP (statusCode : ℤ) : PollClass :=
  if 200 ≤ statusCode ∧ statusCode < 300 then .ok
  else if statusCode = 404 ∨ statusCode = 410 then .notFound
  else if statusCode = 401 ∨ statusCode = 403 then .auth
  else if statusCode = 429 ∨ 500 ≤ statusCode then .transient
  else if 400 ≤ statusCode ∧ statusCode < 500 then .otherClient
  else .transient

def isNonTerminalPollStatus : TaskStatus → Bool
  | .notStart | .submitted | .queued | .inProgress => true
  | _ => false

/-- What the response of a single task parses to. `detail` is the text for a status the poller does not
know. -/
inductive ParsedTask
  | newApi (info : TaskInfo) (data detail : String)
  | adaptor (info : TaskInfo) (detail : String)
  | hookError (detail : String)
  deriving DecidableEq

/-- `body` is the response body after `redactVideoResponseBody`. -/
inductive VideoAnswer
  | transportError (detail : String)
  | bodyError (statusCode : ℤ) (detail : String)
  | response (statusCode : ℤ) (body : String) (parsed : ParsedTask)

structure BatchTaskResult where
  taskInfo : TaskInfo
  submitTime : ℤ
  startTime : ℤ
  finishTime : ℤ
  data : Option String
  deriving DecidableEq

/-- `none` is a task the answer leaves out. -/
inductive BatchAnswer
  | transportError (detail : String)
  | bodyError (statusCode : ℤ) (detail : String)
  | hookError (statusCode : ℤ) (detail : String)
  | response (statusCode : ℤ) (item : Option BatchTaskResult)

/-! ## Intents -/

/-- When an actor bills: never, when its write won, or whatever became of the write. -/
inductive BillRule
  | never
  | ifWon (kind : BillKind)
  | regardless (kind : BillKind)
  deriving DecidableEq

/-- What is owed after the write. -/
def BillRule.owed (won : Bool) : BillRule → Option BillKind
  | .never => none
  | .ifWon kind => if won then some kind else none
  | .regardless kind => some kind

/-- `guard` is the status the write expects; `none` writes nothing. -/
structure Intent where
  task : Task
  guard : Option TaskStatus
  bill : BillRule

structure PollConfig where
  taskPollMaxFailures : ℤ
  taskTimeoutMinutes : ℤ
  serverAddress : String

def buildProxyURL (cfg : PollConfig) (taskID : String) : String :=
  cfg.serverAddress ++ "/v1/videos/" ++ taskID ++ "/content"

def pollFailureReason (c : PollClass) (statusCode : ℤ) (detail : String) : String :=
  let reason :=
    if 0 < statusCode then "poll failed: " ++ c.name ++ " (HTTP " ++ toString statusCode ++ ")"
    else "poll failed: " ++ c.name
  if detail ≠ "" then reason ++ ": " ++ detail else reason

def failTaskFromPoll (now : ℤ) (t : Task) (fromStatus : TaskStatus) (reason : String) : Intent where
  task :=
    { t with
      status := .failure
      progress := "100%"
      finishTime := if t.finishTime = 0 then now else t.finishTime
      failReason := reason }
  guard := some fromStatus
  bill := .ifWon (.settle (failTaskInfo reason))

/-- The task fails once the failures in a row reach the limit; no limit when it is not positive. -/
def recordPollFailure (cfg : PollConfig) (now : ℤ) (t : Task) (fromStatus : TaskStatus)
    (c : PollClass) (statusCode : ℤ) (detail : String) : Intent :=
  let t := { t with pollFailures := t.pollFailures + 1 }
  if 0 < cfg.taskPollMaxFailures ∧ cfg.taskPollMaxFailures ≤ t.pollFailures then
    failTaskFromPoll now t fromStatus (pollFailureReason c statusCode detail)
  else ⟨t, some fromStatus, .never⟩

/-- The reason of a response the upstream did not answer as asked. -/
def notFoundReason (statusCode : ℤ) : String :=
  "upstream task not found (HTTP " ++ toString statusCode ++ ")"

/-- The columns a known status sets on a single task. -/
def applyVideoStatus (cfg : PollConfig) (now : ℤ) (info : TaskInfo) (t : Task) : Task :=
  let finish := if t.finishTime = 0 then now else t.finishTime
  match info.status with
  | .submitted => { t with status := .submitted, progress := "10%" }
  | .queued => { t with status := .queued, progress := "20%" }
  | .inProgress =>
    { t with
      status := .inProgress, progress := "30%"
      startTime := if t.startTime = 0 then now else t.startTime }
  | .success =>
    { t with
      status := .success, progress := "100%", finishTime := finish
      resultURL :=
        if "data:".isPrefixOf info.url ∨ info.url = "" then buildProxyURL cfg t.taskID else info.url }
  | .failure =>
    { t with status := .failure, progress := "100%", finishTime := finish, failReason := info.reason }
  | st => { t with status := st }

/-- The copy after a parsed response with a known status. -/
def polledVideoTask (cfg : PollConfig) (now : ℤ) (t : Task) (body : String) (info : TaskInfo) : Task :=
  let t :=
    { t with
      data := body
      pluginState := if info.pluginState ≠ "" then info.pluginState else t.pluginState
      pollFailures := if isNonTerminalPollStatus info.status then 0 else t.pollFailures }
  let t := applyVideoStatus cfg now info t
  let progress := if info.status = .failure then "100%" else info.progress
  { t with progress := if progress ≠ "" then progress else t.progress }

/-- The copy is written under the status it had. When it already had the terminal status that the upstream
reports, the bill does not depend on the write. -/
def finishVideoPoll (snap t : Task) (info : TaskInfo) : Intent :=
  let kind := BillKind.settle info
  if t.status.terminal then
    if snap.status ≠ t.status then ⟨t, some snap.status, .ifWon kind⟩
    else if snap.snapshot ≠ t.snapshot then ⟨t, some snap.status, .regardless kind⟩
    else ⟨t, none, .regardless kind⟩
  else if snap.snapshot ≠ t.snapshot then ⟨t, some snap.status, .never⟩
  else ⟨t, none, .never⟩

def updateVideoSingleTask (cfg : PollConfig) (now : ℤ) (ans : VideoAnswer) (t : Task) : Intent :=
  match ans with
  | .transportError detail => recordPollFailure cfg now t t.status .transport 0 detail
  | .bodyError statusCode detail => recordPollFailure cfg now t t.status .transport statusCode detail
  | .response statusCode body parsed =>
    let known (t' : Task) (info : TaskInfo) (detail : String) : Intent :=
      if info.status = .unknown ∨
          (classifyPollHTTP statusCode = .otherClient ∧ isNonTerminalPollStatus info.status) then
        recordPollFailure cfg now t' t.status .unrecognized statusCode detail
      else finishVideoPoll t (polledVideoTask cfg now t' body info) info
    match classifyPollHTTP statusCode with
    | .notFound => failTaskFromPoll now t t.status (notFoundReason statusCode)
    | .auth => recordPollFailure cfg now t t.status .auth statusCode ""
    | .transient => recordPollFailure cfg now t t.status .transient statusCode ""
    | _ =>
      match parsed with
      | .newApi info data detail => known { t with data := data } info detail
      | .adaptor info detail => known t info detail
      | .hookError detail => recordPollFailure cfg now t t.status .hookError statusCode detail

/-- One item of a batch answer with a known status. -/
def finishBatchPoll (t : Task) (item : BatchTaskResult) : Intent :=
  let info := item.taskInfo
  let failed := info.reason ≠ "" ∨ info.status = .failure
  let status := if failed then .failure else info.status
  let task :=
    { t with
      pollFailures := if isNonTerminalPollStatus info.status then 0 else t.pollFailures
      pluginState := if info.pluginState ≠ "" then info.pluginState else t.pluginState
      status := status
      failReason := if info.reason ≠ "" then info.reason else t.failReason
      submitTime := if item.submitTime ≠ 0 then item.submitTime else t.submitTime
      startTime := if item.startTime ≠ 0 then item.startTime else t.startTime
      finishTime := if item.finishTime ≠ 0 then item.finishTime else t.finishTime
      progress :=
        if failed ∨ info.status = .success then "100%"
        else if info.progress ≠ "" then info.progress else t.progress
      data := item.data.getD t.data
      resultURL := if info.url ≠ "" then info.url else t.resultURL }
  ⟨task, some t.status,
    if status.terminal ∧ t.status ≠ status then .ifWon (.settle info) else .never⟩

/-- `updateBatchTasks` at one task. -/
def updateBatchTasks (cfg : PollConfig) (now : ℤ) (ans : BatchAnswer) (t : Task) : Intent :=
  match ans with
  | .transportError detail => recordPollFailure cfg now t t.status .transport 0 detail
  | .bodyError statusCode detail => recordPollFailure cfg now t t.status .transport statusCode detail
  | .hookError statusCode detail => recordPollFailure cfg now t t.status .hookError statusCode detail
  | .response statusCode item =>
    match classifyPollHTTP statusCode with
    | .notFound => failTaskFromPoll now t t.status (notFoundReason statusCode)
    | .auth => recordPollFailure cfg now t t.status .auth statusCode ""
    | .transient => recordPollFailure cfg now t t.status .transient statusCode ""
    | c =>
      match item with
      | none => ⟨t, none, .never⟩
      | some item =>
        let info := item.taskInfo
        if info.status = .unknown ∨ (c = .otherClient ∧ isNonTerminalPollStatus info.status) then
          recordPollFailure cfg now t t.status .unrecognized statusCode info.reason
        else finishBatchPoll t item

/-- `sweepTimedOutTasks` at one task. A task of the old system loses its quota and is not refunded. -/
def sweepTimedOutTasks (cfg : PollConfig) (now : ℤ) (t : Task) : Intent :=
  let reason := "任务超时（" ++ toString cfg.taskTimeoutMinutes ++ "分钟）"
  let legacyReason := "任务超时（旧系统遗留任务，不进行退款，请联系管理员）"
  let task :=
    { t with
      status := .failure, progress := "100%", finishTime := now
      failReason := if t.isLegacy then legacyReason else reason
      quota := if t.isLegacy then 0 else t.quota }
  ⟨task, some t.status, if ¬t.isLegacy ∧ t.quota ≠ 0 then .ifWon .refundOnly else .never⟩

/-! ## What an intent may do -/

/-- The intents of pollers and sweepers on the copy `t`. -/
structure Intent.Sound (t : Task) (x : Intent) : Prop where
  id : x.task.id = t.id
  payer : x.task.payer = t.payer
  quota : x.task.quota = t.quota ∨ x.task.isLegacy = true ∧ x.task.status = .failure
  guard : x.guard = none ∨ x.guard = some t.status
  ifWon : ∀ kind, x.bill = .ifWon kind → x.task.status.terminal = true ∧ x.guard = some t.status
  regardless : ∀ kind, x.bill = .regardless kind → t.status.terminal = true
  failed : x.task.status = .failure → t.status.terminal = false → x.task.quota ≠ 0 →
    ∃ kind, x.bill = .ifWon kind

/-- A copy of the same task: what a poll never changes. -/
structure Task.SameTask (t' t : Task) : Prop where
  id : t'.id = t.id
  payer : t'.payer = t.payer
  quota : t'.quota = t.quota

section Sound

variable {cfg : PollConfig} {now : ℤ} {t t' : Task}

theorem failTaskFromPoll_sound (now : ℤ) (h : t'.SameTask t) (reason : String) :
    (failTaskFromPoll now t' t.status reason).Sound t where
  id := h.id
  payer := h.payer
  quota := .inl h.quota
  guard := .inr rfl
  ifWon _ _ := ⟨rfl, rfl⟩
  regardless _ h := by cases h
  failed _ _ _ := ⟨_, rfl⟩

/-- A copy with the status it was loaded with, written back without a bill. -/
theorem unbilled_sound (h : t'.SameTask t) (hst : t'.status = t.status) {g : Option TaskStatus}
    (hg : g = none ∨ g = some t.status) : Intent.Sound t ⟨t', g, .never⟩ := by
  refine ⟨h.id, h.payer, .inl h.quota, hg, by simp, by simp, ?_⟩
  intro hfail hnon
  have hfail' : t.status = .failure := hst.symm.trans hfail
  rw [hfail'] at hnon
  cases hnon

theorem recordPollFailure_sound (h : t'.SameTask t) (hst : t'.status = t.status) (c : PollClass)
    (statusCode : ℤ) (detail : String) : (recordPollFailure cfg now t' t.status c statusCode detail).Sound t := by
  have hcount : ({ t' with pollFailures := t'.pollFailures + 1 } : Task).SameTask t :=
    ⟨h.id, h.payer, h.quota⟩
  unfold recordPollFailure
  dsimp only
  split_ifs
  · exact failTaskFromPoll_sound now hcount _
  · exact unbilled_sound hcount hst (.inr rfl)

theorem polledVideoTask_same (h : t'.SameTask t) (body : String) (info : TaskInfo) :
    (polledVideoTask cfg now t' body info).SameTask t := by
  unfold polledVideoTask applyVideoStatus
  dsimp only
  split <;> exact ⟨h.id, h.payer, h.quota⟩

theorem finishVideoPoll_sound (h : t'.SameTask t) (info : TaskInfo) : (finishVideoPoll t t' info).Sound t := by
  unfold finishVideoPoll
  dsimp only
  by_cases hterm : t'.status.terminal = true
  · rw [if_pos hterm]
    by_cases hst : t.status ≠ t'.status
    · rw [if_pos hst]
      exact ⟨h.id, h.payer, .inl h.quota, .inr rfl, fun _ _ => ⟨hterm, rfl⟩, by simp,
        fun _ _ _ => ⟨_, rfl⟩⟩
    · -- the copy was terminal before
      rw [if_neg hst]
      have hold : t.status.terminal = true := (not_not.mp hst) ▸ hterm
      have hvoid : t.status.terminal ≠ false := by rw [hold]; simp
      split_ifs
      · exact ⟨h.id, h.payer, .inl h.quota, .inr rfl, by simp, fun _ _ => hold,
          fun _ hnon => absurd hnon hvoid⟩
      · exact ⟨h.id, h.payer, .inl h.quota, .inl rfl, by simp, fun _ _ => hold,
          fun _ hnon => absurd hnon hvoid⟩
  · rw [if_neg hterm]
    have hfail : t'.status ≠ .failure := fun hf => hterm (by rw [hf]; rfl)
    split_ifs
    · exact ⟨h.id, h.payer, .inl h.quota, .inr rfl, by simp, by simp, fun hf => absurd hf hfail⟩
    · exact ⟨h.id, h.payer, .inl h.quota, .inl rfl, by simp, by simp, fun hf => absurd hf hfail⟩

theorem Task.SameTask.refl (t : Task) : t.SameTask t := ⟨rfl, rfl, rfl⟩

/-- **A video poll.** -/
theorem updateVideoSingleTask_sound (cfg : PollConfig) (now : ℤ) (ans : VideoAnswer) (t : Task) :
    (updateVideoSingleTask cfg now ans t).Sound t := by
  have hrecord : ∀ c code detail, (recordPollFailure cfg now t t.status c code detail).Sound t :=
    fun c code detail => recordPollFailure_sound (.refl t) rfl c code detail
  unfold updateVideoSingleTask
  split
  · exact hrecord _ _ _
  · exact hrecord _ _ _
  · rename_i code body parsed
    dsimp only
    split
    · exact failTaskFromPoll_sound now (.refl t) _
    · exact hrecord _ _ _
    · exact hrecord _ _ _
    · split
      · rename_i info data detail
        have hsame : ({ t with data := data } : Task).SameTask t := ⟨rfl, rfl, rfl⟩
        split_ifs
        · exact recordPollFailure_sound hsame rfl _ _ _
        · exact finishVideoPoll_sound (polledVideoTask_same hsame _ _) _
      · split_ifs
        · exact hrecord _ _ _
        · exact finishVideoPoll_sound (polledVideoTask_same (.refl t) _ _) _
      · exact hrecord _ _ _

theorem finishBatchPoll_sound (t : Task) (item : BatchTaskResult) : (finishBatchPoll t item).Sound t := by
  unfold finishBatchPoll
  dsimp only
  generalize hst : (if item.taskInfo.reason ≠ "" ∨ item.taskInfo.status = .failure then
    TaskStatus.failure else item.taskInfo.status) = st
  by_cases hdone : st.terminal = true ∧ t.status ≠ st
  · rw [if_pos hdone]
    exact ⟨rfl, rfl, .inl rfl, .inr rfl, fun _ _ => ⟨hdone.1, rfl⟩, by simp,
      fun _ _ _ => ⟨_, rfl⟩⟩
  · rw [if_neg hdone]
    refine ⟨rfl, rfl, .inl rfl, .inr rfl, by simp, by simp, ?_⟩
    intro hfail hnon
    have hfail' : st = .failure := hfail
    subst hfail'
    refine absurd ⟨rfl, ?_⟩ hdone
    intro hf
    rw [hf] at hnon
    cases hnon

/-- **A batch poll.** -/
theorem updateBatchTasks_sound (cfg : PollConfig) (now : ℤ) (ans : BatchAnswer) (t : Task) :
    (updateBatchTasks cfg now ans t).Sound t := by
  have hrecord : ∀ c code detail, (recordPollFailure cfg now t t.status c code detail).Sound t :=
    fun c code detail => recordPollFailure_sound (.refl t) rfl c code detail
  unfold updateBatchTasks
  split
  · exact hrecord _ _ _
  · exact hrecord _ _ _
  · exact hrecord _ _ _
  · split
    · exact failTaskFromPoll_sound now (.refl t) _
    · exact hrecord _ _ _
    · exact hrecord _ _ _
    · split
      · exact unbilled_sound (.refl t) rfl (.inl rfl)
      · dsimp only
        split_ifs
        · exact hrecord _ _ _
        · exact finishBatchPoll_sound t _

/-- **A sweep.** -/
theorem sweepTimedOutTasks_sound (cfg : PollConfig) (now : ℤ) (t : Task) : (sweepTimedOutTasks cfg now t).Sound t := by
  unfold sweepTimedOutTasks
  dsimp only
  refine ⟨rfl, rfl, ?_, .inr rfl, fun _ _ => ⟨rfl, rfl⟩, ?_, ?_⟩
  · cases hl : t.isLegacy with
    | true => exact .inr ⟨hl, rfl⟩
    | false => exact .inl (by simp)
  · intro kind h
    split_ifs at h
  · intro _ _ hq
    cases hl : t.isLegacy with
    | true => simp [hl] at hq
    | false => exact ⟨_, if_pos ⟨by simp, by simpa [hl] using hq⟩⟩

end Sound

/-! ## The system -/

/-- Whose copy it is. The sweeper is done with a copy after one write. -/
inductive Owner
  | poller | sweeper | done
  deriving DecidableEq

/-- A task in the memory of an actor, and what the actor owes for it. -/
structure Copy where
  task : Task
  owner : Owner
  pending : Option BillKind

structure TaskState where
  rows : List Task
  copies : List Copy
  accounts : Accounts
  log : List TaskEvent

def TaskState.start (rows : List Task) (accounts : Accounts) : TaskState := ⟨rows, [], accounts, []⟩

/-- How the database answers a guarded write. -/
structure WriteEnv where
  fault : Bool
  changedRows : Bool

inductive TaskAction
  /-- A polling pass loads an unfinished row. -/
  | load (id : ℤ)
  /-- A sweep loads a row that timed out. -/
  | loadTimedOut (cutoff id : ℤ)
  | pollVideo (i : ℕ) (cfg : PollConfig) (now : ℤ) (ans : VideoAnswer) (w : WriteEnv)
  | pollBatch (i : ℕ) (cfg : PollConfig) (now : ℤ) (ans : BatchAnswer) (w : WriteEnv)
  | sweep (i : ℕ) (cfg : PollConfig) (now : ℤ) (w : WriteEnv)
  /-- The copies without an upstream id are failed in bulk. -/
  | failNull (is : List ℕ) (fault : Bool)
  /-- The channel of the copies is gone: they are failed in bulk. -/
  | failChannel (is : List ℕ) (failReason : String) (fault : Bool)
  /-- The actor bills what it owes. -/
  | bill (i : ℕ) (u : UsageReport) (f : BillFaults)

/-- A task without an upstream id. -/
def nullTask (t : Task) : Bool := t.getUpstreamTaskID = ""

namespace TaskState

def setCopy (s : TaskState) (i : ℕ) (c : Copy) : TaskState := { s with copies := s.copies.set i c }

/-- Write the copy under its guard, and note what is owed. -/
def carryOut (s : TaskState) (i : ℕ) (owner : Owner) (intent : Intent) (w : WriteEnv) : TaskState :=
  match intent.guard with
  | none => s.setCopy i ⟨intent.task, owner, intent.bill.owed false⟩
  | some fromStatus =>
    if w.fault then s.setCopy i ⟨intent.task, owner, intent.bill.owed false⟩
    else
      let (rows, won) := updateWithStatus w.changedRows fromStatus intent.task s.rows
      { s.setCopy i ⟨intent.task, owner, intent.bill.owed won⟩ with rows := rows }

/-- An actor finishes with a copy before it comes to it again. Copies without an upstream id are not
polled. -/
def poll (s : TaskState) (i : ℕ) (intent : Task → Intent) (w : WriteEnv) : TaskState :=
  match s.copies[i]? with
  | some ⟨t, .poller, none⟩ => if nullTask t then s else s.carryOut i .poller (intent t) w
  | _ => s

/-- The ids of the copies `is` that satisfy `p`. -/
def copyIds (s : TaskState) (p : Task → Bool) (is : List ℕ) : List ℤ :=
  is.filterMap fun i => (s.copies[i]?.map Copy.task).bind fun t => if p t then some t.id else none

def failBulk (s : TaskState) (ids : List ℤ) (failReason : Option String) (fault : Bool) : TaskState :=
  if fault then s else { s with rows := taskBulkUpdateByID ids failReason s.rows }

/-- Bill the copy; the quota is recorded when money moved. -/
def billCopy (s : TaskState) (i : ℕ) (t : Task) (owner : Owner) (kind : BillKind) (u : UsageReport)
    (f : BillFaults) : TaskState :=
  let r := bill kind f u t s.accounts
  { rows := if r.event.isSome ∧ ¬f.quota then updateQuota t.id r.quota s.rows else s.rows
    copies := s.copies.set i ⟨{ t with quota := r.quota }, owner, none⟩
    accounts := r.accounts
    log := s.log ++ r.event.toList }

end TaskState

def taskStep (s : TaskState) : TaskAction → TaskState
  | .load id =>
    match row s.rows id with
    | none => s
    | some t => if t.unfinished then { s with copies := s.copies ++ [⟨t, .poller, none⟩] } else s
  | .loadTimedOut cutoff id =>
    match row s.rows id with
    | none => s
    | some t =>
      if t.timedOut cutoff then { s with copies := s.copies ++ [⟨t, .sweeper, none⟩] } else s
  | .pollVideo i cfg now ans w => s.poll i (updateVideoSingleTask cfg now ans) w
  | .pollBatch i cfg now ans w => s.poll i (updateBatchTasks cfg now ans) w
  | .sweep i cfg now w =>
    match s.copies[i]? with
    | some ⟨t, .sweeper, none⟩ => s.carryOut i .done (sweepTimedOutTasks cfg now t) w
    | _ => s
  | .failNull is fault => s.failBulk (s.copyIds nullTask is) none fault
  | .failChannel is failReason fault =>
    s.failBulk (s.copyIds (fun t => !nullTask t) is) (some failReason) fault
  | .bill i u f =>
    match s.copies[i]? with
    | some ⟨t, owner, some kind⟩ => s.billCopy i t owner kind u f
    | _ => s

/-! ## What a step may do -/

theorem BillRule.owed_false (rule : BillRule) : rule.owed false = none ∨ ∃ kind, rule = .regardless kind := by
  cases rule with
  | never => exact .inl rfl
  | ifWon kind => exact .inl rfl
  | regardless kind => exact .inr ⟨kind, rfl⟩

theorem BillRule.owed_some {rule : BillRule} {won : Bool} {kind : BillKind}
    (h : rule.owed won = some kind) : rule = .ifWon kind ∨ rule = .regardless kind := by
  cases rule with
  | never => cases h
  | ifWon k =>
    cases won with
    | false => cases h
    | true => exact .inl (by rw [Option.some.inj h])
  | regardless k => exact .inr (by rw [Option.some.inj h])

/-- **What carrying out an intent does.** Only the copy changes, or the row whose status is the guard is
written too; and a bill is noted only as the rule of the intent says. -/
theorem carryOut_cases (s : TaskState) (i : ℕ) (owner : Owner) (x : Intent) (w : WriteEnv) : ∃ pending rows,
      s.carryOut i owner x w = { s.setCopy i ⟨x.task, owner, pending⟩ with rows := rows } ∧
      ((rows = s.rows ∧ (pending = none ∨ ∃ kind, x.bill = .regardless kind)) ∨
        ∃ r, row s.rows x.task.id = some r ∧ x.guard = some r.status ∧ rows = save Task.id x.task s.rows ∧
          (∀ kind, pending = some kind → x.bill = .ifWon kind ∨ x.bill = .regardless kind) ∧
          ∀ kind, x.bill = .ifWon kind → r ≠ x.task → pending = some kind) := by
  unfold TaskState.carryOut
  cases hg : x.guard with
  | none => exact ⟨_, s.rows, rfl, .inl ⟨rfl, x.bill.owed_false⟩⟩
  | some fromStatus =>
    dsimp only
    by_cases hf : w.fault = true
    · rw [if_pos hf]
      exact ⟨_, s.rows, rfl, .inl ⟨rfl, x.bill.owed_false⟩⟩
    rw [if_neg hf]
    unfold updateWithStatus
    cases hr : row s.rows x.task.id with
    | none => exact ⟨_, s.rows, rfl, .inl ⟨rfl, x.bill.owed_false⟩⟩
    | some r =>
      dsimp only
      by_cases hst : r.status = fromStatus
      · rw [if_pos hst]
        refine ⟨_, _, rfl, .inr ⟨r, rfl, by rw [hst], rfl, fun kind hk => BillRule.owed_some hk, ?_⟩⟩
        intro kind hb hne
        simp [hb, BillRule.owed, hne]
      · rw [if_neg hst]
        exact ⟨_, s.rows, rfl, .inl ⟨rfl, x.bill.owed_false⟩⟩

/-- The copy a poll works on. -/
def TaskAction.polled : TaskAction → Option ℕ
  | .pollVideo i _ _ _ _ => some i
  | .pollBatch i _ _ _ _ => some i
  | _ => none

/-- The update has no guard. -/
def TaskAction.bulk : TaskAction → Bool
  | .failNull _ _ => true
  | .failChannel _ _ _ => true
  | _ => false

/-- The rows a bulk update fails. -/
def TaskState.bulkIds (s : TaskState) : TaskAction → List ℤ
  | .failNull is false => s.copyIds nullTask is
  | .failChannel is _ false => s.copyIds (fun t => !nullTask t) is
  | _ => []

/-- **The moves of the system.** `lose` is a write that changed no row, `win` one that did. -/
inductive TaskMove (s : TaskState) (a : TaskAction) : TaskState → Prop
  | stay : TaskMove s a s
  | load {t : Task} {owner : Owner} (hrow : row s.rows t.id = some t)
      (hopen : t.status.terminal = false) :
      TaskMove s a { s with copies := s.copies ++ [⟨t, owner, none⟩] }
  | lose {i : ℕ} {t : Task} {owner owner' : Owner} {x : Intent} {pending : Option BillKind}
      (hcopy : s.copies[i]? = some ⟨t, owner, none⟩) (hactor : owner = .sweeper ∨ a.polled = some i)
      (howner : owner' ≠ .sweeper) (hx : x.Sound t)
      (hpending : pending = none ∨ ∃ kind, x.bill = .regardless kind) :
      TaskMove s a (s.setCopy i ⟨x.task, owner', pending⟩)
  | win {i : ℕ} {t r : Task} {owner owner' : Owner} {x : Intent} {pending : Option BillKind}
      (hcopy : s.copies[i]? = some ⟨t, owner, none⟩) (hactor : owner = .sweeper ∨ a.polled = some i)
      (howner : owner' ≠ .sweeper) (hx : x.Sound t) (hrow : row s.rows x.task.id = some r)
      (hguard : r.status = t.status)
      (hpending : ∀ kind, pending = some kind → x.bill = .ifWon kind ∨ x.bill = .regardless kind)
      (hwon : ∀ kind, x.bill = .ifWon kind → r ≠ x.task → pending = some kind) :
      TaskMove s a
        { s.setCopy i ⟨x.task, owner', pending⟩ with rows := save Task.id x.task s.rows }
  | bulk {failReason : Option String} (ha : a.bulk = true) :
      TaskMove s a { s with rows := taskBulkUpdateByID (s.bulkIds a) failReason s.rows }
  | settle {i : ℕ} {u : UsageReport} {f : BillFaults} {t : Task} {owner : Owner} {kind : BillKind}
      (ha : a = .bill i u f) (hcopy : s.copies[i]? = some ⟨t, owner, some kind⟩) :
      TaskMove s a (s.billCopy i t owner kind u f)

section Moves

variable {s : TaskState} {a : TaskAction} {i : ℕ}

theorem carryOut_move {t : Task} {owner owner' : Owner} {x : Intent}
    (hcopy : s.copies[i]? = some ⟨t, owner, none⟩) (hactor : owner = .sweeper ∨ a.polled = some i)
    (howner : owner' ≠ .sweeper) (hx : x.Sound t) (w : WriteEnv) : TaskMove s a (s.carryOut i owner' x w) := by
  obtain ⟨pending, rows, heq, hcases⟩ := carryOut_cases s i owner' x w
  rw [heq]
  rcases hcases with ⟨rfl, hp⟩ | ⟨r, hr, hguard, rfl, hp, hwon⟩
  · exact .lose hcopy hactor howner hx hp
  · have hst : r.status = t.status := by
      rcases hx.guard with hg | hg
      · rw [hg] at hguard
        cases hguard
      · rw [hg] at hguard
        exact (Option.some.inj hguard).symm
    exact .win hcopy hactor howner hx hr hst hp hwon

theorem poll_move (hpolled : a.polled = some i) {intent : Task → Intent}
    (hx : ∀ t, (intent t).Sound t) (w : WriteEnv) : TaskMove s a (s.poll i intent w) := by
  unfold TaskState.poll
  split
  · rename_i t hcopy
    split_ifs
    · exact .stay
    · exact carryOut_move hcopy (.inr hpolled) (by decide) (hx t) w
  · exact .stay

/-- **Every step is a move.** -/
theorem taskStep_move (s : TaskState) (a : TaskAction) : TaskMove s a (taskStep s a) := by
  cases a with
  | load id =>
    simp only [taskStep]
    split
    · exact .stay
    · rename_i t hrow
      split_ifs with hopen
      · simp only [Task.unfinished, decide_eq_true_eq] at hopen
        exact .load (by rw [row_id hrow, hrow]) (by simpa using hopen.2)
      · exact .stay
  | loadTimedOut cutoff id =>
    simp only [taskStep]
    split
    · exact .stay
    · rename_i t hrow
      split_ifs with hopen
      · simp only [Task.timedOut, Task.unfinished, decide_eq_true_eq] at hopen
        exact .load (by rw [row_id hrow, hrow]) (by simpa using hopen.1.2)
      · exact .stay
  | pollVideo i cfg now ans w => exact poll_move rfl (updateVideoSingleTask_sound cfg now ans) w
  | pollBatch i cfg now ans w => exact poll_move rfl (updateBatchTasks_sound cfg now ans) w
  | sweep i cfg now w =>
    simp only [taskStep]
    split
    · rename_i t hcopy
      exact carryOut_move hcopy (.inl rfl) (by decide) (sweepTimedOutTasks_sound cfg now t) w
    · exact .stay
  | failNull is fault =>
    cases fault with
    | true => exact .stay
    | false => exact .bulk rfl
  | failChannel is failReason fault =>
    cases fault with
    | true => exact .stay
    | false => exact .bulk rfl
  | bill i u f =>
    simp only [taskStep]
    split
    · rename_i t owner kind hcopy
      exact .settle rfl hcopy
    · exact .stay

theorem billCopy_status (s : TaskState) (i : ℕ) (t : Task) (owner : Owner) (kind : BillKind)
    (u : UsageReport) (f : BillFaults) (id : ℤ) :
    status (s.billCopy i t owner kind u f).rows id = status s.rows id := by
  unfold TaskState.billCopy
  dsimp only
  split_ifs
  · unfold status
    rw [row_updateQuota, Option.map_map]
    congr 1
    funext r
    by_cases hr : r.id = t.id
    · simp [hr]
    · simp [hr]
  · rfl

theorem billCopy_row_ne (s : TaskState) (i : ℕ) (t : Task) (owner : Owner) (kind : BillKind)
    (u : UsageReport) (f : BillFaults) {id : ℤ} (hid : id ≠ t.id) :
    row (s.billCopy i t owner kind u f).rows id = row s.rows id := by
  unfold TaskState.billCopy
  dsimp only
  split_ifs
  · rw [row_updateQuota]
    cases hr : row s.rows id with
    | none => rfl
    | some r => rw [Option.map_some, if_neg (by rw [row_id hr]; exact hid)]
  · rfl

theorem billCopy_payer {t : Task} {owner : Owner} {kind : BillKind} {u : UsageReport}
    {f : BillFaults} {id : ℤ} {r : Task} (hr : row (s.billCopy i t owner kind u f).rows id = some r) :
    ∃ r₀, row s.rows id = some r₀ ∧ r₀.payer = r.payer := by
  unfold TaskState.billCopy at hr
  dsimp only at hr
  split_ifs at hr
  · rw [row_updateQuota] at hr
    obtain ⟨r₀, hr₀, rfl⟩ := Option.map_eq_some_iff.mp hr
    refine ⟨r₀, hr₀, ?_⟩
    split_ifs <;> rfl
  · exact ⟨r, hr, rfl⟩

end Moves

end Vancine.Tasks
