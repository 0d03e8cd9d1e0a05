import Vancine.SystemTasks.Rows
import Vancine.SystemTasks.Runner

/-!
# Leases of system tasks

In every state the system reaches, the unique indexes leave one active task and one lock row for a
type, and `ActiveKey` is set exactly on the active tasks. The columns `State` and `Result` are written
by the handler's statements only, and these ask for the runner's lock row on the task, not expired at
the time the call read.

That time may lie behind the clock when the statement runs. A lease that ends in between does not
stop the write.
-/

namespace Vancine.SystemTasks

open Lib

theorem RunnerState.start_valid (clock : ℤ) : (RunnerState.start clock).store.Valid :=
  SystemTaskStore.empty_valid

theorem run_valid (clock : ℤ) (as : List RunnerAction) :
    (run RunnerState.step (RunnerState.start clock) as).store.Valid :=
  run_invariant (I := fun s : RunnerState => s.store.Valid) (fun s a hv => hv.exec (s.statement a))
    (RunnerState.start_valid clock) as

/-- **No task is lost.** Whatever is done after a state was reached, its tasks are still there, their statuses go no way
but on, a runner keeps the task it runs, and a task that is over stays as it is. -/
theorem tasks_kept (clock : ℤ) (as later : List RunnerAction) :
    ∀ t ∈ (run RunnerState.step (RunnerState.start clock) as).store.tasks,
      ∃ t' ∈ (run RunnerState.step (RunnerState.start clock) (as ++ later)).store.tasks, t.Later t' := by
  intro t ht
  have hstep : ∀ (s : RunnerState) (a : RunnerAction), (s.store.Valid ∧ ∃ t' ∈ s.store.tasks, t.Later t') →
      (s.step a).store.Valid ∧ ∃ t' ∈ (s.step a).store.tasks, t.Later t' := by
    rintro s a ⟨hv, t₁, ht₁, hlater⟩
    obtain ⟨t₂, ht₂, hnext⟩ := later_exec hv (s.statement a) ht₁
    exact ⟨hv.exec (s.statement a), t₂, ht₂, hlater.trans hnext⟩
  rw [run_append]
  exact (run_invariant hstep ⟨run_valid clock as, t, ht, .refl t⟩ later).2

/-! ## Who writes a task's texts -/

/-- The row's `State` or `Result` changes. -/
def Rewritten (t t' : SystemTask) : Prop := t'.state ≠ t.state ∨ t'.result ≠ t.result

instance (t t' : SystemTask) : Decidable (Rewritten t t') := by unfold Rewritten; infer_instance

/-- The statement is a handler's write, for the runner that has the task, and the runner's lease
lasted to the time the statement names. -/
def WritesAs (st : SystemTaskStore) (stmt : Statement) (t : SystemTask) : Prop :=
  ∃ op now, stmt = HandlerOp.statement t.taskId t.lockedBy now op ∧ t.status = .running ∧
    st.holdsLease t.taskId t.lockedBy now = true

section Rewritten

variable {st : SystemTaskStore}

variable {t t' : SystemTask}

/-- An update of task rows rewrites a row only where the update does. -/
theorem rewritten_updateWhere (hv : st.Valid) {p : SystemTask → Bool} {f : SystemTask → SystemTask}
    (ht : t ∈ st.tasks) (ht' : t' ∈ Table.updateWhere p f st.tasks) (hkeep : ∀ t, (f t).taskId = t.taskId)
    (hid : t'.taskId = t.taskId) (hrw : Rewritten t t') : p t = true ∧ Rewritten t (f t) := by
  rcases Table.mem_updateWhere.mp ht' with ⟨t₀, ht₀, hp, rfl⟩ | ⟨hm, -⟩
  · have h := hv.task_unique ht₀ ht ((hkeep t₀).symm.trans hid)
    subst h
    exact ⟨hp, hrw⟩
  · have h := hv.task_unique hm ht hid
    subst h
    exact absurd hrw (by simp [Rewritten])

theorem runsFor_iff {taskId lockedBy : String} {now : ℤ} {t : SystemTask} : st.runsFor taskId lockedBy now t = true ↔
      t.taskId = taskId ∧ t.status = .running ∧ t.lockedBy = lockedBy ∧ st.holdsLease taskId lockedBy now = true := by
  simp [SystemTaskStore.runsFor, and_assoc]

/-- A row that is not in the table before cannot be a row of a task of the table. -/
theorem rewritten_create (hv : st.Valid) {taskId type payload state : String} {now : ℤ} (ht : t ∈ st.tasks)
    (ht' : t' ∈ (st.exec (.createTask taskId type payload state now)).tasks) (hid : t'.taskId = t.taskId) :
    ¬Rewritten t t' := by
  have hold : t' ∈ st.tasks → ¬Rewritten t t' := by
    intro hm
    rw [hv.task_unique hm ht hid]
    simp [Rewritten]
  unfold SystemTaskStore.exec at ht'
  dsimp only at ht'
  by_cases h : st.affects (.createTask taskId type payload state now) = true
  · rw [if_pos h] at ht'
    simp only [SystemTaskStore.affects, List.all_eq_true, Bool.and_eq_true, decide_eq_true_eq] at h
    rcases List.mem_append.mp ht' with hm | hm
    · exact hold hm
    · rw [List.mem_singleton.mp hm] at hid
      exact absurd hid.symm (h t ht).1
  · rw [if_neg h] at ht'
    exact hold ht'

/-- **Who may write.** A statement that rewrites a task's texts is a write of the runner that has the
task and held its lease at the time the statement names. -/
theorem writesAs_of_rewritten (hv : st.Valid) {stmt : Statement} (ht : t ∈ st.tasks) (ht' : t' ∈ (st.exec stmt).tasks)
    (hid : t'.taskId = t.taskId) (hrw : Rewritten t t') : WritesAs st stmt t := by
  have hsame : t' ∈ st.tasks → False := by
    intro hm
    rw [hv.task_unique hm ht hid] at hrw
    simp [Rewritten] at hrw
  cases stmt with
  | nothing => exact (hsame ht').elim
  | createTask taskId type payload state now =>
    exact absurd hrw (rewritten_create hv ht ht' hid)
  | createLock lock =>
    refine (hsame ?_).elim
    unfold SystemTaskStore.exec at ht'
    dsimp only at ht'
    split_ifs at ht'
    · exact ht'
    · exact ht'
  | takeOverLock type now taskId lockedBy lockUntil => exact (hsame ht').elim
  | startTask id type runnerId now =>
    obtain ⟨-, h⟩ := rewritten_updateWhere hv ht ht' (fun _ => rfl) hid hrw
    simp [Rewritten] at h
  | markLeaseExpired taskId now =>
    obtain ⟨-, h⟩ := rewritten_updateWhere hv ht ht' (fun _ => rfl) hid hrw
    simp [Rewritten] at h
  | updateState taskId lockedBy now stateText =>
    obtain ⟨hp, -⟩ := rewritten_updateWhere hv ht ht' (fun _ => rfl) hid hrw
    obtain ⟨rfl, hrun, rfl, hlease⟩ := runsFor_iff.mp hp
    exact ⟨.update stateText, now, rfl, hrun, hlease⟩
  | renewLock taskId lockedBy now lockUntil => exact (hsame ht').elim
  | finishTask taskId lockedBy now status resultText errorMessage =>
    obtain ⟨hp, -⟩ := rewritten_updateWhere hv ht ht' (fun _ => rfl) hid hrw
    obtain ⟨rfl, hrun, rfl, hlease⟩ := runsFor_iff.mp hp
    exact ⟨.finish status resultText errorMessage, now, rfl, hrun, hlease⟩
  | deleteStaleLock lock now => exact (hsame ht').elim
  | releaseLock taskId lockedBy => exact (hsame ht').elim

end Rewritten

/-! ## Which call runs the statement -/

/-- The time a write call read is not ahead of the clock. -/
def WritesTimed (s : RunnerState) : Prop :=
  ∀ call taskId lockedBy op now, s.writes call = .timed taskId lockedBy op now → now ≤ s.clock

theorem WritesTimed.step {s : RunnerState} (h : WritesTimed s) (a : RunnerAction) : WritesTimed (s.step a) := by
  intro call taskId lockedBy op now hw
  cases a with
  | tick seconds =>
    have := h call taskId lockedBy op now hw
    show now ≤ s.clock + seconds
    omega
  | beginWrite call' taskId' lockedBy' request =>
    change s.nextWrites (.beginWrite call' taskId' lockedBy' request) call = _ at hw
    unfold RunnerState.nextWrites at hw
    dsimp only at hw
    split_ifs at hw with hc
    · by_cases e : call = call'
      · rw [e, Function.update_self] at hw; cases hw
      · rw [Function.update_of_ne e] at hw; exact h call taskId lockedBy op now hw
    · exact h call taskId lockedBy op now hw
  | stepWrite call' fault =>
    change Function.update s.writes call' _ call = _ at hw
    by_cases e : call = call'
    · rw [e, Function.update_self] at hw
      show now ≤ s.clock
      unfold handlerStep at hw
      split at hw
      · cases hw
      · cases hw; exact Int.le_refl _
      · dsimp only at hw
        split_ifs at hw
      · split_ifs at hw
    · rw [Function.update_of_ne e] at hw; exact h call taskId lockedBy op now hw
  | create taskId' type payload state | beginClaim runnerId id type | stepClaim runnerId fault
  | beginSweep call' | stepSweep call' fault => exact h call taskId lockedBy op now hw

/-- A handler's write is run by a write call that read the clock before. -/
theorem writes_of_statement {s : RunnerState} {a : RunnerAction} {taskId lockedBy : String} {now : ℤ}
    {op : HandlerOp} (h : s.statement a = op.statement taskId lockedBy now) :
    ∃ call, a = .stepWrite call false ∧ s.writes call = .timed taskId lockedBy op now := by
  have horigin := statement_origin s a
  rw [h] at horigin
  generalize hstmt : op.statement taskId lockedBy now = stmt at horigin
  cases horigin with
  | @write call taskId' lockedBy' op' now' hwrite =>
    refine ⟨call, rfl, ?_⟩
    cases op <;> cases op' <;> cases hstmt <;> exact hwrite
  | nothing | create taskId type payload state | insert fault hclaim htype htask | takeOver hclaim
  | markClaim fault expiredTaskId | start hclaim haff | releaseClaim fault hclaim | releaseWrite hwrite
  | mark hsweep | delete hsweep => cases op <;> cases hstmt

/-! ## Every run -/

/-- One active task and one lock row for a type, and `ActiveKey` on the active tasks. -/
structure Exclusive (st : SystemTaskStore) : Prop where
  active : ∀ t ∈ st.tasks, ∀ t' ∈ st.tasks, t.status.active = true → t'.status.active = true →
    t.type = t'.type → t = t'
  activeKey : ∀ t ∈ st.tasks, t.activeKey = if t.status.active then some t.type else none
  lock : ∀ l ∈ st.locks, ∀ l' ∈ st.locks, l.type = l'.type → l = l'

/-- The action is the write of a call that the task's runner made, and the runner's lock row on the
task lasts to the time that call read. -/
def WrittenByHolder (s : RunnerState) (a : RunnerAction) (t : SystemTask) : Prop :=
  ∃ call op now, a = .stepWrite call false ∧
    s.writes call = .timed t.taskId t.lockedBy op now ∧ now ≤ s.clock ∧
    ∃ l ∈ s.store.locks, l.names t.taskId t.lockedBy = true ∧ now ≤ l.lockedUntil

/-- **Leases.** In every state reached, tasks and lock rows are exclusive by type, and only the runner
that has a task can change its state or its result, while its lock row names it and had not expired
when its call read the clock. -/
theorem leases_exclusive (clock : ℤ) (as : List RunnerAction) :
    let s := run RunnerState.step (RunnerState.start clock) as
    Exclusive s.store ∧
      ∀ a, ∀ t ∈ s.store.tasks, ∀ t' ∈ (s.step a).store.tasks, t'.taskId = t.taskId →
        Rewritten t t' → WrittenByHolder s a t := by
  intro s
  have hv : s.store.Valid := run_valid clock as
  have hstart : WritesTimed (RunnerState.start clock) := by
    intro call taskId lockedBy op now hw; cases hw
  have htimed : WritesTimed s := run_invariant (fun _ a h => h.step a) hstart as
  refine ⟨⟨?_, hv.activeKey, ?_⟩, ?_⟩
  · intro t ht t' ht' ha ha' htype
    exact hv.active_unique ht ht' ha ha' htype
  · intro l hl l' hl' h
    exact hv.lock_unique hl hl' h
  · intro a t ht t' ht' hid hrw
    obtain ⟨op, now, hstmt, -, hlease⟩ := writesAs_of_rewritten hv ht ht' hid hrw
    obtain ⟨call, ha, hw⟩ := writes_of_statement hstmt
    refine ⟨call, op, now, ha, hw, htimed call _ _ op now hw, ?_⟩
    simpa [SystemTaskStore.holdsLease] using hlease

/-! A task of runner `node-a` whose lease ends at 60. -/

def cleanupClaimed : List RunnerAction :=
  [.create "systask_1" "log_cleanup" "" "", .beginClaim "node-a" 1 "log_cleanup"] ++
    List.replicate 6 (.stepClaim "node-a" false)

theorem tasks_kept_written :
    ∃ t ∈ (run RunnerState.step (RunnerState.start 0) cleanupClaimed).store.tasks, t.status = .running ∧
      ∃ t' ∈ (run RunnerState.step (RunnerState.start 0)
        (cleanupClaimed ++ [.beginWrite 0 "systask_1" "node-a" (.update "50"), .stepWrite 0 false])).store.tasks,
          t.Later t' := by
  obtain ⟨t, ht, hrun⟩ : ∃ t ∈ (run RunnerState.step (RunnerState.start 0) cleanupClaimed).store.tasks,
    t.status = .running := by decide
  exact ⟨t, ht, hrun, tasks_kept 0 cleanupClaimed _ t ht⟩

/-- The call reads the clock at 60 and writes at 61: the state changes although no lease on the task
lasts to that moment. -/
theorem late_write_after_lease :
    let s := run RunnerState.step (RunnerState.start 0)
      (cleanupClaimed ++ [.tick 60, .beginWrite 0 "systask_1" "node-a" (.update "50"),
        .stepWrite 0 false, .tick 1])
    (∀ l ∈ s.store.locks, l.lockedUntil < s.clock) ∧
      ∃ t ∈ s.store.tasks, ∃ t' ∈ (s.step (.stepWrite 0 false)).store.tasks,
        t'.taskId = t.taskId ∧ Rewritten t t' := by
  decide

end Vancine.SystemTasks
