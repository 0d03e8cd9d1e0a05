import Mathlib.Data.Int.Notation
import Vancine.Lib.Table

/-!
# System tasks and their locks

The two tables of `model/system_task.go` and the SQL statements its functions are made of. A task
row carries its type in `ActiveKey` while it is pending or running, under a unique index; a lock row
gives one runner the lease of a type, which is its primary key.

Every function of the file is a sequence of such statements with no transaction around them, so a
statement is the unit in which runners interleave. `exec` is the effect of one statement and
`affects` whether it found a row to write, which is what `RowsAffected` is read for.
-/

namespace Vancine.SystemTasks

open Lib

inductive SystemTaskStatus
  | pending
  | running
  | succeeded
  | failed
  deriving DecidableEq

/-- `activeSystemTaskStatuses`. -/
def SystemTaskStatus.active : SystemTaskStatus → Bool
  | .pending | .running => true
  | .succeeded | .failed => false

/-- The statuses a handler finishes a task with. -/
abbrev FinalStatus := { status : SystemTaskStatus // status.active = false }

structure SystemTask where
  id : ℕ
  taskId : String
  type : String
  status : SystemTaskStatus
  activeKey : Option String
  payload : String
  state : String
  result : String := ""
  error : String := ""
  lockedBy : String := ""
  createdAt : ℤ
  updatedAt : ℤ
  deriving DecidableEq

structure SystemTaskLock where
  type : String
  taskId : String
  lockedBy : String
  lockedUntil : ℤ
  updatedAt : ℤ
  deriving DecidableEq

/-- The lock row gives the task to the runner. -/
def SystemTaskLock.names (lock : SystemTaskLock) (taskId lockedBy : String) : Bool :=
  lock.taskId = taskId && lock.lockedBy = lockedBy

/-- `nextId` is the sequence of the primary key. -/
structure SystemTaskStore where
  tasks : List SystemTask
  locks : List SystemTaskLock
  nextId : ℕ

namespace SystemTaskStore

def empty : SystemTaskStore := ⟨[], [], 1⟩

/-! ## Reads -/

/-- The first read of `ClaimSystemTask`. -/
def findPending (st : SystemTaskStore) (id : ℕ) (type : String) : Option SystemTask :=
  st.tasks.find? fun t => t.id = id && t.type = type && t.status = .pending

def findLock (st : SystemTaskStore) (type : String) : Option SystemTaskLock :=
  Table.find SystemTaskLock.type type st.locks

/-- The read of `ExpireStaleSystemTaskLocks`. -/
def staleLocks (st : SystemTaskStore) (now : ℤ) : List SystemTaskLock :=
  st.locks.filter fun l => l.lockedUntil < now

/-- The `EXISTS` condition of the handler's writes: the runner's lock row on the task, not expired
at `now`. -/
def holdsLease (st : SystemTaskStore) (taskId lockedBy : String) (now : ℤ) : Bool :=
  st.locks.any fun l => l.names taskId lockedBy && now ≤ l.lockedUntil

end SystemTaskStore

/-! ## Statements -/

inductive Statement
  /-- No write: a read, a clock read or a statement that failed. -/
  | nothing
  /-- The insert of `CreateSystemTask`. -/
  | createTask (taskId type payload state : String) (now : ℤ)
  /-- The insert of `acquireSystemTaskLock`. -/
  | createLock (lock : SystemTaskLock)
  /-- The takeover of `acquireSystemTaskLock`. -/
  | takeOverLock (type : String) (now : ℤ) (taskId lockedBy : String) (lockUntil : ℤ)
  /-- The update of `ClaimSystemTask`. -/
  | startTask (id : ℕ) (type runnerId : String) (now : ℤ)
  /-- `MarkSystemTaskLeaseExpired`. -/
  | markLeaseExpired (taskId : String) (now : ℤ)
  /-- `UpdateSystemTaskState`. -/
  | updateState (taskId lockedBy : String) (now : ℤ) (stateText : String)
  /-- `RenewSystemTaskLock`. -/
  | renewLock (taskId lockedBy : String) (now lockUntil : ℤ)
  /-- The update of `FinishSystemTask`. -/
  | finishTask (taskId lockedBy : String) (now : ℤ) (status : FinalStatus)
      (resultText errorMessage : String)
  /-- The delete of `ExpireStaleSystemTaskLocks`. -/
  | deleteStaleLock (lock : SystemTaskLock) (now : ℤ)
  /-- `ReleaseSystemTaskLock`. -/
  | releaseLock (taskId lockedBy : String)
  deriving DecidableEq

namespace SystemTaskStore

/-- The condition of the handler's writes on the task row. -/
def runsFor (st : SystemTaskStore) (taskId lockedBy : String) (now : ℤ) (t : SystemTask) : Bool :=
  t.taskId = taskId && t.status = .running && t.lockedBy = lockedBy &&
    st.holdsLease taskId lockedBy now

/-- Whether the statement writes a row. An insert finds the unique columns of its row free. -/
def affects (st : SystemTaskStore) : Statement → Bool
  | .nothing => false
  | .createTask taskId type _ _ _ =>
    st.tasks.all fun t => t.taskId ≠ taskId && t.activeKey ≠ some type
  | .createLock lock => st.locks.all fun l => l.type ≠ lock.type
  | .takeOverLock type now _ _ _ => st.locks.any fun l => l.type = type && l.lockedUntil < now
  | .startTask id type _ _ =>
    st.tasks.any fun t => t.id = id && t.type = type && t.status = .pending
  | .markLeaseExpired taskId _ => st.tasks.any fun t => t.taskId = taskId && t.status = .running
  | .updateState taskId lockedBy now _ => st.tasks.any (st.runsFor taskId lockedBy now)
  | .renewLock taskId lockedBy now _ => st.holdsLease taskId lockedBy now
  | .finishTask taskId lockedBy now _ _ _ => st.tasks.any (st.runsFor taskId lockedBy now)
  | .deleteStaleLock lock now => st.locks.any fun l =>
      l.type = lock.type && l.names lock.taskId lock.lockedBy && l.lockedUntil < now
  | .releaseLock taskId lockedBy => st.locks.any fun l => l.names taskId lockedBy

/-- The effect of one statement. -/
def exec (st : SystemTaskStore) : Statement → SystemTaskStore
  | .nothing => st
  | .createTask taskId type payload state now =>
    if st.affects (.createTask taskId type payload state now) then
      { st with
        tasks := st.tasks ++ [{
          id := st.nextId
          taskId, type, payload, state
          status := .pending
          activeKey := some type
          createdAt := now
          updatedAt := now }]
        nextId := st.nextId + 1 }
    else st
  | .createLock lock =>
    if st.affects (.createLock lock) then { st with locks := st.locks ++ [lock] } else st
  | .takeOverLock type now taskId lockedBy lockUntil =>
    { st with
      locks := Table.updateWhere (fun l => l.type = type && l.lockedUntil < now)
        (fun l => { l with
          taskId := taskId, lockedBy := lockedBy, lockedUntil := lockUntil, updatedAt := now })
        st.locks }
  | .startTask id type runnerId now =>
    { st with
      tasks := Table.updateWhere (fun t => t.id = id && t.type = type && t.status = .pending)
        (fun t => { t with status := .running, lockedBy := runnerId, updatedAt := now })
        st.tasks }
  | .markLeaseExpired taskId now =>
    { st with
      tasks := Table.updateWhere (fun t => t.taskId = taskId && t.status = .running)
        (fun t => { t with
          status := .failed, activeKey := none, error := "task lease expired", updatedAt := now })
        st.tasks }
  | .updateState taskId lockedBy now stateText =>
    { st with
      tasks := Table.updateWhere (st.runsFor taskId lockedBy now)
        (fun t => { t with state := stateText, updatedAt := now })
        st.tasks }
  | .renewLock taskId lockedBy now lockUntil =>
    { st with
      locks := Table.updateWhere (fun l => l.names taskId lockedBy && now ≤ l.lockedUntil)
        (fun l => { l with lockedUntil := lockUntil, updatedAt := now })
        st.locks }
  | .finishTask taskId lockedBy now status resultText errorMessage =>
    { st with
      tasks := Table.updateWhere (st.runsFor taskId lockedBy now)
        (fun t => { t with
          status := status, activeKey := none, result := resultText, error := errorMessage,
          updatedAt := now })
        st.tasks }
  | .deleteStaleLock lock now =>
    { st with
      locks := st.locks.filter fun l =>
        !(l.type = lock.type && l.names lock.taskId lock.lockedBy && l.lockedUntil < now) }
  | .releaseLock taskId lockedBy =>
    { st with locks := st.locks.filter fun l => !l.names taskId lockedBy }

/-! ## What the indexes keep -/

/-- What the unique columns and the statements keep of the tables. -/
structure Valid (st : SystemTaskStore) : Prop where
  ids : (st.tasks.map SystemTask.id).Nodup
  fresh : ∀ t ∈ st.tasks, t.id < st.nextId
  taskIds : (st.tasks.map SystemTask.taskId).Nodup
  keys : (st.tasks.filterMap SystemTask.activeKey).Nodup
  activeKey : ∀ t ∈ st.tasks, t.activeKey = if t.status.active then some t.type else none
  lockTypes : (st.locks.map SystemTaskLock.type).Nodup

theorem empty_valid : empty.Valid := by
  refine ⟨by simp [empty], ?_, by simp [empty], by simp [empty], ?_, by simp [empty]⟩
  · intro t ht; simp [empty] at ht
  · intro t ht; simp [empty] at ht

section Valid

variable {st : SystemTaskStore}

/-- An update of task rows that keeps their names and types, and keeps `ActiveKey` with the status or
drops it with a final one. -/
theorem Valid.updateTasks (hv : st.Valid) {p : SystemTask → Bool} {f : SystemTask → SystemTask}
    (hid : ∀ t, (f t).id = t.id) (htask : ∀ t, (f t).taskId = t.taskId) (htype : ∀ t, (f t).type = t.type)
    (hkey : ∀ t, p t = true → ((f t).activeKey = t.activeKey ∧ (f t).status.active = t.status.active) ∨
        ((f t).activeKey = none ∧ (f t).status.active = false))
    (hkey' : ∀ t, (f t).activeKey = t.activeKey ∨ (f t).activeKey = none) :
    { st with tasks := Table.updateWhere p f st.tasks }.Valid where
  ids := by dsimp only; rw [Table.map_updateWhere hid]; exact hv.ids
  taskIds := by dsimp only; rw [Table.map_updateWhere htask]; exact hv.taskIds
  keys := hv.keys.sublist (Table.filterMap_updateWhere_sublist hkey')
  lockTypes := hv.lockTypes
  fresh := by
    intro t ht
    rcases Table.mem_updateWhere.mp ht with ⟨t₀, ht₀, -, rfl⟩ | ⟨ht, -⟩
    · rw [hid]; exact hv.fresh t₀ ht₀
    · exact hv.fresh t ht
  activeKey := by
    intro t ht
    rcases Table.mem_updateWhere.mp ht with ⟨t₀, ht₀, hp, rfl⟩ | ⟨ht, -⟩
    · rcases hkey t₀ hp with ⟨hk, hs⟩ | ⟨hk, hs⟩
      · rw [hk, hs, htype]; exact hv.activeKey t₀ ht₀
      · rw [hk, hs]; rfl
    · exact hv.activeKey t ht

theorem Valid.of_locks (hv : st.Valid) {locks : List SystemTaskLock}
    (hl : (locks.map SystemTaskLock.type).Nodup) : { st with locks := locks }.Valid :=
  ⟨hv.ids, hv.fresh, hv.taskIds, hv.keys, hv.activeKey, hl⟩

theorem Valid.createTask (hv : st.Valid) (taskId type payload state : String) (now : ℤ) :
    (st.exec (.createTask taskId type payload state now)).Valid := by
  unfold exec
  dsimp only
  by_cases h : st.affects (.createTask taskId type payload state now) = true
  · rw [if_pos h]
    simp only [affects, List.all_eq_true, Bool.and_eq_true, decide_eq_true_eq] at h
    refine ⟨?_, ?_, ?_, ?_, ?_, hv.lockTypes⟩
    · rw [List.map_append, List.nodup_append]
      refine ⟨hv.ids, by simp, ?_⟩
      intro id hid id' hid' e
      obtain ⟨t, ht, rfl⟩ := List.mem_map.mp hid
      rw [List.map_singleton, List.mem_singleton] at hid'
      have := hv.fresh t ht
      dsimp only at hid'
      omega
    · intro t ht
      rcases List.mem_append.mp ht with ht | ht
      · have := hv.fresh t ht; dsimp only; omega
      · rw [List.mem_singleton.mp ht]; dsimp only; omega
    · rw [List.map_append, List.nodup_append]
      refine ⟨hv.taskIds, by simp, ?_⟩
      intro id hid id' hid' e
      obtain ⟨t, ht, rfl⟩ := List.mem_map.mp hid
      rw [List.map_singleton, List.mem_singleton] at hid'
      exact (h t ht).1 (e.trans hid')
    · rw [List.filterMap_append, List.nodup_append]
      refine ⟨hv.keys, by simp, ?_⟩
      intro key hk key' hk' e
      obtain ⟨t, ht, hkey⟩ := List.mem_filterMap.mp hk
      have hk'' : key' = type := by simpa using hk'
      exact (h t ht).2 (by rw [hkey, e, hk''])
    · intro t ht
      rcases List.mem_append.mp ht with ht | ht
      · exact hv.activeKey t ht
      · rw [List.mem_singleton.mp ht]; rfl
  · rw [if_neg h]; exact hv

theorem Valid.exec (hv : st.Valid) (stmt : Statement) : (st.exec stmt).Valid := by
  cases stmt with
  | nothing => exact hv
  | createTask taskId type payload state now => exact hv.createTask taskId type payload state now
  | createLock lock =>
    unfold SystemTaskStore.exec
    dsimp only
    by_cases h : st.affects (.createLock lock) = true
    · rw [if_pos h]
      simp only [affects, List.all_eq_true, decide_eq_true_eq] at h
      apply hv.of_locks
      rw [List.map_append, List.nodup_append]
      refine ⟨hv.lockTypes, by simp, ?_⟩
      intro ty hty ty' hty' e
      obtain ⟨l, hl, rfl⟩ := List.mem_map.mp hty
      rw [List.map_singleton, List.mem_singleton] at hty'
      exact h l hl (e.trans hty')
    · rw [if_neg h]; exact hv
  | takeOverLock type now taskId lockedBy lockUntil =>
    apply hv.of_locks
    rw [Table.map_updateWhere]
    · exact hv.lockTypes
    · intro l; rfl
  | startTask id type runnerId now =>
    refine hv.updateTasks (fun _ => rfl) (fun _ => rfl) (fun _ => rfl) ?_ fun _ => .inl rfl
    intro t ht
    simp only [Bool.and_eq_true, decide_eq_true_eq] at ht
    exact .inl ⟨rfl, by rw [ht.2]; rfl⟩
  | markLeaseExpired taskId now =>
    exact hv.updateTasks (fun _ => rfl) (fun _ => rfl) (fun _ => rfl)
      (fun _ _ => .inr ⟨rfl, rfl⟩) fun _ => .inr rfl
  | updateState taskId lockedBy now stateText =>
    exact hv.updateTasks (fun _ => rfl) (fun _ => rfl) (fun _ => rfl)
      (fun _ _ => .inl ⟨rfl, rfl⟩) fun _ => .inl rfl
  | renewLock taskId lockedBy now lockUntil =>
    apply hv.of_locks
    rw [Table.map_updateWhere]
    · exact hv.lockTypes
    · intro l; rfl
  | finishTask taskId lockedBy now status resultText errorMessage =>
    exact hv.updateTasks (fun _ => rfl) (fun _ => rfl) (fun _ => rfl)
      (fun _ _ => .inr ⟨rfl, status.2⟩) fun _ => .inr rfl
  | deleteStaleLock lock now =>
    apply hv.of_locks
    exact hv.lockTypes.sublist (List.filter_sublist.map _)
  | releaseLock taskId lockedBy =>
    apply hv.of_locks
    exact hv.lockTypes.sublist (List.filter_sublist.map _)

theorem Valid.active_unique (hv : st.Valid) {t t' : SystemTask} (ht : t ∈ st.tasks)
    (ht' : t' ∈ st.tasks) (ha : t.status.active = true) (ha' : t'.status.active = true)
    (htype : t.type = t'.type) : t = t' := by
  have hk := hv.activeKey t ht
  have hk' := hv.activeKey t' ht'
  rw [if_pos ha] at hk
  rw [if_pos ha', ← htype] at hk'
  exact Table.eq_of_nodup_filterMap hv.keys ht ht' hk hk'

theorem Valid.task_unique (hv : st.Valid) {t t' : SystemTask} (ht : t ∈ st.tasks)
    (ht' : t' ∈ st.tasks) (h : t.taskId = t'.taskId) : t = t' :=
  List.inj_on_of_nodup_map hv.taskIds ht ht' h

theorem Valid.lock_unique (hv : st.Valid) {l l' : SystemTaskLock} (hl : l ∈ st.locks)
    (hl' : l' ∈ st.locks) (h : l.type = l'.type) : l = l' :=
  List.inj_on_of_nodup_map hv.lockTypes hl hl' h

end Valid

end SystemTaskStore

end Vancine.SystemTasks
