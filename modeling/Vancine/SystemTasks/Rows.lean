import Vancine.SystemTasks.Store

/-!
# What a statement does to one row

Each statement of `model/system_task.go` read from the row it writes. A task never leaves the table
and keeps its id, name and type; it goes from pending to running by the claim of a runner and from
running to a final status (`TaskMove`). A lock row is new, taken over, renewed or untouched
(`LockMove`), and three statements take it away from the task it names (`Drops`).
-/

namespace Vancine.SystemTasks

open Lib

/-! ## Task rows -/

/-- The same task: the columns no statement writes. -/
structure SystemTask.Same (t t' : SystemTask) : Prop where
  id : t'.id = t.id
  taskId : t'.taskId = t.taskId
  type : t'.type = t.type

/-- How far a task may move: it stays with its runner, it leaves the active statuses, or the claim of
a runner starts it. -/
inductive TaskMove (stmt : Statement) (t t' : SystemTask) : Prop
  | keep (hstatus : t'.status = t.status) (hby : t'.lockedBy = t.lockedBy)
  | close (hrun : t.status = .running) (hdone : t'.status.active = false)
  | start (runnerId : String) (now : ℤ) (hstmt : stmt = .startTask t.id t.type runnerId now)
      (hpend : t.status = .pending) (hrun : t'.status = .running) (hby : t'.lockedBy = runnerId)

/-- How far a status is. -/
def SystemTaskStatus.stage : SystemTaskStatus → ℕ
  | .pending => 0
  | .running => 1
  | .succeeded | .failed => 2

section Rows

variable {st : SystemTaskStore} {stmt : Statement}

theorem updateWhere_same {p : SystemTask → Bool} {f : SystemTask → SystemTask} {t' : SystemTask}
    (ht' : t' ∈ Table.updateWhere p f st.tasks) (hsame : ∀ t, SystemTask.Same t (f t))
    (hmove : ∀ t, p t = true → TaskMove stmt t (f t)) : ∃ t ∈ st.tasks, SystemTask.Same t t' ∧ TaskMove stmt t t' := by
  rcases Table.mem_updateWhere.mp ht' with ⟨t, ht, hp, rfl⟩ | ⟨ht, -⟩
  · exact ⟨t, ht, hsame t, hmove t hp⟩
  · exact ⟨t', ht, ⟨rfl, rfl, rfl⟩, .keep rfl rfl⟩

/-- Every row after a statement is a task of before that moved, or a new pending task. -/
theorem exec_task {t' : SystemTask} (ht' : t' ∈ (st.exec stmt).tasks) :
    (∃ t ∈ st.tasks, SystemTask.Same t t' ∧ TaskMove stmt t t') ∨
      (t'.status = .pending ∧ ∀ t ∈ st.tasks, t.taskId ≠ t'.taskId) := by
  have hold : t' ∈ st.tasks → ∃ t ∈ st.tasks, SystemTask.Same t t' ∧ TaskMove stmt t t' :=
    fun hm => ⟨t', hm, ⟨rfl, rfl, rfl⟩, .keep rfl rfl⟩
  cases stmt with
  | nothing => exact .inl (hold ht')
  | createTask taskId type payload state now =>
    unfold SystemTaskStore.exec at ht'
    dsimp only at ht'
    by_cases h : st.affects (.createTask taskId type payload state now) = true
    · rw [if_pos h] at ht'
      simp only [SystemTaskStore.affects, List.all_eq_true, Bool.and_eq_true, decide_eq_true_eq] at h
      rcases List.mem_append.mp ht' with hm | hm
      · exact .inl (hold hm)
      · right
        rw [List.mem_singleton.mp hm]
        exact ⟨rfl, fun t ht => (h t ht).1⟩
    · rw [if_neg h] at ht'
      exact .inl (hold ht')
  | createLock lock =>
    unfold SystemTaskStore.exec at ht'
    dsimp only at ht'
    split_ifs at ht' <;> exact .inl (hold ht')
  | takeOverLock type now taskId lockedBy lockUntil => exact .inl (hold ht')
  | startTask id type runnerId now =>
    refine .inl (updateWhere_same ht' (fun _ => ⟨rfl, rfl, rfl⟩) ?_)
    intro t hp
    simp only [Bool.and_eq_true, decide_eq_true_eq] at hp
    obtain ⟨⟨rfl, rfl⟩, hpend⟩ := hp
    exact .start runnerId now rfl hpend rfl rfl
  | markLeaseExpired taskId now =>
    refine .inl (updateWhere_same ht' (fun _ => ⟨rfl, rfl, rfl⟩) ?_)
    intro t hp
    simp only [Bool.and_eq_true, decide_eq_true_eq] at hp
    exact .close hp.2 rfl
  | updateState taskId lockedBy now stateText =>
    exact .inl (updateWhere_same ht' (fun _ => ⟨rfl, rfl, rfl⟩) fun _ _ => .keep rfl rfl)
  | renewLock taskId lockedBy now lockUntil => exact .inl (hold ht')
  | finishTask taskId lockedBy now status resultText errorMessage =>
    refine .inl (updateWhere_same ht' (fun _ => ⟨rfl, rfl, rfl⟩) ?_)
    intro t hp
    simp only [SystemTaskStore.runsFor, Bool.and_eq_true, decide_eq_true_eq] at hp
    exact .close hp.1.1.2 status.2
  | deleteStaleLock lock now => exact .inl (hold ht')
  | releaseLock taskId lockedBy => exact .inl (hold ht')

theorem exec_taskIds_subset (st : SystemTaskStore) (stmt : Statement) {t : SystemTask}
    (ht : t ∈ st.tasks) : ∃ t' ∈ (st.exec stmt).tasks, t'.taskId = t.taskId := by
  have hup : ∀ (p : SystemTask → Bool) (f : SystemTask → SystemTask),
      (∀ t, (f t).taskId = t.taskId) → ∃ t' ∈ Table.updateWhere p f st.tasks, t'.taskId = t.taskId := by
    intro p f hf
    have hmem : t.taskId ∈ (Table.updateWhere p f st.tasks).map SystemTask.taskId := by
      rw [Table.map_updateWhere hf]; exact List.mem_map_of_mem ht
    obtain ⟨t', ht', he⟩ := List.mem_map.mp hmem
    exact ⟨t', ht', he⟩
  cases stmt with
  | nothing => exact ⟨t, ht, rfl⟩
  | createTask taskId type payload state now =>
    unfold SystemTaskStore.exec
    dsimp only
    split_ifs
    · exact ⟨t, List.mem_append_left _ ht, rfl⟩
    · exact ⟨t, ht, rfl⟩
  | createLock lock =>
    unfold SystemTaskStore.exec
    dsimp only
    split_ifs <;> exact ⟨t, ht, rfl⟩
  | takeOverLock type now taskId lockedBy lockUntil => exact ⟨t, ht, rfl⟩
  | startTask id type runnerId now | markLeaseExpired taskId now | updateState taskId lockedBy now stateText =>
    exact hup _ _ fun _ => rfl
  | renewLock taskId lockedBy now lockUntil => exact ⟨t, ht, rfl⟩
  | finishTask taskId lockedBy now status resultText errorMessage => exact hup _ _ fun _ => rfl
  | deleteStaleLock lock now => exact ⟨t, ht, rfl⟩
  | releaseLock taskId lockedBy => exact ⟨t, ht, rfl⟩

theorem task_after (hv : st.Valid) (stmt : Statement) {t : SystemTask} (ht : t ∈ st.tasks) :
    ∃ t' ∈ (st.exec stmt).tasks, SystemTask.Same t t' ∧ TaskMove stmt t t' := by
  obtain ⟨t', ht', hid⟩ := exec_taskIds_subset st stmt ht
  refine ⟨t', ht', ?_⟩
  rcases exec_task ht' with ⟨t₀, ht₀, hsame, hmove⟩ | ⟨-, hnew⟩
  · obtain rfl : t₀ = t := hv.task_unique ht₀ ht (hsame.taskId.symm.trans hid)
    exact ⟨hsame, hmove⟩
  · exact absurd hid.symm (hnew t ht)

theorem exec_final (stmt : Statement) {t : SystemTask} (ht : t ∈ st.tasks) (hdone : t.status.active = false) :
    t ∈ (st.exec stmt).tasks := by
  have hpend : t.status ≠ .pending := fun h => by rw [h] at hdone; cases hdone
  have hrun : t.status ≠ .running := fun h => by rw [h] at hdone; cases hdone
  have hkeep (p : SystemTask → Bool) (f : SystemTask → SystemTask) (hp : p t = false) :
      t ∈ Table.updateWhere p f st.tasks := Table.mem_updateWhere.mpr (.inr ⟨ht, hp⟩)
  cases stmt with
  | nothing | takeOverLock | renewLock | deleteStaleLock | releaseLock => exact ht
  | createTask =>
    unfold SystemTaskStore.exec
    dsimp only
    split_ifs
    · exact List.mem_append_left _ ht
    · exact ht
  | createLock lock =>
    unfold SystemTaskStore.exec
    dsimp only
    split_ifs <;> exact ht
  | startTask => exact hkeep _ _ (by simp [hpend])
  | markLeaseExpired => exact hkeep _ _ (by simp [hrun])
  | updateState | finishTask => exact hkeep _ _ (by simp [SystemTaskStore.runsFor, hrun])

/-- What may have become of a task: it is still there, its status went no way but on, a runner kept it as long as it
runs, and in a final status nothing was written. -/
structure SystemTask.Later (t t' : SystemTask) : Prop where
  same : SystemTask.Same t t'
  onward : t.status.stage ≤ t'.status.stage
  runner : t.status = .running → t'.status = .running → t'.lockedBy = t.lockedBy
  frozen : t.status.active = false → t' = t

theorem SystemTask.Later.refl (t : SystemTask) : t.Later t := ⟨⟨rfl, rfl, rfl⟩, Nat.le_refl _, fun _ _ => rfl, fun _ => rfl⟩

theorem SystemTask.Later.trans {t t' t'' : SystemTask} (h : t.Later t') (h' : t'.Later t'') : t.Later t'' where
  same := ⟨h'.same.id.trans h.same.id, h'.same.taskId.trans h.same.taskId, h'.same.type.trans h.same.type⟩
  onward := Nat.le_trans h.onward h'.onward
  runner hrun hrun'' := by
    have honward := h.onward
    have honward' := h'.onward
    rw [hrun] at honward
    rw [hrun''] at honward'
    have hrun' : t'.status = .running := by
      cases hstatus : t'.status <;> simp_all [SystemTaskStatus.stage]
    exact (h'.runner hrun' hrun'').trans (h.runner hrun hrun')
  frozen hdone := by
    have heq := h.frozen hdone
    subst heq
    exact h'.frozen hdone

theorem later_exec (hv : st.Valid) (stmt : Statement) {t : SystemTask} (ht : t ∈ st.tasks) :
    ∃ t' ∈ (st.exec stmt).tasks, t.Later t' := by
  cases hactive : t.status.active with
  | false => exact ⟨t, exec_final stmt ht hactive, .refl t⟩
  | true =>
    obtain ⟨t', ht', hsame, hmove⟩ := task_after hv stmt ht
    have hfrozen : t.status.active = false → t' = t := fun h => by rw [hactive] at h; cases h
    refine ⟨t', ht', hsame, ?_, ?_, hfrozen⟩
    · cases hmove with
      | keep hstatus hby => exact Nat.le_of_eq (congrArg _ hstatus.symm)
      | close hrun hdone =>
        rw [hrun]
        cases hstatus : t'.status <;> simp_all [SystemTaskStatus.stage, SystemTaskStatus.active]
      | start runnerId now hstmt hpend hrun hby => rw [hpend]; exact Nat.zero_le _
    · intro hrunning hrunning'
      cases hmove with
      | keep hstatus hby => exact hby
      | close hrun hdone => rw [hrunning'] at hdone; cases hdone
      | start runnerId now hstmt hpend hrun hby => rw [hrunning] at hpend; cases hpend

/-! ## Lock rows -/

/-- The statement takes the lock row away from the task it names. -/
def Statement.Drops (l : SystemTaskLock) : Statement → Prop
  | .takeOverLock type now _ _ _ => l.type = type ∧ l.lockedUntil < now
  | .deleteStaleLock lock now =>
    l.type = lock.type ∧ l.names lock.taskId lock.lockedBy = true ∧ l.lockedUntil < now
  | .releaseLock taskId lockedBy => l.names taskId lockedBy = true
  | _ => False

theorem lock_stays {l : SystemTaskLock} (hl : l ∈ st.locks) (hkeep : ¬stmt.Drops l) :
    ∃ l' ∈ (st.exec stmt).locks, l'.taskId = l.taskId ∧ l'.lockedBy = l.lockedBy := by
  cases stmt with
  | nothing => exact ⟨l, hl, rfl, rfl⟩
  | createTask taskId type payload state now =>
    unfold SystemTaskStore.exec
    dsimp only
    split_ifs <;> exact ⟨l, hl, rfl, rfl⟩
  | createLock lock =>
    unfold SystemTaskStore.exec
    dsimp only
    split_ifs
    · exact ⟨l, List.mem_append_left _ hl, rfl, rfl⟩
    · exact ⟨l, hl, rfl, rfl⟩
  | takeOverLock type now taskId lockedBy lockUntil =>
    refine ⟨l, Table.mem_updateWhere.mpr (.inr ⟨hl, ?_⟩), rfl, rfl⟩
    simpa [Statement.Drops] using hkeep
  | startTask id type runnerId now | markLeaseExpired taskId now | updateState taskId lockedBy now stateText =>
    exact ⟨l, hl, rfl, rfl⟩
  | renewLock taskId lockedBy now lockUntil =>
    by_cases hp : (l.names taskId lockedBy && decide (now ≤ l.lockedUntil)) = true
    · exact ⟨_, Table.mem_updateWhere.mpr (.inl ⟨l, hl, hp, rfl⟩), rfl, rfl⟩
    · exact ⟨l, Table.mem_updateWhere.mpr (.inr ⟨hl, by simpa using hp⟩), rfl, rfl⟩
  | finishTask taskId lockedBy now status resultText errorMessage => exact ⟨l, hl, rfl, rfl⟩
  | deleteStaleLock lock now =>
    refine ⟨l, List.mem_filter.mpr ⟨hl, ?_⟩, rfl, rfl⟩
    rw [Bool.not_eq_true', Bool.eq_false_iff]
    intro h
    simp only [Bool.and_eq_true, decide_eq_true_eq, and_assoc] at h
    exact hkeep h
  | releaseLock taskId lockedBy =>
    refine ⟨l, List.mem_filter.mpr ⟨hl, ?_⟩, rfl, rfl⟩
    simpa [Statement.Drops] using hkeep

/-- Where a lock row after a statement comes from. -/
inductive LockMove (st : SystemTaskStore) (stmt : Statement) (l' : SystemTaskLock) : Prop
  | keep (hl : l' ∈ st.locks)
  | create (hstmt : stmt = .createLock l') (haff : st.affects (.createLock l') = true)
  | takeOver {l : SystemTaskLock} (hl : l ∈ st.locks) {now : ℤ} {lockUntil : ℤ}
      (hstmt : stmt = .takeOverLock l'.type now l'.taskId l'.lockedBy lockUntil)
      (htype : l.type = l'.type) (hlt : l.lockedUntil < now)
  | renew {l : SystemTaskLock} (hl : l ∈ st.locks) {now : ℤ}
      (hstmt : stmt = .renewLock l'.taskId l'.lockedBy now l'.lockedUntil)
      (htype : l'.type = l.type) (htask : l'.taskId = l.taskId) (hby : l'.lockedBy = l.lockedBy)

theorem exec_lock {l' : SystemTaskLock} (hl' : l' ∈ (st.exec stmt).locks) : LockMove st stmt l' := by
  cases stmt with
  | nothing => exact .keep hl'
  | createTask taskId type payload state now =>
    unfold SystemTaskStore.exec at hl'
    dsimp only at hl'
    split_ifs at hl' <;> exact .keep hl'
  | createLock lock =>
    unfold SystemTaskStore.exec at hl'
    dsimp only at hl'
    split_ifs at hl' with haff
    · rcases List.mem_append.mp hl' with hm | hm
      · exact .keep hm
      · rw [List.mem_singleton.mp hm]
        exact .create rfl haff
    · exact .keep hl'
  | takeOverLock type now taskId lockedBy lockUntil =>
    rcases Table.mem_updateWhere.mp hl' with ⟨l, hl, hp, rfl⟩ | ⟨hl, -⟩
    · simp only [Bool.and_eq_true, decide_eq_true_eq] at hp
      obtain ⟨rfl, hlt⟩ := hp
      exact .takeOver hl rfl rfl hlt
    · exact .keep hl
  | startTask id type runnerId now | markLeaseExpired taskId now | updateState taskId lockedBy now stateText =>
    exact .keep hl'
  | renewLock taskId lockedBy now lockUntil =>
    rcases Table.mem_updateWhere.mp hl' with ⟨l, hl, hp, rfl⟩ | ⟨hl, -⟩
    · simp only [SystemTaskLock.names, Bool.and_eq_true, decide_eq_true_eq] at hp
      obtain ⟨⟨rfl, rfl⟩, -⟩ := hp
      exact .renew hl rfl rfl rfl rfl
    · exact .keep hl
  | finishTask taskId lockedBy now status resultText errorMessage => exact .keep hl'
  | deleteStaleLock lock now => exact .keep (List.mem_filter.mp hl').1
  | releaseLock taskId lockedBy => exact .keep (List.mem_filter.mp hl').1

end Rows

end Vancine.SystemTasks
