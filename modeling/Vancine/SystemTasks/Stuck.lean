import Vancine.SystemTasks.Rows
import Vancine.SystemTasks.Runner

/-!
# Running tasks and their lock rows

A sweep finds a task whose runner died by the task's lock row. `ClaimSystemTask` takes the lock before
it makes the task running, with no transaction around the two, so that in between the lock may expire
and be swept or taken over; the task then runs without a lock row, no sweep ever sees it, and its
`ActiveKey` blocks the type.

`ClaimsInTime` is what the code does not check: the status is written while the lock row is still the
claim's own, and a lock is taken over for a task that is still pending. Under it every running task
has its lock row (`Held`), and a sweep that starts after the lease ends moves the task on.
-/

namespace Vancine.SystemTasks

open Lib

/-! ## What holds in every run -/

/-- The arguments of a claim that knows its task and has not started it. -/
def ClaimCall.open : ClaimCall → Option ClaimArgs
  | .found a | .contended a | .stale a _ | .acquired a _ | .ready a | .releasing a => some a
  | .idle | .called _ | .began _ | .started _ => none

/-- The task a write call under way is for. -/
def HandlerCall.task : HandlerCall → Option String
  | .called taskId _ _ | .timed taskId _ _ _ => some taskId
  | .idle | .finished _ _ => none

/-- The time a sweep works with. -/
def SweepCall.now : SweepCall → Option ℤ
  | .idle => none
  | .called now | .marking now _ | .deleting now _ _ => some now

/-- The task is in the table and past pending. -/
def Begun (st : SystemTaskStore) (taskId : String) : Prop :=
  ∃ t ∈ st.tasks, t.taskId = taskId ∧ t.status ≠ .pending

/-- The task is in the table with a final status. -/
def Closed (st : SystemTaskStore) (taskId : String) : Prop :=
  ∃ t ∈ st.tasks, t.taskId = taskId ∧ t.status.active = false

/-- The claim's task is in the table, and it is not this runner that runs it. -/
def Open (st : SystemTaskStore) (runnerId : String) (a : ClaimArgs) : Prop :=
  ∃ t ∈ st.tasks, t.id = a.id ∧ t.taskId = a.taskId ∧ t.type = a.type ∧
    ¬(t.status = .running ∧ t.lockedBy = runnerId)

/-- Where the calls under way stand against the tables, whatever the interleaving. -/
structure Placed (s : RunnerState) : Prop where
  valid : s.store.Valid
  locks : ∀ l ∈ s.store.locks, ∃ t ∈ s.store.tasks, t.taskId = l.taskId ∧ t.type = l.type
  opened : ∀ runnerId a, (s.claims runnerId).open = some a → Open s.store runnerId a
  started : ∀ runnerId a, s.claims runnerId = .started a → Begun s.store a.taskId
  handlers : ∀ h ∈ s.handlers, Begun s.store h.1
  writes : ∀ call taskId, (s.writes call).task = some taskId → Begun s.store taskId
  finished : ∀ call taskId lockedBy, s.writes call = .finished taskId lockedBy →
    Closed s.store taskId
  sweeps : ∀ call now, (s.sweeps call).now = some now → now ≤ s.clock

section Monotone

variable {st : SystemTaskStore} {taskId : String}

theorem Begun.exec (hv : st.Valid) (h : Begun st taskId) (stmt : Statement) : Begun (st.exec stmt) taskId := by
  obtain ⟨t, ht, rfl, hne⟩ := h
  obtain ⟨t', ht', hsame, hmove⟩ := task_after hv stmt ht
  refine ⟨t', ht', hsame.taskId, ?_⟩
  cases hmove with
  | keep hstatus hby => rw [hstatus]; exact hne
  | close hrun hdone => intro e; rw [e] at hdone; cases hdone
  | start runnerId now hstmt hpend hrun hby => exact absurd hpend hne

theorem Closed.exec (hv : st.Valid) (h : Closed st taskId) (stmt : Statement) : Closed (st.exec stmt) taskId := by
  obtain ⟨t, ht, rfl, hdone⟩ := h
  obtain ⟨t', ht', hsame, hmove⟩ := task_after hv stmt ht
  refine ⟨t', ht', hsame.taskId, ?_⟩
  cases hmove with
  | keep hstatus hby => rw [hstatus]; exact hdone
  | close hrun hdone' => exact hdone'
  | start runnerId now hstmt hpend hrun hby => rw [hpend] at hdone; cases hdone

/-- The task of an open claim stays open unless this runner's claim starts it. -/
theorem Open.exec (hv : st.Valid) {runnerId : String} {a : ClaimArgs} (h : Open st runnerId a)
    (stmt : Statement) (hother : ∀ now, stmt ≠ .startTask a.id a.type runnerId now) :
    Open (st.exec stmt) runnerId a := by
  obtain ⟨t, ht, hid, htask, htype, hnot⟩ := h
  obtain ⟨t', ht', hsame, hmove⟩ := task_after hv stmt ht
  refine ⟨t', ht', hsame.id.trans hid, hsame.taskId.trans htask, hsame.type.trans htype, ?_⟩
  cases hmove with
  | keep hstatus hby => rw [hstatus, hby]; exact hnot
  | close hrun hdone => rintro ⟨e, -⟩; rw [e] at hdone; cases hdone
  | start runnerId' now hstmt hpend hrun hby =>
    rintro ⟨-, e⟩
    rw [hid, htype, ← hby, e] at hstmt
    exact hother now hstmt

theorem not_running_of_mark {now : ℤ} {t' : SystemTask}
    (ht' : t' ∈ (st.exec (.markLeaseExpired taskId now)).tasks) (hid : t'.taskId = taskId) : t'.status ≠ .running := by
  rcases Table.mem_updateWhere.mp ht' with ⟨t, ht, hp, rfl⟩ | ⟨ht, hp⟩
  · simp
  · intro hrun
    simp [hid, hrun] at hp

end Monotone

namespace Placed

variable {s : RunnerState}

/-- The lock row a statement writes for a task names a task of the table. -/
def KnownLock (st : SystemTaskStore) (stmt : Statement) : Prop :=
  ∀ l : SystemTaskLock, (stmt = .createLock l ∨
      ∃ now lockUntil, stmt = .takeOverLock l.type now l.taskId l.lockedBy lockUntil) →
    ∃ t ∈ st.tasks, t.taskId = l.taskId ∧ t.type = l.type

/-- The statement does not start the task of an open claim for the claim's own runner. -/
def StartsNone (s : RunnerState) (stmt : Statement) : Prop :=
  ∀ runnerId a, (s.claims runnerId).open = some a → ∀ now, stmt ≠ .startTask a.id a.type runnerId now

theorem exec (hp : Placed s) (stmt : Statement) (hlock : KnownLock s.store stmt)
    (hstart : StartsNone s stmt) : Placed { s with store := s.store.exec stmt } where
  valid := hp.valid.exec stmt
  locks := by
    have hafter : ∀ t ∈ s.store.tasks, ∃ t' ∈ (s.store.exec stmt).tasks,
        t'.taskId = t.taskId ∧ t'.type = t.type := by
      intro t ht
      obtain ⟨t', ht', hsame, -⟩ := task_after hp.valid stmt ht
      exact ⟨t', ht', hsame.taskId, hsame.type⟩
    intro l' hl'
    have hknown : ∃ t ∈ s.store.tasks, t.taskId = l'.taskId ∧ t.type = l'.type := by
      cases exec_lock hl' with
      | keep hl => exact hp.locks l' hl
      | create hstmt haff => exact hlock l' (.inl hstmt)
      | takeOver hl hstmt htype hlt => exact hlock l' (.inr ⟨_, _, hstmt⟩)
      | renew hl hstmt htype htask hby =>
        obtain ⟨t, ht, h1, h2⟩ := hp.locks _ hl
        exact ⟨t, ht, h1.trans htask.symm, h2.trans htype.symm⟩
    obtain ⟨t, ht, h1, h2⟩ := hknown
    obtain ⟨t', ht', h1', h2'⟩ := hafter t ht
    exact ⟨t', ht', h1'.trans h1, h2'.trans h2⟩
  opened runnerId a ha := (hp.opened runnerId a ha).exec hp.valid stmt (hstart runnerId a ha)
  started runnerId a ha := (hp.started runnerId a ha).exec hp.valid stmt
  handlers h hh := (hp.handlers h hh).exec hp.valid stmt
  writes call taskId hw := (hp.writes call taskId hw).exec hp.valid stmt
  finished call taskId lockedBy hw := (hp.finished call taskId lockedBy hw).exec hp.valid stmt
  sweeps := hp.sweeps

variable {c : ClaimCall} {runnerId : String} {fault : Bool} {r : ClaimStep} {st : SystemTaskStore}

theorem setClaim (hp : Placed s) (runnerId : String) (hopen : ∀ a, c.open = some a → Open s.store runnerId a)
    (hstarted : ∀ a, c = .started a → Begun s.store a.taskId) :
    Placed { s with claims := Function.update s.claims runnerId c } where
  valid := hp.valid
  locks := hp.locks
  opened runnerId' a ha := by
    dsimp only at ha
    by_cases e : runnerId' = runnerId
    · subst e; rw [Function.update_self] at ha; exact hopen a ha
    · rw [Function.update_of_ne e] at ha; exact hp.opened runnerId' a ha
  started runnerId' a ha := by
    dsimp only at ha
    by_cases e : runnerId' = runnerId
    · subst e; rw [Function.update_self] at ha; exact hstarted a ha
    · rw [Function.update_of_ne e] at ha; exact hp.started runnerId' a ha
  handlers := hp.handlers
  writes := hp.writes
  finished := hp.finished
  sweeps := hp.sweeps

theorem setWrite (hp : Placed s) {call : ℕ} {c : HandlerCall}
    (htask : ∀ taskId, c.task = some taskId → Begun s.store taskId)
    (hfin : ∀ taskId lockedBy, c = .finished taskId lockedBy → Closed s.store taskId) :
    Placed { s with writes := Function.update s.writes call c } where
  valid := hp.valid
  locks := hp.locks
  opened := hp.opened
  started := hp.started
  handlers := hp.handlers
  writes call' taskId hw := by
    dsimp only at hw
    by_cases e : call' = call
    · subst e; rw [Function.update_self] at hw; exact htask taskId hw
    · rw [Function.update_of_ne e] at hw; exact hp.writes call' taskId hw
  finished call' taskId lockedBy hw := by
    dsimp only at hw
    by_cases e : call' = call
    · subst e; rw [Function.update_self] at hw; exact hfin taskId lockedBy hw
    · rw [Function.update_of_ne e] at hw; exact hp.finished call' taskId lockedBy hw
  sweeps := hp.sweeps

theorem setSweep (hp : Placed s) {call : ℕ} {c : SweepCall} (hnow : ∀ now, c.now = some now → now ≤ s.clock) :
    Placed { s with sweeps := Function.update s.sweeps call c } where
  valid := hp.valid
  locks := hp.locks
  opened := hp.opened
  started := hp.started
  handlers := hp.handlers
  writes := hp.writes
  finished := hp.finished
  sweeps call' now hw := by
    dsimp only at hw
    by_cases e : call' = call
    · subst e; rw [Function.update_self] at hw; exact hnow now hw
    · rw [Function.update_of_ne e] at hw; exact hp.sweeps call' now hw

variable {taskId lockedBy : String} {clock : ℤ} {a : ClaimArgs}

theorem addHandler (hp : Placed s) (h : Begun s.store taskId) :
    Placed { s with handlers := (taskId, lockedBy) :: s.handlers } where
  valid := hp.valid
  locks := hp.locks
  opened := hp.opened
  started := hp.started
  handlers h' hh := by
    rcases List.mem_cons.mp hh with rfl | hh
    · exact h
    · exact hp.handlers h' hh
  writes := hp.writes
  finished := hp.finished
  sweeps := hp.sweeps

theorem start (clock : ℤ) : Placed (RunnerState.start clock) where
  valid := SystemTaskStore.empty_valid
  locks l hl := by cases hl
  opened runnerId a ha := by cases ha
  started runnerId a ha := by cases ha
  handlers h hh := by cases hh
  writes call taskId hw := by cases hw
  finished call taskId lockedBy hw := by cases hw
  sweeps call now hw := by cases hw

/-- A statement that writes no lock row for a task and starts none. -/
theorem exec_plain (hp : Placed s) {stmt : Statement} (hlock : ∀ l, stmt ≠ .createLock l)
    (hover : ∀ type now taskId lockedBy lockUntil, stmt ≠ .takeOverLock type now taskId lockedBy lockUntil)
    (hstart : ∀ id type runnerId now, stmt ≠ .startTask id type runnerId now) :
    Placed { s with store := s.store.exec stmt } := by
  apply hp.exec
  · rintro l (h | ⟨now, lockUntil, h⟩)
    · exact absurd h (hlock l)
    · exact absurd h (hover _ _ _ _ _)
  · intro runnerId a _ now
    exact hstart _ _ _ _

theorem knownLock_claim (hmove : ClaimMove s.store s.clock runnerId fault c r)
    (hopen : ∀ a, c.open = some a → Open s.store runnerId a) : KnownLock s.store r.statement := by
  intro l hl
  cases hmove with
  | insert a lock htype hnames haff =>
    rcases hl with h | ⟨_, _, h⟩
    · cases h
      obtain ⟨t, ht, -, htask, hty, -⟩ := hopen a rfl
      exact ⟨t, ht, htask.trans hnames.symm, hty.trans htype.symm⟩
    · cases h
  | takeOver a expiredTaskId hfault =>
    rcases hl with h | ⟨_, _, h⟩
    · cases h
    · obtain ⟨t, ht, -, htask, hty, -⟩ := hopen a rfl
      injection h with h1 h2 h3 h4 h5
      exact ⟨t, ht, htask.trans h3, hty.trans h1⟩
  | _ => rcases hl with h | ⟨_, _, h⟩ <;> cases h

/-- The statement of a claim starts no task for another runner. -/
theorem claim_starts (hmove : ClaimMove st clock runnerId fault c r) {id : ℕ} {type runnerId' : String} {now : ℤ}
    (h : r.statement = .startTask id type runnerId' now) :
    runnerId' = runnerId ∧ ∃ a, c = .ready a ∧ r.next = .started a ∧ id = a.id ∧ type = a.type := by
  cases hmove with
  | start a hfault haff => cases h; exact ⟨rfl, a, rfl, rfl, rfl, rfl⟩
  | _ => cases h

/-- An open claim was open with the same arguments before, or has just found its task pending. -/
theorem claim_open (hmove : ClaimMove st clock runnerId fault c r) (h : r.next.open = some a) :
    c.open = some a ∨ ∃ t ∈ st.tasks, t.id = a.id ∧ t.taskId = a.taskId ∧ t.type = a.type ∧ t.status = .pending := by
  cases hmove with
  | find a' task hfind =>
    right
    cases h
    have hmem := List.mem_of_find?_eq_some hfind
    have hprop := List.find?_some hfind
    simp only [Bool.and_eq_true, decide_eq_true_eq] at hprop
    exact ⟨task, hmem, hprop.1.1, rfl, hprop.1.2, hprop.2⟩
  | quit => cases h
  | time a' => cases h
  | start a' hfault haff => cases h
  | dispatch a' => cases h
  | release a' => cases h
  | _ => exact .inl h

theorem claim_started (hmove : ClaimMove st clock runnerId fault c r) (h : r.next = .started a) :
    c = .ready a ∧ r.statement = .startTask a.id a.type runnerId a.now := by
  cases hmove with
  | start a' hfault haff => cases h; exact ⟨rfl, rfl⟩
  | _ => cases h

theorem claim_dispatched (hmove : ClaimMove st clock runnerId fault c r) {taskId : String}
    (h : r.dispatched = some taskId) : ∃ a, c = .started a ∧ taskId = a.taskId ∧ r.statement = .nothing := by
  cases hmove with
  | dispatch a => cases h; exact ⟨a, rfl, rfl, rfl⟩
  | _ => cases h

/-- After the status update of its claim the task is past pending. -/
theorem begun_of_start (hv : st.Valid) (h : Open st runnerId a) (now : ℤ) :
    Begun (st.exec (.startTask a.id a.type runnerId now)) a.taskId := by
  obtain ⟨t, ht, hid, htask, htype, -⟩ := h
  obtain ⟨t', ht', hsame, -⟩ := task_after hv (.startTask a.id a.type runnerId now) ht
  refine ⟨t', ht', hsame.taskId.trans htask, ?_⟩
  rcases Table.mem_updateWhere.mp ht' with ⟨t₀, -, -, rfl⟩ | ⟨-, hp⟩
  · simp
  · intro hpend
    simp [hsame.id.trans hid, hsame.type.trans htype, hpend] at hp

theorem closed_of_finish {now : ℤ} {status : FinalStatus} {resultText errorMessage : String}
    (h : st.affects (.finishTask taskId lockedBy now status resultText errorMessage) = true) :
    Closed (st.exec (.finishTask taskId lockedBy now status resultText errorMessage)) taskId := by
  obtain ⟨t, ht, hrun⟩ := List.any_eq_true.mp h
  refine ⟨_, Table.mem_updateWhere.mpr (.inl ⟨t, ht, hrun, rfl⟩), ?_, status.2⟩
  simp only [SystemTaskStore.runsFor, Bool.and_eq_true, decide_eq_true_eq] at hrun
  exact hrun.1.1.1

theorem stepClaim (hp : Placed s) (runnerId : String) (fault : Bool) : Placed (s.step (.stepClaim runnerId fault)) := by
  have hmove := claimStep_move s.store s.clock runnerId fault (s.claims runnerId)
  have hopen := hp.opened runnerId
  have hstarted := hp.started runnerId
  unfold RunnerState.step RunnerState.statement RunnerState.nextClock RunnerState.nextClaims RunnerState.nextHandlers
    RunnerState.nextWrites RunnerState.nextSweeps
  dsimp only
  generalize claimStep s.store s.clock runnerId fault (s.claims runnerId) = r at hmove
  -- the claim is taken out, the statement runs, and the claim is put back where it stands now
  have h0 : Placed { s with claims := Function.update s.claims runnerId .idle } :=
    hp.setClaim _ (fun a ha => by cases ha) (fun a ha => by cases ha)
  have h1 := h0.exec r.statement (knownLock_claim hmove hopen) (by
    intro runnerId' a ha now hstmt
    obtain ⟨rfl, -⟩ := claim_starts hmove hstmt
    dsimp only at ha
    rw [Function.update_self] at ha
    cases ha)
  have h2 := h1.setClaim runnerId (c := r.next)
    (by
      intro a ha
      have hnot : ∀ now, r.statement ≠ .startTask a.id a.type runnerId now := by
        intro now hstmt
        obtain ⟨-, a', -, hnext, -⟩ := claim_starts hmove hstmt
        rw [hnext] at ha; cases ha
      rcases claim_open hmove ha with hc | ⟨t, ht, hid, htask, htype, hpend⟩
      · exact (hopen a hc).exec hp.valid _ hnot
      · refine Open.exec hp.valid ⟨t, ht, hid, htask, htype, ?_⟩ _ hnot
        rintro ⟨h, -⟩; rw [hpend] at h; cases h)
    (by
      intro a ha
      obtain ⟨hc, hstmt⟩ := claim_started hmove ha
      dsimp only
      rw [hstmt]
      exact begun_of_start hp.valid (hopen a (by rw [hc]; rfl)) a.now)
  dsimp only at h2 ⊢
  rw [Function.update_idem] at h2
  cases hd : r.dispatched with
  | none => exact h2
  | some taskId =>
    apply h2.addHandler
    obtain ⟨a, hc, rfl, hstmt⟩ := claim_dispatched hmove hd
    dsimp only
    rw [hstmt]
    exact hstarted a hc

theorem stepWrite (hp : Placed s) (call : ℕ) (fault : Bool) : Placed (s.step (.stepWrite call fault)) := by
  have htask := hp.writes call
  show Placed { s with
    store := s.store.exec (handlerStep s.store s.clock fault (s.writes call)).2
    writes := Function.update s.writes call (handlerStep s.store s.clock fault (s.writes call)).1 }
  have hidle : ∀ {s : RunnerState}, Placed s →
      Placed { s with writes := Function.update s.writes call .idle } := fun hp =>
    hp.setWrite (fun _ h => by cases h) (fun _ _ h => by cases h)
  cases hw : s.writes call with
  | idle => exact hidle hp
  | called taskId lockedBy op =>
    refine hp.setWrite (fun taskId' h => ?_) fun _ _ h => by cases h
    cases h
    exact htask taskId (by rw [hw]; rfl)
  | finished taskId lockedBy =>
    dsimp only [handlerStep]
    split_ifs
    · exact hidle hp
    · have hplain : Placed { s with store := s.store.exec (.releaseLock taskId lockedBy) } := by
        apply hp.exec_plain <;> (intros; simp)
      exact hidle hplain
  | timed taskId lockedBy op now =>
    dsimp only [handlerStep]
    have hplain : Placed { s with store := s.store.exec (op.statement taskId lockedBy now) } := by
      apply hp.exec_plain <;> (intros; cases op <;> simp [HandlerOp.statement])
    by_cases hf : fault = true
    · rw [if_pos hf]; exact hidle hp
    rw [if_neg hf]
    split_ifs with hfin
    · refine hplain.setWrite (fun _ h => by cases h) fun taskId' lockedBy' h => ?_
      cases h
      cases op with
      | finish status resultText errorMessage => exact closed_of_finish hfin.2
      | update stateText => cases hfin.1
      | renew lockUntil => cases hfin.1
    · exact hidle hplain

theorem stepSweep (hp : Placed s) (call : ℕ) (fault : Bool) : Placed (s.step (.stepSweep call fault)) := by
  have hnow := hp.sweeps call
  show Placed { s with
    store := s.store.exec (sweepStep s.store s.clock fault (s.sweeps call)).2
    sweeps := Function.update s.sweeps call (sweepStep s.store s.clock fault (s.sweeps call)).1 }
  have hidle : Placed { s with sweeps := Function.update s.sweeps call .idle } :=
    hp.setSweep fun _ h => by cases h
  cases hc : s.sweeps call with
  | idle => exact hidle
  | called now =>
    dsimp only [sweepStep]
    split_ifs
    · exact hidle
    · exact hp.setSweep fun now' h => hnow now' (by rw [hc]; exact h)
  | marking now locks =>
    cases locks with
    | nil => exact hidle
    | cons lock rest =>
      dsimp only [sweepStep]
      split_ifs
      · exact hidle
      · have hplain : Placed { s with store := s.store.exec (.markLeaseExpired lock.taskId s.clock) } := by
          apply hp.exec_plain <;> (intros; simp)
        exact hplain.setSweep fun now' h => hnow now' (by rw [hc]; exact h)
  | deleting now lock rest =>
    dsimp only [sweepStep]
    split_ifs
    · exact hidle
    · have hplain : Placed { s with store := s.store.exec (.deleteStaleLock lock now) } := by
        apply hp.exec_plain <;> (intros; simp)
      exact hplain.setSweep fun now' h => hnow now' (by rw [hc]; exact h)

theorem step (hp : Placed s) (action : RunnerAction) : Placed (s.step action) := by
  cases action with
  | tick seconds =>
    have hnow : ∀ call now, (s.sweeps call).now = some now → now ≤ s.clock + seconds := by
      intro call now h
      have := hp.sweeps call now h
      omega
    exact { hp with sweeps := hnow }
  | create taskId type payload state => apply hp.exec_plain <;> (intros; simp [RunnerState.statement])
  | beginClaim runnerId id type =>
    show Placed { s with claims := s.nextClaims (.beginClaim runnerId id type) }
    dsimp only [RunnerState.nextClaims]
    split_ifs
    · exact hp.setClaim _ (fun a ha => by cases ha) (fun a ha => by cases ha)
    · exact hp
  | stepClaim runnerId fault => exact hp.stepClaim runnerId fault
  | beginWrite call taskId lockedBy request =>
    show Placed { s with writes := s.nextWrites (.beginWrite call taskId lockedBy request) }
    dsimp only [RunnerState.nextWrites]
    split_ifs with h
    · refine hp.setWrite (fun taskId' ht => ?_) fun _ _ ht => by cases ht
      cases ht
      exact hp.handlers _ h.2
    · exact hp
  | stepWrite call fault => exact hp.stepWrite call fault
  | beginSweep call =>
    show Placed { s with sweeps := s.nextSweeps (.beginSweep call) }
    dsimp only [RunnerState.nextSweeps]
    split_ifs
    · refine hp.setSweep fun now h => ?_
      cases h
      exact Int.le_refl _
    · exact hp
  | stepSweep call fault => exact hp.stepSweep call fault

end Placed

/-! ## Running tasks keep their lock rows -/

/-- The renewal a write call under way will make: task, runner and new end of the lease. -/
def HandlerCall.renewal : HandlerCall → Option (String × String × ℤ)
  | .called taskId lockedBy (.renew lockUntil) | .timed taskId lockedBy (.renew lockUntil) _ =>
    some (taskId, lockedBy, lockUntil)
  | _ => none

/-- The lock rows of the runner on the task, and the renewals to come, last to `now`. -/
def LastsTo (s : RunnerState) (taskId lockedBy : String) (now : ℤ) : Prop :=
  (∀ l ∈ s.store.locks, l.names taskId lockedBy = true → now ≤ l.lockedUntil) ∧
    ∀ call lockUntil, (s.writes call).renewal = some (taskId, lockedBy, lockUntil) → now ≤ lockUntil

/-- Every running task has its runner's lock row, and no sweep that has passed the task will delete
that row. -/
structure Held (s : RunnerState) : Prop where
  lock : ∀ t ∈ s.store.tasks, t.status = .running →
    ∃ l ∈ s.store.locks, l.names t.taskId t.lockedBy = true
  safe : ∀ call now lock rest, s.sweeps call = .deleting now lock rest →
    ∀ t ∈ s.store.tasks, t.status = .running → lock.names t.taskId t.lockedBy = true →
      LastsTo s t.taskId t.lockedBy now

/-- What the claims do not check. The status update that makes a task running finds the lock row
still with the claim, and no sweep about to delete it; a lock is taken over for a task that is still
pending. -/
def ClaimsInTime (s : RunnerState) : RunnerAction → Prop
  | .stepClaim runnerId false =>
    match s.claims runnerId with
    | .ready a =>
      s.store.affects (.startTask a.id a.type runnerId a.now) = true →
        (∃ l ∈ s.store.locks, l.names a.taskId runnerId = true) ∧
          ∀ call now lock rest, s.sweeps call = .deleting now lock rest →
            lock.names a.taskId runnerId = true →
            ∀ l ∈ s.store.locks, l.names a.taskId runnerId = true → now ≤ l.lockedUntil
    | .stale a _ =>
      s.store.affects (.takeOverLock a.type a.now a.taskId runnerId a.lockUntil) = true →
        ∃ t ∈ s.store.tasks, t.taskId = a.taskId ∧ t.status = .pending
    | _ => True
  | _ => True

variable {l : SystemTaskLock} {taskId : String} {call : ℕ}

theorem names_iff {taskId lockedBy : String} :
    l.names taskId lockedBy = true ↔ l.taskId = taskId ∧ l.lockedBy = lockedBy := by
  simp [SystemTaskLock.names]

variable {s : RunnerState}

/-- A running task with its lock row keeps the type's lock from being taken over for a pending task. -/
theorem running_blocks (hp : Placed s) {t u : SystemTask} (ht : t ∈ s.store.tasks) (hrun : t.status = .running)
    (hl : l ∈ s.store.locks) (hnames : l.names t.taskId t.lockedBy = true) (hu : u ∈ s.store.tasks)
    (hpend : u.status = .pending) : l.type ≠ u.type := by
  intro htype
  obtain ⟨t₀, ht₀, hid, hty⟩ := hp.locks l hl
  obtain rfl : t₀ = t := hp.valid.task_unique ht₀ ht (hid.trans (names_iff.mp hnames).1)
  have h := hp.valid.active_unique ht₀ hu (by rw [hrun]; rfl) (by rw [hpend]; rfl)
    (hty.trans htype)
  rw [h, hpend] at hrun
  cases hrun

section Step

variable {s : RunnerState} {action : RunnerAction}

variable {t : SystemTask}

variable {runnerId : String}

theorem Placed.open_task (hp : Placed s) {a : ClaimArgs} (hopen : (s.claims runnerId).open = some a)
    (ht : t ∈ s.store.tasks) (hid : t.taskId = a.taskId) :
    t.type = a.type ∧ ¬(t.status = .running ∧ t.lockedBy = runnerId) := by
  obtain ⟨t₀, ht₀, -, htask, htype, hnot⟩ := hp.opened runnerId a hopen
  obtain rfl : t₀ = t := hp.valid.task_unique ht₀ ht (htask.trans hid.symm)
  exact ⟨htype, hnot⟩

theorem takeOver_pending (hp : Placed s) {a : ClaimArgs} {expiredTaskId : String}
    (hclaim : s.claims runnerId = .stale a expiredTaskId) (htime : ClaimsInTime s (.stepClaim runnerId false))
    (haff : s.store.affects (.takeOverLock a.type a.now a.taskId runnerId a.lockUntil) = true) :
    ∃ u ∈ s.store.tasks, u.taskId = a.taskId ∧ u.type = a.type ∧ u.status = .pending := by
  simp only [ClaimsInTime, hclaim] at htime
  obtain ⟨u, hu, hid, hpend⟩ := htime haff
  exact ⟨u, hu, hid, (hp.open_task (by rw [hclaim]; rfl) hu hid).1, hpend⟩

/-- **No step in time takes the lock row of a running task away.** -/
theorem Held.not_drops (hp : Placed s) (hh : Held s) (htime : ClaimsInTime s action) {stmt : Statement}
    (horigin : Origin s action stmt) (ht : t ∈ s.store.tasks) (hrun : t.status = .running) {l : SystemTaskLock}
    (hl : l ∈ s.store.locks) (hnames : l.names t.taskId t.lockedBy = true) : ¬stmt.Drops l := by
  obtain ⟨htask, hby⟩ := names_iff.mp hnames
  intro hdrop
  cases horigin with
  | @takeOver runnerId a expiredTaskId hclaim =>
    obtain ⟨htype, hlt⟩ := hdrop
    have haff : s.store.affects
        (.takeOverLock a.type a.now a.taskId runnerId a.lockUntil) = true := by
      refine List.any_eq_true.mpr ⟨l, hl, ?_⟩
      simp [htype, hlt]
    obtain ⟨u, hu, -, hutype, hpend⟩ := takeOver_pending hp hclaim htime haff
    exact running_blocks hp ht hrun hl hnames hu hpend (htype.trans hutype.symm)
  | @releaseClaim runnerId fault a hclaim =>
    obtain ⟨h1, h2⟩ := names_iff.mp hdrop
    have hopen : (s.claims runnerId).open = some a := by rw [hclaim]; rfl
    exact (hp.open_task hopen ht (htask.symm.trans h1)).2 ⟨hrun, hby.symm.trans h2⟩
  | @releaseWrite call taskId lockedBy hwrite =>
    obtain ⟨h1, -⟩ := names_iff.mp hdrop
    obtain ⟨t₀, ht₀, hid, hdone⟩ := hp.finished call taskId lockedBy hwrite
    obtain rfl : t₀ = t := hp.valid.task_unique ht₀ ht (hid.trans (h1.symm.trans htask))
    rw [hrun] at hdone
    cases hdone
  | @delete call now lock rest hsweep =>
    obtain ⟨-, hl', hlt⟩ := hdrop
    obtain ⟨h1, h2⟩ := names_iff.mp hl'
    have hlock : lock.names t.taskId t.lockedBy = true :=
      names_iff.mpr ⟨h1.symm.trans htask, h2.symm.trans hby⟩
    have := (hh.safe call now lock rest hsweep t ht hrun hlock).1 l hl hnames
    omega
  | @write call taskId lockedBy op now hwrite => cases op <;> exact hdrop
  | _ => exact hdrop

/-- The status update of a claim in time: the task it starts, and the lock row it finds. -/
theorem start_claimed (hp : Placed s) (htime : ClaimsInTime s action) (ht : t ∈ s.store.tasks) {now : ℤ}
    (hstmt : s.statement action = .startTask t.id t.type runnerId now) :
    (∃ l ∈ s.store.locks, l.names t.taskId runnerId = true) ∧
      ∀ call now lock rest, s.sweeps call = .deleting now lock rest → lock.names t.taskId runnerId = true →
        ∀ l ∈ s.store.locks, l.names t.taskId runnerId = true → now ≤ l.lockedUntil := by
  have horigin := statement_origin s action
  rw [hstmt] at horigin
  generalize hgen : Statement.startTask t.id t.type runnerId now = stmt at horigin
  cases horigin with
  | @start runnerId' a hclaim haff =>
    injection hgen with hid htype hrunner _
    subst hrunner
    simp only [ClaimsInTime, hclaim] at htime
    obtain ⟨t₀, ht₀, hid₀, htask, -⟩ := hp.opened runnerId a (by rw [hclaim]; rfl)
    obtain rfl : t₀ = t := List.inj_on_of_nodup_map hp.valid.ids ht₀ ht (hid₀.trans hid.symm)
    rw [htask]
    exact htime haff
  | @write call taskId lockedBy op now hwrite => cases op <;> cases hgen
  | _ => cases hgen

theorem Held.step_lock (hp : Placed s) (hh : Held s) (htime : ClaimsInTime s action) :
    ∀ t ∈ (s.step action).store.tasks, t.status = .running →
      ∃ l ∈ (s.step action).store.locks, l.names t.taskId t.lockedBy = true := by
  intro t' ht' hrun'
  change t' ∈ (s.store.exec (s.statement action)).tasks at ht'
  rcases exec_task ht' with ⟨t, ht, hsame, hmove⟩ | ⟨hpend, -⟩
  · have hfound : ∃ l ∈ s.store.locks, l.names t'.taskId t'.lockedBy = true ∧
        ¬(s.statement action).Drops l := by
      rw [hsame.taskId]
      cases hmove with
      | keep hstatus hby =>
        have hrun : t.status = .running := hstatus.symm.trans hrun'
        obtain ⟨l, hl, hnames⟩ := hh.lock t ht hrun
        rw [hby]
        exact ⟨l, hl, hnames, hh.not_drops hp htime (statement_origin s action) ht hrun hl hnames⟩
      | close hrun hdone => rw [hrun'] at hdone; cases hdone
      | start runnerId now hstmt hpend hrun hby =>
        obtain ⟨l, hl, hnames⟩ := (start_claimed hp htime ht hstmt).1
        rw [hby, hstmt]
        exact ⟨l, hl, hnames, fun h => h⟩
    obtain ⟨l, hl, hnames, hkeep⟩ := hfound
    obtain ⟨l', hl', htask, hby⟩ := lock_stays hl hkeep
    obtain ⟨h1, h2⟩ := names_iff.mp hnames
    exact ⟨l', hl', names_iff.mpr ⟨htask.trans h1, hby.trans h2⟩⟩
  · rw [hpend] at hrun'; cases hrun'

/-- Where a lock row of a running task comes from, in a step in time: it was there, or a call of its
runner renewed it. -/
theorem Held.lock_from (hp : Placed s) (hh : Held s) (htime : ClaimsInTime s action) {stmt : Statement}
    (horigin : Origin s action stmt) (ht : t ∈ s.store.tasks) (hrun : t.status = .running) {l' : SystemTaskLock}
    (hmove : LockMove s.store stmt l') (hid : l'.taskId = t.taskId) : l' ∈ s.store.locks ∨
      ∃ call, (s.writes call).renewal = some (l'.taskId, l'.lockedBy, l'.lockedUntil) := by
  cases hmove with
  | keep hl => exact .inl hl
  | create hstmt haff =>
    exfalso
    cases horigin with
    | @insert runnerId fault a lock hclaim htype htask =>
      cases hstmt
      -- the row of the running task already has the type
      obtain ⟨l, hl, hnames⟩ := hh.lock t ht hrun
      obtain ⟨t₀, ht₀, hid₀, htype₀⟩ := hp.locks l hl
      obtain rfl : t₀ = t := hp.valid.task_unique ht₀ ht (hid₀.trans (names_iff.mp hnames).1)
      have hopen : (s.claims runnerId).open = some a := by rw [hclaim]; rfl
      have hty := (hp.open_task hopen ht (hid.symm.trans htask)).1
      simp only [SystemTaskStore.affects, List.all_eq_true, decide_eq_true_eq] at haff
      exact haff l hl (htype₀.symm.trans (hty.trans htype.symm))
    | @write call taskId lockedBy op now hwrite => cases op <;> cases hstmt
    | _ => cases hstmt
  | @takeOver l hl now lockUntil hstmt htype hlt =>
    exfalso
    cases horigin with
    | @takeOver runnerId a expiredTaskId hclaim =>
      injection hstmt with h1 h2 h3 h4 h5
      have haff : s.store.affects
          (.takeOverLock a.type a.now a.taskId runnerId a.lockUntil) = true := by
        refine List.any_eq_true.mpr ⟨l, hl, ?_⟩
        simp [htype, h1, h2, hlt]
      obtain ⟨u, hu, huid, -, hpend⟩ := takeOver_pending hp hclaim htime haff
      obtain rfl : u = t := hp.valid.task_unique hu ht (huid.trans (h3.trans hid))
      rw [hrun] at hpend
      cases hpend
    | @write call taskId lockedBy op now hwrite => cases op <;> cases hstmt
    | _ => cases hstmt
  | @renew l hl now hstmt htype htask hby =>
    right
    cases horigin with
    | @write call taskId lockedBy op now' hwrite =>
      cases op with
      | renew lockUntil =>
        injection hstmt with h1 h2 h3 h4
        exact ⟨call, by rw [hwrite, ← h1, ← h2, ← h4]; rfl⟩
      | update stateText => cases hstmt
      | finish status resultText errorMessage => cases hstmt
    | _ => cases hstmt

/-- A renewal under way was under way before, or its call has just begun. -/
theorem renewal_step {call : ℕ} {taskId lockedBy : String} {lockUntil : ℤ}
    (h : ((s.step action).writes call).renewal = some (taskId, lockedBy, lockUntil)) :
    (s.writes call).renewal = some (taskId, lockedBy, lockUntil) ∨ lockUntil = s.clock + systemTaskLockTTL := by
  cases action with
  | beginWrite call' taskId' lockedBy' request =>
    change (s.nextWrites (.beginWrite call' taskId' lockedBy' request) call).renewal = _ at h
    dsimp only [RunnerState.nextWrites] at h
    split_ifs at h
    · by_cases e : call = call'
      · subst e
        rw [Function.update_self] at h
        cases request with
        | renew => cases h; exact .inr rfl
        | update stateText => cases h
        | finish status resultText errorMessage => cases h
      · rw [Function.update_of_ne e] at h; exact .inl h
    · exact .inl h
  | stepWrite call' fault =>
    change (Function.update s.writes call' _ call).renewal = _ at h
    by_cases e : call = call'
    · subst e
      rw [Function.update_self] at h
      left
      cases hw : s.writes call with
      | idle => rw [hw] at h; cases h
      | called taskId' lockedBy' op =>
        rw [hw] at h
        cases op with
        | renew lockUntil' => exact h
        | update stateText => cases h
        | finish status resultText errorMessage => cases h
      | timed taskId' lockedBy' op now =>
        rw [hw] at h
        dsimp only [handlerStep] at h
        split_ifs at h <;> cases h
      | finished taskId' lockedBy' =>
        rw [hw] at h
        dsimp only [handlerStep] at h
        split_ifs at h <;> cases h
    · rw [Function.update_of_ne e] at h; exact .inl h
  | _ => exact .inl h

/-- A sweep at its delete was there before, or has just marked the task. -/
theorem deleting_step {call : ℕ} {now : ℤ} {lock : SystemTaskLock} {rest : List SystemTaskLock}
    (h : (s.step action).sweeps call = .deleting now lock rest) : s.sweeps call = .deleting now lock rest ∨
      s.statement action = .markLeaseExpired lock.taskId s.clock := by
  cases action with
  | beginSweep call' =>
    change s.nextSweeps (.beginSweep call') call = _ at h
    dsimp only [RunnerState.nextSweeps] at h
    split_ifs at h
    · by_cases e : call = call'
      · subst e; rw [Function.update_self] at h; cases h
      · rw [Function.update_of_ne e] at h; exact .inl h
    · exact .inl h
  | stepSweep call' fault =>
    change Function.update s.sweeps call' _ call = _ at h
    by_cases e : call = call'
    · subst e
      rw [Function.update_self] at h
      right
      show (sweepStep s.store s.clock fault (s.sweeps call)).2 = _
      cases hc : s.sweeps call with
      | idle => rw [hc] at h; cases h
      | called now' => rw [hc] at h; dsimp only [sweepStep] at h; split_ifs at h
      | marking now' locks =>
        rw [hc] at h
        cases locks with
        | nil => cases h
        | cons lock' rest' =>
          cases fault with
          | true => cases h
          | false => cases h; rfl
      | deleting now' lock' rest' => rw [hc] at h; dsimp only [sweepStep] at h; split_ifs at h
    · rw [Function.update_of_ne e] at h; exact .inl h
  | _ => exact .inl h

/-- A sweep that has passed a running task stays unable to delete its lock row. -/
theorem Held.step_safe (hp : Placed s) (hh : Held s) (htime : ClaimsInTime s action) :
    ∀ call now lock rest, (s.step action).sweeps call = .deleting now lock rest →
      ∀ t ∈ (s.step action).store.tasks, t.status = .running →
        lock.names t.taskId t.lockedBy = true → LastsTo (s.step action) t.taskId t.lockedBy now := by
  intro call now lock rest hsweep t' ht' hrun' hnames
  change t' ∈ (s.store.exec (s.statement action)).tasks at ht'
  rcases deleting_step hsweep with hbefore | hmark
  swap
  · rw [hmark] at ht'
    exact absurd hrun' (not_running_of_mark ht' (names_iff.mp hnames).1.symm)
  have hnow : now ≤ s.clock := hp.sweeps call now (by rw [hbefore]; rfl)
  rcases exec_task ht' with ⟨t, ht, hsame, hmove⟩ | ⟨hpend, -⟩
  swap
  · rw [hpend] at hrun'; cases hrun'
  rw [hsame.taskId] at hnames ⊢
  cases hmove with
  | close hrun hdone => rw [hrun'] at hdone; cases hdone
  | keep hstatus hby =>
    have hrun : t.status = .running := hstatus.symm.trans hrun'
    rw [hby] at hnames ⊢
    obtain ⟨hlocks, hrenew⟩ := hh.safe call now lock rest hbefore t ht hrun hnames
    refine ⟨fun l' hl' hn => ?_, fun call' lockUntil h => ?_⟩
    · obtain ⟨htask, hlby⟩ := names_iff.mp hn
      rcases hh.lock_from hp htime (statement_origin s action) ht hrun (exec_lock hl') htask with
        hl | ⟨call', hr⟩
      · exact hlocks l' hl hn
      · rw [htask, hlby] at hr
        exact hrenew call' _ hr
    · rcases renewal_step h with hr | hr
      · exact hrenew call' lockUntil hr
      · rw [hr, systemTaskLockTTL]; omega
  | start runnerId now' hstmt hpend hrun hby =>
    rw [hby] at hnames ⊢
    have hclaimed := (start_claimed hp htime ht hstmt).2 call now lock rest hbefore hnames
    refine ⟨fun l' hl' hn => ?_, fun call' lockUntil h => ?_⟩
    · change l' ∈ (s.store.exec (s.statement action)).locks at hl'
      rw [hstmt] at hl'
      exact hclaimed l' hl' hn
    · rcases renewal_step h with hr | hr
      · -- a renewal is for a task that was dispatched, not for a pending one
        exfalso
        have htask : (s.writes call').task = some t.taskId := by
          revert hr
          cases s.writes call' with
          | idle => intro hr; cases hr
          | finished taskId' lockedBy' => intro hr; cases hr
          | called taskId' lockedBy' op => intro hr; cases op <;> cases hr; rfl
          | timed taskId' lockedBy' op now'' => intro hr; cases op <;> cases hr; rfl
        obtain ⟨t₀, ht₀, hid, hne⟩ := hp.writes call' t.taskId htask
        obtain rfl : t₀ = t := hp.valid.task_unique ht₀ ht hid
        exact hne hpend
      · rw [hr, systemTaskLockTTL]; omega

theorem Held.step (hp : Placed s) (hh : Held s) (htime : ClaimsInTime s action) : Held (s.step action) :=
  ⟨hh.step_lock hp htime, hh.step_safe hp htime⟩

end Step

theorem Held.start (clock : ℤ) : Held (RunnerState.start clock) where
  lock t ht := by cases ht
  safe call now lock rest h := by cases h

/-! ## Sweeping a task away -/

/-- The sweep still has to mark the task. -/
def SweepCall.awaits (taskId : String) : SweepCall → Prop
  | .marking _ locks => taskId ∈ locks.map SystemTaskLock.taskId
  | .deleting _ _ rest => taskId ∈ rest.map SystemTaskLock.taskId
  | .idle | .called _ => False

/-- The task is closed, or the sweep will come to it. -/
def Sweeping (call : ℕ) (taskId : String) (s : RunnerState) : Prop :=
  Closed s.store taskId ∨ (Begun s.store taskId ∧ (s.sweeps call).awaits taskId)

theorem closed_of_mark {st : SystemTaskStore} (hv : st.Valid) (h : Begun st taskId) (now : ℤ) :
    Closed (st.exec (.markLeaseExpired taskId now)) taskId := by
  obtain ⟨t', ht', hid, hne⟩ := h.exec hv (.markLeaseExpired taskId now)
  have hrun := not_running_of_mark ht' hid
  refine ⟨t', ht', hid, ?_⟩
  cases hs : t'.status with
  | pending => exact absurd hs hne
  | running => exact absurd hs hrun
  | succeeded => rfl
  | failed => rfl

theorem Sweeping.step (hp : Placed s) (h : Sweeping call taskId s) {action : RunnerAction}
    (hfault : action ≠ .stepSweep call true) : Sweeping call taskId (s.step action) := by
  rcases h with h | ⟨hbegun, hawait⟩
  · exact .inl (h.exec hp.valid _)
  have hbegun' : Begun (s.step action).store taskId := hbegun.exec hp.valid _
  have hother : (s.step action).sweeps call = s.sweeps call → Sweeping call taskId (s.step action) :=
    fun h => .inr ⟨hbegun', by rw [h]; exact hawait⟩
  cases action with
  | stepSweep call' fault =>
    by_cases e : call = call'
    swap
    · exact hother (Function.update_of_ne e ..)
    subst e
    cases fault with
    | true => exact absurd rfl hfault
    | false =>
      have hnext : (s.step (.stepSweep call false)).sweeps call =
          (sweepStep s.store s.clock false (s.sweeps call)).1 := Function.update_self ..
      have hstore : (s.step (.stepSweep call false)).store =
          s.store.exec (sweepStep s.store s.clock false (s.sweeps call)).2 := rfl
      unfold Sweeping
      rw [hstore] at hbegun'
      rw [hnext, hstore]
      cases hc : s.sweeps call with
      | idle => rw [hc] at hawait; exact hawait.elim
      | called now => rw [hc] at hawait; exact hawait.elim
      | marking now locks =>
        rw [hc] at hawait hbegun'
        cases locks with
        | nil => cases hawait
        | cons lock rest =>
          rcases List.mem_cons.mp hawait with rfl | hrest
          · exact .inl (closed_of_mark hp.valid hbegun s.clock)
          · exact .inr ⟨hbegun', hrest⟩
      | deleting now lock rest =>
        rw [hc] at hawait hbegun'
        exact .inr ⟨hbegun', hawait⟩
  | beginSweep call' =>
    apply hother
    show s.nextSweeps (.beginSweep call') call = s.sweeps call
    dsimp only [RunnerState.nextSweeps]
    split_ifs with hidle
    · by_cases e : call = call'
      · subst e; rw [hidle] at hawait; exact hawait.elim
      · exact Function.update_of_ne e ..
    · rfl
  | tick seconds | create taskId' type payload state | beginClaim runnerId id type | stepClaim runnerId fault
  | beginWrite call' taskId' lockedBy request | stepWrite call' fault => exact hother rfl

/-- The first step of a sweep that starts after the lease ended takes the task in. -/
theorem sweeping_of_read (hp : Placed s) {t : SystemTask} (ht : t ∈ s.store.tasks) (hrun : t.status = .running)
    (hl : l ∈ s.store.locks) (hid : l.taskId = t.taskId) {now : ℤ} (hcall : s.sweeps call = .called now)
    (hlt : l.lockedUntil < now) : Sweeping call t.taskId (s.step (.stepSweep call false)) := by
  have hbegun : Begun s.store t.taskId := ⟨t, ht, rfl, by rw [hrun]; decide⟩
  refine .inr ⟨hbegun.exec hp.valid _, ?_⟩
  have hnext : (s.step (.stepSweep call false)).sweeps call =
      (sweepStep s.store s.clock false (s.sweeps call)).1 := Function.update_self ..
  rw [hnext, hcall, ← hid]
  exact List.mem_map_of_mem (List.mem_filter.mpr ⟨hl, by simpa using hlt⟩)

theorem Sweeping.run (hp : Placed s) (h : Sweeping call taskId s) {as : List RunnerAction}
    (hfault : .stepSweep call true ∉ as) :
    Placed (run RunnerState.step s as) ∧ Sweeping call taskId (run RunnerState.step s as) := by
  induction as generalizing s with
  | nil => exact ⟨hp, h⟩
  | cons a as ih =>
    rw [List.mem_cons, not_or] at hfault
    exact ih (hp.step a) (h.step hp (Ne.symm hfault.1)) hfault.2

theorem sweep_ends (locks : List SystemTaskLock) (now : ℤ) : ∀ s : RunnerState, s.sweeps call = .marking now locks →
      (run RunnerState.step s (List.replicate (2 * locks.length + 1) (.stepSweep call false))).sweeps call = .idle := by
  have hnext : ∀ s : RunnerState, (s.step (.stepSweep call false)).sweeps call =
      (sweepStep s.store s.clock false (s.sweeps call)).1 := fun s => Function.update_self ..
  induction locks with
  | nil => intro s hs; rw [List.length_nil]; exact (hnext s).trans (by rw [hs]; rfl)
  | cons lock rest ih =>
    intro s hs
    have hlen : 2 * (lock :: rest).length + 1 = 2 * rest.length + 1 + 1 + 1 := by
      rw [List.length_cons]; omega
    rw [hlen, List.replicate_succ, run_cons, List.replicate_succ, run_cons]
    apply ih
    rw [hnext, hnext, hs]
    rfl

/-- **No stuck task.** In every run whose claims are in time, every running task has its runner's
lock row; and a sweep that starts after that lease ended, whatever runs beside it, leaves the task
closed and its `ActiveKey` free. -/
theorem running_tasks_swept (clock : ℤ) (as : List RunnerAction)
    (htime : Along RunnerState.step ClaimsInTime (RunnerState.start clock) as) :
    let s := run RunnerState.step (RunnerState.start clock) as
    ∀ t ∈ s.store.tasks, t.status = .running →
      (∃ l ∈ s.store.locks, l.names t.taskId t.lockedBy = true) ∧
      ∀ l ∈ s.store.locks, l.taskId = t.taskId →
        ∀ call now, s.sweeps call = .called now → l.lockedUntil < now →
          (∃ n, (run RunnerState.step s (List.replicate n (.stepSweep call false))).sweeps call =
            .idle) ∧
          ∀ bs, .stepSweep call true ∉ bs →
            let s' := run RunnerState.step s (.stepSweep call false :: bs)
            s'.sweeps call = .idle →
              ∃ t' ∈ s'.store.tasks, t'.taskId = t.taskId ∧ t'.status.active = false ∧
                t'.activeKey = none := by
  intro s t ht hrun
  obtain ⟨hp, hh⟩ : Placed s ∧ Held s :=
    run_invariant_along (I := fun s => Placed s ∧ Held s)
      (fun s a h hP => ⟨h.1.step a, h.2.step h.1 hP⟩) ⟨.start clock, .start clock⟩ htime
  refine ⟨hh.lock t ht hrun, fun l hl hid call now hcall hlt => ⟨?_, fun bs hfault => ?_⟩⟩
  · refine ⟨2 * (s.store.staleLocks now).length + 1 + 1, ?_⟩
    rw [List.replicate_succ, run_cons]
    refine sweep_ends _ now _ ?_
    have hnext : (s.step (.stepSweep call false)).sweeps call =
        (sweepStep s.store s.clock false (s.sweeps call)).1 := Function.update_self ..
    rw [hnext, hcall]
    rfl
  · have hread := sweeping_of_read hp ht hrun hl hid hcall hlt
    obtain ⟨hp', hsweep⟩ := hread.run (hp.step _) hfault
    intro s' hidle
    rcases hsweep with ⟨t', ht', hid', hdone⟩ | ⟨-, hawait⟩
    · refine ⟨t', ht', hid', hdone, ?_⟩
      rw [hp'.valid.activeKey t' ht', hdone]
      rfl
    · have hs' : s'.sweeps call = .idle := hidle
      change (s'.sweeps call).awaits t.taskId at hawait
      rw [hs'] at hawait
      exact hawait.elim

/-! Runner `node-a` claims the only task. -/

/-- The claim up to the point where the lock row is written. -/
def claimLocked : List RunnerAction :=
  [.create "systask_1" "log_cleanup" "" "", .beginClaim "node-a" 1 "log_cleanup",
    .stepClaim "node-a" false, .stepClaim "node-a" false, .stepClaim "node-a" false]

/-- The claim goes on at once, its runner dies, and a sweep begins when the lease is over. -/
def claimDied : List RunnerAction :=
  claimLocked ++ [.stepClaim "node-a" false, .stepClaim "node-a" false, .tick 61, .beginSweep 0]

theorem claimDied_inTime : Along RunnerState.step ClaimsInTime (RunnerState.start 0) claimDied := by
  refine ⟨trivial, trivial, trivial, trivial, trivial, trivial, ?_, trivial, trivial, trivial⟩
  intro _
  refine ⟨⟨⟨"log_cleanup", "systask_1", "node-a", 60, 0⟩, by decide, by decide⟩, ?_⟩
  intro call now lock rest hsweep
  cases hsweep

/-- The sweep finds the lock row of the running task and closes the task. -/
theorem running_tasks_swept_died :
    Along RunnerState.step ClaimsInTime (RunnerState.start 0) claimDied ∧
      let s := run RunnerState.step (RunnerState.start 0) claimDied
      ∃ t ∈ s.store.tasks, t.status = .running ∧
        ∃ l ∈ s.store.locks, l.names t.taskId t.lockedBy = true := by
  refine ⟨claimDied_inTime, ?_⟩
  have hrun : ∃ t ∈ (run RunnerState.step (RunnerState.start 0) claimDied).store.tasks,
      t.status = .running := by decide
  obtain ⟨t, ht, hrun⟩ := hrun
  exact ⟨t, ht, hrun, (running_tasks_swept 0 claimDied claimDied_inTime t ht hrun).1⟩

/-- The claim stalls after its lock row is written, the lease ends, a sweep deletes the row, and the
claim goes on: the task runs and no lock row is left for a sweep to find it by. -/
theorem stalled_claim_loses_lock :
    let s := run RunnerState.step (RunnerState.start 0)
      (claimLocked ++ [.tick 61, .beginSweep 0, .stepSweep 0 false, .stepSweep 0 false,
        .stepSweep 0 false, .stepClaim "node-a" false, .stepClaim "node-a" false])
    ∃ t ∈ s.store.tasks, t.status = .running ∧
      ¬∃ l ∈ s.store.locks, l.taskId = t.taskId := by
  decide

end Vancine.SystemTasks
