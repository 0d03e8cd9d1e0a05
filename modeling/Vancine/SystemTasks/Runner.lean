import Vancine.Lib.Run
import Vancine.SystemTasks.Store

/-!
# Runners

The functions of `model/system_task.go` as calls that take one statement at a time. A call may stall
or die anywhere: it is simply not stepped again. A clock read is a step of its own, so the statement
that uses it may run later. Any statement may fail (`fault`), and then it has no effect.

The claim pass of a runner claims one task after the other, so a runner has one claim under way. A
claimed task is dispatched to a handler, which renews the lease, writes the state and finishes the
task, in any number of calls. Sweeps run on every node.
-/

namespace Vancine.SystemTasks

open Lib

/-! ## Claiming -/

/-- The arguments and locals of a `ClaimSystemTask` call. -/
structure ClaimArgs where
  id : ℕ
  type : String
  lockUntil : ℤ
  now : ℤ := 0
  taskId : String := ""
  deriving DecidableEq

/-- Where a claim stands, named by what it did last. -/
inductive ClaimCall
  | idle
  /-- The caller computed `lockUntil`. -/
  | called (a : ClaimArgs)
  /-- `now` is read. -/
  | began (a : ClaimArgs)
  /-- The task was found pending. -/
  | found (a : ClaimArgs)
  /-- The insert of the lock row failed. -/
  | contended (a : ClaimArgs)
  /-- The lock row of the type was seen expired, with this task. -/
  | stale (a : ClaimArgs) (expiredTaskId : String)
  /-- The lock row is written; this task had it before, or none. -/
  | acquired (a : ClaimArgs) (expiredTaskId : String)
  /-- The task that had the lock is marked. -/
  | ready (a : ClaimArgs)
  /-- The task is running. -/
  | started (a : ClaimArgs)
  /-- The claim gives up and will release the lock. -/
  | releasing (a : ClaimArgs)
  deriving DecidableEq

/-- What one step of a claim does. -/
structure ClaimStep where
  next : ClaimCall := .idle
  statement : Statement := .nothing
  dispatched : Option String := none

/-- `ClaimSystemTask` with `acquireSystemTaskLock`, one statement at a time. -/
def claimStep (st : SystemTaskStore) (clock : ℤ) (runnerId : String) (fault : Bool) :
    ClaimCall → ClaimStep
  | .idle => {}
  | .called a => { next := .began { a with now := clock } }
  | .began a =>
    if fault then {}
    else match st.findPending a.id a.type with
      | none => {}
      | some task => { next := .found { a with taskId := task.taskId } }
  | .found a =>
    let insert := Statement.createLock
      { type := a.type, taskId := a.taskId, lockedBy := runnerId, lockedUntil := a.lockUntil,
        updatedAt := a.now }
    if fault = false ∧ st.affects insert then { next := .acquired a "", statement := insert }
    else { next := .contended a }
  | .contended a =>
    if fault then {}
    else match st.findLock a.type with
      | none => {}
      | some existing =>
        if a.now ≤ existing.lockedUntil then {} else { next := .stale a existing.taskId }
  | .stale a expiredTaskId =>
    let update := Statement.takeOverLock a.type a.now a.taskId runnerId a.lockUntil
    if fault = false ∧ st.affects update then
      { next := .acquired a expiredTaskId, statement := update }
    else {}
  | .acquired a expiredTaskId =>
    if expiredTaskId ≠ "" ∧ expiredTaskId ≠ a.taskId then
      if fault then { next := .releasing a }
      else { next := .ready a, statement := .markLeaseExpired expiredTaskId clock }
    else { next := .ready a }
  | .ready a =>
    let update := Statement.startTask a.id a.type runnerId a.now
    if fault = false ∧ st.affects update then { next := .started a, statement := update }
    else { next := .releasing a }
  | .started a => if fault then {} else { dispatched := some a.taskId }
  | .releasing a => if fault then {} else { statement := .releaseLock a.taskId runnerId }

/-- What one step of a claim can be, with what it found out. -/
inductive ClaimMove (st : SystemTaskStore) (clock : ℤ) (runnerId : String) (fault : Bool) :
    ClaimCall → ClaimStep → Prop
  | quit (c : ClaimCall) : ClaimMove st clock runnerId fault c {}
  | time (a : ClaimArgs) :
      ClaimMove st clock runnerId fault (.called a) { next := .began { a with now := clock } }
  | find (a : ClaimArgs) (task : SystemTask) (hfind : st.findPending a.id a.type = some task) :
      ClaimMove st clock runnerId fault (.began a) { next := .found { a with taskId := task.taskId } }
  | insert (a : ClaimArgs) (lock : SystemTaskLock) (htype : lock.type = a.type)
      (hnames : lock.taskId = a.taskId) (haff : st.affects (.createLock lock) = true) :
      ClaimMove st clock runnerId fault (.found a)
        { next := .acquired a "", statement := .createLock lock }
  | contend (a : ClaimArgs) : ClaimMove st clock runnerId fault (.found a) { next := .contended a }
  | expired (a : ClaimArgs) (lock : SystemTaskLock) (hfind : st.findLock a.type = some lock)
      (hlt : lock.lockedUntil < a.now) :
      ClaimMove st clock runnerId fault (.contended a) { next := .stale a lock.taskId }
  | takeOver (a : ClaimArgs) (expiredTaskId : String) (hfault : fault = false) :
      ClaimMove st clock runnerId fault (.stale a expiredTaskId)
        { next := .acquired a expiredTaskId
          statement := .takeOverLock a.type a.now a.taskId runnerId a.lockUntil }
  | mark (a : ClaimArgs) (expiredTaskId : String) :
      ClaimMove st clock runnerId fault (.acquired a expiredTaskId)
        { next := .ready a, statement := .markLeaseExpired expiredTaskId clock }
  | skip (a : ClaimArgs) (expiredTaskId : String) :
      ClaimMove st clock runnerId fault (.acquired a expiredTaskId) { next := .ready a }
  | start (a : ClaimArgs) (hfault : fault = false)
      (haff : st.affects (.startTask a.id a.type runnerId a.now) = true) :
      ClaimMove st clock runnerId fault (.ready a)
        { next := .started a, statement := .startTask a.id a.type runnerId a.now }
  | unmarked (a : ClaimArgs) (expiredTaskId : String) :
      ClaimMove st clock runnerId fault (.acquired a expiredTaskId) { next := .releasing a }
  | giveUp (a : ClaimArgs) : ClaimMove st clock runnerId fault (.ready a) { next := .releasing a }
  | dispatch (a : ClaimArgs) :
      ClaimMove st clock runnerId fault (.started a) { dispatched := some a.taskId }
  | release (a : ClaimArgs) :
      ClaimMove st clock runnerId fault (.releasing a) { statement := .releaseLock a.taskId runnerId }

theorem claimStep_move (st : SystemTaskStore) (clock : ℤ) (runnerId : String) (fault : Bool)
    (c : ClaimCall) : ClaimMove st clock runnerId fault c (claimStep st clock runnerId fault c) := by
  cases c with
  | idle => exact .quit _
  | called a => exact .time a
  | began a =>
    dsimp only [claimStep]
    split_ifs
    · exact .quit _
    · cases hfind : st.findPending a.id a.type with
      | none => exact .quit _
      | some task => exact .find a task hfind
  | found a =>
    dsimp only [claimStep]
    split_ifs with h
    · exact .insert a _ rfl rfl h.2
    · exact .contend a
  | contended a =>
    dsimp only [claimStep]
    by_cases hfault : fault = true
    · rw [if_pos hfault]; exact .quit _
    rw [if_neg hfault]
    cases hfind : st.findLock a.type with
    | none => exact .quit _
    | some existing =>
      dsimp only
      split_ifs with h
      · exact .quit _
      · exact .expired a existing hfind (by omega)
  | stale a expiredTaskId =>
    dsimp only [claimStep]
    split_ifs with h
    · exact .takeOver a expiredTaskId h.1
    · exact .quit _
  | acquired a expiredTaskId =>
    dsimp only [claimStep]
    split_ifs
    · exact .unmarked a expiredTaskId
    · exact .mark a expiredTaskId
    · exact .skip a expiredTaskId
  | ready a =>
    dsimp only [claimStep]
    split_ifs with h
    · exact .start a h.1 h.2
    · exact .giveUp a
  | started a =>
    dsimp only [claimStep]
    split_ifs
    · exact .quit _
    · exact .dispatch a
  | releasing a =>
    dsimp only [claimStep]
    split_ifs
    · exact .quit _
    · exact .release a

/-! ## Handler writes -/

/-- What a handler or its heartbeat calls. -/
inductive HandlerOp
  | update (stateText : String)
  | renew (lockUntil : ℤ)
  | finish (status : FinalStatus) (resultText errorMessage : String)
  deriving DecidableEq

inductive HandlerCall
  | idle
  | called (taskId lockedBy : String) (op : HandlerOp)
  /-- `now` is read. -/
  | timed (taskId lockedBy : String) (op : HandlerOp) (now : ℤ)
  /-- The task is finished and its lock will be released. -/
  | finished (taskId lockedBy : String)
  deriving DecidableEq

def HandlerOp.statement (taskId lockedBy : String) (now : ℤ) : HandlerOp → Statement
  | .update stateText => .updateState taskId lockedBy now stateText
  | .renew lockUntil => .renewLock taskId lockedBy now lockUntil
  | .finish status resultText errorMessage =>
    .finishTask taskId lockedBy now status resultText errorMessage

def HandlerOp.isFinish : HandlerOp → Bool
  | .finish .. => true
  | _ => false

/-- `UpdateSystemTaskState`, `RenewSystemTaskLock` and `FinishSystemTask`, one statement at a time. The
count after an update that changed no row only decides the error returned. -/
def handlerStep (st : SystemTaskStore) (clock : ℤ) (fault : Bool) :
    HandlerCall → HandlerCall × Statement
  | .idle => (.idle, .nothing)
  | .called taskId lockedBy op => (.timed taskId lockedBy op clock, .nothing)
  | .timed taskId lockedBy op now =>
    let update := op.statement taskId lockedBy now
    if fault then (.idle, .nothing)
    else if op.isFinish ∧ st.affects update then (.finished taskId lockedBy, update)
    else (.idle, update)
  | .finished taskId lockedBy =>
    if fault then (.idle, .nothing) else (.idle, .releaseLock taskId lockedBy)

/-! ## Sweeping -/

inductive SweepCall
  | idle
  | called (now : ℤ)
  /-- The locks still to go through; the task of the first is marked next. -/
  | marking (now : ℤ) (locks : List SystemTaskLock)
  /-- The task of this lock is marked; the lock is deleted next. -/
  | deleting (now : ℤ) (lock : SystemTaskLock) (rest : List SystemTaskLock)
  deriving DecidableEq

/-- `ExpireStaleSystemTaskLocks`, one statement at a time. -/
def sweepStep (st : SystemTaskStore) (clock : ℤ) (fault : Bool) : SweepCall → SweepCall × Statement
  | .idle => (.idle, .nothing)
  | .called now => if fault then (.idle, .nothing) else (.marking now (st.staleLocks now), .nothing)
  | .marking _ [] => (.idle, .nothing)
  | .marking now (lock :: rest) =>
    if fault then (.idle, .nothing)
    else (.deleting now lock rest, .markLeaseExpired lock.taskId clock)
  | .deleting now lock rest =>
    if fault then (.idle, .nothing) else (.marking now rest, .deleteStaleLock lock now)

/-! ## The system -/

/-- `systemTaskLockTTL`, in seconds. -/
def systemTaskLockTTL : ℤ := 60

structure RunnerState where
  store : SystemTaskStore
  clock : ℤ
  claims : String → ClaimCall
  /-- Every task dispatched so far, with its runner. -/
  handlers : List (String × String)
  writes : ℕ → HandlerCall
  sweeps : ℕ → SweepCall

def RunnerState.start (clock : ℤ) : RunnerState :=
  { store := .empty
    clock
    claims := fun _ => .idle
    handlers := []
    writes := fun _ => .idle
    sweeps := fun _ => .idle }

/-- What a handler asks for; the heartbeat renews until `systemTaskLockUntil`. -/
inductive HandlerRequest
  | update (stateText : String)
  | renew
  | finish (status : FinalStatus) (resultText errorMessage : String)
  deriving DecidableEq

def HandlerRequest.op (clock : ℤ) : HandlerRequest → HandlerOp
  | .update stateText => .update stateText
  | .renew => .renew (clock + systemTaskLockTTL)
  | .finish status resultText errorMessage => .finish status resultText errorMessage

inductive RunnerAction
  | tick (seconds : ℕ)
  | create (taskId type payload state : String)
  | beginClaim (runnerId : String) (id : ℕ) (type : String)
  | stepClaim (runnerId : String) (fault : Bool)
  | beginWrite (call : ℕ) (taskId lockedBy : String) (request : HandlerRequest)
  | stepWrite (call : ℕ) (fault : Bool)
  | beginSweep (call : ℕ)
  | stepSweep (call : ℕ) (fault : Bool)

/-- The statement the action runs. -/
def RunnerState.statement (s : RunnerState) : RunnerAction → Statement
  | .create taskId type payload state => .createTask taskId type payload state s.clock
  | .stepClaim runnerId fault =>
    (claimStep s.store s.clock runnerId fault (s.claims runnerId)).statement
  | .stepWrite call fault => (handlerStep s.store s.clock fault (s.writes call)).2
  | .stepSweep call fault => (sweepStep s.store s.clock fault (s.sweeps call)).2
  | _ => .nothing

section Control

variable (s : RunnerState)

def RunnerState.nextClock : RunnerAction → ℤ
  | .tick seconds => s.clock + seconds
  | _ => s.clock

/-- A claim begins when the runner has none under way. -/
def RunnerState.nextClaims : RunnerAction → String → ClaimCall
  | .beginClaim runnerId id type =>
    if s.claims runnerId = .idle then
      Function.update s.claims runnerId
        (.called { id, type, lockUntil := s.clock + systemTaskLockTTL })
    else s.claims
  | .stepClaim runnerId fault =>
    Function.update s.claims runnerId
      (claimStep s.store s.clock runnerId fault (s.claims runnerId)).next
  | _ => s.claims

def RunnerState.nextHandlers : RunnerAction → List (String × String)
  | .stepClaim runnerId fault =>
    match (claimStep s.store s.clock runnerId fault (s.claims runnerId)).dispatched with
    | none => s.handlers
    | some taskId => (taskId, runnerId) :: s.handlers
  | _ => s.handlers

/-- A write begins for a task dispatched to the runner. -/
def RunnerState.nextWrites : RunnerAction → ℕ → HandlerCall
  | .beginWrite call taskId lockedBy request =>
    if s.writes call = .idle ∧ (taskId, lockedBy) ∈ s.handlers then
      Function.update s.writes call (.called taskId lockedBy (request.op s.clock))
    else s.writes
  | .stepWrite call fault =>
    Function.update s.writes call (handlerStep s.store s.clock fault (s.writes call)).1
  | _ => s.writes

def RunnerState.nextSweeps : RunnerAction → ℕ → SweepCall
  | .beginSweep call =>
    if s.sweeps call = .idle then Function.update s.sweeps call (.called s.clock) else s.sweeps
  | .stepSweep call fault =>
    Function.update s.sweeps call (sweepStep s.store s.clock fault (s.sweeps call)).1
  | _ => s.sweeps

/-- One step of the system: a statement on the tables, and the calls move on. -/
def RunnerState.step (action : RunnerAction) : RunnerState where
  store := s.store.exec (s.statement action)
  clock := s.nextClock action
  claims := s.nextClaims action
  handlers := s.nextHandlers action
  writes := s.nextWrites action
  sweeps := s.nextSweeps action

end Control

/-- Which call runs which statement. -/
inductive Origin (s : RunnerState) : RunnerAction → Statement → Prop
  | nothing (a : RunnerAction) : Origin s a .nothing
  | create (taskId type payload state : String) :
      Origin s (.create taskId type payload state) (.createTask taskId type payload state s.clock)
  | insert {runnerId : String} (fault : Bool) {a : ClaimArgs} {lock : SystemTaskLock}
      (hclaim : s.claims runnerId = .found a) (htype : lock.type = a.type)
      (htask : lock.taskId = a.taskId) : Origin s (.stepClaim runnerId fault) (.createLock lock)
  | takeOver {runnerId : String} {a : ClaimArgs} {expiredTaskId : String}
      (hclaim : s.claims runnerId = .stale a expiredTaskId) :
      Origin s (.stepClaim runnerId false)
        (.takeOverLock a.type a.now a.taskId runnerId a.lockUntil)
  | markClaim {runnerId : String} (fault : Bool) (expiredTaskId : String) :
      Origin s (.stepClaim runnerId fault) (.markLeaseExpired expiredTaskId s.clock)
  | start {runnerId : String} {a : ClaimArgs} (hclaim : s.claims runnerId = .ready a)
      (haff : s.store.affects (.startTask a.id a.type runnerId a.now) = true) :
      Origin s (.stepClaim runnerId false) (.startTask a.id a.type runnerId a.now)
  | releaseClaim {runnerId : String} (fault : Bool) {a : ClaimArgs}
      (hclaim : s.claims runnerId = .releasing a) :
      Origin s (.stepClaim runnerId fault) (.releaseLock a.taskId runnerId)
  | write {call : ℕ} {taskId lockedBy : String} {op : HandlerOp} {now : ℤ}
      (hwrite : s.writes call = .timed taskId lockedBy op now) :
      Origin s (.stepWrite call false) (op.statement taskId lockedBy now)
  | releaseWrite {call : ℕ} {taskId lockedBy : String}
      (hwrite : s.writes call = .finished taskId lockedBy) :
      Origin s (.stepWrite call false) (.releaseLock taskId lockedBy)
  | mark {call : ℕ} {now : ℤ} {lock : SystemTaskLock} {rest : List SystemTaskLock}
      (hsweep : s.sweeps call = .marking now (lock :: rest)) :
      Origin s (.stepSweep call false) (.markLeaseExpired lock.taskId s.clock)
  | delete {call : ℕ} {now : ℤ} {lock : SystemTaskLock} {rest : List SystemTaskLock}
      (hsweep : s.sweeps call = .deleting now lock rest) :
      Origin s (.stepSweep call false) (.deleteStaleLock lock now)

theorem Origin.claim {s : RunnerState} {runnerId : String} {fault : Bool} {c : ClaimCall}
    {r : ClaimStep} (hc : s.claims runnerId = c) (hmove : ClaimMove s.store s.clock runnerId fault c r) :
    Origin s (.stepClaim runnerId fault) r.statement := by
  cases hmove with
  | quit | time a | find a task hfind => exact .nothing _
  | insert a lock htype hnames haff => exact .insert fault hc htype hnames
  | contend a => exact .nothing _
  | expired a lock hfind hlt => exact .nothing _
  | takeOver a expiredTaskId hfault => subst hfault; exact .takeOver hc
  | mark a expiredTaskId => exact .markClaim fault expiredTaskId
  | skip a expiredTaskId => exact .nothing _
  | start a hfault haff => subst hfault; exact .start hc haff
  | unmarked a expiredTaskId | giveUp a | dispatch a => exact .nothing _
  | release a => exact .releaseClaim fault hc

theorem statement_origin (s : RunnerState) (a : RunnerAction) : Origin s a (s.statement a) := by
  cases a with
  | tick seconds => exact .nothing _
  | create taskId type payload state => exact .create taskId type payload state
  | beginClaim runnerId id type => exact .nothing _
  | stepClaim runnerId fault => exact .claim rfl (claimStep_move _ _ _ _ _)
  | beginWrite call taskId lockedBy request => exact .nothing _
  | stepWrite call fault =>
    show Origin s _ (handlerStep s.store s.clock fault (s.writes call)).2
    cases hw : s.writes call with
    | idle => exact .nothing _
    | called taskId lockedBy op => exact .nothing _
    | timed taskId lockedBy op now =>
      cases fault with
      | true => exact .nothing _
      | false =>
        dsimp only [handlerStep]
        rw [if_neg (by decide)]
        split_ifs
        · exact .write hw
        · exact .write hw
    | finished taskId lockedBy =>
      cases fault with
      | true => exact .nothing _
      | false => exact .releaseWrite hw
  | beginSweep call => exact .nothing _
  | stepSweep call fault =>
    show Origin s _ (sweepStep s.store s.clock fault (s.sweeps call)).2
    cases hc : s.sweeps call with
    | idle => exact .nothing _
    | called now =>
      cases fault with
      | true => exact .nothing _
      | false => exact .nothing _
    | marking now locks =>
      cases locks with
      | nil => exact .nothing _
      | cons lock rest =>
        cases fault with
        | true => exact .nothing _
        | false => exact .mark hc
    | deleting now lock rest =>
      cases fault with
      | true => exact .nothing _
      | false => exact .delete hc

end Vancine.SystemTasks
