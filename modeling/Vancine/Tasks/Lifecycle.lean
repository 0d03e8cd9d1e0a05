import Vancine.Lib.Exclusive
import Vancine.Lib.ListSum
import Vancine.Tasks.Polling

/-!
# One end, one bill

Any number of pollers and sweepers work on stale copies of the same rows. The guarded write lets one of
them move a task to its end, and only the one that moved it bills, so that

  bills of the task + bills still owed for it ≤ 1 if the row is terminal, else 0

holds in every state (`Settled`), as long as no write touches a terminal row. Two writes may: the bulk
update, which has no guard, and the write of a copy that is itself terminal, whose guard is a terminal
status. The condition `SafeWrites` leaves these out.
-/

namespace Vancine.Tasks

open Lib Lib.Table

/-! ## The condition -/

/-- The copy a poll works on is not terminal yet. -/
def PollsOpen (s : TaskState) (a : TaskAction) : Prop :=
  ∀ i ∈ a.polled, ∀ c ∈ s.copies[i]?, c.task.status.terminal = false

/-- No row of a bulk update is a success. -/
def MissesSuccess (s : TaskState) (a : TaskAction) : Prop :=
  ∀ id ∈ s.bulkIds a, status s.rows id ≠ some .success

def SafeWrites (s : TaskState) (a : TaskAction) : Prop := PollsOpen s a ∧ MissesSuccess s a

instance (s : TaskState) (a : TaskAction) : Decidable (PollsOpen s a) :=
  inferInstanceAs (Decidable (∀ i ∈ a.polled, ∀ c ∈ s.copies[i]?, _))

instance (s : TaskState) (a : TaskAction) : Decidable (MissesSuccess s a) :=
  inferInstanceAs (Decidable (∀ id ∈ s.bulkIds a, _))

instance (s : TaskState) (a : TaskAction) : Decidable (SafeWrites s a) :=
  inferInstanceAs (Decidable (_ ∧ _))

/-! ## Counting -/

/-- One if the row is terminal. -/
def finished (rows : List Task) (id : ℤ) : ℤ :=
  if (status rows id).any TaskStatus.terminal then 1 else 0

def Copy.owes (id : ℤ) (c : Copy) : ℤ := if c.pending.isSome ∧ c.task.id = id then 1 else 0

/-- Bills owed for the task. -/
def owed (s : TaskState) (id : ℤ) : ℤ := (s.copies.map (Copy.owes id)).sum

/-- Refunds and settlements applied to the task. -/
def billed (s : TaskState) (id : ℤ) : ℕ := s.log.countP fun e => e.taskId = id

/-- The sweeper writes only copies that are not terminal. -/
def SweepersOpen (s : TaskState) : Prop :=
  ∀ c ∈ s.copies, c.owner = .sweeper → c.task.status.terminal = false

structure Settled (s : TaskState) : Prop where
  sweepers : SweepersOpen s
  once : ∀ id, (billed s id : ℤ) + owed s id ≤ finished s.rows id

/-- The terminal status of a task is for good. -/
def StaysTerminal (rows rows' : List Task) : Prop :=
  ∀ id st, status rows id = some st → st.terminal = true → status rows' id = some st

section Count

variable {s : TaskState} {rows rows' : List Task} {id : ℤ}

theorem StaysTerminal.refl (rows : List Task) : StaysTerminal rows rows := fun _ _ h _ => h

theorem owes_nonneg (id : ℤ) (c : Copy) : 0 ≤ c.owes id := by
  unfold Copy.owes
  split_ifs <;> omega

theorem owed_nonneg (s : TaskState) (id : ℤ) : 0 ≤ owed s id :=
  sum_map_nonneg fun c _ => owes_nonneg id c

theorem StaysTerminal.finished_le (h : StaysTerminal rows rows') (id : ℤ) : finished rows id ≤ finished rows' id := by
  unfold finished
  cases hst : status rows id with
  | none =>
    simp only [Option.any_none, Bool.false_eq_true, if_false]
    split_ifs <;> omega
  | some st =>
    rw [Option.any_some]
    by_cases ht : st.terminal = true
    · rw [if_pos ht, h id st hst ht, Option.any_some, if_pos ht]
    · rw [if_neg ht]
      split_ifs <;> omega

end Count

/-! ## One step -/

section Step

variable {s s' : TaskState} {a : TaskAction} {i : ℕ} {t : Task} {owner : Owner} {x : Intent}

variable {rows : List Task}

variable {accounts : Accounts} {log : List TaskEvent}

/-- A changed copy is the old one, or it is not the sweeper's. -/
theorem SweepersOpen.set (h : SweepersOpen s) {c : Copy} (hcopy : s.copies[i]? = some c) (c' : Copy)
    (hc' : c'.owner = .sweeper → c'.owner = c.owner ∧ c'.task.status = c.task.status) :
    SweepersOpen ⟨rows, s.copies.set i c', accounts, log⟩ := by
  intro d hd hsw
  rcases List.mem_or_eq_of_mem_set hd with hd | rfl
  · exact h d hd hsw
  · obtain ⟨howner, hst⟩ := hc' hsw
    rw [hst]
    exact h c (List.mem_of_getElem? hcopy) (howner.symm.trans hsw)

theorem TaskMove.sweepersOpen (hmove : TaskMove s a s') (h : SweepersOpen s) : SweepersOpen s' := by
  cases hmove with
  | stay => exact h
  | load hrow hopen =>
    intro c hc hsw
    rcases List.mem_append.mp hc with hc | hc
    · exact h c hc hsw
    · obtain rfl := List.mem_singleton.mp hc
      exact hopen
  | lose hcopy _ howner => exact h.set hcopy _ fun hsw => absurd hsw howner
  | win hcopy _ howner => exact h.set hcopy _ fun hsw => absurd hsw howner
  | bulk => exact h
  | @settle i u f t owner kind _ hcopy =>
    exact h.set hcopy ⟨{ t with quota := (bill kind f u t s.accounts).quota }, owner, none⟩
      fun _ => ⟨rfl, rfl⟩

theorem PollsOpen.copy_open (ha : PollsOpen s a) (hsw : SweepersOpen s)
    (hcopy : s.copies[i]? = some ⟨t, owner, none⟩) (hactor : owner = .sweeper ∨ a.polled = some i) :
    t.status.terminal = false := by
  rcases hactor with hs | hp
  · exact hsw _ (List.mem_of_getElem? hcopy) hs
  · exact ha i hp _ hcopy

theorem not_regardless (hx : x.Sound t) (hopen : t.status.terminal = false) (kind : BillKind) :
    x.bill ≠ .regardless kind := by
  intro hb
  have hterm := hx.regardless kind hb
  rw [hopen] at hterm
  cases hterm

theorem staysTerminal_save {r : Task} (hr : row rows t.id = some r) (hopen : r.status.terminal = false) :
    StaysTerminal rows (save Task.id t rows) := by
  intro id st hst hterm
  unfold status at hst ⊢
  rw [row_save (by rw [hr]; rfl)]
  by_cases hid : id = t.id
  · rw [hid, hr, Option.map_some] at hst
    obtain rfl := Option.some.inj hst
    rw [hopen] at hterm
    cases hterm
  · rw [if_neg hid]
    exact hst

theorem staysTerminal_bulk {ids : List ℤ} (failReason : Option String)
    (hmiss : ∀ id ∈ ids, status rows id ≠ some .success) :
    StaysTerminal rows (taskBulkUpdateByID ids failReason rows) := by
  intro id st hst hterm
  unfold status at hst hmiss ⊢
  rw [row_taskBulkUpdateByID]
  cases hr : row rows id with
  | none => rw [hr] at hst; cases hst
  | some r =>
    rw [hr, Option.map_some] at hst
    obtain rfl := Option.some.inj hst
    rw [Option.map_some, Option.map_some]
    by_cases hid : r.id ∈ ids
    · rw [if_pos hid]
      -- a terminal row that is no success is a failure already
      have hne := hmiss r.id hid
      rw [row_id hr, hr, Option.map_some] at hne
      cases hs : r.status with
      | failure => rfl
      | success => rw [hs] at hne; exact absurd rfl hne
      | _ => rw [hs] at hterm; cases hterm
    · rw [if_neg hid]

theorem TaskMove.staysTerminal (hmove : TaskMove s a s') (hsw : SweepersOpen s)
    (ha : SafeWrites s a) : StaysTerminal s.rows s'.rows := by
  cases hmove with
  | stay | load | lose => exact .refl _
  | win hcopy hactor _ _ hrow hguard =>
    have hopen := ha.1.copy_open hsw hcopy hactor
    exact staysTerminal_save hrow (by rw [hguard, hopen])
  | bulk => exact staysTerminal_bulk _ ha.2
  | settle _ hcopy =>
    intro id st hst _
    rw [billCopy_status]
    exact hst

theorem owed_set {c c' : Copy} (hcopy : s.copies[i]? = some c) (id : ℤ) :
    owed ⟨rows, s.copies.set i c', accounts, log⟩ id = owed s id - c.owes id + c'.owes id := by
  unfold owed
  dsimp only
  rw [sum_map_set hcopy]

/-- **One step** of safe writes keeps every task settled. -/
theorem TaskMove.settled (hmove : TaskMove s a s') (h : Settled s) (ha : SafeWrites s a) : Settled s' := by
  refine ⟨hmove.sweepersOpen h.sweepers, fun id => ?_⟩
  have honce := h.once id
  have hfin := (hmove.staysTerminal h.sweepers ha).finished_le id
  cases hmove with
  | stay => exact honce
  | load =>
    simpa [owed, billed, Copy.owes] using honce
  | lose hcopy hactor _ hx hpending =>
    have hopen := ha.1.copy_open h.sweepers hcopy hactor
    obtain rfl := hpending.resolve_right fun ⟨kind, hb⟩ => not_regardless hx hopen kind hb
    refine le_trans (le_of_eq ?_) honce
    unfold TaskState.setCopy
    rw [owed_set hcopy]
    simp [Copy.owes, billed]
  | bulk => exact honce.trans hfin
  | @win i t r owner owner' x pending hcopy hactor _ hx hrow hguard hpending =>
    have hopen := ha.1.copy_open h.sweepers hcopy hactor
    unfold TaskState.setCopy at hfin ⊢
    rw [owed_set hcopy]
    have hbilled : billed ⟨save Task.id x.task s.rows, s.copies.set i ⟨x.task, owner', pending⟩,
        s.accounts, s.log⟩ id = billed s id := rfl
    have hnone : Copy.owes id ⟨t, owner, none⟩ = 0 := by simp [Copy.owes]
    rw [hbilled, hnone]
    by_cases howes : pending.isSome ∧ x.task.id = id
    · -- the write won: the row was not terminal, is now, and this is the first bill
      obtain ⟨hsome, rfl⟩ := howes
      obtain ⟨kind, rfl⟩ := Option.isSome_iff_exists.mp hsome
      have hb := (hpending kind rfl).resolve_right (not_regardless hx hopen kind)
      have hbefore : finished s.rows x.task.id = 0 := by
        simp [finished, status, hrow, hguard, hopen]
      have hafter : finished (save Task.id x.task s.rows) x.task.id = 1 := by
        simp [finished, status, row_save (t := x.task) (by rw [hrow]; rfl), (hx.ifWon kind hb).1]
      have hone : Copy.owes x.task.id ⟨x.task, owner', some kind⟩ = 1 := by simp [Copy.owes]
      rw [hone, hafter]
      omega
    · have hzero : Copy.owes id ⟨x.task, owner', pending⟩ = 0 := if_neg howes
      rw [hzero]
      exact le_trans (by omega) hfin
  | @settle i u f t owner kind _ hcopy =>
    -- what was owed is billed, at most once
    refine le_trans ?_ hfin
    unfold TaskState.billCopy
    dsimp only
    rw [owed_set hcopy]
    have hlog : ((s.log ++ (bill kind f u t s.accounts).event.toList).countP
        fun e => e.taskId = id) ≤ billed s id + if t.id = id then 1 else 0 := by
      rw [List.countP_append]
      refine Nat.add_le_add_left ?_ _
      cases he : (bill kind f u t s.accounts).event with
      | none => simp
      | some e => simp [bill_event_taskId he]
    unfold billed at hlog honce ⊢
    simp only [Copy.owes, Option.isSome_some, Option.isSome_none, Bool.false_eq_true, true_and,
      false_and, if_false] at hlog ⊢
    split_ifs at hlog ⊢ <;> omega

end Step

/-! ## Runs -/

/-- The status of the row changes to a terminal one. -/
def Ends (rows rows' : List Task) (id : ℤ) : Prop :=
  status rows' id ≠ status rows id ∧ (status rows' id).any TaskStatus.terminal

instance (rows rows' : List Task) (id : ℤ) : Decidable (Ends rows rows' id) :=
  inferInstanceAs (Decidable (_ ∧ _))

/-- How often the task ends in a run. -/
def ends (id : ℤ) : TaskState → List TaskAction → ℕ
  | _, [] => 0
  | s, a :: as => (if Ends s.rows (taskStep s a).rows id then 1 else 0) + ends id (taskStep s a) as

/-- Every task ends at most once, is billed at most once, and stays as it ended. -/
structure OneEnd (s : TaskState) (as : List TaskAction) : Prop where
  stays : Along taskStep (fun s a => StaysTerminal s.rows (taskStep s a).rows) s as
  ends : ∀ id, ends id s as ≤ 1
  billed : ∀ id, billed (run taskStep s as) id ≤ 1

section Runs

theorem finished_nonneg (rows : List Task) (id : ℤ) : 0 ≤ finished rows id := by
  unfold finished
  split_ifs <;> omega

theorem finished_le_one (rows : List Task) (id : ℤ) : finished rows id ≤ 1 := by
  unfold finished
  split_ifs <;> omega

/-- A row that ends was not finished before, if it stays terminal once it is. -/
theorem StaysTerminal.ends_le {rows rows' : List Task} (h : StaysTerminal rows rows') (id : ℤ) :
    (if Ends rows rows' id then 1 else 0) + finished rows id ≤ finished rows' id := by
  by_cases hends : Ends rows rows' id
  · rw [if_pos hends]
    have hafter : finished rows' id = 1 := if_pos hends.2
    have hbefore : finished rows id = 0 := by
      refine if_neg fun hterm => hends.1 ?_
      obtain ⟨st, hst, ht⟩ := (Option.any_eq_true _ _).mp hterm
      rw [h id st hst ht, hst]
    omega
  · rw [if_neg hends, Int.zero_add]
    exact h.finished_le id

theorem ends_le_finished {s : TaskState} {as : List TaskAction}
    (h : Along taskStep (fun s a => StaysTerminal s.rows (taskStep s a).rows) s as) (id : ℤ) :
    (ends id s as : ℤ) + finished s.rows id ≤ finished (run taskStep s as).rows id := by
  induction as generalizing s with
  | nil => simp [ends]
  | cons a as ih =>
    have hstep := h.1.ends_le id
    have hrest := ih h.2
    rw [run_cons, ends]
    split_ifs at hstep ⊢ <;> omega

theorem settled_start (rows : List Task) (accounts : Accounts) : Settled (.start rows accounts) := by
  refine ⟨fun c hc => absurd hc (List.not_mem_nil), fun id => ?_⟩
  exact finished_nonneg rows id

/-- **One end, one bill**, however pollers, sweepers and their bills interleave, when no bulk update hits a
success and no poll works on a copy that is terminal already. -/
theorem tasks_end_and_bill_once (rows : List Task) (accounts : Accounts) (as : List TaskAction)
    (hsafe : Along taskStep SafeWrites (.start rows accounts) as) :
    OneEnd (.start rows accounts) as := by
  have hstart := settled_start rows accounts
  have hstays : Along taskStep (fun s a => StaysTerminal s.rows (taskStep s a).rows)
      (.start rows accounts) as :=
    along_of_invariant_along (fun s a h ha => (taskStep_move s a).settled h ha)
      (fun s a h ha => (taskStep_move s a).staysTerminal h.sweepers ha) hstart hsafe
  have hend : Settled (run taskStep (.start rows accounts) as) :=
    run_invariant_along (I := Settled) (fun s a h ha => (taskStep_move s a).settled h ha) hstart hsafe
  refine ⟨hstays, fun id => ?_, fun id => ?_⟩
  · have hle := ends_le_finished hstays id
    have hnonneg := finished_nonneg (TaskState.start rows accounts).rows id
    have hone := finished_le_one (run taskStep (.start rows accounts) as).rows id
    omega
  · have honce := hend.once id
    have hnonneg := owed_nonneg (run taskStep (.start rows accounts) as) id
    have hone := finished_le_one (run taskStep (.start rows accounts) as).rows id
    omega

/-- A task of the user 7 in the queue, paid with 100 from the wallet through the token 3. -/
def queuedTask : Task where
  id := 1
  taskID := "task_1"
  userId := 7
  quota := 100
  status := .queued
  failReason := ""
  submitTime := 1780000000
  startTime := 0
  finishTime := 0
  progress := "20%"
  data := ""
  upstreamTaskID := "up-1"
  resultURL := ""
  billingSource := .wallet
  subscriptionId := 0
  tokenId := 3
  billingContext := none
  pluginState := ""
  pollFailures := 0

def paidAccounts : Accounts where
  batchUpdateEnabled := false
  wallets := [⟨7, 1000⟩]
  tokens := [⟨3, ⟨500, 100⟩⟩]
  subscriptions := ⟨[], [], []⟩

def defaultPolling : PollConfig := ⟨30, 1440, "https://host"⟩

/-- The upstream reports a success. -/
def succeeded : VideoAnswer :=
  .response 200 "ok" (.adaptor ⟨.success, "", "100%", "https://cdn/1.mp4", "", 0, 0⟩ "")

def writeOk : WriteEnv := ⟨false, false⟩

/-- Two pollers and the sweeper hold a copy each; the first poller ends the task and settles 40. -/
def racingActors : List TaskAction :=
  [.load 1, .load 1, .loadTimedOut 1790000000 1,
    .pollVideo 0 defaultPolling 1790000001 succeeded writeOk,
    .sweep 2 defaultPolling 1790000002 writeOk,
    .pollVideo 1 defaultPolling 1790000003 succeeded writeOk,
    .bill 1 ⟨40, none, none⟩ noFaults, .bill 2 ⟨0, none, none⟩ noFaults,
    .bill 0 ⟨40, none, none⟩ noFaults]

theorem tasks_end_and_bill_once_racing :
    Along taskStep SafeWrites (.start [queuedTask] paidAccounts) racingActors ∧
      ends 1 (.start [queuedTask] paidAccounts) racingActors = 1 ∧
      billed (run taskStep (.start [queuedTask] paidAccounts) racingActors) 1 = 1 ∧
      OneEnd (.start [queuedTask] paidAccounts) racingActors :=
  ⟨by decide, by decide, by decide,
    tasks_end_and_bill_once [queuedTask] paidAccounts racingActors (by decide)⟩

/-- The second poller does not find the channel of a task that the first one has just ended. -/
def lateBulkFailure : List TaskAction :=
  [.load 1, .load 1, .pollVideo 0 defaultPolling 1790000001 succeeded writeOk,
    .bill 0 ⟨40, none, none⟩ noFaults, .failChannel [1] "channel 5 not found" false]

/-- **The bulk update has no guard.** The task is a success and settled, and the last step turns it to a
failure: it ends a second time. -/
theorem bulk_failure_overwrites_success :
    status (run taskStep (.start [queuedTask] paidAccounts) (lateBulkFailure.take 4)).rows 1 =
        some .success ∧
      status (run taskStep (.start [queuedTask] paidAccounts) lateBulkFailure).rows 1 =
        some .failure ∧
      ¬OneEnd (.start [queuedTask] paidAccounts) lateBulkFailure := by
  refine ⟨by decide, by decide, fun h => ?_⟩
  have htwice : ends 1 (.start [queuedTask] paidAccounts) lateBulkFailure = 2 := by decide
  have hone := h.ends 1
  omega

end Runs

end Vancine.Tasks
