import Vancine.Tasks.Lifecycle

/-!
# Failed tasks are paid back

A guarded write that fails a task leaves its actor with a bill, and the bill stays with the copy until the
actor comes to it (`owing_until_bill`). Billing a failed task returns the whole quota, unless the usage
settlement takes over: the task is billed by usage and its adaptor or its token count gives an actual quota.

What is returned is the quota the row records when it fails. A writer works on a stale copy, so that this is
also the quota the row had before needs an invariant of its own (`Fresh`).

Bulk updates leave no bill, and nothing is said about them here.
-/

namespace Vancine.Tasks

open Lib Lib.Table

/-! ## The bill of a failed task -/

section Bill

variable {t : Task} {u : UsageReport} {kind : BillKind}

/-- The usage settlement takes over the bill of a failed task. -/
structure UsageSettles (t : Task) (info : TaskInfo) (u : UsageReport) : Prop where
  byUsage : ∀ bc ∈ t.billingContext, bc.tieredSnapshot = false ∧ bc.perCallBilling = false
  known : 0 < u.adjusted ∨ 0 < info.tokens ∧ u.byTokens.isSome

/-- The sweeper has no usage to settle. -/
def BillKind.TakesOver (kind : BillKind) (t : Task) (u : UsageReport) : Prop :=
  match kind with
  | .refundOnly => False
  | .settle info => UsageSettles t info u

instance (t : Task) (info : TaskInfo) (u : UsageReport) : Decidable (UsageSettles t info u) :=
  decidable_of_iff ((∀ bc ∈ t.billingContext, bc.tieredSnapshot = false ∧ bc.perCallBilling = false) ∧
      (0 < u.adjusted ∨ 0 < info.tokens ∧ u.byTokens.isSome))
    ⟨fun h => ⟨h.1, h.2⟩, fun h => ⟨h.byUsage, h.known⟩⟩

instance (kind : BillKind) (t : Task) (u : UsageReport) : Decidable (kind.TakesOver t u) :=
  match kind with
  | .refundOnly => .isFalse id
  | .settle info => inferInstanceAs (Decidable (UsageSettles t info u))

/-- A failed task is settled by usage, or left to the refund. -/
theorem settleTaskBillingOnComplete_failed (hfail : t.status = .failure) {info : TaskInfo}
    (hno : ¬UsageSettles t info u) : settleTaskBillingOnComplete t info u = .notSettled := by
  unfold settleTaskBillingOnComplete
  split
  · rw [if_pos hfail]
  · rfl
  · rename_i htiered hpercall
    have hby : ∀ bc ∈ t.billingContext, bc.tieredSnapshot = false ∧ bc.perCallBilling = false := by
      rintro ⟨tiered, perCall⟩ hbc
      cases tiered with
      | true => exact absurd hbc (htiered perCall)
      | false =>
        cases perCall with
        | true => exact absurd hbc hpercall
        | false => exact ⟨rfl, rfl⟩
    rw [if_neg fun h => hno ⟨hby, .inl h⟩]
    split_ifs with htok
    · cases hb : u.byTokens with
      | none => rfl
      | some q => exact absurd ⟨hby, .inr ⟨htok, by rw [hb]; rfl⟩⟩ hno
    · rfl

theorem bill_failed (hfail : t.status = .failure) (hq : t.quota ≠ 0) (hno : ¬kind.TakesOver t u)
    (f : BillFaults) (acc : Accounts) : bill kind f u t acc = refundTaskQuota f t acc := by
  cases kind with
  | refundOnly => rfl
  | settle info =>
    unfold bill
    dsimp only
    rw [settleTaskBillingOnComplete_failed hfail hno]
    exact if_pos ⟨hfail, hq⟩

end Bill

/-! ## From the write to the bill -/

section Owing

variable {s s' : TaskState} {a : TaskAction} {i : ℕ} {c : Copy}

/-- **A guarded write that fails a task**: an actor wins with its intent, and bills it if there is
something to pay back. -/
theorem TaskMove.failed (hmove : TaskMove s a s') (ha : a.bulk = false) {id : ℤ} {r t : Task}
    (hrow : row s.rows id = some r) (hopen : r.status.terminal = false)
    (hrow' : row s'.rows id = some t) (hfail : t.status = .failure) :
    ∃ (i : ℕ) (t₀ : Task) (owner owner' : Owner) (x : Intent) (pending : Option BillKind),
      s.copies[i]? = some ⟨t₀, owner, none⟩ ∧ x.Sound t₀ ∧ x.task = t ∧ t.id = id ∧
      r.status = t₀.status ∧ s'.copies[i]? = some ⟨t, owner', pending⟩ ∧ (t.quota ≠ 0 → pending.isSome) := by
  have hsame : status s'.rows id ≠ status s.rows id := by
    unfold status
    rw [hrow, hrow', Option.map_some, Option.map_some, hfail]
    intro h
    rw [← Option.some.inj h] at hopen
    cases hopen
  cases hmove with
  | stay | load | lose => exact absurd rfl hsame
  | bulk hb =>
    rw [ha] at hb
    cases hb
  | settle => exact absurd (billCopy_status _ _ _ _ _ _ _ _) hsame
  | @win i t₀ r' owner owner' x pending hcopy _ _ hx hr' hguard _ hwon =>
    have hget := row_save (t := x.task) (by rw [hr']; rfl) id
    have hid : id = x.task.id := by
      by_contra hne
      apply hsame
      unfold status
      dsimp only
      rw [hget, if_neg hne]
    subst hid
    obtain rfl : x.task = t := by
      dsimp only at hrow'
      rw [hget, if_pos rfl] at hrow'
      exact Option.some.inj hrow'
    obtain rfl : r' = r := Option.some.inj (hr'.symm.trans hrow)
    refine ⟨i, t₀, owner, owner', x, pending, hcopy, hx, rfl, rfl, hguard, ?_, fun hq => ?_⟩
    · unfold TaskState.setCopy
      exact List.getElem?_set_self (List.getElem?_eq_some_iff.mp hcopy).1
    · obtain ⟨kind, hb⟩ := hx.failed hfail (by rw [← hguard, hopen]) hq
      have hchanged : r' ≠ x.task := by
        rintro rfl
        rw [hfail] at hopen
        cases hopen
      rw [hwon kind hb hchanged]
      rfl

theorem TaskMove.keeps_owing (hmove : TaskMove s a s') (hcopy : s.copies[i]? = some c)
    (howes : c.pending.isSome) : s'.copies[i]? = some c ∨ ∃ u f, a = .bill i u f := by
  have hother : ∀ {j : ℕ} (d : Copy), j ≠ i → (s.copies.set j d)[i]? = some c := by
    intro j d hne
    rw [List.getElem?_set_ne hne]
    exact hcopy
  have hfree : ∀ {j : ℕ} {t : Task} {owner : Owner},
      s.copies[j]? = some ⟨t, owner, none⟩ → j ≠ i := by
    rintro j t owner hj rfl
    rw [hcopy] at hj
    rw [Option.some.inj hj] at howes
    cases howes
  cases hmove with
  | stay => exact .inl hcopy
  | load => exact .inl (List.getElem?_append_left (List.getElem?_eq_some_iff.mp hcopy).1 ▸ hcopy)
  | lose hj => exact .inl (hother _ (hfree hj))
  | win hj => exact .inl (hother _ (hfree hj))
  | bulk => exact .inl hcopy
  | @settle j u f t owner kind ha hj =>
    by_cases hji : j = i
    · exact .inr ⟨u, f, by rw [ha, hji]⟩
    · exact .inl (hother _ hji)

/-- **The bill comes**, in a run at whose end nothing is owed. -/
theorem owing_until_bill {as : List TaskAction} (hcopy : s.copies[i]? = some c)
    (howes : c.pending.isSome) (hdone : ∀ d ∈ (run taskStep s as).copies, d.pending = none) :
    ∃ mid u f rest, as = mid ++ .bill i u f :: rest ∧ (run taskStep s mid).copies[i]? = some c := by
  induction as generalizing s with
  | nil =>
    rw [hdone c (List.mem_of_getElem? hcopy)] at howes
    cases howes
  | cons a as ih =>
    rcases (taskStep_move s a).keeps_owing hcopy howes with hkeep | ⟨u, f, rfl⟩
    · obtain ⟨mid, u, f, rest, rfl, hmid⟩ := ih hkeep hdone
      exact ⟨a :: mid, u, f, rest, rfl, hmid⟩
    · exact ⟨[], u, f, as, rfl, hcopy⟩

end Owing

/-! ## Who paid -/

/-- A copy has the payer of its row. -/
def PayersAgree (s : TaskState) : Prop :=
  ∀ c ∈ s.copies, ∀ r, row s.rows c.task.id = some r → c.task.payer = r.payer

section Payer

variable {s s' : TaskState} {a : TaskAction}

theorem TaskMove.payersAgree (hmove : TaskMove s a s') (h : PayersAgree s) : PayersAgree s' := by
  intro c hc r hr
  cases hmove with
  | stay => exact h c hc r hr
  | load hrow =>
    rcases List.mem_append.mp hc with hc | hc
    · exact h c hc r hr
    · obtain rfl := List.mem_singleton.mp hc
      rw [Option.some.inj (hrow.symm.trans hr)]
  | lose hcopy _ _ hx =>
    rcases List.mem_or_eq_of_mem_set hc with hc | rfl
    · exact h c hc r hr
    · rw [hx.payer]
      exact h _ (List.mem_of_getElem? hcopy) r (hx.id ▸ hr)
  | @win i t r₀ owner owner' x pending hcopy _ _ hx hrow =>
    have hpayer : x.task.payer = r₀.payer :=
      hx.payer.trans (h _ (List.mem_of_getElem? hcopy) r₀ (hx.id ▸ hrow))
    dsimp only at hr
    rw [row_save (by rw [hrow]; rfl)] at hr
    by_cases hid : c.task.id = x.task.id
    · rw [if_pos hid] at hr
      obtain rfl := Option.some.inj hr
      rcases List.mem_or_eq_of_mem_set hc with hc | rfl
      · rw [hpayer]
        exact h c hc r₀ (hid ▸ hrow)
      · rfl
    · rw [if_neg hid] at hr
      rcases List.mem_or_eq_of_mem_set hc with hc | rfl
      · exact h c hc r hr
      · exact absurd rfl hid
  | bulk =>
    dsimp only at hr
    rw [row_taskBulkUpdateByID] at hr
    obtain ⟨r₀, hr₀, rfl⟩ := Option.map_eq_some_iff.mp hr
    rw [h c hc r₀ hr₀]
    split_ifs <;> rfl
  | @settle i u f t owner kind _ hcopy =>
    obtain ⟨r₀, hr₀, hpayer⟩ := billCopy_payer hr
    rw [← hpayer]
    rcases List.mem_or_eq_of_mem_set hc with hc | rfl
    · exact h c hc r₀ hr₀
    · exact h ⟨t, owner, some kind⟩ (List.mem_of_getElem? hcopy) r₀ hr₀

theorem payersAgree_start (rows : List Task) (accounts : Accounts) :
    PayersAgree (.start rows accounts) := fun _ hc => absurd hc List.not_mem_nil

end Payer

/-! ## The recorded quota -/

/-- Who owes a bill has ended the task, and as long as a task is open its copies agree with the row on the
quota. -/
structure Fresh (s : TaskState) : Prop where
  sweepers : SweepersOpen s
  owing : ∀ c ∈ s.copies, c.pending.isSome → (status s.rows c.task.id).any TaskStatus.terminal
  quota : ∀ c ∈ s.copies, c.task.status.terminal = false → ∀ r, row s.rows c.task.id = some r →
    r.status.terminal = false → c.task.quota = r.quota

section Quota

variable {s s' : TaskState} {a : TaskAction} {i : ℕ}

theorem terminal_of_owing (h : Fresh s) {c : Copy} (hc : c ∈ s.copies) (howes : c.pending.isSome)
    {r : Task} (hr : row s.rows c.task.id = some r) : r.status.terminal = true := by
  have hterm := h.owing c hc howes
  unfold status at hterm
  rw [hr] at hterm
  exact hterm

theorem fresh_start (rows : List Task) (accounts : Accounts) : Fresh (.start rows accounts) :=
  ⟨fun _ hc => absurd hc List.not_mem_nil, fun _ hc => absurd hc List.not_mem_nil,
    fun _ hc => absurd hc List.not_mem_nil⟩

variable {x : Intent} {owner owner' : Owner}

theorem Fresh.quota_win (h : Fresh s) {t r : Task} {owner : Owner} (hcopy : s.copies[i]? = some ⟨t, owner, none⟩)
    (hx : x.Sound t) (hrow : row s.rows x.task.id = some r) (hguard : r.status = t.status)
    (hopen : t.status.terminal = false) (hx' : x.task.isLegacy = false ∨ x.task.status.terminal = false) :
    x.task.quota = r.quota := by
  have hquota : x.task.quota = t.quota := by
    apply hx.quota.resolve_right
    rintro ⟨hlegacy, hfail⟩
    rcases hx' with hl | ho
    · rw [hlegacy] at hl
      cases hl
    · rw [hfail] at ho
      cases ho
  rw [hquota]
  exact h.quota _ (List.mem_of_getElem? hcopy) hopen r (hx.id ▸ hrow) (by rw [hguard, hopen])

/-- A write that was lost changes a copy that stays open with its quota, or ends it. -/
theorem Fresh.lose (h : Fresh s) {t : Task} (hcopy : s.copies[i]? = some ⟨t, owner, none⟩) (hx : x.Sound t)
    (hopen : t.status.terminal = false) (hsw : SweepersOpen (s.setCopy i ⟨x.task, owner', none⟩)) :
    Fresh (s.setCopy i ⟨x.task, owner', none⟩) := by
  refine ⟨hsw, fun c hc howes => ?_, fun c hc hc' r hr hr' => ?_⟩
  · rcases List.mem_or_eq_of_mem_set hc with hc | rfl
    · exact h.owing c hc howes
    · cases howes
  · rcases List.mem_or_eq_of_mem_set hc with hc | rfl
    · exact h.quota c hc hc' r hr hr'
    · have hquota := hx.quota.resolve_right fun hl => by rw [hl.2] at hc'; cases hc'
      rw [hquota]
      exact h.quota _ (List.mem_of_getElem? hcopy) hopen r (hx.id ▸ hr) hr'

/-- A write that was won puts the copy, with the quota of the row, in the place of an open row. -/
theorem Fresh.win (h : Fresh s) {t r : Task} {pending : Option BillKind}
    (hcopy : s.copies[i]? = some ⟨t, owner, none⟩) (hx : x.Sound t) (hrow : row s.rows x.task.id = some r)
    (hguard : r.status = t.status) (hopen : t.status.terminal = false)
    (hends : pending.isSome → x.task.status.terminal = true)
    (hsw : SweepersOpen { s.setCopy i ⟨x.task, owner', pending⟩ with
      rows := save Task.id x.task s.rows }) :
    Fresh { s.setCopy i ⟨x.task, owner', pending⟩ with rows := save Task.id x.task s.rows } := by
  have hget : ∀ id, row (save Task.id x.task s.rows) id =
      if id = x.task.id then some x.task else row s.rows id := row_save (by rw [hrow]; rfl)
  have hr : r.status.terminal = false := by rw [hguard, hopen]
  refine ⟨hsw, fun c hc howes => ?_, fun c hc hc' r' hr₁ hr' => ?_⟩
  · unfold status
    dsimp only
    rw [hget]
    rcases List.mem_or_eq_of_mem_set hc with hc | rfl
    · -- nobody else owes a bill for a row that was open
      have hne : c.task.id ≠ x.task.id := by
        intro hid
        have hterm := terminal_of_owing h hc howes (hid ▸ hrow)
        rw [hr] at hterm
        cases hterm
      rw [if_neg hne]
      exact h.owing c hc howes
    · rw [if_pos rfl]
      exact hends howes
  · dsimp only at hr₁
    rw [hget] at hr₁
    by_cases hid : c.task.id = x.task.id
    · rw [if_pos hid] at hr₁
      obtain rfl := Option.some.inj hr₁
      rcases List.mem_or_eq_of_mem_set hc with hc | rfl
      · rw [h.quota_win hcopy hx hrow hguard hopen (.inr hr')]
        exact h.quota c hc hc' r (hid ▸ hrow) hr
      · rfl
    · rw [if_neg hid] at hr₁
      rcases List.mem_or_eq_of_mem_set hc with hc | rfl
      · exact h.quota c hc hc' r' hr₁ hr'
      · exact absurd rfl hid

theorem Fresh.bulk (h : Fresh s) (ids : List ℤ) (failReason : Option String) :
    Fresh { s with rows := taskBulkUpdateByID ids failReason s.rows } := by
  refine ⟨h.sweepers, fun c hc howes => ?_, fun c hc hc' r hr hr' => ?_⟩
  · have hterm := h.owing c hc howes
    unfold status at hterm ⊢
    rw [row_taskBulkUpdateByID]
    cases hrow : row s.rows c.task.id with
    | none => rw [hrow] at hterm; cases hterm
    | some r =>
      rw [hrow] at hterm
      rw [Option.map_some, Option.map_some, Option.any_some]
      split_ifs
      · rfl
      · exact hterm
  · rw [row_taskBulkUpdateByID] at hr
    obtain ⟨r₀, hr₀, rfl⟩ := Option.map_eq_some_iff.mp hr
    split_ifs at hr' ⊢
    · cases hr'
    · exact h.quota c hc hc' r₀ hr₀ hr'

theorem Fresh.settle (h : Fresh s) {t : Task} {owner : Owner} {kind : BillKind} {u : UsageReport}
    {f : BillFaults} (hcopy : s.copies[i]? = some ⟨t, owner, some kind⟩)
    (hsw : SweepersOpen (s.billCopy i t owner kind u f)) : Fresh (s.billCopy i t owner kind u f) := by
  refine ⟨hsw, fun c hc howes => ?_, fun c hc hc' r hr hr' => ?_⟩
  · rw [billCopy_status]
    rcases List.mem_or_eq_of_mem_set hc with hc | rfl
    · exact h.owing c hc howes
    · cases howes
  · have hne : c.task.id ≠ t.id := by
      intro hid
      have hterm : (status s.rows t.id).any TaskStatus.terminal :=
        h.owing ⟨t, owner, some kind⟩ (List.mem_of_getElem? hcopy) rfl
      rw [← hid, ← billCopy_status s i t owner kind u f, status, hr, Option.map_some, Option.any_some, hr'] at hterm
      cases hterm
    rw [billCopy_row_ne _ _ _ _ _ _ _ hne] at hr
    rcases List.mem_or_eq_of_mem_set hc with hc | rfl
    · exact h.quota c hc hc' r hr hr'
    · exact absurd rfl hne

/-- **One step** of polls of open copies keeps the copies fresh. -/
theorem TaskMove.fresh (hmove : TaskMove s a s') (h : Fresh s) (ha : PollsOpen s a) : Fresh s' := by
  have hsw := hmove.sweepersOpen h.sweepers
  cases hmove with
  | stay => exact h
  | load hrow hopen =>
    refine ⟨hsw, fun c hc howes => ?_, fun c hc hc' r hr hr' => ?_⟩
    · rcases List.mem_append.mp hc with hc | hc
      · exact h.owing c hc howes
      · obtain rfl := List.mem_singleton.mp hc
        cases howes
    · rcases List.mem_append.mp hc with hc | hc
      · exact h.quota c hc hc' r hr hr'
      · obtain rfl := List.mem_singleton.mp hc
        rw [Option.some.inj (hrow.symm.trans hr)]
  | lose hcopy hactor _ hx hpending =>
    have hopen := ha.copy_open h.sweepers hcopy hactor
    obtain rfl := hpending.resolve_right fun ⟨kind, hb⟩ => not_regardless hx hopen kind hb
    exact h.lose hcopy hx hopen hsw
  | win hcopy hactor _ hx hrow hguard hpending =>
    have hopen := ha.copy_open h.sweepers hcopy hactor
    refine h.win hcopy hx hrow hguard hopen (fun howes => ?_) hsw
    obtain ⟨kind, hk⟩ := Option.isSome_iff_exists.mp howes
    have hb := (hpending kind hk).resolve_right (not_regardless hx hopen kind)
    exact (hx.ifWon kind hb).1
  | bulk => exact h.bulk _ _
  | settle _ hcopy => exact h.settle hcopy hsw

end Quota

/-! ## Runs -/

/-- The bill of the copy is a refund. -/
def Copy.Refunds (c : Copy) (u : UsageReport) : Prop :=
  c.task.status = .failure ∧ c.task.quota ≠ 0 ∧ ∃ kind ∈ c.pending, ¬kind.TakesOver c.task u

instance (c : Copy) (u : UsageReport) : Decidable (c.Refunds u) :=
  inferInstanceAs (Decidable (_ ∧ _ ∧ ∃ kind ∈ c.pending, _))

/-- The writes of a bill succeed; the wallet or the subscription takes what a refund pays back. -/
def BillsSucceed (s : TaskState) : TaskAction → Prop
  | .bill i u f => f = noFaults ∧ ∀ c ∈ s.copies[i]?, c.Refunds u →
      (taskAdjustFunding false c.task (-c.task.quota) s.accounts).isSome
  | _ => True

instance (s : TaskState) (a : TaskAction) : Decidable (BillsSucceed s a) :=
  match a with
  | .bill i u f => inferInstanceAs (Decidable (f = noFaults ∧ ∀ c ∈ s.copies[i]?, c.Refunds u → _))
  | .load _ | .loadTimedOut _ _ | .pollVideo _ _ _ _ _ | .pollBatch _ _ _ _ _ | .sweep _ _ _ _
  | .failNull _ _ | .failChannel _ _ _ => .isTrue trivial

/-- Nobody owes a bill. -/
def AllBilled (s : TaskState) : Prop := ∀ c ∈ s.copies, c.pending = none

instance (s : TaskState) : Decidable (AllBilled s) :=
  inferInstanceAs (Decidable (∀ c ∈ s.copies, _))

/-- A step of the run bills the copy `t`: its quota is returned, or the usage settlement takes over. -/
def Refunded (s : TaskState) (as : List TaskAction) (t : Task) : Prop :=
  ∃ mid i u rest owner kind, as = mid ++ .bill i u noFaults :: rest ∧
    (run taskStep s mid).copies[i]? = some ⟨t, owner, some kind⟩ ∧
    (kind.TakesOver t u ∨
      Returned t t.quota (run taskStep s mid).accounts
        (taskStep (run taskStep s mid) (.bill i u noFaults)).accounts)

section Refund

variable {s : TaskState} {i : ℕ} {t : Task} {owner : Owner} {kind : BillKind}

/-- **The bill of a failed task.** -/
theorem bill_returned {u : UsageReport} (hcopy : s.copies[i]? = some ⟨t, owner, some kind⟩)
    (hfail : t.status = .failure) (hq : 0 < t.quota) (hno : ¬kind.TakesOver t u)
    (hok : BillsSucceed s (.bill i u noFaults)) :
    Returned t t.quota s.accounts (taskStep s (.bill i u noFaults)).accounts := by
  have hrefunds : Copy.Refunds ⟨t, owner, some kind⟩ u := ⟨hfail, hq.ne', kind, rfl, hno⟩
  obtain ⟨acc, hacc⟩ := Option.isSome_iff_exists.mp (hok.2 _ hcopy hrefunds)
  have hstep : taskStep s (.bill i u noFaults) = s.billCopy i t owner kind u noFaults := by
    simp only [taskStep, hcopy]
  rw [hstep]
  unfold TaskState.billCopy
  dsimp only
  rw [bill_failed hfail hq.ne' hno]
  exact refundTaskQuota_returned hq hacc

/-- What is owed for a failed task is paid back before the run ends. -/
theorem owing_refunded {as : List TaskAction} (hcopy : s.copies[i]? = some ⟨t, owner, some kind⟩)
    (hfail : t.status = .failure) (hq : 0 < t.quota) (hok : Along taskStep BillsSucceed s as)
    (hdone : AllBilled (run taskStep s as)) : Refunded s as t := by
  obtain ⟨mid, u, f, rest, rfl, hmid⟩ := owing_until_bill hcopy rfl hdone
  have hbill : BillsSucceed (run taskStep s mid) (.bill i u f) := (along_append.mp hok).2.1
  obtain rfl : f = noFaults := hbill.1
  refine ⟨mid, i, u, rest, owner, kind, rfl, hmid, ?_⟩
  by_cases hover : kind.TakesOver t u
  · exact .inl hover
  · exact .inr (bill_returned hmid hfail hq hover hbill)

end Refund

/-- The upstream reports a failure. -/
def rejected : VideoAnswer :=
  .response 200 "no" (.adaptor ⟨.failure, "moderation", "", "", "", 0, 0⟩ "")

/-- The row of `queuedTask` after the report. -/
def rejectedTask : Task :=
  { queuedTask with
    status := .failure, progress := "100%", finishTime := 1790000001, failReason := "moderation"
    data := "no" }

/-- The same report, and the adaptor finds that 40 were used. -/
def settledFailure : List TaskAction :=
  [.load 1, .pollVideo 0 defaultPolling 1790000001 rejected writeOk,
    .bill 0 ⟨40, none, none⟩ noFaults]

end Vancine.Tasks
