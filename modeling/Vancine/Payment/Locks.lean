import Vancine.Lib.Exclusive
import Vancine.Payment.Serial

/-!
# Top-up transactions under row locks

Any number of transactions run at once, in any number of processes. A transaction locks the row of its
order and keeps the copy it read; a settlement that may grant the bonus then locks the row of the user,
asks for the history of the user, and commits on what it read. Locks are held to the end. A commit that
changes a wallet needs the row of that user, its own or free; a step that waits for a lock changes
nothing. The cleaner is a statement of its own and waits for the row like the others.

The transactions are serializable in the order of their commits, and each commits at most once (`serializable`):
what a transaction read under its locks is still so when it commits. The first top-up bonus follows
(`first_top_up_bonus_once`).
-/

namespace Vancine.Payment

open Lib Lib.Table

/-! ## The protocol -/

/-- How far a transaction is, with what it has read. -/
inductive Stage
  | begun
  | orderLocked (o : TopUp)
  | userLocked (o : TopUp)
  | historyRead (o : TopUp) (completed : Bool)
  | done

/-- The locked order. -/
def Stage.order : Stage → Option TopUp
  | .orderLocked o | .userLocked o | .historyRead o _ => some o
  | _ => none

/-- The locked user. -/
def Stage.user : Stage → Option ℤ
  | .userLocked o | .historyRead o _ => some o.userId
  | _ => none

structure Running where
  tx : Tx
  cfg : Settings
  stage : Stage

def Running.orderId (r : Running) : Option ℤ := r.stage.order.map TopUp.id

def Running.userId (r : Running) : Option ℤ := r.stage.user

/-- The settlement comes to the history query. -/
def Running.needsHistory (r : Running) (o : TopUp) : Bool :=
  r.tx.isRecharge && (validFirstTopUpBonusQuota r.cfg).isSome && decide (o.status = .pending)

structure LockState where
  books : Books
  running : List Running

def LockState.start (db : TopUpDb) : LockState := ⟨⟨db, []⟩, []⟩

inductive Progress
  | lockOrder | lockUser | readHistory | commit | abort

inductive LockAction
  | begin (cfg : Settings) (t : Tx)
  | proceed (i : ℕ) (p : Progress)
  | clean (cutoff id : ℤ)

namespace LockState

def setStage (s : LockState) (i : ℕ) (r : Running) (st : Stage) : LockState :=
  { s with running := s.running.set i { r with stage := st } }

def orderFree (s : LockState) (id : ℤ) : Bool := s.running.all fun r => r.orderId ≠ some id

/-- No transaction but `i` holds the user. -/
def userFree (s : LockState) (i : ℕ) (u : ℤ) : Bool :=
  (s.running.eraseIdx i).all fun r => r.userId ≠ some u

/-- Run the transaction from its locked row and commit, or roll back. -/
def finish (s : LockState) (i : ℕ) (r : Running) (o : TopUp) (completed : Bool) : LockState :=
  match r.tx.body r.cfg o completed s.books.db with
  | .error _ => s.setStage i r .done
  | .ok c =>
    if c.event = none ∨ s.userFree i o.userId then
      { s.setStage i r .done with books := s.books.commit c }
    else s

/-- The history flag of a transaction that never asks is not read. -/
def proceed (s : LockState) (i : ℕ) (r : Running) : Progress → LockState
  | .lockOrder =>
    match r.stage with
    | .begun =>
      match s.books.db.orderByTradeNo r.tx.tradeNo with
      | none => s.setStage i r .done
      | some o => if s.orderFree o.id then s.setStage i r (.orderLocked o) else s
    | _ => s
  | .lockUser =>
    match r.stage with
    | .orderLocked o => if s.userFree i o.userId then s.setStage i r (.userLocked o) else s
    | _ => s
  | .readHistory =>
    match r.stage with
    | .userLocked o =>
      s.setStage i r (.historyRead o (hasCompletedRealTopUp s.books.db o.userId o.id))
    | _ => s
  | .commit =>
    match r.stage with
    | .orderLocked o => if r.needsHistory o then s else s.finish i r o true
    | .userLocked o => if r.needsHistory o then s else s.finish i r o true
    | .historyRead o completed => s.finish i r o completed
    | _ => s
  | .abort => s.setStage i r .done

end LockState

def lockStep (s : LockState) : LockAction → LockState
  | .begin cfg t =>
    match t.check cfg with
    | .error _ => s
    | .ok () => { s with running := s.running ++ [⟨t, cfg, .begun⟩] }
  | .proceed i p =>
    match s.running[i]? with
    | none => s
    | some r => s.proceed i r p
  | .clean cutoff id =>
    match s.books.db.order id with
    | none => s
    | some o =>
      if s.orderFree id then
        { s with books := s.books.commit ⟨cleanExpiredPendingTopUp cutoff o s.books.db, none⟩ }
      else s

/-! ## Calls -/

/-- The call that an action asks for. -/
def LockAction.asked : LockAction → List SerialAction
  | .begin cfg t => [.tx cfg t]
  | .proceed _ _ => []
  | .clean cutoff id => [.clean cutoff id]

/-- The call of a transaction that is not over. -/
def Running.call? (r : Running) : Option SerialAction :=
  match r.stage with
  | .done => none
  | _ => some (.tx r.cfg r.tx)

def LockState.pending (s : LockState) : List SerialAction := s.running.filterMap Running.call?

/-- From `s` to `s'` at most one call was carried out, whole, of those pending or asked for. -/
def Carried (s s' : LockState) (asked : List SerialAction) : Prop :=
  ∃ b : Option SerialAction, s'.books = run serialStep s.books b.toList ∧
    (b.toList ++ s'.pending).Subperm (s.pending ++ asked)

section Calls

variable {s : LockState} {i : ℕ} {r : Running}

theorem pending_setStage (hr : s.running[i]? = some r) (st : Stage) :
    ∃ rest, s.pending.Perm (r.call?.toList ++ rest) ∧
      (s.setStage i r st).pending.Perm ((Running.call? { r with stage := st }).toList ++ rest) := by
  obtain ⟨hi, rfl⟩ := List.getElem?_eq_some_iff.mp hr
  refine ⟨(s.running.eraseIdx i).filterMap Running.call?, ?_, ?_⟩
  · refine ((List.getElem_cons_eraseIdx_perm hi).symm.filterMap _).trans ?_
    rw [List.filterMap_cons]
    split <;> simp_all
  · refine ((List.set_perm_cons_eraseIdx hi _).filterMap _).trans ?_
    rw [List.filterMap_cons]
    split <;> simp_all

theorem Carried.refl (asked : List SerialAction) : Carried s s asked :=
  ⟨none, rfl, (List.sublist_append_left _ _).subperm⟩

theorem Carried.setStage (hr : s.running[i]? = some r) {st : Stage}
    (hcall : ∀ b, Running.call? { r with stage := st } = some b → r.call? = some b) :
    Carried s (s.setStage i r st) [] := by
  obtain ⟨rest, hbefore, hafter⟩ := pending_setStage hr st
  refine ⟨none, rfl, ?_⟩
  rw [List.append_nil]
  refine hafter.subperm.trans (List.Subperm.trans ?_ hbefore.symm.subperm)
  refine (List.subperm_append_right _).mpr (List.Sublist.subperm ?_)
  cases hst : Running.call? { r with stage := st } with
  | none => exact List.nil_sublist _
  | some b => rw [hcall b hst]

theorem Carried.done (hr : s.running[i]? = some r) : Carried s (s.setStage i r .done) [] :=
  .setStage hr fun _ h => by cases h

theorem Running.call?_of_order {o : TopUp} (ho : r.stage.order = some o) : r.call? = some (.tx r.cfg r.tx) := by
  unfold Running.call?
  split
  next hst => rw [hst] at ho; cases ho
  next => rfl

theorem Carried.commit (hr : s.running[i]? = some r) {o : TopUp} (ho : r.stage.order = some o) {c : Commit}
    (hexec : r.tx.exec r.cfg s.books.db = .ok c) :
    Carried s { s.setStage i r .done with books := s.books.commit c } [] := by
  obtain ⟨rest, hbefore, hafter⟩ := pending_setStage hr .done
  rw [Running.call?_of_order ho] at hbefore
  refine ⟨some (.tx r.cfg r.tx), ?_, ?_⟩
  · simp only [Option.toList_some, run_cons, run_nil, serialStep, hexec]
  · rw [List.append_nil]
    exact ((hafter.cons _).trans hbefore.symm).subperm

end Calls

/-! ## What is read under a lock stays -/

/-- The transaction passed its checks, and what it has read is what the database holds. -/
structure Running.Fresh (db : TopUpDb) (r : Running) : Prop where
  checked : r.tx.check r.cfg = .ok ()
  locked : ∀ o, r.stage.order = some o → db.orderByTradeNo r.tx.tradeNo = some o
  history : ∀ o completed, r.stage = .historyRead o completed →
    completed = hasCompletedRealTopUp db o.userId o.id

structure Coherent (s : LockState) : Prop where
  valid : s.books.db.Valid
  fresh : ∀ (i : ℕ) (r : Running), s.running[i]? = some r → r.Fresh s.books.db
  orders : Exclusive Running.orderId s.running
  users : Exclusive Running.userId s.running

theorem coherent_start {db : TopUpDb} (hdb : db.Valid) : Coherent (.start db) :=
  ⟨hdb, by simp [LockState.start], exclusive_nil, exclusive_nil⟩

section Coherent

variable {s : LockState} {i : ℕ} {r : Running}

theorem Running.Fresh.done {db : TopUpDb} (h : r.Fresh db) : Running.Fresh db { r with stage := .done } :=
  ⟨h.checked, by simp [Stage.order], by simp⟩

theorem Coherent.setStage (h : Coherent s) (hr : s.running[i]? = some r) {st : Stage}
    (hfresh : Running.Fresh s.books.db { r with stage := st })
    (hord : ∀ id, st.order.map TopUp.id = some id → r.orderId = some id ∨ ∀ z ∈ s.running, z.orderId ≠ some id)
    (huser : ∀ u, st.user = some u → r.userId = some u ∨ ∀ z ∈ s.running, z.userId ≠ some u) :
    Coherent (s.setStage i r st) := by
  refine ⟨h.valid, ?_, h.orders.set hr hord, h.users.set hr huser⟩
  intro j z hz
  rcases getElem?_set_cases hr hz with ⟨rfl, rfl⟩ | ⟨-, hz'⟩
  · exact hfresh
  · exact h.fresh j z hz'

theorem Coherent.done (h : Coherent s) (hr : s.running[i]? = some r) : Coherent (s.setStage i r .done) :=
  h.setStage hr (h.fresh i r hr).done (by simp [Stage.order]) (by simp [Stage.user])

theorem not_orderId_of_free {id : ℤ} (h : s.orderFree id = true) {z : Running}
    (hz : z ∈ s.running) : z.orderId ≠ some id := by
  simpa using List.all_eq_true.mp h z hz

theorem not_userId_of_free {u : ℤ} (h : s.userFree i u = true) {j : ℕ} {z : Running} (hj : j ≠ i)
    (hz : s.running[j]? = some z) : z.userId ≠ some u := by
  have hmem : z ∈ s.running.eraseIdx i := List.mem_eraseIdx_iff_getElem?.mpr ⟨j, hj, hz⟩
  simpa using List.all_eq_true.mp h z hmem

variable {o : TopUp} {completed : Bool} {c : Commit}

/-- **Frame.** What a transaction read survives an effect on another order, if the effect changes no
wallet or the transaction does not hold that user. -/
theorem Running.Fresh.post {db : TopUpDb} (h : r.Fresh db) (hdb : db.Valid) (ho : db.order o.id = some o)
    (he : Effect o completed db c) (hord : r.orderId ≠ some o.id) (huser : c.event = none ∨ r.userId ≠ some o.userId) :
    r.Fresh c.db := by
  obtain ⟨o', hm, -, -⟩ := he.moved hdb ho
  refine ⟨h.checked, ?_, ?_⟩
  · intro q hq
    apply hm.byTradeNo _ _ (h.locked q hq)
    rintro hid
    exact hord (by rw [Running.orderId, hq, Option.map_some, hid])
  · intro q b hq
    rw [h.history q b hq]
    refine (he.history_eq hdb ho ?_ q.id).symm
    refine huser.imp_right fun hne heq => hne ?_
    rw [Running.userId, hq, heq]
    rfl

/-- **A commit** keeps the state coherent. -/
theorem Coherent.commit (h : Coherent s) (hr : s.running[i]? = some r) (ho : r.stage.order = some o)
    (he : Effect o completed s.books.db c) (huser : c.event = none ∨ s.userFree i o.userId = true) :
    Coherent { s.setStage i r .done with books := s.books.commit c } := by
  have hrow : s.books.db.order o.id = some o :=
    h.valid.order_of_tradeNo ((h.fresh i r hr).locked o ho)
  have hrid : r.orderId = some o.id := by rw [Running.orderId, ho, Option.map_some]
  obtain ⟨o', hm, -, -⟩ := he.moved h.valid hrow
  refine ⟨hm.valid h.valid, ?_, (h.done hr).orders, (h.done hr).users⟩
  intro j z hz
  rcases getElem?_set_cases hr hz with ⟨rfl, rfl⟩ | ⟨hj, hz'⟩
  · exact ⟨(h.fresh j r hr).checked, by simp [Stage.order], by simp⟩
  · refine (h.fresh j z hz').post h.valid hrow he ?_ ?_
    · intro hzid
      exact hj (h.orders j i z r o.id hz' hr hzid hrid)
    · exact huser.imp_right fun hfree => not_userId_of_free hfree hj hz'

/-- **A statement of its own** that changes an unlocked order and no wallet keeps the state coherent. -/
theorem Coherent.post (h : Coherent s) (ho : s.books.db.order o.id = some o) (he : Effect o completed s.books.db c)
    (hnone : c.event = none) (hfree : s.orderFree o.id = true) : Coherent { s with books := s.books.commit c } := by
  obtain ⟨o', hm, -, -⟩ := he.moved h.valid ho
  refine ⟨hm.valid h.valid, ?_, h.orders, h.users⟩
  intro j z hz
  exact (h.fresh j z hz).post h.valid ho he
    (not_orderId_of_free hfree (List.mem_of_getElem? hz)) (.inl hnone)

end Coherent

/-! ## Serializability -/

section Serial

variable {s : LockState} {i : ℕ} {r : Running} {o : TopUp}

/-- The flag does not matter to a transaction that does not need the history. -/
theorem body_completed (h : r.needsHistory o = false) (completed completed' : Bool) (db : TopUpDb) :
    r.tx.body r.cfg o completed db = r.tx.body r.cfg o completed' db := by
  unfold Running.needsHistory at h
  cases ht : r.tx with
  | manualCompleteTopUp _ | updatePendingTopUpStatus _ _ _ | refundPayPalTopUp _ _ | applyPayPalSettlement _ => rfl
  | _ =>
    have hoff : validFirstTopUpBonusQuota r.cfg = none ∨ o.status ≠ .pending := by
      simpa [ht, Tx.isRecharge, or_iff_not_imp_left, Option.ne_none_iff_isSome] using h
    exact settle_completed hoff completed'

/-- What committing transaction `i` on the row `o` means: the state stays coherent, and the books do
nothing or the whole call at once. -/
theorem finish_refines (h : Coherent s) (hr : s.running[i]? = some r) (ho : r.stage.order = some o) {completed : Bool}
    (hflag : r.tx.body r.cfg o completed s.books.db =
      r.tx.body r.cfg o (hasCompletedRealTopUp s.books.db o.userId o.id) s.books.db) :
    Coherent (s.finish i r o completed) ∧ Carried s (s.finish i r o completed) [] := by
  unfold LockState.finish
  cases hb : r.tx.body r.cfg o completed s.books.db with
  | error e => exact ⟨h.done hr, .done hr⟩
  | ok c =>
    dsimp only
    by_cases hu : c.event = none ∨ s.userFree i o.userId = true
    · rw [if_pos hu]
      have hexec : r.tx.exec r.cfg s.books.db = .ok c := by
        have hfresh := h.fresh i r hr
        unfold Tx.exec
        rw [hfresh.checked, hfresh.locked o ho]
        exact hflag.symm.trans hb
      exact ⟨h.commit hr ho (Tx.body_effect hb) hu, .commit hr ho hexec⟩
    · rw [if_neg hu]
      exact ⟨h, .refl _⟩

theorem proceed_refines (h : Coherent s) (hr : s.running[i]? = some r) (p : Progress) :
    Coherent (s.proceed i r p) ∧ Carried s (s.proceed i r p) [] := by
  have hfresh := h.fresh i r hr
  cases p with
  | lockOrder =>
    simp only [LockState.proceed]
    split
    · rename_i hst
      split
      · exact ⟨h.done hr, .done hr⟩
      · rename_i o ho
        split_ifs with hfree
        · refine ⟨h.setStage hr ⟨hfresh.checked, ?_, by simp⟩ ?_ (by simp [Stage.user]),
            .setStage hr (by simp [Running.call?, hst])⟩
          · intro q hq
            obtain rfl : o = q := by simpa [Stage.order] using hq
            exact ho
          · intro id hid
            obtain rfl : o.id = id := by simpa [Stage.order] using hid
            exact .inr fun z hz => not_orderId_of_free hfree hz
        · exact ⟨h, .refl _⟩
    · exact ⟨h, .refl _⟩
  | lockUser =>
    simp only [LockState.proceed]
    split
    · rename_i o hst
      have hro : r.stage.order = some o := by rw [hst]; rfl
      split_ifs with hfree
      · refine ⟨h.setStage hr ⟨hfresh.checked, fun q hq => hfresh.locked q (hro.trans hq), by simp⟩
          ?_ ?_, .setStage hr (by simp [Running.call?, hst])⟩
        · intro id hid
          left
          rw [Running.orderId, hro]
          exact hid
        · intro u hu
          obtain rfl : o.userId = u := by simpa [Stage.user] using hu
          right
          intro z hz
          obtain ⟨j, hj⟩ := List.mem_iff_getElem?.mp hz
          by_cases hji : j = i
          · -- the transaction itself holds no user yet
            subst hji
            obtain rfl : r = z := Option.some.inj (hr.symm.trans hj)
            simp [Running.userId, hst, Stage.user]
          · exact not_userId_of_free hfree hji hj
      · exact ⟨h, .refl _⟩
    · exact ⟨h, .refl _⟩
  | readHistory =>
    simp only [LockState.proceed]
    split
    · rename_i o hst
      have hro : r.stage.order = some o := by rw [hst]; rfl
      refine ⟨h.setStage hr ⟨hfresh.checked, fun q hq => hfresh.locked q (hro.trans hq), ?_⟩
        ?_ ?_, .setStage hr (by simp [Running.call?, hst])⟩
      · intro q b hq
        obtain ⟨rfl, rfl⟩ := Stage.historyRead.inj hq
        rfl
      · intro id hid
        left
        rw [Running.orderId, hro]
        exact hid
      · intro u hu
        left
        rw [Running.userId, hst]
        exact hu
    · exact ⟨h, .refl _⟩
  | commit =>
    simp only [LockState.proceed]
    split
    · rename_i o hst
      split_ifs with hneed
      · exact ⟨h, .refl _⟩
      · exact finish_refines h hr (by rw [hst]; rfl) (body_completed (by simpa using hneed) _ _ _)
    · rename_i o hst
      split_ifs with hneed
      · exact ⟨h, .refl _⟩
      · exact finish_refines h hr (by rw [hst]; rfl) (body_completed (by simpa using hneed) _ _ _)
    · rename_i o completed hst
      apply finish_refines h hr (by rw [hst]; rfl)
      rw [← hfresh.history o completed hst]
    · exact ⟨h, .refl _⟩
  | abort => exact ⟨h.done hr, .done hr⟩

/-- **One step** keeps the state coherent, and is nothing or one whole call to the books. -/
theorem lockStep_refines (h : Coherent s) (a : LockAction) :
    Coherent (lockStep s a) ∧ Carried s (lockStep s a) a.asked := by
  cases a with
  | begin cfg t =>
    simp only [lockStep]
    cases hc : t.check cfg with
    | error e => exact ⟨h, .refl _⟩
    | ok _ =>
      refine ⟨⟨h.valid, ?_, h.orders.append rfl, h.users.append rfl⟩,
        none, rfl, by simp [LockState.pending, Running.call?, LockAction.asked, List.Subperm.refl]⟩
      intro j z hz
      rcases Nat.lt_or_ge j s.running.length with hj | hj
      · rw [List.getElem?_append_left hj] at hz
        exact h.fresh j z hz
      · rw [List.getElem?_append_right hj] at hz
        obtain rfl := List.mem_singleton.mp (List.mem_of_getElem? hz)
        exact ⟨hc, by simp [Stage.order], by simp⟩
  | proceed i p =>
    simp only [lockStep]
    cases hr : s.running[i]? with
    | none => exact ⟨h, .refl _⟩
    | some r => exact proceed_refines h hr p
  | clean cutoff id =>
    simp only [lockStep]
    cases ho : s.books.db.order id with
    | none => exact ⟨h, .refl _⟩
    | some o =>
      obtain rfl : o.id = id := find_key ho
      dsimp only
      split_ifs with hfree
      · have he : Effect o true s.books.db ⟨cleanExpiredPendingTopUp cutoff o s.books.db, none⟩ :=
          cleanExpiredPendingTopUp_effect cutoff
        refine ⟨h.post ho he rfl hfree, some (.clean cutoff o.id), ?_, List.perm_append_comm.subperm⟩
        simp only [Option.toList_some, run_cons, run_nil, serialStep, ho]
      · exact ⟨h, .refl _⟩

/-- **Serializability.** Every interleaving leaves the books as whole calls one after the other do, and these are calls
that were asked for, each carried out at most as often as it was. -/
theorem serializable {db : TopUpDb} (hdb : db.Valid) (as : List LockAction) :
    ∃ bs, bs.Subperm (as.flatMap LockAction.asked) ∧
      (run lockStep (.start db) as).books = run serialStep ⟨db, []⟩ bs := by
  have hrun : ∃ bs, (run lockStep (.start db) as).books = run serialStep ⟨db, []⟩ bs ∧
      (bs ++ (run lockStep (.start db) as).pending).Subperm (as.flatMap LockAction.asked) :=
    run_refines (fun _ a h => (lockStep_refines h a).1) (fun _ a h => (lockStep_refines h a).2) (coherent_start hdb) as
  obtain ⟨bs, hbooks, hcalls⟩ := hrun
  exact ⟨bs, (List.sublist_append_left bs _).subperm.trans hcalls, hbooks⟩

theorem lockStep_posted (h : Coherent s) (a : LockAction) :
    (lockStep s a).books = s.books ∨ Posted s.books (lockStep s a).books := by
  obtain ⟨b, hbooks, -⟩ := (lockStep_refines h a).2
  rw [hbooks]
  cases b with
  | none => exact .inl rfl
  | some b => exact serialStep_posted h.valid b

end Serial

/-! ## First top-up bonus -/

/-- What the state owes to the bonuses of a user: there was at most one, and it left a history. -/
structure BonusSettled (u : ℤ) (s : LockState) : Prop where
  coherent : Coherent s
  once : bonusCount s.books.log u ≤ 1
  history : bonusCount s.books.log u = 1 → hasCompletedRealTopUp s.books.db u 0 = true

theorem lockStep_bonus {s : LockState} (h : Coherent s) (a : LockAction) (u : ℤ) :
    (bonusCount (lockStep s a).books.log u = bonusCount s.books.log u ∨
      (bonusCount (lockStep s a).books.log u = bonusCount s.books.log u + 1 ∧
        hasCompletedRealTopUp s.books.db u 0 = false ∧ hasCompletedRealTopUp (lockStep s a).books.db u 0 = true)) ∧
      (hasCompletedRealTopUp s.books.db u 0 = true → hasCompletedRealTopUp (lockStep s a).books.db u 0 = true) := by
  rcases lockStep_posted h a with hk | hp
  · rw [hk]
    exact ⟨.inl rfl, id⟩
  · exact hp.bonus h.valid u

theorem bonusSettled_step {u : ℤ} {s : LockState} (h : BonusSettled u s) (a : LockAction) :
    BonusSettled u (lockStep s a) := by
  obtain ⟨hcount, hmono⟩ := lockStep_bonus h.coherent a u
  refine ⟨(lockStep_refines h.coherent a).1, ?_, ?_⟩
  · rcases hcount with hk | ⟨hk, hno, -⟩
    · rw [hk]; exact h.once
    · -- a first bonus would have left a history
      have hne : bonusCount s.books.log u ≠ 1 := fun h1 => by
        rw [h.history h1] at hno; cases hno
      have := h.once
      omega
  · intro h1
    rcases hcount with hk | ⟨-, -, hyes⟩
    · exact hmono (h.history (hk ▸ h1))
    · exact hyes

/-- **The first top-up bonus.** In every interleaving, a user is granted the bonus at most once; the step
that grants it finds no completed real top-up of the user; and no step, a refund included, takes a user's
history away. -/
theorem first_top_up_bonus_once (db : TopUpDb) (hdb : db.Valid) (as : List LockAction) (u : ℤ) :
    bonusCount (run lockStep (.start db) as).books.log u ≤ 1 ∧
      Along lockStep
        (fun s a =>
          (bonusCount s.books.log u < bonusCount (lockStep s a).books.log u →
            hasCompletedRealTopUp s.books.db u 0 = false) ∧
          (hasCompletedRealTopUp s.books.db u 0 = true →
            hasCompletedRealTopUp (lockStep s a).books.db u 0 = true))
        (.start db) as := by
  have hstart : BonusSettled u (.start db) :=
    ⟨coherent_start hdb, Nat.zero_le 1, fun h => absurd h Nat.zero_ne_one⟩
  have hstep : ∀ s a, BonusSettled u s → BonusSettled u (lockStep s a) :=
    fun _ a h => bonusSettled_step h a
  refine ⟨(run_invariant hstep hstart as).once, along_of_invariant hstep ?_ hstart as⟩
  intro s a h
  obtain ⟨hcount, hmono⟩ := lockStep_bonus h.coherent a u
  refine ⟨fun hlt => ?_, hmono⟩
  rcases hcount with hk | ⟨-, hno, -⟩
  · omega
  · exact hno

def pendingOrder (id : ℤ) (provider : PaymentProvider) (tradeNo : String) : TopUp where
  id := id
  userId := 7
  amount := 10
  money := ⟨10, 0⟩
  tradeNo := tradeNo
  paymentMethod := ""
  paymentProvider := provider
  transactionId := none
  createTime := 100
  completeTime := 0
  status := .pending
  baseQuota := 0
  bonusQuota := 0

/-- Two pending orders of one user. -/
def pendingDb : TopUpDb where
  orders := [pendingOrder 1 .epay "T1", pendingOrder 2 .stripe "T2"]
  users := [⟨7, 0⟩]
  ledger := []

def withBonus : Settings where
  quotaPerUnit := ⟨500000, 0⟩
  quotaForFirstTopUp := 250
  now := 200
  decimalFromString _ := none

/-- Two settlements race for the bonus; the second waits for the row of the user. -/
def racingSettlements : List LockAction :=
  [.begin withBonus (.rechargeEpay "T1" "alipay"), .begin withBonus (.recharge "T2"),
    .proceed 0 .lockOrder, .proceed 1 .lockOrder, .proceed 0 .lockUser, .proceed 1 .lockUser,
    .proceed 1 .readHistory, .proceed 0 .readHistory, .proceed 0 .commit, .proceed 1 .lockUser,
    .proceed 1 .readHistory, .proceed 1 .commit]

theorem serializable_racing : ∃ bs, bs.Subperm (racingSettlements.flatMap LockAction.asked) ∧
    (run lockStep (.start pendingDb) racingSettlements).books = run serialStep ⟨pendingDb, []⟩ bs :=
  serializable (by unfold TopUpDb.Valid; decide) racingSettlements

theorem first_top_up_bonus_once_racing :
    (run lockStep (.start pendingDb) racingSettlements).books.log =
        [.credit 1 7 5000000 250, .credit 2 7 5000000 0] ∧
      bonusCount (run lockStep (.start pendingDb) racingSettlements).books.log 7 ≤ 1 :=
  ⟨by decide,
    (first_top_up_bonus_once pendingDb (by unfold TopUpDb.Valid; decide) racingSettlements 7).1⟩

end Vancine.Payment
