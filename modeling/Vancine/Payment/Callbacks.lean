import Vancine.Payment.Locks

/-!
# The status machine of an order

The transactions of `Vancine.Payment.Locks` together with the one callback that writes an order outside of
them: `sessionAsyncPaymentFailed` of the Stripe webhook reads the row without a lock, checks that it is
pending, and saves its copy as failed. The mutex it holds meanwhile is one of its own process, and callbacks
and manual completions of other processes do not see it, so here every handler runs in a process of its own.

As long as such a save finds the row still pending, it is one more way to close a pending order, and every
order follows the status machine (`orders_follow_status_machine`). A save that comes late takes a success
back (`late_save_undoes_success`).
-/

namespace Vancine.Payment

open Lib Lib.Table

/-- `copies` are the rows read by handlers that have not saved yet. -/
structure CallbackState where
  locks : LockState
  copies : List TopUp

def CallbackState.start (db : TopUpDb) : CallbackState := ⟨.start db, []⟩

def CallbackState.books (s : CallbackState) : Books := s.locks.books

inductive CallbackAction
  | locks (a : LockAction)
  /-- The first half of `sessionAsyncPaymentFailed`: read the row and check it. -/
  | loadFailed (referenceId : String)
  /-- The second half: save the copy, as failed, over the whole row. -/
  | saveFailed (i : ℕ)

/-- `topUp.Update()` of a copy whose status was set to failed. -/
def saveAsFailed (topUp : TopUp) (db : TopUpDb) : TopUpDb :=
  { db with orders := save TopUp.id { topUp with status := .failed } db.orders }

def callbackStep (s : CallbackState) : CallbackAction → CallbackState
  | .locks a => { s with locks := lockStep s.locks a }
  | .loadFailed referenceId =>
    if referenceId = "" then s
    else
      match s.books.db.orderByTradeNo referenceId with
      | none => s
      | some topUp =>
        if topUp.paymentProvider ≠ .stripe ∨ topUp.status ≠ .pending then s
        else { s with copies := s.copies ++ [topUp] }
  | .saveFailed i =>
    match s.copies[i]? with
    | none => s
    | some topUp =>
      if s.locks.orderFree topUp.id then
        { locks := { s.locks with books := s.books.commit ⟨saveAsFailed topUp s.books.db, none⟩ }
          copies := s.copies.eraseIdx i }
      else s

/-- A save finds its row pending: nothing settled or closed the order since the copy was read. -/
def SavesPending (s : CallbackState) : CallbackAction → Prop
  | .saveFailed i => ∀ topUp ∈ s.copies[i]?, s.books.db.status topUp.id = some .pending
  | _ => True

instance (s : CallbackState) : (a : CallbackAction) → Decidable (SavesPending s a)
  | .saveFailed i =>
    inferInstanceAs (Decidable (∀ topUp ∈ s.copies[i]?, s.books.db.status topUp.id = some .pending))
  | .locks _ => inferInstanceAs (Decidable True)
  | .loadFailed _ => inferInstanceAs (Decidable True)

/-- The copies were read from rows that are unchanged while they are pending. -/
structure CallbackState.Tracked (s : CallbackState) : Prop where
  coherent : Coherent s.locks
  copies : ∀ topUp ∈ s.copies, topUp.status = .pending ∧
    ∃ row, s.books.db.order topUp.id = some row ∧ (row.status = .pending → row = topUp)

/-! ## One step -/

section Step

variable {s : CallbackState}

/-- A posting keeps the copies tracked: a row that it changes is pending no more. -/
theorem copy_tracked_post {b b' : Books} (h : b' = b ∨ Posted b b') (hb : b.db.Valid) {topUp : TopUp}
    (hc : ∃ row, b.db.order topUp.id = some row ∧ (row.status = .pending → row = topUp)) :
    ∃ row, b'.db.order topUp.id = some row ∧ (row.status = .pending → row = topUp) := by
  rcases h with rfl | ⟨o, c, ho, he, rfl⟩
  · exact hc
  obtain ⟨row, hrow, hsame⟩ := hc
  obtain ⟨o', hm, -, -⟩ := he.moved hb ho
  by_cases hid : topUp.id = o.id
  · rw [hid] at hrow ⊢
    obtain rfl : o = row := Option.some.inj (ho.symm.trans hrow)
    cases he with
    | keep => exact ⟨o, ho, hsame⟩
    | record ledger => exact ⟨o, ho, hsame⟩
    | close st hst hp =>
      refine ⟨_, (moved_save hb ho (.status o st) _ _).here, ?_⟩
      rcases hst with rfl | rfl <;> simp
    | credit settled users base bonus hp hs hord =>
      refine ⟨_, (moved_save hb ho hord _ _).here, ?_⟩
      rw [hs]; simp
    | refund amount users ledger hs =>
      exact ⟨_, (moved_save hb ho (.status o _) _ _).here, by simp⟩
  · exact ⟨row, (hm.others _ hid).trans hrow, hsame⟩

/-- **One step** whose saves find pending rows keeps the state tracked and posts nothing or one effect. -/
theorem callbackStep_posted (h : s.Tracked) (a : CallbackAction) (ha : SavesPending s a) : (callbackStep s a).Tracked ∧
      ((callbackStep s a).books = s.books ∨ Posted s.books (callbackStep s a).books) := by
  cases a with
  | locks a =>
    have hp := lockStep_posted h.coherent a
    refine ⟨⟨(lockStep_refines h.coherent a).1, ?_⟩, hp⟩
    intro topUp hmem
    obtain ⟨hst, hrow⟩ := h.copies topUp hmem
    exact ⟨hst, copy_tracked_post hp h.coherent.valid hrow⟩
  | loadFailed referenceId =>
    simp only [callbackStep]
    split_ifs with hempty
    · exact ⟨h, .inl rfl⟩
    split
    · exact ⟨h, .inl rfl⟩
    rename_i topUp hfind
    split_ifs with hskip
    · exact ⟨h, .inl rfl⟩
    · refine ⟨⟨h.coherent, ?_⟩, .inl rfl⟩
      intro x hx
      rcases List.mem_append.mp hx with hx | hx
      · exact h.copies x hx
      · obtain rfl := List.mem_singleton.mp hx
        push Not at hskip
        exact ⟨hskip.2, x, h.coherent.valid.order_of_tradeNo hfind, fun _ => rfl⟩
  | saveFailed i =>
    simp only [callbackStep, SavesPending] at ha ⊢
    cases hc : s.copies[i]? with
    | none => exact ⟨h, .inl rfl⟩
    | some topUp =>
      have ha' : s.books.db.status topUp.id = some .pending := ha topUp hc
      dsimp only
      split_ifs with hfree
      swap
      · exact ⟨h, .inl rfl⟩
      obtain ⟨hpending, row, hrow, hsame⟩ := h.copies topUp (List.mem_of_getElem? hc)
      -- the row is pending, so it is the copy
      obtain rfl : row = topUp := by
        apply hsame
        rw [TopUpDb.status, hrow, Option.map_some] at ha'
        exact Option.some.inj ha'
      have he : Effect row (hasCompletedRealTopUp s.books.db row.userId row.id) s.books.db
          ⟨saveAsFailed row s.books.db, none⟩ := .close .failed (.inl rfl) hpending
      have hposted : Posted s.books (s.books.commit ⟨saveAsFailed row s.books.db, none⟩) :=
        ⟨row, _, hrow, he, rfl⟩
      refine ⟨⟨h.coherent.post hrow he rfl hfree, ?_⟩, .inr hposted⟩
      intro x hx
      obtain ⟨hst, hx'⟩ := h.copies x (List.mem_of_mem_eraseIdx hx)
      exact ⟨hst, copy_tracked_post (.inr hposted) h.coherent.valid hx'⟩

end Step

/-! ## Whole runs -/

variable {db : TopUpDb}

theorem tracked_start (hdb : db.Valid) : (CallbackState.start db).Tracked :=
  ⟨coherent_start hdb, by simp [CallbackState.start]⟩

theorem callbackStep_order {s : CallbackState} (h : s.Tracked) {a : CallbackAction}
    (ha : SavesPending s a) (id : ℤ) : OrderStep s.books (callbackStep s a).books id := by
  rcases (callbackStep_posted h a ha).2 with hk | hp
  · rw [hk]; exact .refl _ id
  · exact hp.orderStep h.coherent.valid id

/-- What the run so far has done: an order was credited at most once, and if it was, it is a success or
refunded; the wallets are the first wallets and the log. -/
structure Accounted (db : TopUpDb) (s : CallbackState) : Prop where
  tracked : s.Tracked
  once : ∀ id, creditCount s.books.log id = 0 ∨
    (creditCount s.books.log id = 1 ∧
      (s.books.db.status id = some .success ∨ s.books.db.status id = some .refunded))
  wallets : ∀ u, wallet s.books.db.users u =
    (wallet db.users u).map (· + (creditTotal s.books.log u - refundTotal s.books.log u))

theorem accounted_start (hdb : db.Valid) : Accounted db (.start db) :=
  ⟨tracked_start hdb, fun _ => .inl rfl, by
    simp [CallbackState.start, CallbackState.books, LockState.start, creditTotal, refundTotal]⟩

/-- A credited order is not credited again, for a success or a refund never turns pending. -/
theorem credited_once {b b' : Books} {id : ℤ} (h : OrderStep b b' id)
    (hb : creditCount b.log id = 0 ∨ (creditCount b.log id = 1 ∧
      (b.db.status id = some .success ∨ b.db.status id = some .refunded))) :
    creditCount b'.log id = 0 ∨ (creditCount b'.log id = 1 ∧
      (b'.db.status id = some .success ∨ b'.db.status id = some .refunded)) := by
  rcases h with ⟨hnone, -, hcount⟩ | ⟨st, st', hst, hst', hmove, hcount⟩
  · rw [hnone] at hb
    left
    rw [hcount]
    simpa using hb
  · rw [hst] at hb
    rw [hst', hcount]
    cases hmove with
    | settle =>
      have h0 : creditCount b.log id = 0 := by simpa using hb
      exact .inr ⟨by rw [if_pos ⟨rfl, rfl⟩, h0], .inl rfl⟩
    | refund =>
      rcases hb with h0 | ⟨h1, -⟩
      · left; simp [h0]
      · right; simp [h1]
    | stay st =>
      have hstay : ¬(st = .pending ∧ st = .success) := by
        rintro ⟨rfl, h⟩
        cases h
      rw [if_neg hstay, Nat.add_zero]
      exact hb
    | fail =>
      left
      simpa using hb
    | expire =>
      left
      simpa using hb

theorem accounted_step {s : CallbackState} (h : Accounted db s) {a : CallbackAction} (ha : SavesPending s a) :
    Accounted db (callbackStep s a) := by
  obtain ⟨htracked, hposted⟩ := callbackStep_posted h.tracked a ha
  refine ⟨htracked, ?_, ?_⟩
  · intro id
    exact credited_once (callbackStep_order h.tracked ha id) (h.once id)
  · intro u
    rcases hposted with hk | hp
    · rw [hk]; exact h.wallets u
    · rw [hp.wallet_eq u, h.wallets u, Option.map_map]
      congr 1
      funext q
      simp only [Function.comp_apply]
      omega

/-- **The status machine of top-up orders.** In every run whose saves find pending rows, every step moves
every order along one edge of the status machine and credits it exactly if it turns from pending to
success; no order is credited twice; and every wallet is its first value, plus the credits, minus the
refunds. -/
theorem orders_follow_status_machine (db : TopUpDb) (hdb : db.Valid) (as : List CallbackAction)
    (hsaves : Along callbackStep SavesPending (.start db) as) :
    Along callbackStep
        (fun s a => ∀ id, OrderStep s.books (callbackStep s a).books id) (.start db) as ∧
      (∀ id, creditCount (run callbackStep (.start db) as).books.log id ≤ 1) ∧
      ∀ u, wallet (run callbackStep (.start db) as).books.db.users u =
        (wallet db.users u).map
          (· + (creditTotal (run callbackStep (.start db) as).books.log u -
            refundTotal (run callbackStep (.start db) as).books.log u)) := by
  have hend : Accounted db (run callbackStep (.start db) as) :=
    run_invariant_along (I := Accounted db) (fun _ _ h ha => accounted_step h ha)
      (accounted_start hdb) hsaves
  refine ⟨?_, ?_, hend.wallets⟩
  · exact along_of_invariant_along (fun _ a h ha => (callbackStep_posted h a ha).1)
      (fun _ _ h ha id => callbackStep_order h ha id) (tracked_start hdb) hsaves
  · intro id
    rcases hend.once id with h0 | ⟨h1, -⟩
    · omega
    · omega

/-- A failed payment of one order, and the callback of the other delivered twice. -/
def duplicateCallbacks : List CallbackAction :=
  [.loadFailed "T2", .saveFailed 0, .locks (.begin withBonus (.rechargeEpay "T1" "alipay")),
    .locks (.begin withBonus (.rechargeEpay "T1" "alipay")), .locks (.proceed 0 .lockOrder),
    .locks (.proceed 1 .lockOrder), .locks (.proceed 0 .lockUser), .locks (.proceed 0 .readHistory),
    .locks (.proceed 0 .commit), .locks (.proceed 1 .lockOrder), .locks (.proceed 1 .commit)]

theorem orders_follow_status_machine_duplicates :
    Along callbackStep SavesPending (.start pendingDb) duplicateCallbacks ∧
      (run callbackStep (.start pendingDb) duplicateCallbacks).books.log =
        [.credit 1 7 5000000 250] ∧
      ∀ id, creditCount (run callbackStep (.start pendingDb) duplicateCallbacks).books.log id ≤ 1 :=
  ⟨by decide, by decide,
    (orders_follow_status_machine pendingDb (by unfold TopUpDb.Valid; decide) duplicateCallbacks
      (by decide)).2.1⟩

/-- The failed payment is read as pending, the order is completed by hand in another process, and the copy
is saved. -/
def lateSave : List CallbackAction :=
  [.loadFailed "T2", .locks (.begin withBonus (.manualCompleteTopUp "T2")),
    .locks (.proceed 0 .lockOrder), .locks (.proceed 0 .commit)]

/-- **A late save.** The order was credited and is a success, and the next step turns it to failed, which
no move of the status machine does. -/
theorem late_save_undoes_success :
    let s := run callbackStep (.start pendingDb) lateSave
    s.books.log = [.credit 2 7 5000000 0] ∧ s.books.db.status 2 = some .success ∧
      (callbackStep s (.saveFailed 0)).books.db.status 2 = some .failed ∧
      ¬StatusMove .success .failed := by
  refine ⟨by decide, by decide, by decide, ?_⟩
  rintro ⟨⟩

end Vancine.Payment
