import Vancine.Lib.Run
import Vancine.Lib.ListSum
import Vancine.Wallet.Balance

/-!
# Wallet reservations through the cache

`TryReserveUserQuota` of `model/quota_reserve.go` for one user, run by any number of requests at
once. The balance lives in three places: the `Quota` field of the Redis hash, the `quota` column of
the row, and the entry of the batch store. Every access to one of them (a script, a statement, a
locked map update) is one step, and the steps of all calls interleave freely with readers that
fill the cache from the row, with expiries, with credits and with batch flushes.

`view` forgets the machinery and leaves a `Balance`. Every step is one of its moves, except that
nothing in the code makes sure of the premises of the two dangerous ones: a value read from the row
earlier is written into an empty hash (`writeUserCache`), and a call falls back to the row although
charges are still queued or the hash is back. `Safe` is exactly these premises, with no flush that
loses its delta.
-/

namespace Vancine.Wallet

open Lib

/-! ## Calls -/

/-- Where a call of `TryReserveUserQuota` stands. -/
inductive ReservePc
  /-- Before the reserve script; the flag tells that it runs again after a hydration. -/
  | script (hydrated : Bool)
  /-- The script missed: before `GetUserCache` looks at the hash. -/
  | lookup
  /-- Before `GetUserCache` reads the row. -/
  | readRow
  /-- The row was read: before `writeUserCache`. -/
  | fill (quota : ℤ)
  /-- Before the conditional update of the row. -/
  | fallback
  /-- The script took the quota: before it is persisted. -/
  | persist
  /-- The persist failed: before the quota is given back to the hash. -/
  | compensate
  | returned (reserved : Bool)
  deriving DecidableEq

structure Call where
  quota : ℤ
  pc : ReservePc
  deriving DecidableEq

/-- Taken from the hash and not yet from the row or its queue. -/
def Call.inflight (c : Call) : ℤ :=
  match c.pc with
  | .persist => c.quota
  | .compensate => c.quota
  | _ => 0

def Call.reserved (c : Call) : ℤ :=
  match c.pc with
  | .returned true => c.quota
  | _ => 0

/-! ## The wallet of one user -/

/-- `hash` is the `Quota` field when the hash is there, `queued` the entry of the batch store,
`flushing` the entries that batch runs took out and have not written yet, `reads` the values readers
of the row have not written to the cache yet, `unsynced` the credits not yet added to the hash. -/
structure WalletState where
  batchUpdateEnabled : Bool
  db : ℤ
  hash : Option ℤ
  queued : ℤ
  flushing : List ℤ
  calls : List Call
  reads : List ℤ
  unsynced : List ℤ
  granted : ℤ

/-- A user with a balance, a cold or a fresh cache, and nothing under way. -/
def WalletState.start (batchUpdateEnabled cached : Bool) (balance : ℤ) : WalletState :=
  { batchUpdateEnabled, db := balance, hash := if cached then some balance else none, queued := 0
    flushing := [], calls := [], reads := [], unsynced := [], granted := balance }

inductive WalletAction
  /-- A request calls `TryReserveUserQuota`. -/
  | reserve (quota : ℤ)
  /-- The next step of a call; `ok` is the answer of the database or of the version fence. -/
  | advance (i : ℕ) (ok : Bool)
  /-- Another reader of `GetUserCache` reads the row. -/
  | read
  /-- Such a reader writes what it read to the cache, or is refused. -/
  | fill (i : ℕ) (ok : Bool)
  | expire
  /-- A credit, committed to the row or queued. -/
  | credit (queue : Bool) (amount : ℤ)
  /-- The increment of the hash that follows a credit. -/
  | syncCredit (i : ℕ)
  /-- A batch run takes the queue. -/
  | swap
  /-- A batch run writes what it took. -/
  | flush (i : ℕ) (ok : Bool)

namespace WalletState

def setPc (s : WalletState) (i : ℕ) (c : Call) (pc : ReservePc) : WalletState :=
  { s with calls := s.calls.set i { c with pc } }

/-- `writeUserCache` sets the field only when it is absent. -/
def writeUserCache (s : WalletState) (quota : ℤ) : WalletState :=
  { s with hash := some (s.hash.getD quota) }

/-- `cacheApplyUserQuotaDelta`; nothing happens when the hash is gone. -/
def cacheApplyUserQuotaDelta (s : WalletState) (delta : ℤ) : WalletState :=
  { s with hash := s.hash.map (· + delta) }

/-- One step of a call of `TryReserveUserQuota`. -/
def tryReserveUserQuota (s : WalletState) (i : ℕ) (ok : Bool) (c : Call) : WalletState :=
  match c.pc with
  | .script hydrated =>
    match s.hash with
    | none => s.setPc i c (if hydrated then .fallback else .lookup)
    | some q =>
      if q < c.quota then s.setPc i c (.returned false)
      else { s.setPc i c .persist with hash := some (q - c.quota) }
  | .lookup =>
    if ok ∧ s.hash.isSome then s.setPc i c (.script true) else s.setPc i c .readRow
  | .readRow => if ok then s.setPc i c (.fill s.db) else s.setPc i c .fallback
  | .fill quota =>
    if ok then (s.writeUserCache quota).setPc i c (.script true) else s.setPc i c .fallback
  | .fallback =>
    if ok ∧ c.quota ≤ s.db then { s.setPc i c (.returned true) with db := s.db - c.quota }
    else s.setPc i c (.returned false)
  | .persist =>
    if s.batchUpdateEnabled then
      { s.setPc i c (.returned true) with queued := s.queued - c.quota }
    else if ok then { s.setPc i c (.returned true) with db := s.db - c.quota }
    else s.setPc i c .compensate
  | .compensate => (s.cacheApplyUserQuotaDelta c.quota).setPc i c (.returned false)
  | .returned _ => s

end WalletState

/-- The first lines of `TryReserveUserQuota` answer without a step: a negative quota is an error and
a quota of zero is reserved. -/
def walletStep (s : WalletState) : WalletAction → WalletState
  | .reserve quota =>
    if quota < 0 then s
    else { s with calls := s.calls ++
      [⟨quota, if quota = 0 then .returned true else .script false⟩] }
  | .advance i ok =>
    match s.calls[i]? with
    | none => s
    | some c => s.tryReserveUserQuota i ok c
  | .read => { s with reads := s.reads ++ [s.db] }
  | .fill i ok =>
    match s.reads[i]? with
    | none => s
    | some v =>
      let s := { s with reads := s.reads.eraseIdx i }
      if ok then s.writeUserCache v else s
  | .expire => { s with hash := none }
  | .credit queue amount =>
    if amount ≤ 0 then s
    else
      let s := { s with unsynced := s.unsynced ++ [amount], granted := s.granted + amount }
      if queue ∧ s.batchUpdateEnabled then { s with queued := s.queued + amount }
      else { s with db := s.db + amount }
  | .syncCredit i =>
    match s.unsynced[i]? with
    | none => s
    | some c => { s with unsynced := s.unsynced.eraseIdx i }.cacheApplyUserQuotaDelta c
  | .swap => { s with queued := 0, flushing := s.flushing ++ [s.queued] }
  | .flush i ok =>
    match s.flushing[i]? with
    | none => s
    | some delta =>
      { s with flushing := s.flushing.eraseIdx i, db := if ok then s.db + delta else s.db }

/-! ## The balance behind the state -/

namespace WalletState

/-- The sum of all reservations that returned success. -/
def reserved (s : WalletState) : ℤ := (s.calls.map Call.reserved).sum

def view (s : WalletState) : Balance where
  held := s.db + s.queued + s.flushing.sum
  cached := s.hash
  inflight := (s.calls.map Call.inflight).sum
  unsynced := s.unsynced.sum
  granted := s.granted
  reserved := s.reserved

/-- The value may be cached: it leaves the reservations in flight, the queued charges and the
credits still to come out. -/
def Covers (s : WalletState) (v : ℤ) : Prop := v + s.view.unsynced ≤ s.view.available

end WalletState

/-- The premises nothing in the code checks. -/
def Safe (s : WalletState) : WalletAction → Prop
  | .advance i ok =>
    match s.calls[i]? with
    | none => True
    | some c =>
      match c.pc with
      | .fill v => ok = true → s.hash = none → s.Covers v
      | .fallback => ok = true → c.quota ≤ s.db →
          c.quota ≤ s.view.available ∧ ∀ q ∈ s.hash, s.Covers (q + c.quota)
      | _ => True
  | .fill i ok =>
    match s.reads[i]? with
    | none => True
    | some v => ok = true → s.hash = none → s.Covers v
  | .flush i ok => i < s.flushing.length → ok = true
  | _ => True

instance (s : WalletState) (v : ℤ) : Decidable (s.Covers v) :=
  inferInstanceAs (Decidable (_ ≤ _))

instance (s : WalletState) (a : WalletAction) : Decidable (Safe s a) := by
  unfold Safe
  split
  · split
    · infer_instance
    · split <;> infer_instance
  · split <;> infer_instance
  all_goals infer_instance

/-- Amounts are never negative. -/
structure WellFormed (s : WalletState) : Prop where
  calls : ∀ c ∈ s.calls, 0 ≤ c.quota
  unsynced : ∀ c ∈ s.unsynced, 0 ≤ c

theorem WellFormed.inflight {s : WalletState} (h : WellFormed s) : ∀ c ∈ s.calls, 0 ≤ c.inflight := by
  intro c hc
  have := h.calls c hc
  unfold Call.inflight
  split <;> omega

/-! ## Every step is a move -/

section Step

variable {s : WalletState} {i : ℕ} {c : Call}

/-- What a call holds in flight and has reserved is all the balance sees of it. -/
theorem view_call (h : s.calls[i]? = some c) (pc : ReservePc) (db queued : ℤ) (hash : Option ℤ) :
    ({ s.setPc i c pc with db, queued, hash } : WalletState).view = ⟨db + queued + s.flushing.sum, hash,
        s.view.inflight - c.inflight + Call.inflight ⟨c.quota, pc⟩, s.view.unsynced, s.granted,
        s.view.reserved - c.reserved + Call.reserved ⟨c.quota, pc⟩⟩ := by
  simp only [WalletState.view, WalletState.setPc, WalletState.reserved, sum_map_set h]

/-- A new call that holds nothing and has reserved nothing is not seen. -/
theorem view_append {c : Call} (hi : c.inflight = 0) (hr : c.reserved = 0) :
    ({ s with calls := s.calls ++ [c] } : WalletState).view = s.view := by
  simp [WalletState.view, WalletState.reserved, hi, hr]

theorem setPc_move (h : s.calls[i]? = some c) {pc : ReservePc} (hi : c.inflight = 0)
    (hr : c.reserved = 0) (hi' : Call.inflight ⟨c.quota, pc⟩ = 0)
    (hr' : Call.reserved ⟨c.quota, pc⟩ = 0) : Move s.view (s.setPc i c pc).view := by
  have he := view_call h pc s.db s.queued s.hash
  rw [hi, hr, hi', hr', Int.sub_zero, Int.add_zero, Int.sub_zero, Int.add_zero] at he
  exact he ▸ .keep

/-- Writing to the cache fills an empty hash with a covered value, or changes nothing. -/
theorem writeUserCache_move {v : ℤ} (hv : s.hash = none → s.Covers v) : Move s.view (s.writeUserCache v).view := by
  cases hh : s.hash with
  | none =>
    have he : (s.writeUserCache v).view = { s.view with cached := some v } := by
      simp [WalletState.writeUserCache, WalletState.view, WalletState.reserved, hh]
    rw [he]
    exact .fill v hh (hv hh)
  | some q =>
    have he : s.writeUserCache v = s := by
      unfold WalletState.writeUserCache
      rw [hh, Option.getD_some, ← hh]
    rw [he]; exact .keep

/-- A call that took its quota from the cache takes it from the row or its queue. -/
theorem confirm_move {n db queued : ℤ} (h : s.calls[i]? = some ⟨n, .persist⟩)
    (hheld : db + queued = s.db + s.queued - n) (hn : 0 ≤ n) (hle : n ≤ s.view.inflight) :
    Move s.view ({ s.setPc i ⟨n, .persist⟩ (.returned true) with db, queued } : WalletState).view := by
  have he : ({ s.setPc i ⟨n, .persist⟩ (.returned true) with db, queued } : WalletState).view =
      { s.view with
        held := s.view.held - n
        inflight := s.view.inflight - n
        reserved := s.view.reserved + n } := by
    refine (view_call h (.returned true) db queued s.hash).trans ?_
    simp only [Call.inflight, Call.reserved, WalletState.view, Balance.mk.injEq, true_and]
    omega
  rw [he]
  exact .confirm n hn hle

/-- **A step of a call** is a move of the balance, or a fill and a move. -/
theorem advance_move (hw : WellFormed s) (h : s.calls[i]? = some c) (ok : Bool) (hsafe : Safe s (.advance i ok)) :
    ∃ b, Move s.view b ∧ Move b (s.tryReserveUserQuota i ok c).view := by
  have hmem : c ∈ s.calls := List.mem_of_getElem? h
  have hquota := hw.calls c hmem
  have hle := le_sum_map hw.inflight hmem
  obtain ⟨n, pc⟩ := c
  simp only [Safe, h] at hsafe
  cases pc with
  | script hydrated =>
    refine ⟨_, .keep, ?_⟩
    simp only [WalletState.tryReserveUserQuota]
    cases hh : s.hash with
    | none => cases hydrated <;> exact setPc_move h rfl rfl rfl rfl
    | some q =>
      dsimp only
      by_cases hq : q < n
      · rw [if_pos hq]; exact setPc_move h rfl rfl rfl rfl
      · rw [if_neg hq]
        have he : ({ s.setPc i ⟨n, .script hydrated⟩ .persist with
            hash := some (q - n) } : WalletState).view =
            { s.view with cached := some (q - n), inflight := s.view.inflight + n } :=
          (view_call h .persist s.db s.queued (some (q - n))).trans
            (by simp [Call.inflight, Call.reserved, WalletState.view])
        rw [he]
        exact .take q n hh hquota (by omega)
  | lookup =>
    refine ⟨_, .keep, ?_⟩
    simp only [WalletState.tryReserveUserQuota]
    split_ifs <;> exact setPc_move h rfl rfl rfl rfl
  | readRow =>
    refine ⟨_, .keep, ?_⟩
    simp only [WalletState.tryReserveUserQuota]
    split_ifs <;> exact setPc_move h rfl rfl rfl rfl
  | fill v =>
    simp only [WalletState.tryReserveUserQuota]
    cases ok with
    | true =>
      refine ⟨_, writeUserCache_move (hsafe rfl), ?_⟩
      rw [if_pos rfl]
      exact setPc_move (s := s.writeUserCache v) h rfl rfl rfl rfl
    | false => exact ⟨_, .keep, setPc_move h rfl rfl rfl rfl⟩
  | fallback =>
    refine ⟨_, .keep, ?_⟩
    simp only [WalletState.tryReserveUserQuota]
    by_cases hok : ok = true ∧ n ≤ s.db
    · rw [if_pos hok]
      obtain ⟨havail, hcached⟩ := hsafe hok.1 hok.2
      have he : ({ s.setPc i ⟨n, .fallback⟩ (.returned true) with
          db := s.db - n } : WalletState).view =
          { s.view with held := s.view.held - n, reserved := s.view.reserved + n } := by
        refine (view_call h (.returned true) (s.db - n) s.queued s.hash).trans ?_
        simp only [Call.inflight, Call.reserved, WalletState.view, Balance.mk.injEq, true_and]
        omega
      rw [he]
      refine .direct n hquota havail ?_
      intro q hq
      have := hcached q hq
      unfold WalletState.Covers at this
      omega
    · rw [if_neg hok]; exact setPc_move h rfl rfl rfl rfl
  | persist =>
    refine ⟨_, .keep, ?_⟩
    simp only [WalletState.tryReserveUserQuota]
    have hn : n ≤ s.view.inflight := hle
    -- confirmed through the queue, confirmed through the row, or to be given back
    cases s.batchUpdateEnabled with
    | true =>
      rw [if_pos rfl]
      exact confirm_move h (show s.db + (s.queued - n) = s.db + s.queued - n by omega) hquota hn
    | false =>
      rw [if_neg (by decide)]
      cases ok with
      | true =>
        rw [if_pos rfl]
        exact confirm_move h (show s.db - n + s.queued = s.db + s.queued - n by omega) hquota hn
      | false =>
        rw [if_neg (by decide)]
        have he : (s.setPc i ⟨n, .persist⟩ .compensate).view = s.view := by
          refine (view_call h .compensate s.db s.queued s.hash).trans ?_
          simp only [Call.inflight, Call.reserved, WalletState.view, Balance.mk.injEq, true_and]
          omega
        rw [he]; exact .keep
  | compensate =>
    refine ⟨_, .keep, ?_⟩
    have hn : n ≤ s.view.inflight := hle
    have he : (s.tryReserveUserQuota i ok ⟨n, .compensate⟩).view =
        { s.view with
          cached := s.view.cached.map (· + n)
          inflight := s.view.inflight - n } := by
      refine (view_call h (.returned false) s.db s.queued (s.hash.map (· + n))).trans ?_
      simp [Call.inflight, Call.reserved, WalletState.view]
    rw [he]
    exact .release n hquota hn
  | returned b => exact ⟨_, .keep, .keep⟩

theorem tryReserveUserQuota_calls (s : WalletState) (i : ℕ) (ok : Bool) (c : Call) :
    (s.tryReserveUserQuota i ok c).unsynced = s.unsynced ∧ ((s.tryReserveUserQuota i ok c).calls = s.calls ∨
        ∃ pc, (s.tryReserveUserQuota i ok c).calls = s.calls.set i ⟨c.quota, pc⟩) := by
  unfold WalletState.tryReserveUserQuota
  cases c.pc with
  | script hydrated =>
    dsimp only
    cases s.hash with
    | none => exact ⟨rfl, .inr ⟨_, rfl⟩⟩
    | some q => dsimp only; split_ifs <;> exact ⟨rfl, .inr ⟨_, rfl⟩⟩
  | lookup | readRow | fill v | fallback | persist => dsimp only; split_ifs <;> exact ⟨rfl, .inr ⟨_, rfl⟩⟩
  | compensate => exact ⟨rfl, .inr ⟨_, rfl⟩⟩
  | returned b => exact ⟨rfl, .inl rfl⟩

theorem wellFormed_advance (hw : WellFormed s) (h : s.calls[i]? = some c) (ok : Bool) :
    WellFormed (s.tryReserveUserQuota i ok c) := by
  obtain ⟨hu, hc⟩ := tryReserveUserQuota_calls s i ok c
  refine ⟨?_, by rw [hu]; exact hw.unsynced⟩
  rcases hc with hc | ⟨pc, hc⟩
  · rw [hc]; exact hw.calls
  · rw [hc]
    intro x hx
    rcases List.mem_or_eq_of_mem_set hx with hx | rfl
    · exact hw.calls x hx
    · exact hw.calls c (List.mem_of_getElem? h)

end Step

/-- **One step.** A safe step keeps amounts non-negative and the balance sound. -/
theorem walletStep_sound {s : WalletState} (hw : WellFormed s) (hs : s.view.Sound)
    {a : WalletAction} (hsafe : Safe s a) : WellFormed (walletStep s a) ∧ (walletStep s a).view.Sound := by
  cases a with
  | reserve quota =>
    simp only [walletStep]
    by_cases hq : quota < 0
    · rw [if_pos hq]; exact ⟨hw, hs⟩
    rw [if_neg hq]
    refine ⟨⟨?_, hw.unsynced⟩, ?_⟩
    · intro c hc
      rcases List.mem_append.mp hc with hc | hc
      · exact hw.calls c hc
      · obtain rfl := List.mem_singleton.mp hc
        exact Int.not_lt.mp hq
    · -- a new call holds nothing, and has reserved nothing unless it asked for nothing
      rw [view_append]
      · exact hs
      · unfold Call.inflight
        split_ifs <;> rfl
      · by_cases h0 : quota = 0
        · rw [if_pos h0, h0]
          rfl
        · rw [if_neg h0]
          rfl
  | advance i ok =>
    simp only [walletStep]
    cases hc : s.calls[i]? with
    | none => exact ⟨hw, hs⟩
    | some c =>
      obtain ⟨b, h1, h2⟩ := advance_move hw hc ok hsafe
      exact ⟨wellFormed_advance hw hc ok, h2.sound (h1.sound hs)⟩
  | read => exact ⟨⟨hw.calls, hw.unsynced⟩, hs⟩
  | fill i ok =>
    simp only [walletStep, Safe] at hsafe ⊢
    cases hr : s.reads[i]? with
    | none => exact ⟨hw, hs⟩
    | some v =>
      rw [hr] at hsafe
      dsimp only
      cases ok with
      | false => exact ⟨⟨hw.calls, hw.unsynced⟩, hs⟩
      | true =>
        refine ⟨⟨hw.calls, hw.unsynced⟩, ?_⟩
        have hm := writeUserCache_move (s := { s with reads := s.reads.eraseIdx i }) (hsafe rfl)
        exact hm.sound hs
  | expire => exact ⟨⟨hw.calls, hw.unsynced⟩, Move.drop.sound hs⟩
  | credit queue amount =>
    simp only [walletStep]
    by_cases h0 : amount ≤ 0
    · rw [if_pos h0]; exact ⟨hw, hs⟩
    rw [if_neg h0]
    have hu : ∀ c ∈ s.unsynced ++ [amount], 0 ≤ c := by
      intro c hc
      rcases List.mem_append.mp hc with hc | hc
      · exact hw.unsynced c hc
      · obtain rfl := List.mem_singleton.mp hc
        omega
    have hm : Move s.view _ := .credit amount (by omega)
    have hs' := hm.sound hs
    -- the row or the queue holds the credit
    split_ifs
    · refine ⟨⟨hw.calls, hu⟩, ?_⟩
      have he : ∀ x y z : ℤ, x + (y + amount) + z = x + y + z + amount := by intros; omega
      simpa [WalletState.view, WalletState.reserved, he] using hs'
    · refine ⟨⟨hw.calls, hu⟩, ?_⟩
      have he : ∀ x y z : ℤ, x + amount + y + z = x + y + z + amount := by intros; omega
      simpa [WalletState.view, WalletState.reserved, he] using hs'
  | syncCredit i =>
    simp only [walletStep]
    cases hc : s.unsynced[i]? with
    | none => exact ⟨hw, hs⟩
    | some c =>
      have hmem : c ∈ s.unsynced := List.mem_of_getElem? hc
      refine ⟨⟨hw.calls, fun x hx => hw.unsynced x (List.mem_of_mem_eraseIdx hx)⟩, ?_⟩
      have hm : Move s.view _ := .sync c (hw.unsynced c hmem)
        (List.single_le_sum hw.unsynced c hmem)
      simpa [WalletState.view, WalletState.reserved, WalletState.cacheApplyUserQuotaDelta,
        sum_eraseIdx hc] using hm.sound hs
  | swap =>
    refine ⟨⟨hw.calls, hw.unsynced⟩, ?_⟩
    have he : (walletStep s .swap).view = s.view := by
      simp only [walletStep, WalletState.view, WalletState.reserved, List.sum_append,
        List.sum_singleton, Balance.mk.injEq, and_true]
      omega
    rw [he]; exact hs
  | flush i ok =>
    simp only [walletStep, Safe] at hsafe ⊢
    cases hf : s.flushing[i]? with
    | none => exact ⟨hw, hs⟩
    | some delta =>
      obtain rfl := hsafe (List.getElem?_eq_some_iff.mp hf).1
      refine ⟨⟨hw.calls, hw.unsynced⟩, ?_⟩
      have he : ({ s with flushing := s.flushing.eraseIdx i, db := s.db + delta } :
          WalletState).view = s.view := by
        simp only [WalletState.view, WalletState.reserved, sum_eraseIdx hf, Balance.mk.injEq, and_true]
        omega
      exact he ▸ hs

/-! ## Whole runs -/

theorem start_sound (batch cached : Bool) (balance : ℤ) : (WalletState.start batch cached balance).view.Sound := by
  refine ⟨?_, ?_, ?_, ?_, ?_, ?_⟩
  · intro q hq
    cases cached with
    | false => cases hq
    | true =>
      obtain rfl : balance = q := by simpa [WalletState.start, WalletState.view] using hq
      simp [WalletState.start, WalletState.view, Balance.available]
  all_goals simp [WalletState.start, WalletState.view, WalletState.reserved]

/-- **No overspend.** In every state of every run of safe steps, the reservations that returned
success add up to no more than the first balance and the credits since. -/
theorem reservations_within_balance (batch cached : Bool) (balance : ℤ) (as : List WalletAction)
    (hsafe : Along walletStep Safe (WalletState.start batch cached balance) as) :
    let s := run walletStep (WalletState.start batch cached balance) as
    s.reserved = 0 ∨ s.reserved ≤ s.granted := by
  have hinv := run_invariant_along
    (I := fun t : WalletState => WellFormed t ∧ t.view.Sound)
    (fun t a ht ha => walletStep_sound ht.1 ht.2 ha)
    ⟨⟨by simp [WalletState.start], by simp [WalletState.start]⟩,
      start_sound batch cached balance⟩ hsafe
  exact hinv.2.no_overspend

/-- A call that misses the cache: the script, the hydration from the row, the script again, and the
persist. -/
def coldReserve (i : ℕ) : List WalletAction :=
  [.advance i true, .advance i true, .advance i true, .advance i true, .advance i true]

/-- Two calls of 8 and 3 units, with a queued charge and a flush between. -/
def flushedRun : List WalletAction :=
  [.reserve 8] ++ coldReserve 0 ++
    [.advance 0 true, .swap, .flush 0 true, .expire, .reserve 3] ++ coldReserve 1

theorem reservations_within_balance_flushed :
    Along walletStep Safe (WalletState.start true false 10) flushedRun ∧
      let s := run walletStep (WalletState.start true false 10) flushedRun
      s.reserved = 0 ∨ s.reserved ≤ s.granted :=
  ⟨by decide, reservations_within_balance true false 10 _ (by decide)⟩

/-- The second call fills the expired cache from a row the queued charge has not reached. -/
def staleQueueRun : List WalletAction :=
  [.reserve 8] ++ coldReserve 0 ++ [.advance 0 true, .expire, .reserve 8] ++ coldReserve 1 ++
    [.advance 1 true]

/-- The second call fills the expired cache between the script and the persist of the first. -/
def stalePersistRun : List WalletAction :=
  [.reserve 8] ++ coldReserve 0 ++ [.expire, .reserve 8] ++ coldReserve 1 ++
    [.advance 0 true, .advance 1 true]

/-- **Overspend.** A balance of 10 pays two reservations of 8, with batch updates and without. -/
theorem stale_row_pays_twice :
    (run walletStep (WalletState.start true false 10) staleQueueRun).reserved = 16 ∧
      ¬(run walletStep (WalletState.start true false 10) staleQueueRun).reserved ≤
        (run walletStep (WalletState.start true false 10) staleQueueRun).granted ∧
      (run walletStep (WalletState.start false false 10) stalePersistRun).reserved = 16 ∧
      ¬(run walletStep (WalletState.start false false 10) stalePersistRun).reserved ≤
        (run walletStep (WalletState.start false false 10) stalePersistRun).granted := by
  decide

end Vancine.Wallet
