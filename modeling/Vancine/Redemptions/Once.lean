import Vancine.Redemptions.Store

/-!
# A code pays once

The swap of `Redeem` keeps a code from paying twice as long as its status stays used. Deletions and the edits that ask
for another status keep it so. An edit of the name, the quota or the expiry writes the status of its copy: the code is
revived exactly when that copy is older than the redemption.
-/

namespace Vancine.Redemptions

open Lib Lib.Table
open Vancine.Payment (User wallet creditTopUpQuota creditTopUpQuota_ok Shifted)

/-! ## What is claimed of a state -/

/-- What the calls credited to a user. -/
def creditedTo (userId : ℤ) (credits : List Credit) : ℤ :=
  ((credits.filter fun c => c.userId = userId).map Credit.quota).sum

/-- Wallets have what was credited, each code was credited once at most, and none that was used is enabled. -/
structure PaysOnce (users : List User) (s : State) : Prop where
  paid : ∀ id, wallet s.users id = (wallet users id).map (· + creditedTo id s.credits)
  once : (s.credits.map Credit.codeId).Nodup
  retired : ∀ r ∈ s.codes, r.id ∈ s.used → r.status ≠ .enabled

/-- A `Redeem` that fails leaves the codes and the wallets as they are. -/
def FailsSafe (s : State) : Action → Prop
  | .readCode now key userId => ∀ e, s.exec (.readCode now key userId) = .error e →
      (s.step (.readCode now key userId)).codes = s.codes ∧ (s.step (.readCode now key userId)).users = s.users
  | .commitCode call fault now => ∀ e, s.exec (.commitCode call fault now) = .error e →
      (s.step (.commitCode call fault now)).codes = s.codes ∧ (s.step (.commitCode call fault now)).users = s.users
  | _ => True

/-- No write-back that goes through gives the enabled status to a code that was used. -/
def Keeps (s : State) : Action → Prop
  | .writeBack edit false => ∀ redemption ∈ s.edits[edit]?, checkQuota redemption.quota = .ok () →
      redemption.status = .enabled → (∃ r ∈ s.codes, r.Live redemption.id) → redemption.id ∉ s.used
  | _ => True

/-! ## What is known of every state -/

structure Known (s : State) : Prop where
  key : (s.codes.map Redemption.id).Nodup
  current : ∀ r ∈ s.codes, r.status = .used → r.id ∈ s.used
  credited : ∀ c ∈ s.credits, c.codeId ∈ s.used

variable {s : State} {codes codes' : List Redemption} {users users' : List User}

theorem mem_usedIds {id : ℤ} : id ∈ usedIds codes ↔ ∃ r ∈ codes, r.status = .used ∧ r.id = id := by
  simp [usedIds, and_assoc]

theorem known_start (hkey : (codes.map Redemption.id).Nodup) : Known (.start codes users) where
  key := hkey
  current r hr hused := mem_usedIds.mpr ⟨r, hr, hused, rfl⟩
  credited c hc := by simp [State.start] at hc

theorem Known.setCodes (h : Known s) (hid : codes.map Redemption.id = s.codes.map Redemption.id) :
    Known (s.setCodes codes) where
  key := by
    show (codes.map Redemption.id).Nodup
    rw [hid]
    exact h.key
  current r hr hused := List.mem_append_right _ (mem_usedIds.mpr ⟨r, hr, hused, rfl⟩)
  credited c hc := List.mem_append_left _ (h.credited c hc)

/-- New codes are retired when those are that were used before. -/
theorem retired_setCodes (h : Known s) (hid : codes.map Redemption.id = s.codes.map Redemption.id) :
    (∀ r ∈ codes, r.id ∈ (s.setCodes codes).used → r.status ≠ .enabled) ↔
      ∀ r ∈ codes, r.id ∈ s.used → r.status ≠ .enabled := by
  constructor
  · intro hall r hr hused
    exact hall r hr (List.mem_append_left _ hused)
  · intro hall r hr hused
    rcases List.mem_append.mp hused with hbefore | hnow
    · exact hall r hr hbefore
    · obtain ⟨r', hr', hstatus, heq⟩ := mem_usedIds.mp hnow
      -- the row that is used is this row, by its key
      have hkey : (codes.map Redemption.id).Nodup := by rw [hid]; exact h.key
      obtain rfl := List.inj_on_of_nodup_map hkey hr' hr heq
      rw [hstatus]
      simp

/-! ## Functions -/

theorem creditedTo_append (userId : ℤ) (credits : List Credit) (c : Credit) :
    creditedTo userId (credits ++ [c]) = creditedTo userId credits + if userId = c.userId then c.quota else 0 := by
  unfold creditedTo
  by_cases h : c.userId = userId
  · simp [List.filter_append, h]
  · simp [List.filter_append, h, Ne.symm h]

variable {redemption : Redemption} {a : Action}

theorem commitCode_ok {fault : Bool} {now userId : ℤ}
    (h : commitCode fault now userId redemption codes users = .ok (codes', users')) :
    (∃ r ∈ codes, r.Swaps redemption.id) ∧
      codes' = updateWhere (Redemption.Swaps redemption.id) (Redemption.swap now userId) codes ∧
      Shifted users userId redemption.quota users' := by
  unfold commitCode at h
  split_ifs at h with hswaps
  cases hcredit : creditTopUpQuota userId redemption.quota users with
  | error e => rw [hcredit] at h; cases h
  | ok credited =>
    rw [hcredit] at h
    obtain ⟨rfl, rfl⟩ := Prod.mk.inj (Except.ok.inj h)
    exact ⟨List.any_eq_true.mp (by simpa using (not_or.mp hswaps).2), rfl, (creditTopUpQuota_ok hcredit).2⟩

theorem update_ok {fault : Bool} : redemption.update fault codes = .ok codes' ↔
      fault = false ∧ checkQuota redemption.quota = .ok () ∧
        updateWhere (Redemption.Live redemption.id) redemption.write codes = codes' := by
  unfold Redemption.update
  cases hcheck : checkQuota redemption.quota with
  | error e => simp [bind, Except.bind]
  | ok u => cases fault <;> simp [bind, Except.bind, pure, Except.pure]

theorem deleteWhere_ids (p : Redemption → Bool) (codes : List Redemption) :
    (deleteWhere p codes).map Redemption.id = codes.map Redemption.id := map_updateWhere fun _ => rfl

theorem mem_deleteWhere {p : Redemption → Bool} {r : Redemption} (h : r ∈ deleteWhere p codes) :
    ∃ r₀ ∈ codes, r₀.id = r.id ∧ r₀.status = r.status := by
  rcases mem_updateWhere.mp h with ⟨r₀, hr₀, -, rfl⟩ | ⟨hr, -⟩
  · exact ⟨r₀, hr₀, rfl, rfl⟩
  · exact ⟨r, hr, rfl, rfl⟩

/-! ## Steps -/

theorem Known.delete (h : Known s) (p : Redemption → Bool) : Known (s.setCodes (deleteWhere p s.codes)) :=
  h.setCodes (deleteWhere_ids p s.codes)

theorem PaysOnce.delete (hk : Known s) (h : PaysOnce users s) (p : Redemption → Bool) :
    PaysOnce users (s.setCodes (deleteWhere p s.codes)) where
  paid := h.paid
  once := h.once
  retired := (retired_setCodes hk (deleteWhere_ids p s.codes)).mpr fun r hr hused => by
    obtain ⟨r₀, hr₀, hid, hstatus⟩ := mem_deleteWhere hr
    rw [← hstatus]
    exact h.retired r₀ hr₀ (hid ▸ hused)

section Commit

variable {call : ℕ} {fault : Bool} {now userId : ℤ} {redemption : Redemption}

/-- The state after a call went through. -/
def committed (s : State) (call : ℕ) (userId : ℤ) (redemption : Redemption) (codes : List Redemption)
    (users : List User) : State :=
  { s.setCodes codes with
    users
    redeems := s.redeems.eraseIdx call
    credits := s.credits ++ [⟨redemption.id, userId, redemption.quota⟩] }

theorem swap_ids : (updateWhere (Redemption.Swaps redemption.id) (Redemption.swap now userId) codes).map Redemption.id =
    codes.map Redemption.id := map_updateWhere fun _ => rfl

theorem Known.commit (h : Known s)
    (hok : commitCode fault now userId redemption s.codes s.users = .ok (codes', users')) :
    Known (committed s call userId redemption codes' users') := by
  obtain ⟨⟨r, hr, hswaps⟩, rfl, -⟩ := commitCode_ok hok
  have hset := h.setCodes (@swap_ids _ now userId redemption)
  refine ⟨hset.key, hset.current, fun c hc => ?_⟩
  rcases List.mem_append.mp hc with hbefore | hnew
  · exact hset.credited c hbefore
  · obtain rfl := List.mem_singleton.mp hnew
    have hid : r.id = redemption.id := (Redemption.live_iff.mp (Redemption.swaps_iff.mp hswaps).1).1
    have hmem : r.swap now userId ∈ updateWhere (Redemption.Swaps redemption.id) (Redemption.swap now userId) s.codes :=
      mem_updateWhere.mpr (.inl ⟨r, hr, hswaps, rfl⟩)
    have hused := hset.current _ hmem rfl
    rwa [show (r.swap now userId).id = redemption.id from hid] at hused

/-- The swap matches an enabled code, so it was never used, and then it is used. -/
theorem PaysOnce.commit (hk : Known s) (h : PaysOnce users s)
    (hok : commitCode fault now userId redemption s.codes s.users = .ok (codes', users')) :
    PaysOnce users (committed s call userId redemption codes' users') := by
  obtain ⟨⟨r, hr, hswaps⟩, rfl, hshift⟩ := commitCode_ok hok
  refine ⟨fun id => ?_, ?_, ?_⟩
  · show wallet users' id = _
    rw [hshift.2 id, h.paid id]
    show _ = (wallet users id).map (· + creditedTo id (s.credits ++ [⟨redemption.id, userId, redemption.quota⟩]))
    rw [creditedTo_append]
    by_cases hid : id = userId
    · rw [if_pos hid, if_pos hid, Option.map_map]
      congr 1
      funext q
      show q + creditedTo id s.credits + redemption.quota = q + (creditedTo id s.credits + redemption.quota)
      omega
    · rw [if_neg hid, if_neg hid, Int.add_zero]
  · show ((s.credits ++ [(⟨redemption.id, userId, redemption.quota⟩ : Credit)]).map Credit.codeId).Nodup
    rw [List.map_append, List.nodup_append]
    refine ⟨h.once, List.nodup_singleton _, ?_⟩
    intro a ha b hb
    obtain rfl := List.mem_singleton.mp hb
    rintro rfl
    obtain ⟨c, hc, hcode⟩ := List.mem_map.mp ha
    obtain ⟨hlive, henabled⟩ := Redemption.swaps_iff.mp hswaps
    have hid : c.codeId = r.id := hcode.trans (Redemption.live_iff.mp hlive).1.symm
    exact h.retired r hr (hid ▸ hk.credited c hc) henabled
  · refine (retired_setCodes hk swap_ids).mpr fun r hr hused => ?_
    rcases mem_updateWhere.mp hr with ⟨r₀, -, -, rfl⟩ | ⟨hr, -⟩
    · simp [Redemption.swap]
    · exact h.retired r hr hused

end Commit

section WriteBack

variable {redemption : Redemption}

theorem write_ids : (updateWhere (Redemption.Live redemption.id) redemption.write codes).map Redemption.id =
    codes.map Redemption.id := map_updateWhere fun _ => rfl

/-- The codes that were used are retired after a write-back exactly when it does not enable one of them. -/
theorem retired_write (h : ∀ r ∈ s.codes, r.id ∈ s.used → r.status ≠ .enabled) :
    (∀ r ∈ updateWhere (Redemption.Live redemption.id) redemption.write s.codes, r.id ∈ s.used → r.status ≠ .enabled) ↔
      (redemption.status = .enabled → (∃ r ∈ s.codes, r.Live redemption.id) → redemption.id ∉ s.used) := by
  have hlive {r : Redemption} (hr : r.Live redemption.id) : r.id = redemption.id := (Redemption.live_iff.mp hr).1
  constructor
  · rintro hall henabled ⟨r, hr, hlives⟩ hused
    have hmem : redemption.write r ∈ updateWhere (Redemption.Live redemption.id) redemption.write s.codes :=
      mem_updateWhere.mpr (.inl ⟨r, hr, hlives, rfl⟩)
    exact hall _ hmem (by rw [show (redemption.write r).id = redemption.id from hlive hlives]; exact hused) henabled
  · intro hkeeps r hr hused
    rcases mem_updateWhere.mp hr with ⟨r₀, hr₀, hlives, rfl⟩ | ⟨hr, -⟩
    · intro henabled
      refine hkeeps henabled ⟨r₀, hr₀, hlives⟩ ?_
      rwa [show (redemption.write r₀).id = redemption.id from hlive hlives] at hused
    · exact h r hr hused

end WriteBack

/-! ## Runs -/

variable {s' : State}

theorem PaysOnce.frame (h : PaysOnce users s) (hcodes : s'.codes = s.codes) (husers : s'.users = s.users)
    (hcredits : s'.credits = s.credits) (hused : s'.used = s.used) : PaysOnce users s' := by
  obtain ⟨hpaid, honce, hretired⟩ := h
  refine ⟨?_, ?_, ?_⟩
  · rw [husers, hcredits]
    exact hpaid
  · rw [hcredits]
    exact honce
  · rw [hcodes, hused]
    exact hretired

theorem Known.frame (h : Known s) (hcodes : s'.codes = s.codes) (hcredits : s'.credits = s.credits)
    (hused : s'.used = s.used) : Known s' := by
  obtain ⟨hkey, hcurrent, hcredited⟩ := h
  refine ⟨?_, ?_, ?_⟩
  · rw [hcodes]
    exact hkey
  · rw [hcodes, hused]
    exact hcurrent
  · rw [hcredits, hused]
    exact hcredited

theorem drop_frame (s : State) (a : Action) :
    (s.drop a).codes = s.codes ∧ (s.drop a).users = s.users ∧ (s.drop a).credits = s.credits ∧
      (s.drop a).used = s.used := by
  cases a <;> exact ⟨rfl, rfl, rfl, rfl⟩

/-- What a successful action does: it writes no code, commits a call, writes a copy back, or deletes. -/
inductive Outcome (s : State) : Action → State → Prop
  | reads {a : Action} {s' : State} (hcodes : s'.codes = s.codes) (husers : s'.users = s.users)
      (hcredits : s'.credits = s.credits) (hused : s'.used = s.used) (hkeeps : Keeps s a) : Outcome s a s'
  | commits {call : ℕ} {fault : Bool} {now userId : ℤ} {redemption : Redemption} {codes : List Redemption}
      {users : List User} (hok : commitCode fault now userId redemption s.codes s.users = .ok (codes, users)) :
      Outcome s (.commitCode call fault now) (committed s call userId redemption codes users)
  | writes {edit : ℕ} {redemption : Redemption} {codes : List Redemption} (hedit : s.edits[edit]? = some redemption)
      (hok : redemption.update false s.codes = .ok codes) :
      Outcome s (.writeBack edit false) { s.setCodes codes with edits := s.edits.eraseIdx edit }
  | deletes {a : Action} (p : Redemption → Bool) (hkeeps : Keeps s a) :
      Outcome s a (s.setCodes (deleteWhere p s.codes))

theorem bind_eq_ok {α β : Type} {x : Except RedemptionError α} {f : α → Except RedemptionError β} {b : β}
    (h : (x >>= f) = .ok b) : ∃ a, x = .ok a ∧ f a = .ok b := by
  cases x with
  | error e => cases h
  | ok a => exact ⟨a, rfl, h⟩

theorem exec_outcome (h : s.exec a = .ok s') : Outcome s a s' := by
  cases a with
  | readCode now key userId =>
    obtain ⟨redemption, -, hs⟩ := bind_eq_ok h
    obtain rfl := Except.ok.inj hs
    exact .reads rfl rfl rfl rfl trivial
  | commitCode call fault now =>
    replace h : s.commitCall call fault now = .ok s' := h
    unfold State.commitCall at h
    cases hcall : s.redeems[call]? with
    | none =>
      rw [hcall] at h
      obtain rfl := Except.ok.inj h
      exact .reads rfl rfl rfl rfl trivial
    | some pending =>
      obtain ⟨userId, redemption⟩ := pending
      rw [hcall] at h
      obtain ⟨⟨codes, users⟩, hok, hs⟩ := bind_eq_ok h
      obtain rfl := Except.ok.inj hs
      exact .commits hok
  | readEdit now request =>
    obtain ⟨redemption, -, hs⟩ := bind_eq_ok h
    obtain rfl := Except.ok.inj hs
    exact .reads rfl rfl rfl rfl trivial
  | writeBack edit fault =>
    replace h : s.writeBack edit fault = .ok s' := h
    unfold State.writeBack at h
    cases hedit : s.edits[edit]? with
    | none =>
      rw [hedit] at h
      obtain rfl := Except.ok.inj h
      refine .reads rfl rfl rfl rfl ?_
      cases fault with
      | true => trivial
      | false => simp [Keeps, hedit]
    | some redemption =>
      rw [hedit] at h
      obtain ⟨codes, hok, hs⟩ := bind_eq_ok h
      obtain rfl := Except.ok.inj hs
      obtain ⟨rfl, -, -⟩ := update_ok.mp hok
      exact .writes hedit hok
  | deleteById id =>
    obtain ⟨codes, hok, hs⟩ := bind_eq_ok h
    obtain rfl := Except.ok.inj hs
    obtain ⟨redemption, -, hdelete⟩ := bind_eq_ok hok
    obtain rfl := Except.ok.inj hdelete
    exact .deletes _ trivial
  | deleteInvalid now =>
    obtain rfl := Except.ok.inj h
    exact .deletes _ trivial
  | deleteBatch ids =>
    obtain ⟨codes, hok, hs⟩ := bind_eq_ok h
    obtain rfl := Except.ok.inj hs
    unfold batchDeleteRedemptions at hok
    split_ifs at hok
    obtain rfl := Except.ok.inj hok
    exact .deletes _ trivial

theorem Known.outcome (h : Known s) (ho : Outcome s a s') : Known s' := by
  cases ho with
  | reads hcodes _ hcredits hused _ => exact h.frame hcodes hcredits hused
  | commits hok => exact h.commit hok
  | writes hedit hok =>
    obtain ⟨-, -, rfl⟩ := update_ok.mp hok
    exact (h.setCodes write_ids).frame rfl rfl rfl
  | deletes p _ => exact h.delete p

theorem Known.step (h : Known s) (a : Action) : Known (s.step a) := by
  unfold State.step
  cases hexec : s.exec a with
  | ok s' => exact h.outcome (exec_outcome hexec)
  | error e =>
    obtain ⟨hcodes, -, hcredits, hused⟩ := drop_frame s a
    exact h.frame hcodes hcredits hused

/-- A write-back that fails is none of those that `Keeps` is about. -/
theorem keeps_of_error {e : RedemptionError} (h : s.exec a = .error e) : Keeps s a := by
  cases a with
  | writeBack edit fault =>
    cases fault with
    | true => trivial
    | false =>
      intro redemption hedit hcheck
      rw [Option.mem_def] at hedit
      replace h : s.writeBack edit false = .error e := h
      unfold State.writeBack at h
      rw [hedit] at h
      have hupdate : redemption.update false s.codes =
          .ok (updateWhere (Redemption.Live redemption.id) redemption.write s.codes) := update_ok.mpr ⟨rfl, hcheck, rfl⟩
      dsimp only at h
      rw [hupdate] at h
      cases h
  | _ => trivial

theorem paysOnce_outcome (hk : Known s) (h : PaysOnce users s) (ho : Outcome s a s') :
    PaysOnce users s' ↔ Keeps s a := by
  cases ho with
  | reads hcodes husers hcredits hused hkeeps => exact iff_of_true (h.frame hcodes husers hcredits hused) hkeeps
  | commits hok => exact iff_of_true (h.commit hk hok) trivial
  | deletes p hkeeps => exact iff_of_true (h.delete hk p) hkeeps
  | @writes edit redemption _ hedit hok =>
    obtain ⟨-, hcheck, rfl⟩ := update_ok.mp hok
    have hretired := (retired_setCodes hk (@write_ids _ redemption)).trans (retired_write h.retired)
    constructor
    · rintro hafter redemption' hedit' -
      obtain rfl := Option.some.inj (hedit.symm.trans hedit')
      exact hretired.mp hafter.retired
    · intro hkeeps
      exact ⟨h.paid, h.once, hretired.mpr (hkeeps redemption hedit hcheck)⟩

theorem paysOnce_step (hk : Known s) (h : PaysOnce users s) (a : Action) : PaysOnce users (s.step a) ↔ Keeps s a := by
  unfold State.step
  cases hexec : s.exec a with
  | ok s' => exact paysOnce_outcome hk h (exec_outcome hexec)
  | error e =>
    obtain ⟨hcodes, husers, hcredits, hused⟩ := drop_frame s a
    exact iff_of_true (h.frame hcodes husers hcredits hused) (keeps_of_error hexec)

theorem failsSafe (s : State) (a : Action) : FailsSafe s a := by
  cases a with
  | readCode now key userId =>
    intro e herror
    unfold State.step
    rw [herror]
    exact ⟨rfl, rfl⟩
  | commitCode call fault now =>
    intro e herror
    unfold State.step
    rw [herror]
    exact ⟨rfl, rfl⟩
  | _ => trivial

theorem paysOnce_start (hkey : (codes.map Redemption.id).Nodup) : PaysOnce users (.start codes users) where
  paid id := by
    show wallet users id = (wallet users id).map (· + 0)
    cases wallet users id <;> simp
  once := List.nodup_nil
  retired r hr hmem := by
    obtain ⟨r', hr', hstatus, hid⟩ := mem_usedIds.mp hmem
    obtain rfl := List.inj_on_of_nodup_map hkey hr' hr hid
    rw [hstatus]
    simp

/-- Every code pays once at most, stays retired once it was used, and a `Redeem` that fails changes nothing, in every
state of a run, exactly when no write-back enables a code that was used. -/
theorem paysOnce_iff_keeps (codes : List Redemption) (users : List User) (hkey : (codes.map Redemption.id).Nodup)
    (as : List Action) :
    ((∀ pre, pre <+: as → PaysOnce users (run State.step (.start codes users) pre)) ∧
        Along State.step FailsSafe (.start codes users) as) ↔
      Along State.step Keeps (.start codes users) as := by
  have hruns := run_forall_iff_along (I := Known) (J := PaysOnce users) (fun s a hs => hs.step a)
    (fun s a hs hj => paysOnce_step hs hj a) (@known_start _ users hkey) (paysOnce_start hkey) as
  exact ⟨fun h => hruns.mp h.1, fun h => ⟨hruns.mpr h, .of_forall failsSafe _ as⟩⟩

theorem paysOnce_iff_keeps_redeemed :
    ((∀ pre, pre <+: [.readCode 10 "k" 7, .commitCode 0 false 10] →
          PaysOnce [⟨7, 0⟩] (run State.step (.start [⟨1, "k", .enabled, "", 500, 0, 0, false, 0⟩] [⟨7, 0⟩]) pre)) ∧
        Along State.step FailsSafe (.start [⟨1, "k", .enabled, "", 500, 0, 0, false, 0⟩] [⟨7, 0⟩])
          [.readCode 10 "k" 7, .commitCode 0 false 10]) ↔
      Along State.step Keeps (.start [⟨1, "k", .enabled, "", 500, 0, 0, false, 0⟩] [⟨7, 0⟩])
        [.readCode 10 "k" 7, .commitCode 0 false 10] :=
  paysOnce_iff_keeps [⟨1, "k", .enabled, "", 500, 0, 0, false, 0⟩] [⟨7, 0⟩] (List.nodup_singleton 1)
    [.readCode 10 "k" 7, .commitCode 0 false 10]

/-- An edit of the name that was read before the code was redeemed enables it again, and the code pays a second
user. -/
theorem staleEdit_pays_twice :
    ∃ (codes : List Redemption) (users : List User) (as : List Action), (codes.map Redemption.id).Nodup ∧
      ¬PaysOnce users (run State.step (.start codes users) as) := by
  refine ⟨[⟨1, "k", .enabled, "", 500, 0, 0, false, 0⟩], [⟨7, 0⟩, ⟨8, 0⟩],
    [.readEdit 5 ⟨1, false, .enabled, "gift", 500, 0, by simp⟩, .readCode 10 "k" 7, .commitCode 0 false 10,
      .writeBack 0 false, .readCode 20 "k" 8, .commitCode 0 false 20], List.nodup_singleton _, fun h => ?_⟩
  exact absurd h.once (by decide)

end Vancine.Redemptions
