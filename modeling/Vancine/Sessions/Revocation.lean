import Vancine.Sessions.Calls

/-!
# Revoked sessions stay revoked

After the row is revoked at `t`, every active snapshot that is still on its way was read before `t`, so
it carries a deadline of at most `t` plus the time to live. The last tombstone is written after `t` and
lives at least that long, or to the end of the session. While it is there it refuses the snapshots, and
when it is gone they are past their deadline and the script drops them (`Sealed`).

The tombstone must go through for that. `RevokeUserSession` writes it with the version of the row it read
first, so it is refused when a newer version has come into the cache since: the condition is that this
does not happen (`FinalsAccepted`). The other revokes use the row they have locked.
-/

namespace Vancine.Sessions

open Lib

/-! ## The invariant -/

/-- When the row was last active. -/
def SessionState.lastActive (s : SessionState) : ℤ := s.revokedClock.getD s.clock

/-- The millisecond to which a tombstone denies at least, for a revoke at `t`. -/
def deniedUntil (ttl : ℤ) (s : SessionState) (t : ℤ) : ℤ :=
  min (unixMilli t + ttl * 1000) (s.row.expiresAt * 1000 - 1)

/-- The row is revoked, there is no active entry, and there is a deny entry while snapshots may come. -/
structure Sealed (ttl : ℤ) (s : SessionState) : Prop where
  status : s.row.status = .revoked
  entry : ∀ c, s.cache = some c → c.entry.status ≠ .active
  denied : ∃ t, s.revokedClock = some t ∧ (unixMilli s.clock ≤ deniedUntil ttl s t →
    ∃ c, s.cache = some c ∧ deniedUntil ttl s t ≤ c.expireAt)

/-- A copy of the row, maybe an old one. `low` is the version the session began with. -/
structure Copy (low : ℤ) (s : SessionState) (session : UserSession) : Prop where
  lower : low ≤ session.version
  version : session.version ≤ s.row.version
  expiresAt : session.expiresAt = s.row.expiresAt

/-- An active copy on its way to the cache. -/
structure Filling (ttl low : ℤ) (s : SessionState) (deadline : ℤ) (session : UserSession) : Prop where
  copy : Copy low s session
  active : session.status = .active
  deadline : deadline ≤ s.lastActive + ttl * second

/-- What a call knows when it writes a deny entry and goes on with `next`. -/
def AfterDeny.Ok (ttl low : ℤ) (s : SessionState) (i : ℕ) (entry : UserSessionCacheEntry) : AfterDeny → Prop
  | .observed | .reuseFinal => True
  | .reuseFence _ session => Copy low s session
  | .revokeFence _ session => Copy low s session
  | .hashFence _ session => s.lock = some i ∧ Copy low s session ∧ session.version = s.row.version
  | .bulkFence _ done => done = true → Sealed ttl s
  | .revokeFinal => s.row.status = .revoked
  | .hashFinal | .bulkFinal _ => s.row.status = .revoked ∧ entry.version = s.row.version

structure Denying (ttl low : ℤ) (s : SessionState) (i : ℕ) (entry : UserSessionCacheEntry)
    (next : AfterDeny) : Prop where
  status : entry.status ≠ .active
  lower : low ≤ entry.version
  version : entry.version ≤ s.row.version
  expiresAt : entry.expiresAt = s.row.expiresAt
  next : next.Ok ttl low s i entry

/-- What a call knows. -/
def Pc.Ok (ttl low : ℤ) (s : SessionState) (i : ℕ) : Pc → Prop
  | .captured deadline | .rotateRead _ _ deadline | .advanceTx deadline _ =>
    deadline ≤ s.clock + ttl * second
  | .loaded deadline session =>
    Copy low s session ∧ (session.status = .active → deadline ≤ s.lastActive + ttl * second)
  | .rotateCas _ _ deadline session | .fill deadline session => Filling ttl low s deadline session
  | .filling deadline session expiration =>
    Filling ttl low s deadline session ∧ expiration ≤ unixMilli deadline ∧
      expiration ≤ session.expiresAt * 1000
  | .reuseUpdate _ session | .revokeTx _ session => Copy low s session
  | .hashUpdate _ session => s.lock = some i ∧ Copy low s session ∧ session.version = s.row.version
  | .bulkQuery _ done | .bulkTx _ done => done = true → Sealed ttl s
  | .deny entry next => Denying ttl low s i entry next
  | .denying entry expiration next => Denying ttl low s i entry next ∧
    (ttl * 1000 ≤ expiration ∨ entry.expiresAt * 1000 ≤ unixMilli s.clock + expiration + 1)
  | .returned .revoked => Sealed ttl s
  | .begun | .capture | .rotating _ _ | .revokeRead _ | .hashLock _ | .filled _ _ | .confirm _
  | .returned _ => True

/-- A read of the cache that began after a revoke had returned has no active copy. -/
def Pc.HoldsNone : Pc → Prop
  | .loaded _ session => session.status ≠ .active
  | .fill _ _ | .filling _ _ _ | .filled _ _ | .confirm _ | .returned (.session _) => False
  | _ => True

structure Call.Ok (ttl low : ℤ) (s : SessionState) (i : ℕ) (c : Call) : Prop where
  pc : c.pc.Ok ttl low s i
  sealed : c.late = true → Sealed ttl s
  late : c.late = true → c.op = .get → c.pc.HoldsNone

structure Guarded (ttl low : ℤ) (s : SessionState) : Prop where
  base : 0 ≤ low
  lower : low ≤ s.row.version
  active : s.row.status = .active → s.revokedClock = none
  revoked : s.row.status ≠ .active → s.row.status = .revoked ∧ ∃ t, s.revokedClock = some t
  past : ∀ t, s.revokedClock = some t → t ≤ s.clock
  cache : ∀ c, s.cache = some c → c.entry.version ≤ s.row.version
  calls : ∀ (i : ℕ) (c : Call), s.calls[i]? = some c → c.Ok ttl low s i

/-- The last tombstone of `RevokeUserSession` meets nothing newer. -/
def FinalsAccepted (s : SessionState) : SessionAction → Prop
  | .proceed i false =>
    match (s.calls[i]?).map Call.pc with
    | some (.denying entry _ .revokeFinal) =>
      ∀ c ∈ live (unixMilli s.clock) s.cache, c.entry.version ≤ entry.version
    | _ => True
  | _ => True

instance (s : SessionState) : (a : SessionAction) → Decidable (FinalsAccepted s a)
  | .proceed i false => by unfold FinalsAccepted; dsimp only; split <;> infer_instance
  | .proceed _ true | .tick _ | .begin _ => .isTrue trivial

/-! ## Other calls -/

/-- What a step may do to the state, as the calls that do not move see it. -/
structure Evolves (ttl : ℤ) (s s' : SessionState) : Prop where
  clock : s.clock ≤ s'.clock
  lastActive : s.lastActive ≤ s'.lastActive
  version : s.row.version ≤ s'.row.version
  expiresAt : s'.row.expiresAt = s.row.expiresAt
  revoked : s.row.status = .revoked → s'.row.status = .revoked ∧ s'.row.version = s.row.version
  sealed : Sealed ttl s → Sealed ttl s'

section Frame

variable {ttl low : ℤ} {s s' : SessionState} {i : ℕ}

variable {session : UserSession} {entry : UserSessionCacheEntry}

theorem Copy.evolve (h : Copy low s session) (he : Evolves ttl s s') : Copy low s' session :=
  ⟨h.lower, Int.le_trans h.version he.version, h.expiresAt.trans he.expiresAt.symm⟩

theorem Filling.evolve {deadline : ℤ} (h : Filling ttl low s deadline session) (he : Evolves ttl s s') :
    Filling ttl low s' deadline session :=
  ⟨h.copy.evolve he, h.active, Int.le_trans h.deadline (Int.add_le_add_right he.lastActive _)⟩

theorem AfterDeny.Ok.evolve {next : AfterDeny} (h : next.Ok ttl low s i entry) (he : Evolves ttl s s')
    (hlock : s.lock = some i → s'.lock = some i ∧ s'.row.version = s.row.version) : next.Ok ttl low s' i entry := by
  cases next with
  | observed => trivial
  | reuseFinal => trivial
  | reuseFence now session => exact Copy.evolve h he
  | revokeFence now session => exact Copy.evolve h he
  | hashFence now session =>
    obtain ⟨hl, hcopy, hv⟩ := h
    exact ⟨(hlock hl).1, hcopy.evolve he, hv.trans (hlock hl).2.symm⟩
  | bulkFence now done => exact fun hdone => he.sealed (h hdone)
  | revokeFinal => exact (he.revoked h).1
  | hashFinal => exact ⟨(he.revoked h.1).1, h.2.trans (he.revoked h.1).2.symm⟩
  | bulkFinal now => exact ⟨(he.revoked h.1).1, h.2.trans (he.revoked h.1).2.symm⟩

theorem Denying.evolve {next : AfterDeny} (h : Denying ttl low s i entry next) (he : Evolves ttl s s')
    (hlock : s.lock = some i → s'.lock = some i ∧ s'.row.version = s.row.version) : Denying ttl low s' i entry next :=
  ⟨h.status, h.lower, Int.le_trans h.version he.version, h.expiresAt.trans he.expiresAt.symm, h.next.evolve he hlock⟩

theorem Pc.Ok.evolve {pc : Pc} (h : pc.Ok ttl low s i) (he : Evolves ttl s s')
    (hlock : s.lock = some i → s'.lock = some i ∧ s'.row.version = s.row.version) : pc.Ok ttl low s' i := by
  have hclock := he.clock
  cases pc with
  | captured deadline | rotateRead now tries deadline | advanceTx deadline now =>
    exact Int.le_trans h (Int.add_le_add_right hclock _)
  | loaded deadline session =>
    exact ⟨h.1.evolve he, fun ha => Int.le_trans (h.2 ha) (Int.add_le_add_right he.lastActive _)⟩
  | rotateCas now tries deadline session => exact Filling.evolve h he
  | fill deadline session => exact Filling.evolve h he
  | filling deadline session expiration => exact ⟨h.1.evolve he, h.2⟩
  | reuseUpdate now session => exact Copy.evolve h he
  | revokeTx now session => exact Copy.evolve h he
  | hashUpdate now session =>
    obtain ⟨hl, hcopy, hv⟩ := h
    exact ⟨(hlock hl).1, hcopy.evolve he, hv.trans (hlock hl).2.symm⟩
  | bulkQuery now done => exact fun hdone => he.sealed (h hdone)
  | bulkTx now done => exact fun hdone => he.sealed (h hdone)
  | deny entry next => exact Denying.evolve h he hlock
  | denying entry expiration next =>
    refine ⟨h.1.evolve he hlock, h.2.imp id fun hexp => ?_⟩
    have := unixMilli_mono hclock
    omega
  | returned result =>
    cases result with
    | revoked => exact he.sealed h
    | _ => trivial
  | _ => trivial

theorem Call.Ok.evolve {c : Call} (h : c.Ok ttl low s i) (he : Evolves ttl s s')
    (hlock : s.lock = some i → s'.lock = some i ∧ s'.row.version = s.row.version) : c.Ok ttl low s' i :=
  ⟨h.pc.evolve he hlock, fun hl => he.sealed (h.sealed hl), h.late⟩

end Frame

/-! ## Moves of one call -/

namespace Guarded

variable {ttl low : ℤ} {s s' : SessionState} {i : ℕ} {c d : Call}

theorem calls_set (h : Guarded ttl low s) (hc : s.calls[i]? = some c) (hcalls : s'.calls = s.calls.set i d)
    (he : Evolves ttl s s') (hlock : ∀ j, j ≠ i → s.lock = some j → s'.lock = some j ∧ s'.row.version = s.row.version)
    (hd : d.Ok ttl low s' i) : ∀ (j : ℕ) (e : Call), s'.calls[j]? = some e → e.Ok ttl low s' j := by
  intro j e hj
  rw [hcalls] at hj
  rcases getElem?_set_cases hc hj with ⟨rfl, rfl⟩ | ⟨hne, hold⟩
  · exact hd
  · exact (h.calls j e hold).evolve he (hlock j hne)

/-- The call goes on and the shared state stays, but for the lock, which only its holder gives back. -/
theorem moved (h : Guarded ttl low s) (hc : s.calls[i]? = some c) (hop : d.op = c.op)
    (hlate : d.late = c.late) {pc : Pc} {lock : Option ℕ} (hlock : ∀ j, j ≠ i → s.lock = some j → lock = some j)
    (hpc : pc.Ok ttl low { s with lock } i) (hnone : c.late = true → c.op = .get → pc.HoldsNone) :
    Guarded ttl low { s.goto i d pc with lock } := by
  have he : Evolves ttl s { s.goto i d pc with lock } :=
    { clock := Int.le_refl _
      lastActive := Int.le_refl _
      version := Int.le_refl _
      expiresAt := rfl
      revoked := fun hr => ⟨hr, rfl⟩
      sealed := fun hs => ⟨hs.status, hs.entry, hs.denied⟩ }
  have hpc' : pc.Ok ttl low { s.goto i d pc with lock } i := by
    refine hpc.evolve ⟨Int.le_refl _, Int.le_refl _, Int.le_refl _, rfl, fun hr => ⟨hr, rfl⟩, ?_⟩
      fun hl => ⟨hl, rfl⟩
    exact fun hs => ⟨hs.status, hs.entry, hs.denied⟩
  refine ⟨h.base, h.lower, h.active, h.revoked, h.past, h.cache, ?_⟩
  refine h.calls_set hc rfl he (fun j hj hl => ⟨hlock j hj hl, rfl⟩) ⟨hpc', ?_, ?_⟩
  · intro hl
    exact he.sealed ((h.calls i c hc).sealed (hlate ▸ hl))
  · intro hl hg
    exact hnone (hlate ▸ hl) (hop ▸ hg)

theorem goto (h : Guarded ttl low s) (hc : s.calls[i]? = some c) (hop : d.op = c.op)
    (hlate : d.late = c.late) {pc : Pc} (hpc : pc.Ok ttl low s i)
    (hnone : c.late = true → c.op = .get → pc.HoldsNone) : Guarded ttl low (s.goto i d pc) :=
  h.moved hc hop hlate (fun _ _ hl => hl) hpc hnone

theorem plain (h : Guarded ttl low s) (hc : s.calls[i]? = some c) {pc : Pc} (hpc : pc.Ok ttl low s i)
    (hnone : pc.HoldsNone) : Guarded ttl low (s.goto i c pc) :=
  h.goto hc rfl rfl hpc fun _ _ => hnone

theorem fail (h : Guarded ttl low s) (hc : s.calls[i]? = some c) {result : Result}
    (hrev : result ≠ .revoked) (hses : ∀ entry, result ≠ .session entry) : Guarded ttl low (s.fail i c result) := by
  refine h.moved hc rfl rfl (fun j hj hl => ?_) ?_ fun _ _ => ?_
  · rw [if_neg]
    · exact hl
    · rw [hl]
      exact fun he => hj (Option.some.inj he)
  · cases result <;> trivial
  · cases result with
    | session entry => exact absurd rfl (hses entry)
    | _ => trivial

/-! ### Scripts -/

variable {session : UserSession} {entry : UserSessionCacheEntry}

/-- A snapshot does not come past a tombstone: it is refused, or it is late and dropped. -/
theorem sealed_fill (hs : Sealed ttl s) {deadline expiration : ℤ} (hfill : Filling ttl low s deadline session)
    (hexp : expiration ≤ unixMilli deadline) (hend : expiration ≤ session.expiresAt * 1000) : Sealed ttl { s with
      cache := (writeScript (unixMilli s.clock) session.cacheEntry expiration s.cache).2 } := by
  obtain ⟨t, ht, hdenied⟩ := hs.denied
  rcases writeScript_cases (unixMilli s.clock) expiration session.cacheEntry s.cache with
    hw | ⟨-, hover, hw⟩ | ⟨hdeny, -⟩
  · rw [hw]
    refine ⟨hs.status, fun c hc => hs.entry c (live_eq_some.mp hc).1, t, ht, fun hle => ?_⟩
    obtain ⟨c, hc, hlong⟩ := hdenied hle
    exact ⟨c, live_eq_some.mpr ⟨hc, Int.le_trans hle hlong⟩, hlong⟩
  · -- nothing was there, so the tombstone has run out
    have hlate : deniedUntil ttl s t < unixMilli s.clock := by
      by_contra hle
      obtain ⟨c, hc, hlong⟩ := hdenied (by omega)
      have hlive := live_eq_some.mpr ⟨hc, show unixMilli s.clock ≤ c.expireAt by omega⟩
      exact hs.entry c hc (hover c hlive)
    have hdrop : expiration ≤ unixMilli s.clock := by
      have hdead := hfill.deadline
      rw [SessionState.lastActive, ht, Option.getD_some] at hdead
      have hms := unixMilli_mono hdead
      rw [unixMilli_add_seconds] at hms
      rw [hfill.copy.expiresAt] at hend
      unfold deniedUntil at hlate
      omega
    rw [hw, if_pos hdrop]
    refine ⟨hs.status, nofun, t, ht, fun hle => ?_⟩
    have hle' : unixMilli s.clock ≤ deniedUntil ttl s t := hle
    omega
  · exact absurd hfill.active hdeny

variable {expiration : ℤ} {cache : Option CachedSession} {next : AfterDeny}

theorem sealed_accepted (h : Guarded ttl low s) (hrev : s.row.status ≠ .active) (hdeny : entry.status ≠ .active)
    (hend : entry.expiresAt = s.row.expiresAt)
    (hlong : ttl * 1000 ≤ expiration ∨ entry.expiresAt * 1000 ≤ unixMilli s.clock + expiration + 1) :
    Sealed ttl { s with cache := some ⟨entry, unixMilli s.clock + expiration⟩ } := by
  obtain ⟨hstatus, t, ht⟩ := h.revoked hrev
  have hpast := unixMilli_mono (h.past t ht)
  refine ⟨hstatus, fun c hc => ?_, t, ht, fun _ => ⟨_, rfl, ?_⟩⟩
  · cases hc
    exact hdeny
  · rw [hend] at hlong
    show min _ _ ≤ _
    dsimp only
    omega

theorem sealed_deny (h : Guarded ttl low s) (hs : Sealed ttl s) (hdeny : entry.status ≠ .active)
    (hend : entry.expiresAt = s.row.expiresAt)
    (hlong : ttl * 1000 ≤ expiration ∨ entry.expiresAt * 1000 ≤ unixMilli s.clock + expiration + 1) :
    Sealed ttl { s with cache := (writeScript (unixMilli s.clock) entry expiration s.cache).2 } := by
  obtain ⟨t, ht, hdenied⟩ := hs.denied
  rcases writeScript_cases (unixMilli s.clock) expiration entry s.cache with hw | ⟨ha, -⟩ | ⟨-, hw⟩
  · rw [hw]
    refine ⟨hs.status, fun c hc => hs.entry c (live_eq_some.mp hc).1, t, ht, fun hle => ?_⟩
    obtain ⟨c, hc, hl⟩ := hdenied hle
    exact ⟨c, live_eq_some.mpr ⟨hc, Int.le_trans hle hl⟩, hl⟩
  · exact absurd ha hdeny
  · rw [hw]
    refine h.sealed_accepted ?_ hdeny hend hlong
    rw [hs.status]
    decide

theorem cache_script (h : Guarded ttl low s) (expiration : ℤ) (hv : entry.version ≤ s.row.version) :
    ∀ c, (writeScript (unixMilli s.clock) entry expiration s.cache).2 = some c → c.entry.version ≤ s.row.version := by
  intro c hc
  rcases writeScript_cases (unixMilli s.clock) expiration entry s.cache with hw | ⟨-, -, hw⟩ | ⟨-, hw⟩
  · rw [hw] at hc
    exact h.cache c (live_eq_some.mp hc).1
  · rw [hw] at hc
    dsimp only at hc
    split_ifs at hc
    cases hc
    exact hv
  · rw [hw] at hc
    cases hc
    exact hv

theorem evolves_cache (hsealed : Sealed ttl s → Sealed ttl { s with cache }) : Evolves ttl s { s with cache } where
  clock := Int.le_refl _
  lastActive := Int.le_refl _
  version := Int.le_refl _
  expiresAt := rfl
  revoked := fun hr => ⟨hr, rfl⟩
  sealed := hsealed

theorem withCache (h : Guarded ttl low s) (hcache : ∀ c, cache = some c → c.entry.version ≤ s.row.version)
    (hsealed : Sealed ttl s → Sealed ttl { s with cache }) : Guarded ttl low { s with cache } := by
  exact ⟨h.base, h.lower, h.active, h.revoked, h.past, hcache,
    fun j e hj => (h.calls j e hj).evolve (evolves_cache hsealed) fun hl => ⟨hl, rfl⟩⟩

/-! ### Time, new calls and updates of the row -/

theorem tick (h : Guarded ttl low s) (nanoseconds : ℕ) : Guarded ttl low { s with clock := s.clock + nanoseconds } := by
  have hclock : s.clock ≤ s.clock + nanoseconds := by omega
  have he : Evolves ttl s { s with clock := s.clock + nanoseconds } := by
    refine ⟨hclock, ?_, Int.le_refl _, rfl, fun hr => ⟨hr, rfl⟩, fun hs => ?_⟩
    · unfold SessionState.lastActive
      cases s.revokedClock with
      | none => exact hclock
      | some t => exact Int.le_refl _
    · obtain ⟨t, ht, hdenied⟩ := hs.denied
      exact ⟨hs.status, hs.entry, t, ht, fun hle => hdenied (Int.le_trans (unixMilli_mono hclock) hle)⟩
  exact ⟨h.base, h.lower, h.active, h.revoked, fun t ht => Int.le_trans (h.past t ht) hclock, h.cache,
    fun j e hj => (h.calls j e hj).evolve he fun hl => ⟨hl, rfl⟩⟩

theorem begin (h : Guarded ttl low s) (op : Op) : Guarded ttl low { s with calls := s.calls ++ [{
      op
      pc := .begun
      late := s.calls.any fun c => c.pc = .returned .revoked }] } := by
  have he : ∀ calls, Evolves ttl s { s with calls } := fun calls =>
    { clock := Int.le_refl _
      lastActive := Int.le_refl _
      version := Int.le_refl _
      expiresAt := rfl
      revoked := fun hr => ⟨hr, rfl⟩
      sealed := fun hs => ⟨hs.status, hs.entry, hs.denied⟩ }
  refine ⟨h.base, h.lower, h.active, h.revoked, h.past, h.cache, fun j e hj => ?_⟩
  rcases Nat.lt_or_ge j s.calls.length with hlt | hge
  · rw [List.getElem?_append_left hlt] at hj
    exact (h.calls j e hj).evolve (he _) fun hl => ⟨hl, rfl⟩
  · rw [List.getElem?_append_right hge] at hj
    obtain rfl := List.mem_singleton.mp (List.mem_of_getElem? hj)
    refine ⟨trivial, fun hl => ?_, fun _ _ => trivial⟩
    -- a call that returned revoked knows that the session is sealed
    obtain ⟨c, hc, hpc⟩ := List.any_eq_true.mp hl
    obtain ⟨k, hk⟩ := List.mem_iff_getElem?.mp hc
    have hok := (h.calls k c hk).pc
    rw [of_decide_eq_true hpc] at hok
    exact (he _).sealed hok

theorem update (h : Guarded ttl low s) (hc : s.calls[i]? = some c) (hactive : s.row.status = .active)
    (hfree : s.blocked i = false) (hcalls : s'.calls = s.calls.set i d)
    (hlate : d.late = c.late) (hcache : s'.cache = s.cache) (hclock : s'.clock = s.clock)
    (hexp : s'.row.expiresAt = s.row.expiresAt) (hv : s.row.version ≤ s'.row.version)
    (hstatus : (s'.row.status = .active ∧ s'.revokedClock = s.revokedClock) ∨
      (s'.row.status = .revoked ∧ s'.revokedClock = some s.clock))
    (hpc : d.pc.Ok ttl low s' i) : Guarded ttl low s' := by
  have hnone := h.active hactive
  have hnotsealed : ¬Sealed ttl s := by
    intro hs
    rw [hs.status] at hactive
    cases hactive
  have hlast : s'.lastActive = s.lastActive := by
    unfold SessionState.lastActive
    rcases hstatus with ⟨-, hr⟩ | ⟨-, hr⟩
    · rw [hr, hclock]
    · rw [hr, hnone]
      rfl
  have he : Evolves ttl s s' :=
    { clock := Int.le_of_eq hclock.symm
      lastActive := Int.le_of_eq hlast.symm
      version := hv
      expiresAt := hexp
      revoked := fun hr => by rw [hactive] at hr; cases hr
      sealed := fun hs => absurd hs hnotsealed }
  refine ⟨h.base, Int.le_trans h.lower hv, ?_, ?_, ?_, ?_, ?_⟩
  · rcases hstatus with ⟨-, hr⟩ | ⟨hst, -⟩
    · exact fun _ => hr.trans hnone
    · intro ha
      rw [hst] at ha
      cases ha
  · rcases hstatus with ⟨hst, -⟩ | ⟨hst, hr⟩
    · exact fun hna => absurd hst hna
    · exact fun _ => ⟨hst, s.clock, hr⟩
  · intro t ht
    rw [hclock]
    rcases hstatus with ⟨-, hr⟩ | ⟨-, hr⟩
    · rw [hr, hnone] at ht
      cases ht
    · rw [hr] at ht
      cases ht
      exact Int.le_refl _
  · intro e hce
    rw [hcache] at hce
    exact Int.le_trans (h.cache e hce) hv
  · refine h.calls_set hc hcalls he (fun j hj hl => ?_) ⟨hpc, ?_, ?_⟩
    · unfold SessionState.blocked at hfree
      rw [hl] at hfree
      simp [hj] at hfree
    · intro hl
      exact absurd ((h.calls i c hc).sealed (hlate ▸ hl)) hnotsealed
    · intro hl
      exact absurd ((h.calls i c hc).sealed (hlate ▸ hl)) hnotsealed

/-! ### Statements -/

theorem fillScript (h : Guarded ttl low s) (hc : s.calls[i]? = some c) {deadline expiration : ℤ}
    (hpc : c.pc = .filling deadline session expiration) :
    Guarded ttl low (s.write ttl i c (.filling deadline session expiration)) := by
  have hok := (h.calls i c hc).pc
  rw [hpc] at hok
  obtain ⟨hfill, hexp, hend⟩ := hok
  have hlate : c.late = true → c.op = .get → False := by
    intro hl hg
    have := (h.calls i c hc).late hl hg
    rwa [hpc] at this
  have hcache := h.withCache (h.cache_script expiration hfill.copy.version)
    fun hs => sealed_fill hs hfill hexp hend
  refine hcache.goto hc rfl rfl ?_ fun hl hg => (hlate hl hg).elim
  split_ifs <;> trivial

theorem denyScript (h : Guarded ttl low s) (hc : s.calls[i]? = some c) (hpc : c.pc = .denying entry expiration next)
    (hfinal : next = .revokeFinal → ∀ e ∈ live (unixMilli s.clock) s.cache, e.entry.version ≤ entry.version) :
    Guarded ttl low (s.write ttl i c (.denying entry expiration next)) := by
  have hok := (h.calls i c hc).pc
  rw [hpc] at hok
  obtain ⟨hdeny, hlong⟩ := hok
  have hkeeps : Sealed ttl s → Sealed ttl { s with
      cache := (writeScript (unixMilli s.clock) entry expiration s.cache).2 } :=
    fun hs => h.sealed_deny hs hdeny.status hdeny.expiresAt hlong
  have hcache := h.withCache (h.cache_script expiration hdeny.version) hkeeps
  -- a last tombstone that meets nothing newer seals the session
  have hseal : s.row.status = .revoked → (∀ e ∈ live (unixMilli s.clock) s.cache, e.entry.version ≤ entry.version) →
      Sealed ttl { s with
        cache := (writeScript (unixMilli s.clock) entry expiration s.cache).2 } := by
    intro hrev hnew
    rw [writeScript_deny hdeny.status (Int.le_trans h.base hdeny.lower) fun e he => hnew e he]
    exact h.sealed_accepted (by rw [hrev]; decide) hdeny.status hdeny.expiresAt hlong
  have hlocked : entry.version = s.row.version →
      ∀ e ∈ live (unixMilli s.clock) s.cache, e.entry.version ≤ entry.version := by
    intro hv e he
    rw [hv]
    exact h.cache e (live_eq_some.mp he).1
  have hnext := hdeny.next.evolve (evolves_cache hkeeps) fun hl => ⟨hl, rfl⟩
  unfold SessionState.write
  dsimp only
  generalize (writeScript (unixMilli s.clock) entry expiration s.cache).1 = accepted
  cases next with
  | observed => exact hcache.plain hc trivial trivial
  | reuseFinal => exact hcache.plain hc trivial trivial
  | revokeFinal => exact hcache.plain hc (hseal hdeny.next (hfinal rfl)) trivial
  | hashFinal => exact hcache.plain hc (hseal hdeny.next.1 (hlocked hdeny.next.2)) trivial
  | bulkFinal now =>
    exact hcache.plain hc (fun _ => hseal hdeny.next.1 (hlocked hdeny.next.2)) trivial
  | reuseFence now session =>
    cases accepted with
    | true => exact hcache.plain hc hnext trivial
    | false => exact hcache.fail hc (by decide) nofun
  | revokeFence now session =>
    cases accepted with
    | true => exact hcache.plain hc hnext trivial
    | false => exact hcache.fail hc (by decide) nofun
  | hashFence now session =>
    cases accepted with
    | true => exact hcache.plain hc hnext trivial
    | false => exact hcache.fail hc (by decide) nofun
  | bulkFence now done =>
    cases accepted with
    | true => exact hcache.plain hc hnext trivial
    | false => exact hcache.fail hc (by decide) nofun

theorem write (h : Guarded ttl low s) (hc : s.calls[i]? = some c)
    (hfinal : ∀ entry expiration, c.pc = .denying entry expiration .revokeFinal →
      ∀ e ∈ live (unixMilli s.clock) s.cache, e.entry.version ≤ entry.version) :
    Guarded ttl low (s.write ttl i c c.pc) := by
  have hok := (h.calls i c hc).pc
  have hnone := (h.calls i c hc).late
  cases hpc : c.pc with
  | fill deadline session =>
    rw [hpc] at hok hnone
    unfold SessionState.write
    dsimp only
    cases he : redisExpiration ttl s.clock session.cacheEntry (some deadline) with
    | ok expiration =>
      obtain ⟨hdead, hend⟩ := redisExpiration_active hok.active he
      exact h.goto hc rfl rfl ⟨hok, hdead, hend⟩ fun hl hg => (hnone hl hg).elim
    | error e =>
      cases e with
      | observationStale => exact h.goto hc rfl rfl trivial fun hl hg => (hnone hl hg).elim
      | _ => exact h.plain hc trivial trivial
  | filling deadline session expiration => exact h.fillScript hc hpc
  | filled deadline session =>
    rw [hpc] at hnone
    unfold SessionState.write
    dsimp only
    cases completed s.clock session.cacheEntry deadline with
    | none => exact h.goto hc rfl rfl trivial fun hl hg => (hnone hl hg).elim
    | some e =>
      cases e with
      | observationStale => exact h.goto hc rfl rfl trivial fun hl hg => (hnone hl hg).elim
      | _ => exact h.plain hc trivial trivial
  | confirm session =>
    rw [hpc] at hnone
    refine h.goto hc rfl rfl ?_ fun hl hg => (hnone hl hg).elim
    split_ifs <;> trivial
  | deny entry next =>
    rw [hpc] at hok
    obtain ⟨e, he, hlong⟩ := redisExpiration_deny ttl s.clock hok.status
    unfold SessionState.write
    dsimp only
    rw [he]
    exact h.plain hc ⟨hok, hlong⟩ trivial
  | denying entry expiration next =>
    exact h.denyScript hc hpc fun hnext => hfinal entry expiration (hnext ▸ hpc)
  | _ => exact h

theorem copy_row (h : Guarded ttl low s) : Copy low s s.row.afterFind := ⟨h.lower, Int.le_refl _, rfl⟩

theorem denied_row (h : Guarded ttl low s) {status : SessionStatus} (hst : status ≠ .active) (now : ℤ)
    (reason : String) (hnext : next.Ok ttl low s i (s.row.afterFind.denied status now reason)) :
    Denying ttl low s i (s.row.afterFind.denied status now reason) next :=
  ⟨hst, h.lower, Int.le_refl _, rfl, hnext⟩

theorem lastActive_eq (h : Guarded ttl low s) (hactive : s.row.status = .active) : s.lastActive = s.clock := by
  rw [SessionState.lastActive, h.active hactive]
  rfl

theorem enter (h : Guarded ttl low s) (hc : s.calls[i]? = some c) : Guarded ttl low (s.enter i c) := by
  unfold SessionState.enter
  cases hop : c.op with
  | create => exact h
  | get =>
    dsimp only
    cases hread : getUserSessionCache s.clock s.cache with
    | hit entry =>
      refine h.goto hc rfl rfl trivial fun hl _ => ?_
      -- a sealed session has no active entry to hit
      have hs := (h.calls i c hc).sealed hl
      unfold getUserSessionCache at hread
      split at hread
      · cases hread
      · rename_i e he
        split_ifs at hread with hbad huse
        exact absurd (usable_iff.mp huse).1 (hs.entry e (live_eq_some.mp he).1)
    | inactive => exact h.plain hc trivial trivial
    | miss => exact h.plain hc trivial trivial
  | rotate presentedHash nextHash now grace =>
    dsimp only
    split_ifs <;> exact h.plain hc trivial trivial
  | revoke reason => exact h.plain hc trivial trivial
  | revokeByRefreshHash presentedHash reason =>
    dsimp only
    split_ifs <;> exact h.plain hc trivial trivial
  | revokeAll reason => exact h.plain hc nofun trivial
  | advance expectedSessionVersion expectedUserAuthVersion nextUserAuthVersion =>
    dsimp only
    split_ifs <;> exact h.plain hc trivial trivial

theorem rotateRead (h : Guarded ttl low s) (hc : s.calls[i]? = some c) {presentedHash : String} {now : ℤ}
    {tries : ℕ} {deadline : ℤ} (hpc : c.pc = .rotateRead now tries deadline) :
    Guarded ttl low (s.rotateRead i c presentedHash now tries deadline) := by
  have hdead := (h.calls i c hc).pc
  rw [hpc] at hdead
  unfold SessionState.rotateRead
  dsimp only
  -- the read is noted in the call, which is all that changes besides its place
  have hgo : ∀ {pc : Pc}, pc.Ok ttl low s i → pc.HoldsNone →
      Guarded ttl low (s.goto i { c with reads := c.reads ++ [(now, s.row.afterFind)] } pc) :=
    fun hpc hnone => h.goto (d := { c with reads := c.reads ++ [(now, s.row.afterFind)] }) hc rfl rfl hpc
      fun _ _ => hnone
  cases hkind : SessionState.hashKind s.row.afterFind presentedHash now with
  | current =>
    have huse : s.row.UsableAt now := by
      unfold SessionState.hashKind at hkind
      split_ifs at hkind with huse
      exact huse
    refine hgo ⟨h.copy_row, huse.active, ?_⟩ trivial
    rw [h.lastActive_eq huse.active]
    exact hdead
  | reused =>
    have hdeny : Denying ttl low s i (s.row.afterFind.denied .revoking now "refresh_reuse")
        (.reuseFence now s.row.afterFind) := h.denied_row (by decide) now _ h.copy_row
    exact hgo hdeny trivial
  | _ => exact hgo trivial trivial

theorem rotateCas (h : Guarded ttl low s) (hc : s.calls[i]? = some c) (hfree : s.blocked i = false)
    {presentedHash nextHash : String} {grace now : ℤ} {tries : ℕ} {deadline : ℤ}
    (hpc : c.pc = .rotateCas now tries deadline session) :
    Guarded ttl low (s.rotateCas i c presentedHash nextHash grace now tries deadline session) := by
  have hok := (h.calls i c hc).pc
  rw [hpc] at hok
  unfold SessionState.rotateCas
  split_ifs with hmatch
  · have hactive := hmatch.1.active
    refine h.update hc hactive hfree rfl rfl rfl rfl rfl (Int.le_refl _) (.inl ⟨hactive, rfl⟩) ?_
    exact ⟨⟨hok.copy.lower, hok.copy.version, hok.copy.expiresAt⟩, hok.active, hok.deadline⟩
  · exact h.plain hc trivial trivial

theorem revoke (h : Guarded ttl low s) (hc : s.calls[i]? = some c) (hfree : s.blocked i = false)
    (hactive : s.row.status = .active) (hcopy : Copy low s session) (now : ℤ) (reason : String)
    (hnext : next = .reuseFinal ∨ next = .revokeFinal ∨
      ((next = .hashFinal ∨ ∃ now, next = .bulkFinal now) ∧ session.version = s.row.version)) :
    Guarded ttl low (s.revoke i c session now reason next) := by
  refine h.update hc hactive hfree rfl rfl rfl rfl rfl (Int.le_refl _) (.inr ⟨rfl, rfl⟩) ?_
  refine ⟨nofun, hcopy.lower, hcopy.version, hcopy.expiresAt, ?_⟩
  rcases hnext with rfl | rfl | ⟨rfl | ⟨now', rfl⟩, hv⟩
  · trivial
  · rfl
  · exact ⟨rfl, hv⟩
  · exact ⟨rfl, hv⟩

theorem hashLock (h : Guarded ttl low s) (hc : s.calls[i]? = some c) (hfree : s.blocked i = false)
    (presentedHash reason : String) (now : ℤ) : Guarded ttl low (s.hashLock i c presentedHash reason now) := by
  unfold SessionState.hashLock
  dsimp only
  split_ifs
  · refine h.moved hc rfl rfl (fun j hj hl => ?_) ?_ fun _ _ => trivial
    · unfold SessionState.blocked at hfree
      rw [hl] at hfree
      simp [hj] at hfree
    · exact ⟨nofun, h.lower, Int.le_refl _, rfl, rfl, ⟨h.lower, Int.le_refl _, rfl⟩, rfl⟩
  · exact h.plain hc trivial trivial
  · exact h.plain hc trivial trivial

theorem advanceTx (h : Guarded ttl low s) (hc : s.calls[i]? = some c) (hfree : s.blocked i = false)
    (expectedSessionVersion expectedUserAuthVersion nextUserAuthVersion : ℤ) {deadline now : ℤ}
    (hpc : c.pc = .advanceTx deadline now) :
    Guarded ttl low (s.advanceTx i c expectedSessionVersion expectedUserAuthVersion nextUserAuthVersion
      deadline now) := by
  have hdead := (h.calls i c hc).pc
  rw [hpc] at hdead
  unfold SessionState.advanceTx
  split_ifs with hbad
  · exact h.plain hc trivial trivial
  · push Not at hbad
    have hv : s.row.version ≤ s.row.version + 1 := by omega
    refine h.update hc hbad.1 hfree rfl rfl rfl rfl rfl hv (.inl ⟨hbad.1, rfl⟩) ?_
    refine ⟨⟨Int.le_trans h.lower hv, Int.le_refl _, rfl⟩, hbad.1, ?_⟩
    have hlast := h.lastActive_eq hbad.1
    unfold SessionState.lastActive at hlast
    show deadline ≤ s.revokedClock.getD s.clock + ttl * second
    rw [hlast]
    exact hdead

theorem proceed (h : Guarded ttl low s) (hc : s.calls[i]? = some c)
    (hfinal : ∀ entry expiration, c.pc = .denying entry expiration .revokeFinal →
      ∀ e ∈ live (unixMilli s.clock) s.cache, e.entry.version ≤ entry.version) :
    Guarded ttl low (s.proceed ttl i c) := by
  have hok := (h.calls i c hc).pc
  have hnone := (h.calls i c hc).late
  unfold SessionState.proceed
  split
  · exact h.enter hc
  · exact h.plain hc (Int.le_refl _) trivial
  · rename_i deadline hpc hop
    rw [hpc] at hok
    refine h.goto hc rfl rfl ⟨h.copy_row, fun hactive => ?_⟩ fun hl _ hactive => ?_
    · rw [h.lastActive_eq hactive]
      exact hok
    · have hstatus : s.row.status = .active := hactive
      rw [((h.calls i c hc).sealed hl).status] at hstatus
      cases hstatus
  · rename_i deadline _ _ _ hpc hop
    rw [hpc] at hok
    exact h.plain hc hok trivial
  · rename_i deadline session hpc
    rw [hpc] at hok hnone
    split_ifs with huse
    · have hactive := huse.active
      exact h.goto hc rfl rfl ⟨hok.1, hactive, hok.2 hactive⟩ fun hl hg => absurd hactive (hnone hl hg)
    · exact h.plain hc ⟨nofun, hok.1.lower, hok.1.version, hok.1.expiresAt, trivial⟩ trivial
  · exact h.plain hc (Int.le_refl _) trivial
  · exact h.plain hc trivial trivial
  · rename_i hpc hop
    exact h.rotateRead hc hpc
  · rename_i hpc hop
    split_ifs with hfree
    · exact h
    · exact h.rotateCas hc (by simpa using hfree) hpc
  · rename_i now session hpc
    rw [hpc] at hok
    split_ifs with hfree huse
    · exact h
    · exact h.revoke hc (by simpa using hfree) huse.active hok now _ (.inl rfl)
    · exact h.plain hc trivial trivial
  · dsimp only
    split_ifs
    · exact h.plain hc (h.denied_row (by decide) _ _ h.copy_row) trivial
    · exact h.plain hc trivial trivial
  · rename_i now candidate reason hpc hop
    rw [hpc] at hok
    split_ifs with hfree huse
    · exact h
    · exact h.revoke hc (by simpa using hfree) huse.active hok now reason (.inr (.inl rfl))
    · exact h.plain hc trivial trivial
  · split_ifs with hfree
    · exact h
    · exact h.hashLock hc (by simpa using hfree) _ _ _
  · rename_i now session _ reason hpc hop
    rw [hpc] at hok
    obtain ⟨hlock, hcopy, hv⟩ := hok
    have hfree : s.blocked i = false := by
      unfold SessionState.blocked
      rw [hlock]
      simp
    split_ifs with hactive
    · exact h.revoke hc hfree hactive hcopy now reason (.inr (.inr ⟨.inl rfl, hv⟩))
    · exact h.fail hc (by decide) nofun
  · rename_i now done reason hpc hop
    rw [hpc] at hok
    split_ifs with hmatch hdone
    · exact h.plain hc (h.denied_row (by decide) _ _ hok) trivial
    · exact h.plain hc (hok hdone) trivial
    · exact h.plain hc trivial trivial
  · rename_i now done reason hpc hop
    rw [hpc] at hok
    split_ifs with hfree hactive
    · exact h
    · exact h.revoke hc (by simpa using hfree) hactive h.copy_row now reason
        (.inr (.inr ⟨.inr ⟨now, rfl⟩, rfl⟩))
    · exact h.plain hc hok trivial
  · rename_i hpc hop
    split_ifs with hfree
    · exact h
    · exact h.advanceTx hc (by simpa using hfree) _ _ _ hpc
  · exact h.write hc hfinal

theorem step (h : Guarded ttl low s) {a : SessionAction} (hfinal : FinalsAccepted s a) :
    Guarded ttl low (sessionStep ttl s a) := by
  cases a with
  | tick nanoseconds => exact h.tick nanoseconds
  | begin op => exact h.begin op
  | proceed i fault =>
    unfold sessionStep
    dsimp only
    cases hc : s.calls[i]? with
    | none => exact h
    | some c =>
      cases fault with
      | true =>
        dsimp only
        rw [if_pos rfl]
        split
        · exact h.plain hc trivial trivial
        · exact h
        · exact h.fail hc (by decide) nofun
      | false =>
        refine h.proceed hc fun entry expiration hpc => ?_
        unfold FinalsAccepted at hfinal
        simpa only [hc, Option.map_some, hpc] using hfinal

theorem start {session row : UserSession} {clock : ℤ}
    (h : createUserSessionWithTx (unix clock) session = some row) (lag : ℕ) :
    Guarded ttl row.version (.start ttl row clock lag) := by
  obtain ⟨hpos, hactive, -⟩ := createUserSessionWithTx_some h
  refine ⟨by omega, Int.le_refl _, fun _ => rfl, fun hna => absurd hactive hna, nofun, nofun, fun i c hc => ?_⟩
  obtain rfl := List.mem_singleton.mp (List.mem_of_getElem? hc)
  refine ⟨⟨⟨Int.le_refl _, Int.le_refl _, rfl⟩, hactive, ?_⟩, nofun, nofun⟩
  show clock - lag + ttl * second ≤ clock + ttl * second
  omega

end Guarded

/-! ## Runs -/

/-- After a revoke of the session has returned, no read that begins later returns the session, as long
as the tombstone of every `RevokeUserSession` meets nothing newer; and a revoked row stays revoked. -/
theorem revoked_sessions_stay_revoked (ttl : ℤ) {session row : UserSession} {clock : ℤ} (lag : ℕ)
    (hcreate : createUserSessionWithTx (unix clock) session = some row) {as : List SessionAction}
    (h : Along (sessionStep ttl) FinalsAccepted (.start ttl row clock lag) as) :
    (∀ c ∈ (run (sessionStep ttl) (.start ttl row clock lag) as).calls, c.late = true → c.op = .get →
        ∀ entry, c.pc ≠ .returned (.session entry)) ∧
      Along (sessionStep ttl)
        (fun s a => s.row.status = .revoked → (sessionStep ttl s a).row.status = .revoked)
        (.start ttl row clock lag) as := by
  have hguard : Guarded ttl row.version (run (sessionStep ttl) (.start ttl row clock lag) as) :=
    run_invariant_along (fun s a hs hfinal => hs.step hfinal) (.start hcreate lag) h
  refine ⟨fun c hc hlate hget entry hpc => ?_, Along.of_forall (revoked_step ttl) _ _⟩
  obtain ⟨i, hi⟩ := List.mem_iff_getElem?.mp hc
  have hnone := (hguard.calls i c hi).late hlate hget
  rw [hpc] at hnone
  exact hnone

def loginRow : UserSession where
  version := 1
  userAuthVersion := 1
  refreshHash := "a"
  lastActiveAt := 1000
  expiresAt := 1000000

/-- A reader loads the row, the session is revoked, the reader's snapshot comes late and is refused, and
another reader begins. -/
def lateFill : List SessionAction :=
  ([.begin .get, .proceed 1 false, .proceed 1 false, .proceed 1 false, .proceed 1 false,
    .begin (.revoke "logout")] : List SessionAction) ++ List.replicate 7 (SessionAction.proceed 2 false) ++
  ([.tick 1000000, .proceed 1 false, .proceed 1 false, .begin .get, .proceed 3 false] : List SessionAction)

theorem revoked_sessions_stay_revoked_late_fill :
    let s := run (sessionStep 60) (.start 60 loginRow (1000 * second) 0) lateFill
    (∃ c ∈ s.calls, c.late = true ∧ c.op = .get ∧ c.pc = .returned .inactive) ∧
      ∀ c ∈ s.calls, c.late = true → c.op = .get → ∀ entry, c.pc ≠ .returned (.session entry) := by
  have hcreate : createUserSessionWithTx (unix (1000 * second)) loginRow = some loginRow := by
    decide
  have hfinal : Along (sessionStep 60) FinalsAccepted (.start 60 loginRow (1000 * second) 0) lateFill := by
    decide
  exact ⟨by decide, (revoked_sessions_stay_revoked 60 0 hcreate hfinal).1⟩

/-- The revoke stalls after its fence until the fence has run out. The session moves to version 2 and
is cached again, and then the row is revoked; the tombstone has version 1. -/
def stalledRevoke : List SessionAction :=
  ([.begin (.revoke "logout")] : List SessionAction) ++ List.replicate 4 (SessionAction.proceed 1 false) ++
  ([.tick 61000000000, .begin (.advance 1 1 2)] : List SessionAction) ++
  List.replicate 7 (SessionAction.proceed 2 false) ++ List.replicate 3 (SessionAction.proceed 1 false) ++
  ([.begin .get, .proceed 3 false] : List SessionAction)

/-- A read that begins after the revoke has returned gives the session back as active. -/
theorem stalled_revoke_read_active :
    let s := run (sessionStep 60) (.start 60 loginRow (1000 * second) 0) stalledRevoke
    s.row.status = .revoked ∧ (∃ c ∈ s.calls, c.pc = .returned .revoked) ∧
      ∃ c ∈ s.calls, c.late = true ∧ c.op = .get ∧ c.pc = .returned (.session
        ⟨2, 2, .active, 1061, 1000000, 0, ""⟩) := by
  decide

end Vancine.Sessions
