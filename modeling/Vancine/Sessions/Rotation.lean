import Vancine.Sessions.Revocation

/-!
# Refresh rotation

Rotations and revokes of one session, with no change of its version. The exchanges form a chain from the
first hash to the current one, so a hash is exchanged once as long as the hashes that are brought are
new (the service derives each secret from the one before).

A rotation reads the row up to three times and every read but the last found the hash current
(`RotationLaw`). What the last read says decides: nothing is written for a row that is not usable, an
unknown hash, or the previous hash in its grace; for the previous hash after its grace the row is revoked
when the call returns.
-/

namespace Vancine.Sessions

open Lib SessionState

/-! ## The law of a rotation -/

/-- What a read says about the presented hash. -/
def kindOf (presentedHash : String) (r : ℤ × UserSession) : HashKind := hashKind r.2 presentedHash r.1

def AllCurrent (presentedHash : String) (reads : List (ℤ × UserSession)) : Prop :=
  ∀ r ∈ reads, kindOf presentedHash r = .current

/-- What the last read leads to. -/
def LastRead (s : SessionState) (c : Call) : Option HashKind → Prop
  | none => c.changes = 0
  | some .unusable => c.changes = 0 ∧ c.pc = .returned .inactive
  | some .unknown => c.changes = 0 ∧ c.pc = .returned .refreshInvalid
  | some .inGrace => c.changes = 0 ∧ c.pc = .returned .refreshRace
  | some .current => c.changes ≤ 1
  | some .reused => c.changes ≤ 1 ∧
    ∀ result, c.pc = .returned result → result ≠ .error → s.row.status = .revoked

structure RotationLaw (s : SessionState) (presentedHash : String) (c : Call) : Prop where
  tries : c.reads.length ≤ 3
  earlier : AllCurrent presentedHash c.reads.dropLast
  last : LastRead s c (c.reads.getLast?.map (kindOf presentedHash))

/-- The last read found the previous hash after its grace. -/
structure Reused (s : SessionState) (presentedHash : String) (reads : List (ℤ × UserSession))
    (now : ℤ) : Prop where
  tries : reads.length ≤ 3
  reads : ∃ pre session, reads = pre ++ [(now, session)] ∧ AllCurrent presentedHash pre ∧
    kindOf presentedHash (now, session) = .reused
  unexpired : now < s.row.expiresAt

/-- The call is writing the snapshot of its exchange. -/
def Pc.Fills : Pc → Prop
  | .fill _ _ | .filling _ _ _ | .filled _ _ | .confirm _ => True
  | _ => False

/-- The call is writing a deny entry for `next`. -/
def Pc.Denies (next : AfterDeny) : Pc → Prop
  | .deny _ next' => next' = next
  | .denying _ _ next' => next' = next
  | _ => False

/-- Where a rotation is and what it has done so far. -/
inductive Rotation (s : SessionState) (presentedHash : String) (c : Call) : Prop
  | entering (hpc : c.pc = .begun) (hreads : c.reads = []) (hch : c.changes = 0)
  | retrying {now : ℤ} {tries : ℕ} (hpc : c.pc = .rotating now tries)
      (hall : AllCurrent presentedHash c.reads) (htries : c.reads.length + tries ≤ 3)
      (hch : c.changes = 0)
  | reading {now deadline : ℤ} {tries : ℕ} (hpc : c.pc = .rotateRead now tries deadline)
      (hall : AllCurrent presentedHash c.reads) (htries : c.reads.length + tries < 3)
      (hch : c.changes = 0)
  | swapping {now deadline : ℤ} {tries : ℕ} {session : UserSession}
      (hpc : c.pc = .rotateCas now tries deadline session) (hall : AllCurrent presentedHash c.reads)
      (htries : c.reads.length + tries ≤ 3) (hne : c.reads ≠ []) (hch : c.changes = 0)
  | exchanged (hpc : c.pc.Fills) (hall : AllCurrent presentedHash c.reads)
      (htries : c.reads.length ≤ 3) (hne : c.reads ≠ []) (hch : c.changes = 1)
  | fencing {now : ℤ} {session : UserSession} (hpc : c.pc.Denies (.reuseFence now session))
      (hreuse : Reused s presentedHash c.reads now) (hch : c.changes = 0)
  | revoking {now : ℤ} {session : UserSession} (hpc : c.pc = .reuseUpdate now session)
      (hreuse : Reused s presentedHash c.reads now) (hch : c.changes = 0)
  | sealing {now : ℤ} (hpc : c.pc.Denies .reuseFinal) (hreuse : Reused s presentedHash c.reads now)
      (hch : c.changes = 1) (hrev : s.row.status = .revoked)
  | returned {result : Result} (hpc : c.pc = .returned result) (hlaw : RotationLaw s presentedHash c)

section Law

variable {s s' : SessionState} {presentedHash : String} {c : Call}

theorem law_of_allCurrent (hall : AllCurrent presentedHash c.reads) (htries : c.reads.length ≤ 3)
    (hch : c.changes ≤ 1) (hnil : c.reads = [] → c.changes = 0) : RotationLaw s presentedHash c := by
  refine ⟨htries, fun r hr => hall r ((List.dropLast_sublist _).subset hr), ?_⟩
  cases hlast : c.reads.getLast? with
  | none => exact hnil (List.getLast?_eq_none_iff.mp hlast)
  | some r =>
    rw [Option.map_some, hall r (List.mem_of_getLast? hlast)]
    exact hch

theorem law_of_reused {now : ℤ} (hreuse : Reused s presentedHash c.reads now) (hch : c.changes ≤ 1)
    (hrev : ∀ result, c.pc = .returned result → result ≠ .error → s.row.status = .revoked) :
    RotationLaw s presentedHash c := by
  obtain ⟨pre, session, hreads, hpre, hkind⟩ := hreuse.reads
  refine ⟨hreuse.tries, ?_, ?_⟩
  · rw [hreads, List.dropLast_concat]
    exact hpre
  · rw [hreads, List.getLast?_concat, Option.map_some, hkind]
    exact ⟨hch, hrev⟩

theorem Pc.Denies.not_returned {pc : Pc} {next : AfterDeny} (h : pc.Denies next) (result : Result) :
    pc ≠ .returned result := by
  rintro rfl
  exact h

theorem Rotation.law (h : Rotation s presentedHash c) : RotationLaw s presentedHash c := by
  cases h with
  | entering hpc hreads hch =>
    refine law_of_allCurrent ?_ (by rw [hreads]; exact Nat.zero_le 3) (by omega) fun _ => hch
    rw [hreads]
    exact fun r hr => absurd hr List.not_mem_nil
  | retrying hpc hall htries hch | reading hpc hall htries hch | swapping hpc hall htries hne hch =>
    exact law_of_allCurrent hall (by omega) (by omega) fun _ => hch
  | exchanged hpc hall htries hne hch =>
    exact law_of_allCurrent hall htries (by omega) fun hnil => absurd hnil hne
  | fencing hpc hreuse hch =>
    exact law_of_reused hreuse (by omega) fun result hret => absurd hret (hpc.not_returned result)
  | revoking hpc hreuse hch =>
    refine law_of_reused hreuse (by omega) fun result hret => ?_
    rw [hpc] at hret
    cases hret
  | sealing hpc hreuse hch hrev => exact law_of_reused hreuse (by omega) fun _ _ _ => hrev
  | returned hpc hlaw => exact hlaw

theorem Rotation.fail (h : Rotation s presentedHash c) (hpc : ∀ result, c.pc ≠ .returned result) :
    RotationLaw s presentedHash { c with pc := .returned .error } := by
  have hlaw := h.law
  refine ⟨hlaw.tries, hlaw.earlier, ?_⟩
  have hlast := hlaw.last
  dsimp only
  cases hkind : c.reads.getLast?.map (kindOf presentedHash) with
  | none => rw [hkind] at hlast; exact hlast
  | some kind =>
    rw [hkind] at hlast
    cases kind with
    | current => exact hlast
    | reused =>
      refine ⟨hlast.1, fun result hret hne => ?_⟩
      cases hret
      exact absurd rfl hne
    | unusable | unknown | inGrace => exact absurd hlast.2 (hpc _)

/-! ## Other calls -/

theorem Reused.evolve {reads : List (ℤ × UserSession)} {now : ℤ} (h : Reused s presentedHash reads now)
    (hexp : s'.row.expiresAt = s.row.expiresAt) : Reused s' presentedHash reads now :=
  ⟨h.tries, h.reads, by rw [hexp]; exact h.unexpired⟩

theorem RotationLaw.evolve (h : RotationLaw s presentedHash c)
    (hrev : s.row.status = .revoked → s'.row.status = .revoked) : RotationLaw s' presentedHash c := by
  refine ⟨h.tries, h.earlier, ?_⟩
  have hlast := h.last
  cases hkind : c.reads.getLast?.map (kindOf presentedHash) with
  | none => rw [hkind] at hlast; exact hlast
  | some kind =>
    rw [hkind] at hlast
    cases kind with
    | reused => exact ⟨hlast.1, fun result hret hne => hrev (hlast.2 result hret hne)⟩
    | _ => exact hlast

theorem Rotation.evolve (h : Rotation s presentedHash c) (hexp : s'.row.expiresAt = s.row.expiresAt)
    (hrev : s.row.status = .revoked → s'.row.status = .revoked) : Rotation s' presentedHash c := by
  cases h with
  | entering hpc hreads hch => exact .entering hpc hreads hch
  | retrying hpc hall htries hch => exact .retrying hpc hall htries hch
  | reading hpc hall htries hch => exact .reading hpc hall htries hch
  | swapping hpc hall htries hne hch => exact .swapping hpc hall htries hne hch
  | exchanged hpc hall htries hne hch => exact .exchanged hpc hall htries hne hch
  | fencing hpc hreuse hch => exact .fencing hpc (hreuse.evolve hexp) hch
  | revoking hpc hreuse hch => exact .revoking hpc (hreuse.evolve hexp) hch
  | sealing hpc hreuse hch hst => exact .sealing hpc (hreuse.evolve hexp) hch (hrev hst)
  | returned hpc hlaw => exact .returned hpc (hlaw.evolve hrev)

end Law

/-! ## Statements of a rotation -/

section Step

variable {ttl low : ℤ} {s : SessionState} {i : ℕ} {c : Call} {presentedHash nextHash : String}
  {now₀ grace : ℤ}

/-- After its next statement the call is a rotation again. -/
def Continues (s s' : SessionState) (i : ℕ) (c : Call) (presentedHash : String) : Prop :=
  ∃ d, s'.calls = s.calls.set i d ∧ d.op = c.op ∧ Rotation s' presentedHash d

theorem continues_stay (hc : s.calls[i]? = some c) (h : Rotation s presentedHash c) :
    Continues s s i c presentedHash := by
  refine ⟨c, ?_, rfl, h⟩
  obtain ⟨hi, rfl⟩ := List.getElem?_eq_some_iff.mp hc
  exact (List.set_getElem_self hi).symm

/-- A call that lost every swap returns with nothing written. -/
theorem law_of_lost {s' : SessionState} (hall : AllCurrent presentedHash c.reads)
    (htries : c.reads.length ≤ 3) (hch : c.changes = 0) (pc : Pc) : RotationLaw s' presentedHash { c with pc } :=
  law_of_allCurrent hall htries (by dsimp only; omega) fun _ => hch

theorem continues_enter (hop : c.op = .rotate presentedHash nextHash now₀ grace) (hpc : c.pc = .begun)
    (hreads : c.reads = []) (hch : c.changes = 0) : Continues s (s.proceed ttl i c) i c presentedHash := by
  have hall : AllCurrent presentedHash c.reads := by
    rw [hreads]
    exact fun r hr => absurd hr List.not_mem_nil
  have hlen : c.reads.length = 0 := by rw [hreads]; rfl
  simp only [SessionState.proceed, hpc, SessionState.enter, hop]
  by_cases hbad : presentedHash = "" ∨ nextHash = "" ∨ presentedHash = nextHash ∨ grace.tdiv second < 0
  · rw [if_pos hbad]
    exact ⟨_, rfl, rfl, .returned rfl (law_of_lost hall (by omega) hch _)⟩
  · rw [if_neg hbad]
    exact ⟨_, rfl, rfl, .retrying rfl hall (by dsimp only; omega) hch⟩

variable {now : ℤ} {tries : ℕ}

theorem continues_retry (hpc : c.pc = .rotating now tries) (hall : AllCurrent presentedHash c.reads)
    (htries : c.reads.length + tries ≤ 3) (hch : c.changes = 0) :
    Continues s (s.proceed ttl i c) i c presentedHash := by
  cases tries with
  | zero =>
    simp only [SessionState.proceed, hpc]
    exact ⟨_, rfl, rfl, .returned rfl (law_of_lost hall (by omega) hch _)⟩
  | succ tries =>
    simp only [SessionState.proceed, hpc]
    exact ⟨_, rfl, rfl, .reading rfl hall (by dsimp only; omega) hch⟩

theorem continues_read (hop : c.op = .rotate presentedHash nextHash now₀ grace) {now deadline : ℤ}
    (hpc : c.pc = .rotateRead now tries deadline) (hall : AllCurrent presentedHash c.reads)
    (htries : c.reads.length + tries < 3) (hch : c.changes = 0) :
    Continues s (s.proceed ttl i c) i c presentedHash := by
  simp only [SessionState.proceed, hpc, hop]
  unfold SessionState.rotateRead
  dsimp only
  have hlen : (c.reads ++ [(now, s.row.afterFind)]).length ≤ 3 := by
    rw [List.length_append, List.length_singleton]
    omega
  have hlen' : (c.reads ++ [(now, s.row.afterFind)]).length + tries ≤ 3 := by
    rw [List.length_append, List.length_singleton]
    omega
  -- a call that returns on what it read
  have hreturn : ∀ {d : Call} {s' : SessionState} {kind : HashKind}, hashKind s.row.afterFind presentedHash now = kind →
      d.reads = c.reads ++ [(now, s.row.afterFind)] → LastRead s' d (some kind) →
      RotationLaw s' presentedHash d := by
    intro d s' kind hkind hreads hlast
    refine ⟨by rw [hreads]; exact hlen, ?_, ?_⟩
    · rw [hreads, List.dropLast_concat]
      exact hall
    · rw [hreads, List.getLast?_concat, Option.map_some, kindOf, hkind]
      exact hlast
  cases hkind : hashKind s.row.afterFind presentedHash now with
  | unusable | unknown | inGrace => exact ⟨_, rfl, rfl, .returned rfl (hreturn hkind rfl ⟨hch, rfl⟩)⟩
  | current =>
    refine ⟨_, rfl, rfl, .swapping rfl ?_ hlen' (by simp) hch⟩
    intro r hr
    rcases List.mem_append.mp hr with hold | hnew
    · exact hall r hold
    · rw [List.mem_singleton.mp hnew]
      exact hkind
  | reused =>
    refine ⟨_, rfl, rfl, .fencing rfl ⟨hlen, ⟨c.reads, _, rfl, hall, hkind⟩, ?_⟩ hch⟩
    unfold hashKind at hkind
    split_ifs at hkind with huse
    exact (usable_iff.mp huse).2.2

variable {session : UserSession}

theorem continues_swap (hc : s.calls[i]? = some c) (hrot : Rotation s presentedHash c)
    (hop : c.op = .rotate presentedHash nextHash now₀ grace) {now deadline : ℤ}
    (hpc : c.pc = .rotateCas now tries deadline session) (hall : AllCurrent presentedHash c.reads)
    (htries : c.reads.length + tries ≤ 3) (hne : c.reads ≠ []) (hch : c.changes = 0) :
    Continues s (s.proceed ttl i c) i c presentedHash := by
  simp only [SessionState.proceed, hpc, hop]
  by_cases hblocked : s.blocked i = true
  · rw [if_pos hblocked]
    exact continues_stay hc hrot
  rw [if_neg hblocked]
  unfold SessionState.rotateCas
  split_ifs
  · exact ⟨_, rfl, rfl, .exchanged trivial hall (by dsimp only; omega) hne (by dsimp only; omega)⟩
  · exact ⟨_, rfl, rfl, .retrying rfl hall htries hch⟩

theorem continues_fill (hpc : c.pc.Fills) (hall : AllCurrent presentedHash c.reads)
    (htries : c.reads.length ≤ 3) (hne : c.reads ≠ []) (hch : c.changes = 1) :
    Continues s (s.proceed ttl i c) i c presentedHash := by
  have hreturn : ∀ {s' : SessionState} {pc : Pc}, RotationLaw s' presentedHash { c with pc } :=
    law_of_allCurrent hall htries (by dsimp only; omega) fun hnil => absurd hnil hne
  have hgo : ∀ {s' : SessionState} {pc : Pc}, pc.Fills → Rotation s' presentedHash { c with pc } :=
    fun hpc => .exchanged hpc hall htries hne hch
  cases hcase : c.pc with
  | fill deadline session =>
    simp only [SessionState.proceed, hcase, SessionState.write]
    split
    · exact ⟨_, rfl, rfl, hgo trivial⟩
    · exact ⟨_, rfl, rfl, hgo trivial⟩
    · exact ⟨_, rfl, rfl, .returned rfl hreturn⟩
  | filling deadline session expiration =>
    simp only [SessionState.proceed, hcase, SessionState.write]
    refine ⟨_, rfl, rfl, ?_⟩
    split_ifs
    · exact hgo trivial
    · exact .returned rfl hreturn
  | filled deadline session =>
    simp only [SessionState.proceed, hcase, SessionState.write]
    split
    · exact ⟨_, rfl, rfl, .returned rfl hreturn⟩
    · exact ⟨_, rfl, rfl, hgo trivial⟩
    · exact ⟨_, rfl, rfl, .returned rfl hreturn⟩
  | confirm session =>
    simp only [SessionState.proceed, hcase, SessionState.write]
    exact ⟨_, rfl, rfl, .returned rfl hreturn⟩
  | _ => rw [hcase] at hpc; exact hpc.elim

theorem fence_accepted (h : Guarded ttl low s) (hv : s.row.version = low)
    {entry : UserSessionCacheEntry} {expiration : ℤ} {next : AfterDeny} (hdeny : Denying ttl low s i entry next) :
    writeScript (unixMilli s.clock) entry expiration s.cache =
      (true, some ⟨entry, unixMilli s.clock + expiration⟩) := by
  refine writeScript_deny hdeny.status (Int.le_trans h.base hdeny.lower) fun e he => ?_
  have hcache := h.cache e (live_eq_some.mp he).1
  rw [hv] at hcache
  exact Int.le_trans hcache hdeny.lower

theorem continues_fence (h : Guarded ttl low s) (hv : s.row.version = low) (hc : s.calls[i]? = some c)
    (hpc : c.pc.Denies (.reuseFence now session)) (hreuse : Reused s presentedHash c.reads now) (hch : c.changes = 0) :
    Continues s (s.proceed ttl i c) i c presentedHash := by
  have hok := (h.calls i c hc).pc
  cases hcase : c.pc with
  | deny entry next =>
    rw [hcase] at hpc hok
    obtain rfl : next = .reuseFence now session := hpc
    obtain ⟨e, he, -⟩ := redisExpiration_deny ttl s.clock hok.status
    simp only [SessionState.proceed, hcase, SessionState.write, he]
    exact ⟨_, rfl, rfl, .fencing rfl (hreuse.evolve rfl) hch⟩
  | denying entry expiration next =>
    rw [hcase] at hpc hok
    obtain rfl : next = .reuseFence now session := hpc
    simp only [SessionState.proceed, hcase, SessionState.write, fence_accepted h hv hok.1, SessionState.afterDeny]
    exact ⟨_, rfl, rfl, .revoking rfl (hreuse.evolve rfl) hch⟩
  | _ => rw [hcase] at hpc; exact hpc.elim

/-- The revoke of a reuse: the row is active and is revoked now, or it was revoked before. -/
theorem continues_revoke (hst : (s.row.status = .active ∧ s.row.revokedAt = 0) ∨ s.row.status = .revoked)
    (hc : s.calls[i]? = some c) (hrot : Rotation s presentedHash c) (hpc : c.pc = .reuseUpdate now session)
    (hreuse : Reused s presentedHash c.reads now) (hch : c.changes = 0) :
    Continues s (s.proceed ttl i c) i c presentedHash ∧
      (s.blocked i = false → (s.proceed ttl i c).row.status = .revoked) := by
  simp only [SessionState.proceed, hpc]
  by_cases hblocked : s.blocked i = true
  · rw [if_pos hblocked]
    exact ⟨continues_stay hc hrot, fun hfree => by rw [hblocked] at hfree; cases hfree⟩
  rw [if_neg hblocked]
  by_cases huse : s.row.UsableAt now
  · rw [if_pos huse]
    refine ⟨⟨_, rfl, rfl, ?_⟩, fun _ => rfl⟩
    exact .sealing rfl (hreuse.evolve rfl)
      (by dsimp only; omega) rfl
  · rw [if_neg huse]
    have hrev : s.row.status = .revoked := by
      rcases hst with ⟨hactive, hzero⟩ | hrev
      · exact absurd (usable_iff.mpr ⟨hactive, hzero, hreuse.unexpired⟩) huse
      · exact hrev
    refine ⟨⟨_, rfl, rfl, .returned rfl ?_⟩, fun _ => hrev⟩
    exact law_of_reused (hreuse.evolve rfl) (by dsimp only; omega)
      fun _ _ _ => hrev

theorem continues_seal (h : Guarded ttl low s) (hc : s.calls[i]? = some c) (hpc : c.pc.Denies .reuseFinal)
    (hreuse : Reused s presentedHash c.reads now) (hch : c.changes = 1) (hrev : s.row.status = .revoked) :
    Continues s (s.proceed ttl i c) i c presentedHash := by
  have hok := (h.calls i c hc).pc
  cases hcase : c.pc with
  | deny entry next =>
    rw [hcase] at hpc hok
    obtain rfl : next = .reuseFinal := hpc
    obtain ⟨e, he, -⟩ := redisExpiration_deny ttl s.clock hok.status
    simp only [SessionState.proceed, hcase, SessionState.write, he]
    exact ⟨_, rfl, rfl, .sealing rfl (hreuse.evolve rfl) hch hrev⟩
  | denying entry expiration next =>
    rw [hcase] at hpc
    obtain rfl : next = .reuseFinal := hpc
    simp only [SessionState.proceed, hcase, SessionState.write, SessionState.afterDeny]
    refine ⟨_, rfl, rfl, .returned rfl ?_⟩
    exact law_of_reused (hreuse.evolve rfl) (by dsimp only; omega)
      fun _ _ _ => hrev
  | _ => rw [hcase] at hpc; exact hpc.elim

theorem continues_proceed (h : Guarded ttl low s) (hv : s.row.version = low)
    (hst : (s.row.status = .active ∧ s.row.revokedAt = 0) ∨ s.row.status = .revoked)
    (hc : s.calls[i]? = some c) (hop : c.op = .rotate presentedHash nextHash now₀ grace)
    (hrot : Rotation s presentedHash c) : Continues s (s.proceed ttl i c) i c presentedHash := by
  cases hrot with
  | entering hpc hreads hch => exact continues_enter hop hpc hreads hch
  | retrying hpc hall htries hch => exact continues_retry hpc hall htries hch
  | reading hpc hall htries hch => exact continues_read hop hpc hall htries hch
  | swapping hpc hall htries hne hch =>
    exact continues_swap hc (.swapping hpc hall htries hne hch) hop hpc hall htries hne hch
  | exchanged hpc hall htries hne hch => exact continues_fill hpc hall htries hne hch
  | fencing hpc hreuse hch => exact continues_fence h hv hc hpc hreuse hch
  | revoking hpc hreuse hch =>
    exact (continues_revoke hst hc (.revoking hpc hreuse hch) hpc hreuse hch).1
  | sealing hpc hreuse hch hrev => exact continues_seal h hc hpc hreuse hch hrev
  | returned hpc hlaw =>
    simp only [SessionState.proceed, hpc, SessionState.write]
    exact continues_stay hc (.returned hpc hlaw)

end Step

/-! ## Runs -/

/-- No call changes the version of the session. -/
def SessionAction.KeepsVersion : SessionAction → Prop
  | .begin (.advance _ _ _) => False
  | _ => True

instance (a : SessionAction) : Decidable a.KeepsVersion := by
  unfold SessionAction.KeepsVersion; split <;> infer_instance

/-- A swap that goes through brings a hash that the session has not had. -/
def BringsNewHash (first : String) (s : SessionState) : SessionAction → Prop
  | .proceed i false =>
    match (s.calls[i]?).map Call.op, (s.calls[i]?).map Call.pc with
    | some (.rotate presentedHash nextHash _ _), some (.rotateCas _ _ _ _) =>
      s.row.refreshHash = presentedHash → nextHash ∉ first :: s.exchanges.map Prod.snd
    | _, _ => True
  | _ => True

instance (first : String) (s : SessionState) : (a : SessionAction) → Decidable (BringsNewHash first s a)
  | .proceed i false => by
    unfold BringsNewHash
    dsimp only
    generalize (s.calls[i]?).map Call.op = op, (s.calls[i]?).map Call.pc = pc
    revert op pc
    exact id fun op pc => by split <;> infer_instance
  | .proceed _ true | .tick _ | .begin _ => .isTrue trivial

/-- What every state of a run without a change of version meets. -/
structure Steady (ttl : ℤ) (first : UserSession) (s : SessionState) : Prop where
  guarded : Guarded ttl first.version s
  version : s.row.version = first.version
  status : (s.row.status = .active ∧ s.row.revokedAt = 0) ∨ s.row.status = .revoked
  chain : s.exchanges.map Prod.fst ++ [s.row.refreshHash] = first.refreshHash :: s.exchanges.map Prod.snd
  ops : ∀ c ∈ s.calls, ∀ x y z, c.op ≠ .advance x y z
  rotations : ∀ c ∈ s.calls, ∀ presentedHash nextHash now grace,
    c.op = .rotate presentedHash nextHash now grace → Rotation s presentedHash c

namespace Steady

variable {ttl : ℤ} {first : UserSession} {s : SessionState} {i : ℕ} {c : Call}

/-- Without a change of version every tombstone goes through. -/
theorem finalsAccepted (h : Steady ttl first s) (a : SessionAction) : FinalsAccepted s a := by
  unfold FinalsAccepted
  split
  · rename_i i
    split
    · rename_i entry expiration hpc
      obtain ⟨c, hc, hpc⟩ := Option.map_eq_some_iff.mp hpc
      intro e he
      have hok := (h.guarded.calls i c hc).pc
      rw [hpc] at hok
      have hcache := h.guarded.cache e (live_eq_some.mp he).1
      rw [h.version] at hcache
      exact Int.le_trans hcache hok.1.lower
    · trivial
  · trivial

theorem row_after (h : Steady ttl first s) (hc : s.calls[i]? = some c) {s' : SessionState} (hmove : RowMove s i c s') :
    s'.row.version = s.row.version ∧ s'.row.expiresAt = s.row.expiresAt ∧
      ((s'.row.status = .active ∧ s'.row.revokedAt = 0) ∨ s'.row.status = .revoked) ∧
      s'.exchanges.map Prod.fst ++ [s'.row.refreshHash] = first.refreshHash :: s'.exchanges.map Prod.snd := by
  have hchain := h.chain
  cases hmove with
  | keep hrow hex hcalls =>
    rw [hrow, hex]
    exact ⟨rfl, rfl, h.status, hchain⟩
  | exchange hop hpc huse hhash hrow hex hcalls =>
    obtain ⟨hactive, hzero, -⟩ := usable_iff.mp huse
    rw [hrow, hex]
    refine ⟨rfl, rfl, .inl ⟨hactive, hzero⟩, ?_⟩
    rw [hhash] at hchain
    rw [List.map_append, List.map_append, List.map_singleton, List.map_singleton, ← List.cons_append, ← hchain]
    rfl
  | revoke hactive hrow hex hcalls =>
    rw [hrow, hex]
    exact ⟨rfl, rfl, .inr rfl, hchain⟩
  | advance hop => exact absurd hop (h.ops c (List.mem_of_getElem? hc) _ _ _)

/-- What a step keeps, when one call changes and is still what it was. -/
theorem of_calls (h : Steady ttl first s) (hc : s.calls[i]? = some c) {s' : SessionState} {d : Call}
    (hguard : Guarded ttl first.version s') (hmove : RowMove s i c s')
    (hrev : s.row.status = .revoked → s'.row.status = .revoked)
    (hcalls : s'.calls = s.calls.set i d) (hop : d.op = c.op)
    (hd : ∀ presentedHash nextHash now grace, c.op = .rotate presentedHash nextHash now grace →
      Rotation s' presentedHash d) : Steady ttl first s' := by
  obtain ⟨hv, hexp, hst, hchain⟩ := h.row_after hc hmove
  refine ⟨hguard, hv.trans h.version, hst, hchain, ?_, ?_⟩
  · intro e he x y z
    rw [hcalls] at he
    rcases List.mem_or_eq_of_mem_set he with hold | rfl
    · exact h.ops e hold x y z
    · rw [hop]
      exact h.ops c (List.mem_of_getElem? hc) x y z
  · intro e he presentedHash nextHash now grace heop
    rw [hcalls] at he
    rcases List.mem_or_eq_of_mem_set he with hold | rfl
    · exact (h.rotations e hold _ _ _ _ heop).evolve hexp hrev
    · exact hd _ _ _ _ (hop ▸ heop)

theorem proceed (h : Steady ttl first s) (hc : s.calls[i]? = some c)
    (hguard : Guarded ttl first.version (s.proceed ttl i c))
    (hrev : s.row.status = .revoked → (s.proceed ttl i c).row.status = .revoked) :
    Steady ttl first (s.proceed ttl i c) := by
  have hmove := rowMove_proceed ttl s i c
  by_cases hop : ∃ presentedHash nextHash now grace, c.op = .rotate presentedHash nextHash now grace
  · obtain ⟨presentedHash, nextHash, now, grace, hop⟩ := hop
    obtain ⟨d, hcalls, hdop, hd⟩ := continues_proceed h.guarded h.version h.status hc hop
      (h.rotations c (List.mem_of_getElem? hc) _ _ _ _ hop)
    refine h.of_calls hc hguard hmove hrev hcalls hdop fun p n now' g hop' => ?_
    rw [hop] at hop'
    cases hop'
    exact hd
  · -- another operation: its call is no rotation before or after
    have hnot : ∀ p n now g, c.op ≠ .rotate p n now g := fun p n now g he => hop ⟨p, n, now, g, he⟩
    have hset : s.calls = s.calls.set i c := by
      obtain ⟨hi, rfl⟩ := List.getElem?_eq_some_iff.mp hc
      exact (List.set_getElem_self hi).symm
    have hcalls : ∃ d, (s.proceed ttl i c).calls = s.calls.set i d ∧ d.op = c.op := by
      cases hmove with
      | keep hrow hex hcalls =>
        rcases hcalls with hsame | ⟨d, hd, hdop, -⟩
        · exact ⟨c, hsame.trans hset, rfl⟩
        · exact ⟨d, hd, hdop⟩
      | exchange hop' => exact absurd hop' (hnot _ _ _ _)
      | revoke _ _ _ hcalls => exact ⟨_, hcalls, rfl⟩
      | advance _ _ _ _ _ _ hcalls => exact ⟨_, hcalls, rfl⟩
    obtain ⟨d, hd, hdop⟩ := hcalls
    exact h.of_calls hc hguard hmove hrev hd hdop fun p n now' g hop' => absurd hop' (hnot _ _ _ _)

theorem step (h : Steady ttl first s) {a : SessionAction} (ha : a.KeepsVersion) :
    Steady ttl first (sessionStep ttl s a) := by
  have hguard := h.guarded.step (h.finalsAccepted a)
  have hrev := revoked_step ttl s a
  cases a with
  | tick nanoseconds =>
    refine ⟨hguard, h.version, h.status, h.chain, h.ops, fun c hc p n now g hop => ?_⟩
    exact (h.rotations c hc p n now g hop).evolve rfl id
  | begin op =>
    refine ⟨hguard, h.version, h.status, h.chain, fun c hc x y z => ?_, fun c hc p n now g hop => ?_⟩
    · rcases List.mem_append.mp hc with hold | hnew
      · exact h.ops c hold x y z
      · rw [List.mem_singleton.mp hnew]
        rintro rfl
        exact ha
    · rcases List.mem_append.mp hc with hold | hnew
      · exact (h.rotations c hold p n now g hop).evolve rfl id
      · rw [List.mem_singleton.mp hnew]
        exact .entering rfl rfl rfl
  | proceed i fault =>
    unfold sessionStep at hguard hrev ⊢
    dsimp only at hguard hrev ⊢
    cases hc : s.calls[i]? with
    | none => exact h
    | some c =>
      rw [hc] at hguard hrev
      cases fault with
      | false => exact h.proceed hc hguard hrev
      | true =>
        dsimp only at hguard hrev ⊢
        rw [if_pos rfl] at hguard hrev ⊢
        split
        · rename_i hpc hop
          rw [hpc, hop] at hguard
          refine h.of_calls hc hguard (rowMove_goto _) id rfl rfl fun p n now g hop' => ?_
          rw [hop] at hop'
          cases hop'
        · exact h
        · rename_i hret hget
          have hfail : Guarded ttl first.version (s.fail i c .error) :=
            h.guarded.fail hc (by decide) nofun
          refine h.of_calls hc hfail (rowMove_fail _) id rfl rfl fun p n now g hop' => ?_
          have hlaw := (h.rotations c (List.mem_of_getElem? hc) _ _ _ _ hop').fail hret
          exact .returned rfl (hlaw.evolve id)

theorem start {session : UserSession} {clock : ℤ}
    (h : createUserSessionWithTx (unix clock) session = some first) (lag : ℕ) :
    Steady ttl first (.start ttl first clock lag) := by
  obtain ⟨-, hactive, hzero⟩ := createUserSessionWithTx_some h
  refine ⟨.start h lag, rfl, .inl ⟨hactive, hzero⟩, rfl, ?_, ?_⟩
  · intro c hc x y z
    rw [List.mem_singleton.mp hc]
    exact nofun
  · intro c hc p n now g hop
    rw [List.mem_singleton.mp hc] at hop
    cases hop

/-! ### The reuse of a hash -/

section Reuse

variable {presentedHash nextHash : String} {now₀ grace now : ℤ} {session : UserSession}

theorem revoked_run (hrev : s.row.status = .revoked) (as : List SessionAction) :
    (run (sessionStep ttl) s as).row.status = .revoked :=
  run_invariant (fun s a hs => revoked_step ttl s a hs) hrev as

theorem step_proceed (hc : s.calls[i]? = some c) : sessionStep ttl s (.proceed i false) = s.proceed ttl i c := by
  unfold sessionStep
  dsimp only
  rw [hc]
  rfl

theorem goto_call (hc : s.calls[i]? = some c) (pc : Pc) : (s.goto i c pc).calls[i]? = some { c with pc } :=
  List.getElem?_set_self (List.getElem?_eq_some_iff.mp hc).1

theorem reuse_update (h : Steady ttl first s) (hc : s.calls[i]? = some c)
    (hpc : c.pc = .reuseUpdate now session) (hreuse : Reused s presentedHash c.reads now)
    (hch : c.changes = 0) (hfree : s.blocked i = false) :
    (sessionStep ttl s (.proceed i false)).row.status = .revoked := by
  rw [step_proceed hc]
  exact (continues_revoke h.status hc (.revoking hpc hreuse hch) hpc hreuse hch).2 hfree

variable {entry : UserSessionCacheEntry}

theorem reuse_denying (h : Steady ttl first s) (hc : s.calls[i]? = some c) {expiration : ℤ}
    (hpc : c.pc = .denying entry expiration (.reuseFence now session)) (hreuse : Reused s presentedHash c.reads now)
    (hch : c.changes = 0) (hfree : s.blocked i = false) :
    (run (sessionStep ttl) s (List.replicate 2 (.proceed i false))).row.status = .revoked := by
  have hok := (h.guarded.calls i c hc).pc
  rw [hpc] at hok
  have hstep : sessionStep ttl s (.proceed i false) =
      { s with cache := some ⟨entry, unixMilli s.clock + expiration⟩ }.goto i c
        (.reuseUpdate now session) := by
    rw [step_proceed hc]
    simp only [SessionState.proceed, hpc, SessionState.write, fence_accepted h.guarded h.version hok.1,
      SessionState.afterDeny]
    rfl
  have hnext := h.step (a := .proceed i false) trivial
  rw [List.replicate_succ, run_cons]
  rw [hstep] at hnext ⊢
  exact hnext.reuse_update (goto_call hc _) rfl (hreuse.evolve rfl) hch hfree

theorem reuse_deny (h : Steady ttl first s) (hc : s.calls[i]? = some c)
    (hpc : c.pc = .deny entry (.reuseFence now session)) (hreuse : Reused s presentedHash c.reads now)
    (hch : c.changes = 0) (hfree : s.blocked i = false) :
    (run (sessionStep ttl) s (List.replicate 3 (.proceed i false))).row.status = .revoked := by
  have hok := (h.guarded.calls i c hc).pc
  rw [hpc] at hok
  obtain ⟨e, he, -⟩ := redisExpiration_deny ttl s.clock hok.status
  have hstep : sessionStep ttl s (.proceed i false) =
      s.goto i c (.denying entry e (.reuseFence now session)) := by
    rw [step_proceed hc]
    simp only [SessionState.proceed, hpc, SessionState.write, he]
  have hnext := h.step (a := .proceed i false) trivial
  rw [List.replicate_succ, run_cons]
  rw [hstep] at hnext ⊢
  exact hnext.reuse_denying (goto_call hc _) rfl (hreuse.evolve rfl) hch hfree

/-- A rotation that found the previous hash after its grace and is not held up revokes the row within
three statements. -/
theorem reuse_revokes (h : Steady ttl first s) (hc : s.calls[i]? = some c)
    (hop : c.op = .rotate presentedHash nextHash now₀ grace)
    (hkind : c.reads.getLast?.map (kindOf presentedHash) = some .reused)
    (hpc : ∀ result, c.pc ≠ .returned result) (hfree : s.blocked i = false) :
    (run (sessionStep ttl) s (List.replicate 3 (.proceed i false))).row.status = .revoked := by
  have hcurrent : ¬AllCurrent presentedHash c.reads := by
    intro hall
    obtain ⟨r, hr, hre⟩ := Option.map_eq_some_iff.mp hkind
    rw [hall r (List.mem_of_getLast? hr)] at hre
    cases hre
  cases h.rotations c (List.mem_of_getElem? hc) _ _ _ _ hop with
  | entering _ hreads _ => rw [hreads] at hkind; cases hkind
  | retrying _ hall | reading _ hall | swapping _ hall | exchanged _ hall => exact absurd hall hcurrent
  | fencing hdeny hreuse hch =>
    cases hcase : c.pc with
    | deny entry next =>
      rw [hcase] at hdeny
      obtain rfl := hdeny
      exact h.reuse_deny hc hcase hreuse hch hfree
    | denying entry expiration next =>
      rw [hcase] at hdeny
      obtain rfl := hdeny
      have htwo := h.reuse_denying hc hcase hreuse hch hfree
      rw [List.replicate_succ', run_append]
      exact revoked_run htwo _
    | _ => rw [hcase] at hdeny; exact hdeny.elim
  | revoking hpc' hreuse hch =>
    rw [List.replicate_succ, run_cons]
    exact revoked_run (h.reuse_update hc hpc' hreuse hch hfree) _
  | sealing _ _ _ hrev => exact revoked_run hrev _
  | returned hret => exact absurd hret (hpc _)

end Reuse

end Steady

/-- A step changes the row only by a call that counts the change. -/
theorem row_change (ttl : ℤ) (s : SessionState) (a : SessionAction) : (sessionStep ttl s a).row = s.row ∨
      ∃ i c d, a = .proceed i false ∧ s.calls[i]? = some c ∧
        (sessionStep ttl s a).calls = s.calls.set i d ∧ d.op = c.op ∧ d.changes = c.changes + 1 := by
  rcases sessionStep_row ttl s a with ⟨hrow, -⟩ | ⟨i, c, ha, hc, hstep⟩
  · exact .inl hrow
  · rw [hstep]
    cases rowMove_proceed ttl s i c with
    | keep hrow => exact .inl hrow
    | exchange _ _ _ _ _ _ hcalls | revoke _ _ _ hcalls | advance _ _ _ _ _ _ hcalls =>
      exact .inr ⟨i, c, _, ha, hc, hcalls, rfl, rfl⟩

theorem hashes_step (ttl : ℤ) {first : String} {s : SessionState} {a : SessionAction}
    (h : (first :: s.exchanges.map Prod.snd).Nodup) (hnew : BringsNewHash first s a) :
    (first :: (sessionStep ttl s a).exchanges.map Prod.snd).Nodup := by
  rcases sessionStep_row ttl s a with ⟨-, hex⟩ | ⟨i, c, rfl, hc, hstep⟩
  · rw [hex]
    exact h
  · rw [hstep]
    cases rowMove_proceed ttl s i c with
    | keep _ hex => rw [hex]; exact h
    | exchange hop hpc huse hhash hrow hex hcalls =>
      unfold BringsNewHash at hnew
      simp only [hc, Option.map_some, hop, hpc] at hnew
      rw [hex, List.map_append, List.map_singleton, ← List.cons_append, ← List.concat_eq_append]
      exact h.concat (hnew hhash)
    | revoke _ _ hex => rw [hex]; exact h
    | advance _ _ _ _ _ hex => rw [hex]; exact h

/-- **Rotation.** In every run of rotations and revokes in which a swap brings a new hash: no hash is
exchanged twice, the exchanges lead from the first hash to the current one, every rotation did what its
reads say, the row changes only by a call that counts it, and a reuse that is not held up revokes. -/
theorem refresh_rotation (ttl : ℤ) {session row : UserSession} {clock : ℤ} (lag : ℕ)
    (hcreate : createUserSessionWithTx (unix clock) session = some row) {as : List SessionAction}
    (hkeep : ∀ a ∈ as, a.KeepsVersion)
    (hnew : Along (sessionStep ttl) (BringsNewHash row.refreshHash) (.start ttl row clock lag) as) :
    let s := run (sessionStep ttl) (.start ttl row clock lag) as
    (s.exchanges.map Prod.fst).Nodup ∧
      s.exchanges.map Prod.fst ++ [s.row.refreshHash] = row.refreshHash :: s.exchanges.map Prod.snd ∧
      (∀ c ∈ s.calls, ∀ presentedHash nextHash now grace,
        c.op = .rotate presentedHash nextHash now grace → RotationLaw s presentedHash c) ∧
      (∀ a, (sessionStep ttl s a).row = s.row ∨
        ∃ i c d, a = .proceed i false ∧ s.calls[i]? = some c ∧
          (sessionStep ttl s a).calls = s.calls.set i d ∧ d.op = c.op ∧ d.changes = c.changes + 1) ∧
      ∀ i c presentedHash nextHash now grace, s.calls[i]? = some c →
        c.op = .rotate presentedHash nextHash now grace →
        c.reads.getLast?.map (kindOf presentedHash) = some .reused →
        (∀ result, c.pc ≠ .returned result) → s.blocked i = false →
        (run (sessionStep ttl) s (List.replicate 3 (.proceed i false))).row.status = .revoked := by
  intro s
  have hsteady : Steady ttl row s :=
    run_invariant_along (fun s a hs ha => hs.step ha) (.start hcreate lag) (Along.of_mem hkeep _)
  have hdistinct : (row.refreshHash :: s.exchanges.map Prod.snd).Nodup :=
    run_invariant_along (I := fun s => (row.refreshHash :: s.exchanges.map Prod.snd).Nodup)
      (fun s a hs ha => hashes_step ttl hs ha) (List.nodup_singleton _) hnew
  refine ⟨?_, hsteady.chain, fun c hc p n now g hop => (hsteady.rotations c hc p n now g hop).law,
    row_change ttl s, fun i c p n now g hc hop hkind hpc hfree =>
      hsteady.reuse_revokes hc hop hkind hpc hfree⟩
  rw [← hsteady.chain] at hdistinct
  exact (List.nodup_append.mp hdistinct).1

/-- Two clients present the first hash at once; one gets the second hash and the other finds its hash
to be the previous one, in its grace. After the grace it is presented again. -/
def racingRotations : List SessionAction :=
  ([.begin (.rotate "a" "b" 1000 (10 * second)),
    .begin (.rotate "a" "b" 1000 (10 * second))] : List SessionAction) ++
  List.replicate 3 (SessionAction.proceed 1 false) ++ List.replicate 3 (SessionAction.proceed 2 false) ++
  ([.proceed 1 false, .proceed 2 false, .proceed 2 false, .proceed 2 false,
    .begin (.rotate "a" "b" 1011 (10 * second))] : List SessionAction) ++
  List.replicate 8 (SessionAction.proceed 3 false)

theorem refresh_rotation_racing :
    let s := run (sessionStep 60) (.start 60 loginRow (1000 * second) 0) racingRotations
    s.exchanges = [("a", "b")] ∧ s.row.status = .revoked ∧ (s.exchanges.map Prod.fst).Nodup ∧
      s.exchanges.map Prod.fst ++ [s.row.refreshHash] = "a" :: s.exchanges.map Prod.snd := by
  have hcreate : createUserSessionWithTx (unix (1000 * second)) loginRow = some loginRow := by
    decide
  have hkeep : ∀ a ∈ racingRotations, a.KeepsVersion := by decide
  have hnew : Along (sessionStep 60) (BringsNewHash loginRow.refreshHash)
      (.start 60 loginRow (1000 * second) 0) racingRotations := by decide +kernel
  have h := refresh_rotation 60 0 hcreate hkeep hnew
  exact ⟨by decide +kernel, by decide +kernel, h.1, h.2.1⟩

end Vancine.Sessions
