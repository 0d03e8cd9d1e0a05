import Mathlib
import Vancine.Lib.Text

/-!
# A login session in the database and in Redis

One session: its row, its cache entry, and the script of `writeUserSessionCache` that is the only
writer of the entry. An active snapshot carries a deadline taken before the row was read and expires
there; a deny entry (revoking or revoked) lives for a fixed time from the moment the script runs. The
script refuses an active snapshot over a deny entry and any snapshot older than the entry.

Times are in nanoseconds of one clock. Columns hold Unix seconds, Redis keeps milliseconds: a key lives
while the millisecond is at most its expiry, and `PEXPIREAT` to a time that is not ahead deletes it.
-/

namespace Vancine.Sessions

open Lib

/-! ## Time -/

def second : ℤ := 10 ^ 9

def millisecond : ℤ := 10 ^ 6

/-- `time.Time.Unix`. -/
def unix (t : ℤ) : ℤ := t / second

/-- `time.Time.UnixMilli`. -/
def unixMilli (t : ℤ) : ℤ := t / millisecond

theorem unixMilli_mono {t t' : ℤ} (h : t ≤ t') : unixMilli t ≤ unixMilli t' :=
  Int.ediv_le_ediv (by decide) h

theorem unixMilli_seconds (n : ℤ) : unixMilli (n * second) = n * 1000 := by
  unfold unixMilli millisecond second
  omega

theorem unixMilli_add_seconds (t n : ℤ) : unixMilli (t + n * second) = unixMilli t + n * 1000 := by
  unfold unixMilli millisecond second
  omega

/-! ## Rows and entries -/

inductive SessionStatus
  | active
  | revoking
  | revoked
  deriving DecidableEq

/-- The columns that the functions below read or write, but for the identity of the session. -/
structure UserSession where
  version : ℤ
  userAuthVersion : ℤ
  status : SessionStatus := .active
  refreshHash : String
  previousRefreshHash : String := ""
  previousValidUntil : ℤ := 0
  lastActiveAt : ℤ
  expiresAt : ℤ
  revokedAt : ℤ := 0
  revokedReason : String := ""
  deriving DecidableEq

/-- A row as it is loaded: `AfterFind` trims the previous hash. -/
def UserSession.afterFind (session : UserSession) : UserSession :=
  { session with previousRefreshHash := trimSpace session.previousRefreshHash }

structure UserSessionCacheEntry where
  version : ℤ
  userAuthVersion : ℤ
  status : SessionStatus
  lastActiveAt : ℤ
  expiresAt : ℤ
  revokedAt : ℤ
  revokedReason : String
  deriving DecidableEq

def UserSession.cacheEntry (session : UserSession) : UserSessionCacheEntry where
  version := session.version
  userAuthVersion := session.userAuthVersion
  status := session.status
  lastActiveAt := session.lastActiveAt
  expiresAt := session.expiresAt
  revokedAt := session.revokedAt
  revokedReason := session.revokedReason

/-- The check that every reader of a row or an entry makes. -/
def Usable (status : SessionStatus) (revokedAt expiresAt now : ℤ) : Prop :=
  ¬(status ≠ .active ∨ revokedAt ≠ 0 ∨ expiresAt ≤ now)

instance (status : SessionStatus) (revokedAt expiresAt now : ℤ) :
    Decidable (Usable status revokedAt expiresAt now) := inferInstanceAs (Decidable (¬_))

def UserSession.UsableAt (session : UserSession) (now : ℤ) : Prop :=
  Usable session.status session.revokedAt session.expiresAt now

instance (session : UserSession) (now : ℤ) : Decidable (session.UsableAt now) :=
  inferInstanceAs (Decidable (Usable ..))

theorem usable_iff {status : SessionStatus} {revokedAt expiresAt now : ℤ} :
    Usable status revokedAt expiresAt now ↔ status = .active ∧ revokedAt = 0 ∧ now < expiresAt := by
  unfold Usable
  simp only [ne_eq, not_or, not_not, Int.not_le]

/-- `createUserSessionWithTx`: the row that is inserted. -/
def createUserSessionWithTx (now : ℤ) (session : UserSession) : Option UserSession :=
  if session.userAuthVersion ≤ 0 ∨ session.refreshHash = "" ∨ session.expiresAt ≤ now then none
  else if session.status ≠ .active ∨ session.revokedAt ≠ 0 then none
  else some { session with
    version := if session.version ≤ 0 then 1 else session.version
    lastActiveAt := if session.lastActiveAt = 0 then now else session.lastActiveAt }

theorem createUserSessionWithTx_some {now : ℤ} {session row : UserSession}
    (h : createUserSessionWithTx now session = some row) :
    0 < row.version ∧ row.status = .active ∧ row.revokedAt = 0 := by
  unfold createUserSessionWithTx at h
  split_ifs at h with hbad hoff hv
  all_goals
    cases h
    push Not at hoff
    refine ⟨?_, hoff⟩
    dsimp only
    omega

/-! ## The cache -/

/-- The hash in Redis with its expiry in milliseconds. -/
structure CachedSession where
  entry : UserSessionCacheEntry
  expireAt : ℤ
  deriving DecidableEq

/-- The hash, if the key is still there. -/
def live (nowMs : ℤ) (cache : Option CachedSession) : Option CachedSession :=
  cache.filter fun c => nowMs ≤ c.expireAt

inductive CacheRead
  | hit (entry : UserSessionCacheEntry)
  | inactive
  | miss

def getUserSessionCache (clock : ℤ) (cache : Option CachedSession) : CacheRead :=
  match live (unixMilli clock) cache with
  | none => .miss
  | some c =>
    if c.entry.version ≤ 0 ∨ c.entry.userAuthVersion ≤ 0 then .miss
    else if Usable c.entry.status c.entry.revokedAt c.entry.expiresAt (unix clock) then .hit c.entry
    else .inactive

/-- Why a write of the cache did not go through. -/
inductive WriteError
  | invalid
  | observationStale
  | inactive

/-- The last argument of the script: when an active snapshot expires, or how long a deny entry lives.
`ttl` is `userCacheTTLSeconds`. -/
def redisExpiration (ttl now : ℤ) (entry : UserSessionCacheEntry) (cacheDeadline : Option ℤ) :
    Except WriteError ℤ :=
  let sessionExpiresAt := entry.expiresAt * second
  if entry.status = .active then
    match cacheDeadline with
    | none => .error .invalid
    | some deadline =>
      if deadline - now ≤ 0 then .error .observationStale
      else if sessionExpiresAt - now ≤ 0 then .error .inactive
      else
        let cacheExpiresAt := min deadline sessionExpiresAt
        if cacheExpiresAt - now < millisecond then .error .observationStale
        else .ok (unixMilli cacheExpiresAt)
  else
    let left := min (sessionExpiresAt - now) (ttl * second)
    .ok (max 1 ((if left ≤ 0 then second else left) / millisecond))

/-- The script; false when it refuses. -/
def writeScript (nowMs : ℤ) (entry : UserSessionCacheEntry) (expiration : ℤ)
    (cache : Option CachedSession) : Bool × Option CachedSession :=
  let current := live nowMs cache
  if entry.status = .active ∧ (current.any fun c => c.entry.status ≠ .active) then (false, current)
  else if (current.map fun c => c.entry.version).getD 0 > entry.version then (false, current)
  else if entry.status = .active then
    (true, if expiration ≤ nowMs then none else some ⟨entry, expiration⟩)
  else (true, some ⟨entry, nowMs + expiration⟩)

/-- The check after the script for an active snapshot. -/
def completed (clock : ℤ) (entry : UserSessionCacheEntry) (deadline : ℤ) : Option WriteError :=
  if deadline ≤ clock then some .observationStale
  else if entry.expiresAt * second ≤ clock then some .inactive
  else none

/-- `confirmUserSessionActiveSnapshot`: the row is still the one that was read. -/
def confirmUserSessionActiveSnapshot (clock : ℤ) (row session : UserSession) : Bool :=
  decide (0 < session.version ∧ 0 < session.userAuthVersion ∧ row.UsableAt (unix clock) ∧
    row.version = session.version ∧ row.userAuthVersion = session.userAuthVersion)

/-- The entry of `writeUserSessionDenyFence`. -/
def UserSession.denied (session : UserSession) (status : SessionStatus) (now : ℤ) (reason : String) :
    UserSessionCacheEntry :=
  { session.cacheEntry with status, revokedAt := now, revokedReason := reason }

/-- The row of a revoke. -/
def UserSession.revoke (session : UserSession) (now : ℤ) (reason : String) : UserSession :=
  { session with status := .revoked, revokedAt := now, revokedReason := reason }

/-! ## What a write of the cache does -/

variable {cache : Option CachedSession}

theorem live_eq_some {nowMs : ℤ} {c : CachedSession} :
    live nowMs cache = some c ↔ cache = some c ∧ nowMs ≤ c.expireAt := by
  unfold live
  rw [Option.filter_eq_some_iff, decide_eq_true_iff]

variable {entry : UserSessionCacheEntry}

/-- An active snapshot expires at its deadline or with the session. -/
theorem redisExpiration_active {ttl now deadline e : ℤ} (hactive : entry.status = .active)
    (h : redisExpiration ttl now entry (some deadline) = .ok e) :
    e ≤ unixMilli deadline ∧ e ≤ entry.expiresAt * 1000 := by
  unfold redisExpiration at h
  rw [if_pos hactive] at h
  dsimp only at h
  split_ifs at h
  cases h
  refine ⟨unixMilli_mono (Int.min_le_left _ _), ?_⟩
  rw [← unixMilli_seconds]
  exact unixMilli_mono (Int.min_le_right _ _)

/-- A deny entry lives for `ttl` seconds, or to the last millisecond of the session. -/
theorem redisExpiration_deny (ttl now : ℤ) (hdeny : entry.status ≠ .active) :
    ∃ e, redisExpiration ttl now entry none = .ok e ∧
      (ttl * 1000 ≤ e ∨ entry.expiresAt * 1000 ≤ unixMilli now + e + 1) := by
  unfold redisExpiration
  rw [if_neg hdeny]
  refine ⟨_, rfl, ?_⟩
  unfold unixMilli second millisecond
  split_ifs with hleft <;> omega

/-- The script refuses, puts an active snapshot over none or another one, or puts a deny entry. -/
theorem writeScript_cases (nowMs e : ℤ) (entry : UserSessionCacheEntry) (cache : Option CachedSession) :
    writeScript nowMs entry e cache = (false, live nowMs cache) ∨
      (entry.status = .active ∧ (∀ c, live nowMs cache = some c → c.entry.status = .active) ∧
        writeScript nowMs entry e cache = (true, if e ≤ nowMs then none else some ⟨entry, e⟩)) ∨
      (entry.status ≠ .active ∧ writeScript nowMs entry e cache = (true, some ⟨entry, nowMs + e⟩)) := by
  unfold writeScript
  dsimp only
  by_cases hdenied : entry.status = .active ∧ (live nowMs cache).any (fun c => c.entry.status ≠ .active)
  · rw [if_pos hdenied]
    exact .inl rfl
  rw [if_neg hdenied]
  by_cases hold : ((live nowMs cache).map fun c => c.entry.version).getD 0 > entry.version
  · rw [if_pos hold]
    exact .inl rfl
  rw [if_neg hold]
  by_cases hactive : entry.status = .active
  · rw [if_pos hactive]
    refine .inr (.inl ⟨hactive, fun c hc => ?_, rfl⟩)
    by_contra hne
    exact hdenied ⟨hactive, by rw [hc]; simpa using hne⟩
  · rw [if_neg hactive]
    exact .inr (.inr ⟨hactive, rfl⟩)

theorem writeScript_deny {nowMs e : ℤ} (hdeny : entry.status ≠ .active) (hpos : 0 ≤ entry.version)
    (hnew : ∀ c, live nowMs cache = some c → c.entry.version ≤ entry.version) :
    writeScript nowMs entry e cache = (true, some ⟨entry, nowMs + e⟩) := by
  have hversion : ¬((live nowMs cache).map fun c => c.entry.version).getD 0 > entry.version := by
    cases hc : live nowMs cache with
    | none => simpa using hpos
    | some c => simpa using hnew c hc
  unfold writeScript
  dsimp only
  rw [if_neg fun h => hdeny h.1, if_neg hversion, if_neg hdeny]

end Vancine.Sessions
