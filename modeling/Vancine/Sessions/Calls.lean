import Vancine.Lib.Exclusive
import Vancine.Lib.Run
import Vancine.Sessions.Store

/-!
# Calls on one session

`GetUserSessionCached`, `RotateUserSessionRefresh`, `RevokeUserSession`,
`RevokeUserSessionByRefreshHash`, `revokeUserSessions` and `AdvanceUserSessionAuthVersion`, by any number
of callers at once. A call goes from statement to statement: it takes the time, reads the row, updates
the row, computes the expiry of a cache entry, runs the script. Between two statements anything may
happen, time included. A call may also fail at any statement and returns an error then.

A transaction that holds the lock on the row over more than one statement
(`RevokeUserSessionByRefreshHash` writes its fence under the lock) makes the other writers wait. The bulk
revoke is seen from this session: its loop, its fences and its transactions, with the other rows of the
batch left out.

`late`, `reads` and `changes` of a call and `exchanges` and `revokedClock` of the state are for the
accounting.
-/

namespace Vancine.Sessions

open Lib

/-! ## Calls -/

inductive Op
  | create
  | get
  | rotate (presentedHash nextHash : String) (now grace : ℤ)
  | revoke (reason : String)
  | revokeByRefreshHash (presentedHash reason : String)
  | revokeAll (reason : String)
  | advance (expectedSessionVersion expectedUserAuthVersion nextUserAuthVersion : ℤ)
  deriving DecidableEq

inductive Result
  | session (entry : UserSessionCacheEntry)
  | inactive
  | refreshInvalid
  | refreshRace
  | refreshReuse
  | revoked
  | notRevoked
  | invalid
  | error
  deriving DecidableEq

/-- What a call does after it wrote a deny entry. A fence must go through; the outcome of the last
write is only logged. -/
inductive AfterDeny
  | observed
  | reuseFence (now : ℤ) (session : UserSession)
  | reuseFinal
  | revokeFence (now : ℤ) (candidate : UserSession)
  | revokeFinal
  | hashFence (now : ℤ) (session : UserSession)
  | hashFinal
  | bulkFence (now : ℤ) (done : Bool)
  | bulkFinal (now : ℤ)
  deriving DecidableEq

/-- The next statement of a call, with what it has so far. -/
inductive Pc
  | begun
  | capture
  | captured (deadline : ℤ)
  | loaded (deadline : ℤ) (session : UserSession)
  | rotating (now : ℤ) (tries : ℕ)
  | rotateRead (now : ℤ) (tries : ℕ) (deadline : ℤ)
  | rotateCas (now : ℤ) (tries : ℕ) (deadline : ℤ) (session : UserSession)
  | reuseUpdate (now : ℤ) (session : UserSession)
  | revokeRead (now : ℤ)
  | revokeTx (now : ℤ) (candidate : UserSession)
  | hashLock (now : ℤ)
  | hashUpdate (now : ℤ) (session : UserSession)
  | bulkQuery (now : ℤ) (done : Bool)
  | bulkTx (now : ℤ) (done : Bool)
  | advanceTx (deadline now : ℤ)
  | fill (deadline : ℤ) (session : UserSession)
  | filling (deadline : ℤ) (session : UserSession) (expiration : ℤ)
  | filled (deadline : ℤ) (session : UserSession)
  | confirm (session : UserSession)
  | deny (entry : UserSessionCacheEntry) (next : AfterDeny)
  | denying (entry : UserSessionCacheEntry) (expiration : ℤ) (next : AfterDeny)
  | returned (result : Result)
  deriving DecidableEq

structure Call where
  op : Op
  pc : Pc
  /-- A revoke had returned when the call began. -/
  late : Bool := false
  /-- The rows by which the call classified its refresh hash, with the time it used. -/
  reads : List (ℤ × UserSession) := []
  /-- The updates of the call that changed the row. -/
  changes : ℕ := 0
  deriving DecidableEq

structure SessionState where
  row : UserSession
  cache : Option CachedSession
  clock : ℤ
  /-- The call that holds the row. -/
  lock : Option ℕ := none
  calls : List Call
  exchanges : List (String × String) := []
  revokedClock : Option ℤ := none

/-- The session is created with `lag` nanoseconds between the capture of its deadline and the insert. -/
def SessionState.start (ttl : ℤ) (row : UserSession) (clock : ℤ) (lag : ℕ) : SessionState where
  row
  cache := none
  clock
  calls := [{ op := .create, pc := .fill (clock - lag + ttl * second) row }]

inductive SessionAction
  | tick (nanoseconds : ℕ)
  | begin (op : Op)
  /-- The next statement of a call. -/
  | proceed (call : ℕ) (fault : Bool)

namespace SessionState

def goto (s : SessionState) (i : ℕ) (c : Call) (pc : Pc) : SessionState :=
  { s with calls := s.calls.set i { c with pc } }

/-- Another call holds the row. -/
def blocked (s : SessionState) (i : ℕ) : Bool :=
  match s.lock with
  | none => false
  | some j => j ≠ i

/-- The call fails; its transaction is rolled back. -/
def fail (s : SessionState) (i : ℕ) (c : Call) (result : Result) : SessionState :=
  { s.goto i c (.returned result) with lock := if s.lock = some i then none else s.lock }

/-- An update of the row by a call, which then goes on. -/
def update (s : SessionState) (i : ℕ) (c : Call) (row : UserSession) (pc : Pc) : SessionState :=
  { s with
    row
    lock := if s.lock = some i then none else s.lock
    calls := s.calls.set i { c with pc, changes := c.changes + 1 } }

/-- An update that revokes the row; `session` is the copy the last tombstone is made of. -/
def revoke (s : SessionState) (i : ℕ) (c : Call) (session : UserSession) (now : ℤ) (reason : String)
    (next : AfterDeny) : SessionState :=
  { s.update i c (s.row.revoke now reason) (.deny (session.revoke now reason).cacheEntry next) with
    revokedClock := some s.clock }

/-- Where a deny write leads. -/
def afterDeny (s : SessionState) (i : ℕ) (c : Call) (accepted : Bool) : AfterDeny → SessionState
  | .observed => s.goto i c (.returned .inactive)
  | .reuseFinal => s.goto i c (.returned .refreshReuse)
  | .revokeFinal => s.goto i c (.returned .revoked)
  | .hashFinal => s.goto i c (.returned .revoked)
  | .bulkFinal now => s.goto i c (.bulkQuery now true)
  | .reuseFence now session =>
    if accepted then s.goto i c (.reuseUpdate now session) else s.fail i c .inactive
  | .revokeFence now candidate =>
    if accepted then s.goto i c (.revokeTx now candidate) else s.fail i c .inactive
  | .hashFence now session =>
    if accepted then s.goto i c (.hashUpdate now session) else s.fail i c .inactive
  | .bulkFence now done =>
    if accepted then s.goto i c (.bulkTx now done) else s.fail i c .inactive

/-! ## Rotation -/

/-- What a row says about a presented hash. -/
inductive HashKind
  | unusable
  | current
  | unknown
  | inGrace
  | reused

def hashKind (session : UserSession) (presentedHash : String) (now : ℤ) : HashKind :=
  if ¬session.UsableAt now then .unusable
  else if session.refreshHash = presentedHash then .current
  else if session.previousRefreshHash = "" ∨ session.previousRefreshHash ≠ presentedHash then .unknown
  else if now ≤ session.previousValidUntil then .inGrace
  else .reused

def rotateRead (s : SessionState) (i : ℕ) (c : Call) (presentedHash : String) (now : ℤ) (tries : ℕ)
    (deadline : ℤ) : SessionState :=
  let session := s.row.afterFind
  let c := { c with reads := c.reads ++ [(now, session)] }
  match hashKind session presentedHash now with
  | .unusable => s.goto i c (.returned .inactive)
  | .current => s.goto i c (.rotateCas now tries deadline session)
  | .unknown => s.goto i c (.returned .refreshInvalid)
  | .inGrace => s.goto i c (.returned .refreshRace)
  | .reused =>
    s.goto i c (.deny (session.denied .revoking now "refresh_reuse") (.reuseFence now session))

/-- The row after an exchange of hashes. -/
def rotated (session : UserSession) (previousHash nextHash : String) (now grace : ℤ) : UserSession :=
  { session with
    previousRefreshHash := previousHash
    previousValidUntil := now + grace.tdiv second
    refreshHash := nextHash
    lastActiveAt := now }

/-- The update that compares and swaps. -/
def rotateCas (s : SessionState) (i : ℕ) (c : Call) (presentedHash nextHash : String) (grace now : ℤ)
    (tries : ℕ) (deadline : ℤ) (session : UserSession) : SessionState :=
  if s.row.UsableAt now ∧ s.row.refreshHash = presentedHash then
    { s.update i c (rotated s.row session.refreshHash nextHash now grace)
        (.fill deadline (rotated session session.refreshHash nextHash now grace)) with
      exchanges := s.exchanges ++ [(presentedHash, nextHash)] }
  else s.goto i c (.rotating now tries)

/-! ## Statements -/

/-- What a call checks before its first statement, and where it starts. -/
def enter (s : SessionState) (i : ℕ) (c : Call) : SessionState :=
  match c.op with
  | .create => s
  | .get =>
    match getUserSessionCache s.clock s.cache with
    | .hit entry => s.goto i c (.returned (.session entry))
    | .inactive => s.goto i c (.returned .inactive)
    | .miss => s.goto i c .capture
  | .rotate presentedHash nextHash now grace =>
    if presentedHash = "" ∨ nextHash = "" ∨ presentedHash = nextHash ∨ grace.tdiv second < 0 then
      s.goto i c (.returned .invalid)
    else s.goto i c (.rotating (if now ≤ 0 then unix s.clock else now) 3)
  | .revoke _ => s.goto i c (.revokeRead (unix s.clock))
  | .revokeByRefreshHash presentedHash _ =>
    if presentedHash = "" then s.goto i c (.returned .invalid)
    else s.goto i c (.hashLock (unix s.clock))
  | .revokeAll _ => s.goto i c (.bulkQuery (unix s.clock) false)
  | .advance expectedSessionVersion expectedUserAuthVersion nextUserAuthVersion =>
    if expectedSessionVersion ≤ 0 ∨ expectedUserAuthVersion ≤ 0 ∨
        nextUserAuthVersion ≤ expectedUserAuthVersion then s.goto i c (.returned .invalid)
    else s.goto i c .capture

/-- The locking read of a logout by refresh hash. -/
def hashLock (s : SessionState) (i : ℕ) (c : Call) (presentedHash reason : String) (now : ℤ) :
    SessionState :=
  let session := s.row.afterFind
  if ¬session.UsableAt now then s.goto i c (.returned .notRevoked)
  else if session.refreshHash = presentedHash ∨
      (session.previousRefreshHash ≠ "" ∧ now ≤ session.previousValidUntil ∧
        session.previousRefreshHash = presentedHash) then
    { s.goto i c (.deny (session.denied .revoking now reason) (.hashFence now session)) with
      lock := some i }
  else s.goto i c (.returned .notRevoked)

/-- The transaction of `AdvanceUserSessionAuthVersion`. -/
def advanceTx (s : SessionState) (i : ℕ) (c : Call) (expectedSessionVersion expectedUserAuthVersion
    nextUserAuthVersion deadline now : ℤ) : SessionState :=
  if s.row.status ≠ .active ∨ s.row.expiresAt ≤ now ∨ s.row.version ≠ expectedSessionVersion ∨
      s.row.userAuthVersion ≠ expectedUserAuthVersion then s.goto i c (.returned .inactive)
  else
    let row := { s.row with
      version := s.row.version + 1
      userAuthVersion := nextUserAuthVersion
      lastActiveAt := now }
    s.update i c row (.fill deadline row.afterFind)

/-- The statements of the writes, which every operation shares. -/
def write (ttl : ℤ) (s : SessionState) (i : ℕ) (c : Call) : Pc → SessionState
  | .fill deadline session =>
    match redisExpiration ttl s.clock session.cacheEntry (some deadline) with
    | .ok expiration => s.goto i c (.filling deadline session expiration)
    | .error .observationStale => s.goto i c (.confirm session)
    | .error _ => s.goto i c (.returned .inactive)
  | .filling deadline session expiration =>
    let (accepted, cache) := writeScript (unixMilli s.clock) session.cacheEntry expiration s.cache
    { s.goto i c (if accepted then .filled deadline session else .returned .inactive) with cache }
  | .filled deadline session =>
    match completed s.clock session.cacheEntry deadline with
    | none => s.goto i c (.returned (.session session.cacheEntry))
    | some .observationStale => s.goto i c (.confirm session)
    | some _ => s.goto i c (.returned .inactive)
  | .confirm session =>
    s.goto i c (.returned (if confirmUserSessionActiveSnapshot s.clock s.row session then
      .session session.cacheEntry else .inactive))
  | .deny entry next =>
    match redisExpiration ttl s.clock entry none with
    | .ok expiration => s.goto i c (.denying entry expiration next)
    | .error _ => s.fail i c .invalid
  | .denying entry expiration next =>
    let (accepted, cache) := writeScript (unixMilli s.clock) entry expiration s.cache
    { s with cache }.afterDeny i c accepted next
  | _ => s

def proceed (ttl : ℤ) (s : SessionState) (i : ℕ) (c : Call) : SessionState :=
  match c.pc, c.op with
  | .begun, _ => s.enter i c
  | .capture, _ => s.goto i c (.captured (s.clock + ttl * second))
  | .captured deadline, .get => s.goto i c (.loaded deadline s.row.afterFind)
  | .captured deadline, .advance _ _ _ => s.goto i c (.advanceTx deadline (unix s.clock))
  | .loaded deadline session, _ =>
    if session.UsableAt (unix s.clock) then s.goto i c (.fill deadline session)
    else s.goto i c (.deny { session.cacheEntry with status := .revoked } .observed)
  | .rotating now (tries + 1), _ => s.goto i c (.rotateRead now tries (s.clock + ttl * second))
  | .rotating _ 0, _ => s.goto i c (.returned .refreshInvalid)
  | .rotateRead now tries deadline, .rotate presentedHash _ _ _ =>
    s.rotateRead i c presentedHash now tries deadline
  | .rotateCas now tries deadline session, .rotate presentedHash nextHash _ grace =>
    if s.blocked i then s
    else s.rotateCas i c presentedHash nextHash grace now tries deadline session
  | .reuseUpdate now session, _ =>
    if s.blocked i then s
    else if s.row.UsableAt now then s.revoke i c session now "refresh_reuse" .reuseFinal
    else s.goto i c (.returned .inactive)
  | .revokeRead now, .revoke reason =>
    let candidate := s.row.afterFind
    if candidate.UsableAt now then
      s.goto i c (.deny (candidate.denied .revoking now reason) (.revokeFence now candidate))
    else s.goto i c (.returned .notRevoked)
  | .revokeTx now candidate, .revoke reason =>
    if s.blocked i then s
    else if s.row.UsableAt now then s.revoke i c candidate now reason .revokeFinal
    else s.goto i c (.returned .notRevoked)
  | .hashLock now, .revokeByRefreshHash presentedHash reason =>
    if s.blocked i then s else s.hashLock i c presentedHash reason now
  | .hashUpdate now session, .revokeByRefreshHash _ reason =>
    if s.row.status = .active then s.revoke i c session now reason .hashFinal
    else s.fail i c .notRevoked
  | .bulkQuery now done, .revokeAll reason =>
    if s.row.status = .active ∧ now < s.row.expiresAt then
      s.goto i c (.deny (s.row.afterFind.denied .revoking now reason) (.bulkFence now done))
    else s.goto i c (.returned (if done then .revoked else .notRevoked))
  | .bulkTx now done, .revokeAll reason =>
    if s.blocked i then s
    else if s.row.status = .active then s.revoke i c s.row.afterFind now reason (.bulkFinal now)
    else s.goto i c (.bulkQuery now done)
  | .advanceTx deadline now, .advance expectedSessionVersion expectedUserAuthVersion
      nextUserAuthVersion =>
    if s.blocked i then s
    else s.advanceTx i c expectedSessionVersion expectedUserAuthVersion nextUserAuthVersion deadline now
  | pc, _ => s.write ttl i c pc

end SessionState

/-- A failed read of Redis is a miss. -/
def sessionStep (ttl : ℤ) (s : SessionState) : SessionAction → SessionState
  | .tick nanoseconds => { s with clock := s.clock + nanoseconds }
  | .begin op =>
    { s with calls := s.calls ++ [{
        op
        pc := .begun
        late := s.calls.any fun c => c.pc = .returned .revoked }] }
  | .proceed i fault =>
    match s.calls[i]? with
    | none => s
    | some c =>
      if fault then
        match c.pc, c.op with
        | .begun, .get => s.goto i c .capture
        | .returned _, _ => s
        | _, _ => s.fail i c .error
      else s.proceed ttl i c

/-! ## What a statement does to the row -/

/-- A statement of call `i` leaves the row, or it is one of the three updates of an active row. -/
inductive RowMove (s : SessionState) (i : ℕ) (c : Call) : SessionState → Prop
  | keep {s' : SessionState} (hrow : s'.row = s.row) (hex : s'.exchanges = s.exchanges)
      (hcalls : s'.calls = s.calls ∨
        ∃ d, s'.calls = s.calls.set i d ∧ d.op = c.op ∧ d.changes = c.changes) :
      RowMove s i c s'
  | exchange {s' : SessionState} {presentedHash nextHash : String} {now' grace now deadline : ℤ}
      {tries : ℕ} {session : UserSession} {pc : Pc}
      (hop : c.op = .rotate presentedHash nextHash now' grace)
      (hpc : c.pc = .rotateCas now tries deadline session) (huse : s.row.UsableAt now)
      (hhash : s.row.refreshHash = presentedHash)
      (hrow : s'.row = SessionState.rotated s.row session.refreshHash nextHash now grace)
      (hex : s'.exchanges = s.exchanges ++ [(presentedHash, nextHash)])
      (hcalls : s'.calls = s.calls.set i { c with pc, changes := c.changes + 1 }) : RowMove s i c s'
  | revoke {s' : SessionState} {now : ℤ} {reason : String} {pc : Pc} (hactive : s.row.status = .active)
      (hrow : s'.row = s.row.revoke now reason) (hex : s'.exchanges = s.exchanges)
      (hcalls : s'.calls = s.calls.set i { c with pc, changes := c.changes + 1 }) : RowMove s i c s'
  | advance {s' : SessionState} {expectedSessionVersion expectedUserAuthVersion nextUserAuthVersion : ℤ}
      {pc : Pc} {row : UserSession}
      (hop : c.op = .advance expectedSessionVersion expectedUserAuthVersion nextUserAuthVersion)
      (hactive : s.row.status = .active) (hrow : s'.row = row) (hst : row.status = .active)
      (hhash : row.refreshHash = s.row.refreshHash) (hex : s'.exchanges = s.exchanges)
      (hcalls : s'.calls = s.calls.set i { c with pc, changes := c.changes + 1 }) : RowMove s i c s'

section RowMove

variable {ttl : ℤ} {s : SessionState} {i : ℕ} {c : Call}

theorem UserSession.UsableAt.active {session : UserSession} {now : ℤ} (h : session.UsableAt now) :
    session.status = .active := (usable_iff.mp h).1

theorem rowMove_goto (pc : Pc) : RowMove s i c (s.goto i c pc) :=
  .keep rfl rfl (.inr ⟨_, rfl, rfl, rfl⟩)

theorem rowMove_stay : RowMove s i c s := .keep rfl rfl (.inl rfl)

theorem rowMove_fail (result : Result) : RowMove s i c (s.fail i c result) :=
  .keep rfl rfl (.inr ⟨_, rfl, rfl, rfl⟩)

theorem rowMove_enter : RowMove s i c (s.enter i c) := by
  unfold SessionState.enter
  split
  · exact rowMove_stay
  · split <;> exact rowMove_goto _
  · split_ifs <;> exact rowMove_goto _
  · exact rowMove_goto _
  · split_ifs <;> exact rowMove_goto _
  · exact rowMove_goto _
  · split_ifs <;> exact rowMove_goto _

theorem rowMove_write (pc : Pc) : RowMove s i c (s.write ttl i c pc) := by
  unfold SessionState.write
  split
  · split <;> exact rowMove_goto _
  · exact .keep rfl rfl (.inr ⟨_, rfl, rfl, rfl⟩)
  · split <;> exact rowMove_goto _
  · exact rowMove_goto _
  · split
    · exact rowMove_goto _
    · exact rowMove_fail _
  · rename_i entry expiration next
    dsimp only
    cases next
    all_goals
      unfold SessionState.afterDeny
      dsimp only
      try split_ifs
      all_goals exact .keep rfl rfl (.inr ⟨_, rfl, rfl, rfl⟩)
  · exact rowMove_stay

theorem rowMove_proceed (ttl : ℤ) (s : SessionState) (i : ℕ) (c : Call) : RowMove s i c (s.proceed ttl i c) := by
  unfold SessionState.proceed
  split
  · exact rowMove_enter
  · exact rowMove_goto _
  · exact rowMove_goto _
  · exact rowMove_goto _
  · split_ifs <;> exact rowMove_goto _
  · exact rowMove_goto _
  · exact rowMove_goto _
  · unfold SessionState.rotateRead
    dsimp only
    split <;> exact .keep rfl rfl (.inr ⟨_, rfl, rfl, rfl⟩)
  · rename_i hpc hop
    split_ifs
    · exact rowMove_stay
    · unfold SessionState.rotateCas
      split_ifs with hmatch
      · exact .exchange hop hpc hmatch.1 hmatch.2 rfl rfl rfl
      · exact rowMove_goto _
  · split_ifs with hfree huse
    · exact rowMove_stay
    · exact .revoke huse.active rfl rfl rfl
    · exact rowMove_goto _
  · dsimp only
    split_ifs <;> exact rowMove_goto _
  · split_ifs with hfree huse
    · exact rowMove_stay
    · exact .revoke huse.active rfl rfl rfl
    · exact rowMove_goto _
  · split_ifs
    · exact rowMove_stay
    · unfold SessionState.hashLock
      dsimp only
      split_ifs <;> exact .keep rfl rfl (.inr ⟨_, rfl, rfl, rfl⟩)
  · split_ifs with hactive
    · exact .revoke hactive rfl rfl rfl
    · exact rowMove_fail _
  · split_ifs <;> exact rowMove_goto _
  · split_ifs with hfree hactive
    · exact rowMove_stay
    · exact .revoke hactive rfl rfl rfl
    · exact rowMove_goto _
  · rename_i hpc hop
    split_ifs
    · exact rowMove_stay
    · unfold SessionState.advanceTx
      split_ifs with hbad
      · exact rowMove_goto _
      · push Not at hbad
        exact .advance hop hbad.1 rfl hbad.1 rfl rfl rfl
  · exact rowMove_write _

end RowMove

theorem sessionStep_row (ttl : ℤ) (s : SessionState) (a : SessionAction) :
    ((sessionStep ttl s a).row = s.row ∧ (sessionStep ttl s a).exchanges = s.exchanges) ∨
      ∃ i c, a = .proceed i false ∧ s.calls[i]? = some c ∧ sessionStep ttl s a = s.proceed ttl i c := by
  cases a with
  | tick nanoseconds => exact .inl ⟨rfl, rfl⟩
  | begin op => exact .inl ⟨rfl, rfl⟩
  | proceed i fault =>
    unfold sessionStep
    dsimp only
    cases hc : s.calls[i]? with
    | none => exact .inl ⟨rfl, rfl⟩
    | some c =>
      cases fault with
      | false => exact .inr ⟨i, c, rfl, hc, rfl⟩
      | true =>
        left
        dsimp only
        rw [if_pos rfl]
        split <;> exact ⟨rfl, rfl⟩

theorem revoked_step (ttl : ℤ) (s : SessionState) (a : SessionAction) (h : s.row.status = .revoked) :
    (sessionStep ttl s a).row.status = .revoked := by
  rcases sessionStep_row ttl s a with ⟨hrow, -⟩ | ⟨i, c, -, -, hstep⟩
  · rw [hrow]
    exact h
  · rw [hstep]
    cases rowMove_proceed ttl s i c with
    | keep hrow => rw [hrow]; exact h
    | exchange _ _ huse => rw [huse.active] at h; cases h
    | revoke hactive => rw [hactive] at h; cases h
    | advance _ hactive => rw [hactive] at h; cases h

end Vancine.Sessions
