import Vancine.Lib.Exclusive
import Vancine.Lib.Run
import Vancine.UserCache.Store

/-!
# Version bumps, cache fills and cache reads of one user

Any number of calls run at once. Each goes from statement to statement, and between two of them the row
may change, a key may expire and any other call may run. A transaction shows in the step that commits it;
the row lock it holds is left out, which only allows more orders.

* `GetUserCache` reads the hash and the floor; failing that, the row and the floor, and fills the hash.
* `IncrementUserAuthVersionWithTx` reads the version, fences the next one, and updates by comparison. Its
  callers then write the row they read in the transaction, or the row they read after it, or, when they
  delete the user, raise the committed floor and drop the hash.
* `RefreshUserGroupCache` reads the group with its version, writes, and reads again.
* `updateUserCacheField` gets a value from its caller and reads only the version.

`rows` of the state keeps every row that was ever committed, and `floor` of a call the committed floor
when the call began.
-/

namespace Vancine.UserCache

open Lib

/-! ## Calls -/

inductive Op
  | getUserCache
  /-- `Update`, `Edit` and `BindEmailToUser`. -/
  | edit (columns : UserBase) (authChanged : Bool)
  /-- `BumpUserAuthVersion` and the other transactions that are followed by `PublishUserAuthCache`. -/
  | bumpUserAuthVersion (columns : UserBase)
  | delete (hard : Bool)
  | publishUserAuthCache
  | refreshUserGroupCache
  | updateUserEmailCache (email : String)
  | updateUserNameCache (username : String)
  | updateUserSettingCache (setting : String)
  deriving DecidableEq

/-- The field that `updateUserCacheField` writes for a call, and its value. -/
def Op.field : Op → Option (UserField × String)
  | .updateUserEmailCache email => some (.email, email)
  | .updateUserNameCache username => some (.username, username)
  | .updateUserSettingCache setting => some (.setting, setting)
  | _ => none

inductive Result
  | snapshot (h : UserHash)
  /-- `ErrUserAuthCachePending`. -/
  | pending
  | done
  | error
  deriving DecidableEq

/-- The next statement of a call, with what it has so far. -/
inductive Pc
  | begun
  | cached (h : UserHash)
  | fallback
  | found (user : UserBase)
  | populate (user : UserBase)
  | increment (tries : ℕ)
  | fence (tries : ℕ) (authVersion : ℤ)
  | commit (tries : ℕ) (authVersion : ℤ)
  | reload
  | update (user : UserBase)
  | publish (authVersion : ℤ)
  | invalidate
  | groupRead
  | groupWrite (rounds : ℕ) (group : String) (authVersion : ℤ)
  | groupVerify (rounds : ℕ) (group : String) (authVersion : ℤ)
  | fieldRead (field : UserField) (value : String)
  | fieldWrite (field : UserField) (value : String) (authVersion : ℤ)
  | returned (result : Result)
  deriving DecidableEq

structure Call where
  op : Op
  pc : Pc
  /-- The committed floor when the call began. -/
  floor : Option ℤ
  deriving DecidableEq

/-- A soft-deleted row is only found by unscoped statements. -/
inductive Presence
  | live
  | softDeleted
  | gone
  deriving DecidableEq

structure FenceState where
  row : UserBase
  presence : Presence := .live
  /-- The rows ever committed. -/
  rows : List UserBase
  keys : UserKeys := {}
  calls : List Call := []

/-- A user right after its row was inserted. -/
def FenceState.start (row : UserBase) : FenceState where
  row
  rows := [row]

inductive FenceAction
  /-- A statement that changes columns other than the quota and the version. -/
  | setColumns (columns : UserBase)
  | setQuota (quota : ℤ)
  | initializeUserAuthVersions
  /-- A quota delta or reservation that goes through in the hash. -/
  | cacheIncrUserQuota (delta : ℤ)
  | expireHash
  | expirePending
  | begin (op : Op)
  | proceed (call : ℕ) (fault : Bool)
  deriving DecidableEq

namespace FenceState

def goto (s : FenceState) (i : ℕ) (c : Call) (pc : Pc) : FenceState :=
  { s with calls := s.calls.set i { c with pc } }

def store (s : FenceState) (row : UserBase) : FenceState :=
  { s with row, rows := s.rows ++ [row] }

/-- The columns a transaction writes. -/
def edited (s : FenceState) (columns : UserBase) (authVersion : ℤ) : UserBase :=
  { columns with quota := s.row.quota, authVersion }

/-! ## Statements -/

def enter (s : FenceState) (i : ℕ) (c : Call) : FenceState :=
  match c.op with
  | .getUserCache =>
    match s.keys.hash with
    | none => s.goto i c .fallback
    | some h => if h.user.authVersion ≤ 0 then s.goto i c .fallback else s.goto i c (.cached h)
  | .edit columns false =>
    if s.presence ≠ .live then s.goto i c (.returned .error)
    else
      let row := s.edited columns s.row.authVersion
      (s.store row).goto i c (.update row)
  | .edit _ true =>
    if s.presence ≠ .live then s.goto i c (.returned .error) else s.goto i c (.increment 3)
  | .bumpUserAuthVersion _ => s.goto i c (.increment 3)
  | .delete _ => s.goto i c (.increment 3)
  | .publishUserAuthCache => s.goto i c .reload
  | .refreshUserGroupCache => s.goto i c .groupRead
  | .updateUserEmailCache email => s.goto i c (.fieldRead .email email)
  | .updateUserNameCache username => s.goto i c (.fieldRead .username username)
  | .updateUserSettingCache setting => s.goto i c (.fieldRead .setting setting)

/-- The end of the transaction, after the update by comparison went through. -/
def committed (s : FenceState) (i : ℕ) (c : Call) (next : ℤ) : FenceState :=
  match c.op with
  | .edit columns _ => (s.store (s.edited columns next)).goto i c (.update (s.edited columns next))
  | .bumpUserAuthVersion columns => (s.store (s.edited columns next)).goto i c .reload
  | .delete hard =>
    { s.store { s.row with authVersion := next } with
      presence := if hard then .gone else .softDeleted }.goto i c (.publish next)
  | _ => s

/-- `writeUserCache` by a call that goes on at `ok`, at `refused` or, with an invalid version, at
`invalid`. -/
def writeUserCache (s : FenceState) (i : ℕ) (c : Call) (user : UserBase) (includeQuota : Bool)
    (ok refused invalid : Pc) : FenceState :=
  if user.authVersion ≤ 0 then s.goto i c invalid
  else
    let (accepted, keys) := s.keys.writeUserCache user includeQuota
    { s with keys }.goto i c (if accepted then ok else refused)

/-- `updateUserCacheFieldAtVersion` by a call. -/
def updateField (s : FenceState) (i : ℕ) (c : Call) (field : UserField) (value : String)
    (authVersion : ℤ) (ok : Pc) : FenceState :=
  if authVersion ≤ 0 then s.goto i c (.returned .error)
  else
    let (accepted, keys) := s.keys.updateUserCacheFieldAtVersion field value authVersion
    { s with keys }.goto i c (if accepted then ok else .returned .pending)

def proceed (s : FenceState) (i : ℕ) (c : Call) : FenceState :=
  match c.pc with
  | .begun => s.enter i c
  | .cached h =>
    if s.keys.floor > h.user.authVersion then s.goto i c .fallback
    else s.goto i c (.returned (.snapshot h))
  | .fallback =>
    if s.presence ≠ .live then s.goto i c (.returned .error) else s.goto i c (.found s.row)
  | .found user =>
    if s.keys.floor > user.authVersion then s.goto i c (.returned .pending)
    else s.goto i c (.populate user)
  | .populate user =>
    s.writeUserCache i c user true (.returned (.snapshot { user })) (.returned .pending)
      (.returned (.snapshot { user }))
  | .increment 0 => s.goto i c (.returned .error)
  | .increment (tries + 1) =>
    if s.presence = .gone then s.goto i c (.returned .error)
    else s.goto i c (.fence tries s.row.authVersion)
  | .fence tries authVersion =>
    { s with keys := s.keys.setUserAuthVersionFence (max authVersion 1 + 1) }.goto i c
      (.commit tries authVersion)
  | .commit tries authVersion =>
    if s.presence ≠ .gone ∧ s.row.authVersion = authVersion then s.committed i c (max authVersion 1 + 1)
    else s.goto i c (.increment tries)
  | .reload =>
    if s.presence ≠ .live then s.goto i c (.returned .error) else s.goto i c (.update s.row)
  | .update user =>
    s.writeUserCache i c user false (.returned .done) (.returned .pending) (.returned .error)
  | .publish authVersion =>
    { s with keys := s.keys.publishCommittedUserAuthVersion authVersion }.goto i c .invalidate
  | .invalidate => { s with keys := { s.keys with hash := none } }.goto i c (.returned .done)
  | .groupRead =>
    if s.presence ≠ .live then s.goto i c (.returned .error)
    else s.goto i c (.groupWrite 3 s.row.group s.row.authVersion)
  | .groupWrite 0 group authVersion => s.updateField i c .group group authVersion (.returned .error)
  | .groupWrite (rounds + 1) group authVersion =>
    s.updateField i c .group group authVersion (.groupVerify rounds group authVersion)
  | .groupVerify rounds group authVersion =>
    if s.presence ≠ .live then s.goto i c (.returned .error)
    else if s.row.authVersion = authVersion ∧ s.row.group = group then s.goto i c (.returned .done)
    else s.goto i c (.groupWrite rounds s.row.group s.row.authVersion)
  | .fieldRead field value =>
    if s.presence ≠ .live then s.goto i c (.returned .error)
    else s.goto i c (.fieldWrite field value s.row.authVersion)
  | .fieldWrite field value authVersion => s.updateField i c field value authVersion (.returned .done)
  | .returned _ => s

/-- A statement that fails. A read of the cache goes on with the row, a failed floor is skipped, and a
failed fill is only logged; so is a failed publish of a hard delete. -/
def fail (s : FenceState) (i : ℕ) (c : Call) : FenceState :=
  match c.pc, c.op with
  | .begun, .getUserCache => s.goto i c .fallback
  | .cached _, _ => s.goto i c .fallback
  | .found user, _ => s.goto i c (.populate user)
  | .populate user, _ => s.goto i c (.returned (.snapshot { user }))
  | .publish _, .delete true => s.goto i c .invalidate
  | .returned _, _ => s
  | _, _ => s.goto i c (.returned .error)

end FenceState

def fenceStep (s : FenceState) : FenceAction → FenceState
  | .setColumns columns => s.store (s.edited columns s.row.authVersion)
  | .setQuota quota => s.store { s.row with quota }
  | .initializeUserAuthVersions =>
    if s.row.authVersion < 1 then s.store { s.row with authVersion := 1 } else s
  | .cacheIncrUserQuota delta => { s with keys := s.keys.cacheIncrUserQuota delta }
  | .expireHash => { s with keys := { s.keys with hash := none } }
  | .expirePending => { s with keys := { s.keys with pending := none } }
  | .begin op => { s with calls := s.calls ++ [⟨op, .begun, s.keys.committed⟩] }
  | .proceed i fault =>
    match s.calls[i]? with
    | none => s
    | some c => if fault then s.fail i c else s.proceed i c

end Vancine.UserCache
