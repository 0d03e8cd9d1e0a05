import Vancine.Lib.Run
import Vancine.Lib.RowLocks
import Vancine.AlternativeLogin.Credentials

/-!
# Releasing a Google identity

`ReleaseGoogleIdentitySelf` is one transaction: it locks the row of the user, looks for the claim and for another login
method, deletes the claim, clears the mirror and reads both back. `DeleteUserOAuthBinding` is one statement. The calls
of one account interleave at their statements; a statement can fail, and a write can hit no row without an error. A row
that a transaction has read with `lockForUpdate` is neither locked nor deleted by another until the transaction ends.
-/

namespace Vancine.AlternativeLogin

open Lib

/-- The rows that are locked. -/
inductive Row
  | user
  | passkey
  | binding (providerId : ℕ)
  | provider (providerId : ℕ)
  deriving DecidableEq

inductive ReleaseResult
  | released
  | notBound
  | noAlternative
  | failed
  deriving DecidableEq

/-- What the transaction has written, and nobody else sees. -/
structure Writes where
  claimDeleted : Bool := false
  mirrorCleared : Bool := false
  deriving DecidableEq

/-- The statement that a call is about to make. -/
inductive Phase
  | start
  | claim (user : User)
  | passkey (user : User)
  | bindings
  | provider (binding : UserOAuthBinding) (rest : List UserOAuthBinding)
  | target
  | deleting
  | clearing (writes : Writes)
  | counting (writes : Writes)
  | readingBack (writes : Writes)
  | committing (writes : Writes)
  | returned (result : ReleaseResult)
  deriving DecidableEq

inductive Outcome
  | done
  /-- A write without an error that hits no row. -/
  | zeroHit
  | error
  deriving DecidableEq

structure Account where
  db : Database
  calls : List Phase := []
  locks : RowLocks Row := []

inductive Action
  | call
  | proceed (call : ℕ) (outcome : Outcome)
  /-- `DeleteUserOAuthBinding`. -/
  | unbind (providerId : ℕ) (outcome : Outcome)

def Phase.result : Phase → Option ReleaseResult
  | .returned result => some result
  | _ => none

/-- The tables as the transaction sees them. -/
def Writes.apply (w : Writes) (db : Database) : Database :=
  { db with
    googleClaim := if w.claimDeleted then none else db.googleClaim
    user := db.user.map fun user => if w.mirrorCleared then { user with googleSub := "" } else user }

namespace Account

variable (s : Account) (i : ℕ)

/-- A transaction that ends gives its locks back. -/
def goto (phase : Phase) : Account :=
  { s with
    calls := s.calls.set i phase
    locks := if phase.result.isSome then s.locks.release i else s.locks }

/-- `SELECT … FOR UPDATE`: a statement that has to wait does nothing yet. -/
def lockForUpdate (rows : List Row) (next : Phase) : Account :=
  if rows.any (s.locks.heldByOther i) then s else { s with locks := s.locks.lock i rows }.goto i next

end Account

section Release

variable (lib : CredentialLibrary) (policy : AlternativeLoginPolicy)

/-- The rest of `hasEnabledCustomOAuthBindingWithTx`, up to its next statement. -/
def nextProvider : List UserOAuthBinding → Phase
  | [] => .returned .noAlternative
  | binding :: rest => if eligible policy binding then .provider binding rest else nextProvider rest

/-- `hasAlternativeLoginWithTx` after the passkey. -/
def afterPasskey (user : User) : Phase := if builtInCounts policy user then .target else .bindings

def afterClaim (user : User) : Phase :=
  if passwordCounts lib policy user then .target
  else if policy.passkeyFeatureEnabled then .passkey user
  else afterPasskey policy user

/-- The next statement of a call, when the database does not fail. -/
def proceedAt (s : Account) (i : ℕ) (outcome : Outcome) : Phase → Account
  | .start =>
    if s.db.userId = 0 then s.goto i (.returned .failed)
    else
      match s.db.user with
      | none => s.goto i (.returned .failed)
      | some user => s.lockForUpdate i [.user] (.claim user)
  | .claim user =>
    match s.db.googleClaim with
    | none => s.goto i (.returned .notBound)
    | some _ => s.goto i (afterClaim lib policy user)
  | .passkey user =>
    match s.db.passkey with
    | none => s.goto i (afterPasskey policy user)
    | some credential =>
      s.lockForUpdate i [.passkey] (if hasValidPasskey lib credential then .target else afterPasskey policy user)
  | .bindings =>
    s.lockForUpdate i (s.db.bindings.map fun binding => .binding binding.providerId) (nextProvider policy s.db.bindings)
  | .provider binding rest =>
    match s.db.enabledProvider binding.providerId with
    | none => s.goto i (nextProvider policy rest)
    | some provider =>
      s.lockForUpdate i [.provider provider.id]
        (if validateCustomOAuthProvider lib provider then .target else nextProvider policy rest)
  | .target =>
    match s.db.user with
    | none => s.goto i (.returned .failed)
    | some _ => s.lockForUpdate i [.user] .deleting
  | .deleting => s.goto i (.clearing { claimDeleted := outcome = .done })
  | .clearing w => s.goto i (.counting { w with mirrorCleared := outcome = .done })
  | .counting w =>
    if (w.apply s.db).googleClaim.isSome then s.goto i (.returned .failed) else s.goto i (.readingBack w)
  | .readingBack w =>
    match (w.apply s.db).user with
    | none => s.goto i (.returned .failed)
    | some user => if user.googleSub ≠ "" then s.goto i (.returned .failed) else s.goto i (.committing w)
  | .committing w => { s with db := w.apply s.db }.goto i (.returned .released)
  | .returned _ => s

/-- A statement that fails rolls the transaction back. -/
def proceed (s : Account) (i : ℕ) (outcome : Outcome) (phase : Phase) : Account :=
  if outcome = .error ∧ phase.result.isNone then s.goto i (.returned .failed)
  else proceedAt lib policy s i outcome phase

/-- `DELETE FROM user_oauth_bindings`, which waits for the lock of the row. -/
def deleteUserOAuthBinding (s : Account) (providerId : ℕ) (outcome : Outcome) : Account :=
  if outcome = .done ∧ ¬s.locks.isHeld (.binding providerId) then
    { s with db := { s.db with bindings := s.db.bindings.filter (·.providerId ≠ providerId) } }
  else s

def step (s : Account) : Action → Account
  | .call => { s with calls := s.calls ++ [.start] }
  | .proceed i outcome =>
    match s.calls[i]? with
    | some phase => proceed lib policy s i outcome phase
    | none => s
  | .unbind providerId outcome => deleteUserOAuthBinding s providerId outcome

end Release

/-- The result that a step brings to a call. -/
def resultOf (s s' : Account) (i : ℕ) : Option ReleaseResult :=
  if (s.calls[i]? >>= Phase.result).isSome then none else s'.calls[i]? >>= Phase.result

/-- The calls that have released the identity. -/
def Account.releasedCalls (s : Account) : ℕ := s.calls.count (.returned .released)

end Vancine.AlternativeLogin
