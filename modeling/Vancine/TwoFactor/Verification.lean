import Vancine.Lib.Run
import Vancine.TwoFactor.Codes
import Mathlib.Data.List.Nodup
import Mathlib.Algebra.Order.Group.Int

/-!
# Two-factor verification

`VerifyTwoFactorCode` acts on a row that its caller loaded. It looks at the lock in that copy, compares the code, and
then writes the outcome: a success overwrites the counters, a failure increments them in a loop of a read and a
conditional write. The calls of one account interleave at the statements of the database. Time is in nanoseconds.
-/

namespace Vancine.TwoFactor

open Lib

/-! ## Rows -/

structure TwoFA where
  secret : String
  isEnabled : Bool := true
  failedAttempts : ℕ := 0
  lockedUntil : Option ℤ := none
  lastUsedAt : Option ℤ := none
  deriving DecidableEq

structure TwoFABackupCode where
  id : ℕ
  codeHash : String
  isUsed : Bool := false
  deriving DecidableEq

def maxFailAttempts : ℕ := 5

/-- `LockoutDuration`, in nanoseconds. -/
def lockoutDuration : ℤ := 300 * 10 ^ 9

/-- `maxUpdateRetries`. -/
def maxUpdateRetries : ℕ := 5

/-- A time that is still ahead. -/
def ahead (lockedUntil : Option ℤ) (now : ℤ) : Bool :=
  match lockedUntil with
  | none => false
  | some lockedUntil => now < lockedUntil

/-- `IsLocked`. -/
def TwoFA.isLocked (t : TwoFA) (now : ℤ) : Bool := ahead t.lockedUntil now

/-! ## Calls -/

inductive Result
  | accepted
  | verificationFailed
  | verificationLocked
  | notEnabled
  | codeInvalid
  | conflict
  deriving DecidableEq

/-- Where a call stands. `failing` is about to read the row in a round of `IncrementFailedAttempts`, `counting` has read
it, with the time, and is about to write. -/
inductive Phase
  | loaded (t : TwoFA) (code : String)
  | totp (t : TwoFA) (code : String)
  | backup (t : TwoFA) (code : String)
  | marking (t : TwoFA) (codeId : ℕ)
  | failing (retry : ℕ)
  | counting (retry : ℕ) (failedAttempts : ℕ) (lockedUntil : Option ℤ) (now : ℤ)
  | resetting (t : TwoFA)
  | returned (result : Result)
  deriving DecidableEq

/-- The call has a failure to record. -/
def Phase.isFailing : Phase → Bool
  | .failing _ => true
  | .counting .. => true
  | _ => false

/-- One account, with the calls made so far. Three records are kept beside the tables: the calls whose wrong code was
compared since a code was accepted or a lock was stored, and the backup codes that were marked. -/
structure Account where
  row : TwoFA
  codes : List TwoFABackupCode
  calls : List Phase := []
  clock : ℤ
  wrong : List ℕ := []
  marked : List ℕ := []

/-- A call loads the row, a call goes on, or time passes. -/
inductive Action
  | load (code : String)
  | proceed (call : ℕ)
  | wait (elapsed : ℕ)

/-- `totp.Validate` at a time, `strings.ToUpper`, and the comparison of a code with a salted hash. -/
structure CodeLibrary where
  validateTOTP : String → String → ℤ → Bool
  toUpper : String → String
  validatePasswordAndHash : String → String → Bool

namespace Account

variable (s : Account)

/-- The call goes on to a phase. -/
def goto (i : ℕ) (phase : Phase) : Account := { s with calls := s.calls.set i phase }

/-- The code of the call was compared, and it is wrong. -/
def miss (i : ℕ) : Account := { s.goto i (.failing 0) with wrong := i :: s.wrong }

/-- The calls that have a failure to record. -/
def waiting : ℕ := s.calls.countP Phase.isFailing

/-- `UPDATE … SET is_used = true WHERE id = ? AND is_used = false`. -/
def mark (codeId : ℕ) : Account :=
  { s with
    codes := s.codes.map fun code => if code.id = codeId ∧ ¬code.isUsed then { code with isUsed := true } else code
    marked := codeId :: s.marked }

/-- The conditional write of `IncrementFailedAttempts`. -/
def increment (failedAttempts : ℕ) (lockedUntil : Option ℤ) (now : ℤ) : Account :=
  let next := failedAttempts + 1
  if maxFailAttempts ≤ next then
    { s with row := { s.row with failedAttempts := next, lockedUntil := some (now + lockoutDuration) }, wrong := [] }
  else { s with row := { s.row with failedAttempts := next, lockedUntil } }

/-- `updateUsageState` after a success. -/
def reset : Account :=
  { s with
    row := { s.row with failedAttempts := 0, lockedUntil := none, lastUsedAt := some s.clock }
    wrong := [] }

end Account

/-- The classification of the input. -/
def classify (lib : CodeLibrary) (t : TwoFA) (code : String) : Phase :=
  match validateNumericCode (trimSpace code) with
  | some numeric => .totp t numeric
  | none =>
    if validateBackupCode lib.toUpper (trimSpace code) then .backup t (trimSpace code) else .failing 0

/-- The unused code that matches. -/
def matchingCode (lib : CodeLibrary) (codes : List TwoFABackupCode) (code : String) : Option TwoFABackupCode :=
  codes.find? fun bc => !bc.isUsed && lib.validatePasswordAndHash (normalizeBackupCode lib.toUpper code) bc.codeHash

/-- The next statement of a call. -/
def proceedAt (lib : CodeLibrary) (s : Account) (i : ℕ) : Phase → Account
  | .loaded t code =>
    if ¬t.isEnabled then s.goto i (.returned .notEnabled)
    else if t.isLocked s.clock then s.goto i (.returned .verificationLocked)
    else s.goto i (classify lib t code)
  | .totp t code =>
    if t.isLocked s.clock then s.goto i (.returned .verificationLocked)
    else if lib.validateTOTP t.secret code s.clock then s.goto i (.resetting t)
    else s.miss i
  | .backup t code =>
    if t.isLocked s.clock then s.goto i (.returned .verificationLocked)
    else if ¬validateBackupCode lib.toUpper code then s.goto i (.returned .codeInvalid)
    else
      match matchingCode lib s.codes code with
      | some bc => s.goto i (.marking t bc.id)
      | none => s.miss i
  | .marking t codeId =>
    if s.codes.any fun code => decide (code.id = codeId) && !code.isUsed then (s.mark codeId).goto i (.resetting t)
    else s.goto i (.failing 0)
  | .failing retry =>
    if s.row.isLocked s.clock then s.goto i (.returned .verificationFailed)
    else s.goto i (.counting retry s.row.failedAttempts s.row.lockedUntil s.clock)
  | .counting retry failedAttempts lockedUntil now =>
    if s.row.failedAttempts = failedAttempts ∧ ¬s.row.isLocked now then
      (s.increment failedAttempts lockedUntil now).goto i (.returned .verificationFailed)
    else if retry + 1 < maxUpdateRetries then s.goto i (.failing (retry + 1))
    else s.goto i (.returned .conflict)
  | .resetting _ => s.reset.goto i (.returned .accepted)
  | .returned _ => s

def step (lib : CodeLibrary) (s : Account) : Action → Account
  | .load code => { s with calls := s.calls ++ [.loaded s.row code] }
  | .proceed i =>
    match s.calls[i]? with
    | some phase => proceedAt lib s i phase
    | none => s
  | .wait elapsed => { s with clock := s.clock + elapsed }

/-- A call that gets here compares a code with the secret or with the backup codes, on this copy of the row. -/
def Phase.comparing (lib : CodeLibrary) (now : ℤ) : Phase → Option TwoFA
  | .totp t _ => if t.isLocked now then none else some t
  | .backup t code => if t.isLocked now ∨ ¬validateBackupCode lib.toUpper code then none else some t
  | _ => none

/-- The comparison that a step makes. -/
def comparing (lib : CodeLibrary) (s : Account) : Action → Option TwoFA
  | .proceed i => s.calls[i]? >>= Phase.comparing lib s.clock
  | _ => none

end Vancine.TwoFactor
