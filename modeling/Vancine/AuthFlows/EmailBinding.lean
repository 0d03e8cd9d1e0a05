import Vancine.AuthFlows.Proofs
import Vancine.TwoFactor.Codes

/-!
# Email bindings

A flow with the purpose `email_binding` carries its state as its payload: the address to bind, the hashes of the codes
that were sent last, and how many wrong submissions were counted. Resending rewrites the hashes, a wrong submission the
counter, and a completion writes the address of the user and consumes the flow. Every call is one transaction.
-/

namespace Vancine.AuthFlows

open Lib TwoFactor

/-! ## Accounts -/

structure User where
  id : ℤ
  status : ℤ := 1
  authVersion : ℤ := 1
  email : String := ""
  deleted : Bool := false

def userStatusEnabled : ℤ := 1

structure UserSession where
  sid : String
  userID : ℤ
  version : ℤ
  userAuthVersion : ℤ
  status : String
  expiresAt : ℤ
  revokedAt : ℤ := 0

def userSessionStatusActive : String := "active"

structure UserTable where
  rows : List User
  nodup_id : (rows.map User.id).Nodup

namespace UserTable

/-- A lookup that does not see deleted rows. -/
def first (users : UserTable) (id : ℤ) : Option User :=
  users.rows.find? fun user => decide (user.id = id) && !user.deleted

/-- An `UPDATE` of one user that keeps the key. -/
def update (users : UserTable) (id : ℤ) (f : User → User) (keeps : ∀ user, (f user).id = user.id) : UserTable where
  rows := Table.updateWhere (fun user => decide (user.id = id) && !user.deleted) f users.rows
  nodup_id := by
    rw [Table.map_updateWhere keeps]
    exact users.nodup_id

def setEmail (users : UserTable) (id : ℤ) (email : String) : UserTable :=
  users.update id (fun user => { user with email }) fun _ => rfl

end UserTable

/-! ## State -/

structure EmailBindingState where
  authorization : Option AuthFlowAuthorization
  currentEmail : String
  email : String
  newCodeHash : String
  oldCodeHash : String := ""
  failedAttempts : ℕ := 0
  resendAt : ℤ := 0
  deriving DecidableEq

abbrev EmailBindingFlow := AuthFlow EmailBindingState

structure BindingDatabase where
  flows : AuthFlowTable EmailBindingState
  users : UserTable
  sessions : List UserSession

inductive EmailBindingError
  | invalid
  | expired
  | consumed
  | sessionInactive
  | notFound
  | accountBindingChanged
  | codeInvalid
  | locked
  | resendWait
  | emailTaken

def emailBindingMaxAttempts : ℕ := 5

/-- `EmailBindingResendDelay`, in nanoseconds. -/
def emailBindingResendDelay : ℤ := 60 * 10 ^ 9

def authFlowPurposeEmailBinding : String := "email_binding"

/-- `time.Time.Unix`. -/
def unix (now : ℤ) : ℤ := now.ediv (10 ^ 9)

/-! ## Transactions -/

/-- What is used from elsewhere: the HMAC of tokens, `strings.ToLower`, `LOWER` of the database, and the comparison of a
code with a salted hash. -/
structure EmailLibrary where
  authFlowTokenHash : String → String
  toLower : String → String
  lower : String → String
  validatePasswordAndHash : String → String → Bool

section Transactions

variable (lib : EmailLibrary)

def normalizeEmail (email : String) : String := lib.toLower (trimSpace email)

def validateAuthSessionWithTx (db : BindingDatabase) (identity : AuthSessionIdentity) (now : ℤ) :
    Except EmailBindingError Unit :=
  if identity.userID ≤ 0 ∨ identity.sessionID = "" ∨ identity.userAuthVersion ≤ 0 ∨ identity.sessionVersion ≤ 0 then
    .error .sessionInactive
  else
    match db.users.first identity.userID with
    | none => .error .notFound
    | some user =>
      if user.status ≠ userStatusEnabled ∨ user.authVersion ≠ identity.userAuthVersion then .error .sessionInactive
      else
        match db.sessions.find? fun session =>
          decide (session.sid = identity.sessionID) && decide (session.userID = identity.userID) with
        | none => .error .notFound
        | some session =>
          if session.status ≠ userSessionStatusActive ∨ session.revokedAt ≠ 0 ∨ session.expiresAt ≤ unix now ∨
              session.userAuthVersion ≠ identity.userAuthVersion ∨ session.version ≠ identity.sessionVersion then
            .error .sessionInactive
          else .ok ()

/-- The flow was made for this session, and its content is complete. -/
def EmailBindingState.complete (state : EmailBindingState) (identity : AuthSessionIdentity) : Bool :=
  (match state.authorization with
    | none => false
    | some authorization => 0 < authorization.proofID && authorization.identity = identity &&
        authorization.scope = "account.binding.bind" && authorization.contextHash ≠ "") &&
  state.email ≠ "" && state.email = normalizeEmail lib state.email && state.newCodeHash ≠ ""

def validateEmailBindingAccountWithTx (db : BindingDatabase) (identity : AuthSessionIdentity)
    (state : EmailBindingState) (now : ℤ) : Except EmailBindingError Unit :=
  if ¬state.complete lib identity then .error .invalid
  else do
    validateAuthSessionWithTx db identity now
    match db.users.first identity.userID with
    | none => .error .notFound
    | some user =>
      if normalizeEmail lib user.email ≠ state.currentEmail ∨ state.currentEmail = state.email then
        .error .accountBindingChanged
      else .ok ()

def emailBindingMatch (identity : AuthSessionIdentity) : AuthFlowMatch where
  purpose := authFlowPurposeEmailBinding
  userId := identity.userID
  sessionId := identity.sessionID

def lockEmailBindingWithTx (db : BindingDatabase) (identity : AuthSessionIdentity) (token : String) (now : ℤ) :
    Except EmailBindingError (EmailBindingFlow × EmailBindingState) :=
  match db.flows.rows.find? (applyAuthFlowMatch (lib.authFlowTokenHash token) (emailBindingMatch identity)) with
  | none => .error .invalid
  | some flow =>
    if flow.consumedAt ≠ none then .error .consumed
    else if ¬now < flow.expiresAt then .error .expired
    else
      match flow.payload with
      | none => .error .invalid
      | some state => do
        validateEmailBindingAccountWithTx lib db identity state now
        if emailBindingMaxAttempts ≤ state.failedAttempts then .error .locked else .ok (flow, state)

/-- `Update("payload", …)` of a flow. -/
def setPayload (flows : AuthFlowTable EmailBindingState) (id : ℕ) (state : EmailBindingState) :
    AuthFlowTable EmailBindingState :=
  flows.update (fun row => decide (row.id = id)) (fun row => { row with payload := some state }) fun _ => ⟨rfl, rfl⟩

/-- `Update("consumed_at", …)` of a flow. -/
def setConsumed (flows : AuthFlowTable EmailBindingState) (id : ℕ) (now : ℤ) : AuthFlowTable EmailBindingState :=
  flows.consume (fun row => decide (row.id = id)) now

/-- The hashes of the codes that are sent now. -/
def EmailBindingState.resend (state : EmailBindingState) (newCodeHash oldCodeHash : String) (now : ℤ) :
    EmailBindingState :=
  { state with newCodeHash, oldCodeHash, resendAt := unix (now + emailBindingResendDelay) }

def resendEmailBinding (db : BindingDatabase) (identity : AuthSessionIdentity) (token newCodeHash oldCodeHash : String)
    (now : ℤ) : Except EmailBindingError (EmailBindingFlow × EmailBindingState × BindingDatabase) := do
  let (flow, state) ← lockEmailBindingWithTx lib db identity token now
  if unix now < state.resendAt then .error .resendWait
  else if newCodeHash = "" ∨ ¬(state.oldCodeHash ≠ "" ↔ oldCodeHash ≠ "") then .error .invalid
  else
    let state := state.resend newCodeHash oldCodeHash now
    return (flow, state, { db with flows := setPayload db.flows flow.id state })

/-- The codes are the ones whose hashes the state has. -/
def EmailBindingState.accepts (state : EmailBindingState) (newCode oldCode : String) : Bool :=
  (match validateNumericCode newCode with
    | some code => lib.validatePasswordAndHash code state.newCodeHash
    | none => false) &&
  (state.oldCodeHash = "" ||
    match validateNumericCode oldCode with
    | some code => lib.validatePasswordAndHash code state.oldCodeHash
    | none => false)

def EmailBindingState.fail (state : EmailBindingState) : EmailBindingState :=
  { state with failedAttempts := state.failedAttempts + 1 }

def ensureEmailAvailableWithTx (users : UserTable) (email : String) (excludeUserID : ℤ) :
    Except EmailBindingError Unit :=
  let email := normalizeEmail lib email
  if email = "" then .ok ()
  else if users.rows.any fun user =>
      decide (lib.lower user.email = email) && (decide (excludeUserID ≤ 0) || decide (user.id ≠ excludeUserID)) then
    .error .emailTaken
  else .ok ()

/-- A submission that was committed: its flow, the state it was compared with, the error that is returned, and the
tables. -/
structure Submission where
  flow : EmailBindingFlow
  state : EmailBindingState
  error : Option EmailBindingError
  db : BindingDatabase

def completeEmailBinding (db : BindingDatabase) (identity : AuthSessionIdentity)
    (token email newCode oldCode : String) (now : ℤ) : Except EmailBindingError Submission :=
  if email = "" ∨ email ≠ normalizeEmail lib email then .error .invalid
  else do
    let (flow, state) ← lockEmailBindingWithTx lib db identity token now
    if state.email ≠ email then .error .invalid
    else if ¬state.accepts lib newCode oldCode then
      let error := if emailBindingMaxAttempts ≤ state.fail.failedAttempts then .locked else .codeInvalid
      return { flow, state, error := some error, db := { db with flows := setPayload db.flows flow.id state.fail } }
    else do
      ensureEmailAvailableWithTx lib db.users state.email identity.userID
      return {
        flow
        state
        error := none
        db := { db with
          users := db.users.setEmail identity.userID state.email
          flows := setConsumed db.flows flow.id now } }

/-- `BindEmailToUser`; an empty address is not written. -/
def bindEmailToUser (db : BindingDatabase) (userID : ℤ) (email : String) :
    Except EmailBindingError BindingDatabase := do
  let email := normalizeEmail lib email
  ensureEmailAvailableWithTx lib db.users email userID
  match db.users.first userID with
  | none => .error .notFound
  | some _ => return if email = "" then db else { db with users := db.users.setEmail userID email }

end Transactions

/-! ## The system -/

/-- A submission whose codes were compared. -/
structure Evaluated where
  flow : ℕ
  identity : AuthSessionIdentity
  state : EmailBindingState
  newCode : String
  oldCode : String
  completed : Bool

/-- The tables, the hashes that were sent last for each flow, and the submissions evaluated, the latest first. -/
structure BindingSystem extends BindingDatabase where
  sent : ℕ → Option (String × String)
  evaluated : List Evaluated := []

inductive BindingAction
  | resend (identity : AuthSessionIdentity) (token newCodeHash oldCodeHash : String) (now : ℤ)
  | complete (identity : AuthSessionIdentity) (token email newCode oldCode : String) (now : ℤ)
  | bind (userID : ℤ) (email : String)
  | account (userID status authVersion : ℤ)
  | session (sessions : List UserSession)

/-- The columns of an account that sign-ins look at. -/
def UserTable.setAccount (users : UserTable) (id status authVersion : ℤ) : UserTable :=
  users.update id (fun user => { user with status, authVersion }) fun _ => rfl

def bindingStep (lib : EmailLibrary) (s : BindingSystem) : BindingAction → BindingSystem
  | .resend identity token newCodeHash oldCodeHash now =>
    match resendEmailBinding lib s.toBindingDatabase identity token newCodeHash oldCodeHash now with
    | .ok (flow, state, db) =>
      { s with
        toBindingDatabase := db
        sent := Function.update s.sent flow.id (some (state.newCodeHash, state.oldCodeHash)) }
    | .error _ => s
  | .complete identity token email newCode oldCode now =>
    match completeEmailBinding lib s.toBindingDatabase identity token email newCode oldCode now with
    | .ok submission =>
      { s with
        toBindingDatabase := submission.db
        evaluated := {
          flow := submission.flow.id
          identity
          state := submission.state
          newCode
          oldCode
          completed := submission.error.isNone } :: s.evaluated }
    | .error _ => s
  | .bind userID email =>
    match bindEmailToUser lib s.toBindingDatabase userID email with
    | .ok db => { s with toBindingDatabase := db }
    | .error _ => s
  | .account userID status authVersion => { s with users := s.users.setAccount userID status authVersion }
  | .session sessions => { s with sessions }

end Vancine.AuthFlows
