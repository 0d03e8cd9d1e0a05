import Vancine.AuthFlows.Store

/-!
# Security proofs and the system of all calls

A security proof is a signed text with the token of a flow in it. `ConsumeOperationProof` checks the text and consumes
the flow. The checks that look at sessions and policies elsewhere are inputs of a call: they can only refuse.

The system keeps a record of what its calls returned: the flows consumed, the assertions accepted and the proofs that
authorized an operation, the latest first.
-/

namespace Vancine.AuthFlows

open Lib

/-! ## Proofs -/

structure AuthSessionIdentity where
  userID : ℤ
  sessionID : String
  userAuthVersion : ℤ
  sessionVersion : ℤ
  deriving DecidableEq

structure VerificationBinding where
  scope : String
  contextHash : String

/-- The claims in a signed text; `subject` is the number that `strconv.Atoi` reads there. -/
structure AuthClaims where
  tokenUse : String
  id : String
  subject : Option ℤ
  sessionID : String
  userAuthVersion : ℤ
  sessionVersion : ℤ
  method : String
  scopes : List String
  contextHash : String
  issuedAt : Option ℤ
  notBefore : Option ℤ

inductive ProofError
  | tokenInvalid
  | tokenExpired
  | scope
  | context
  | consumed
  | other (message : String)

structure AuthFlowAuthorization where
  identity : AuthSessionIdentity
  proofID : ℕ
  scope : String
  contextHash : String
  method : String
  deriving DecidableEq

def authFlowPurposeSecurityProof : String := "security_proof"

def securityProofTokenUse : String := "security_proof"

/-- One call of `ConsumeOperationProof`. `binding` is what `BindVerificationOperation` makes of the operation,
`lifetime` what the library says of the times, the issuer and the audience of the text, `session` and `method` what
`ValidateLoginSession` and `RequireVerificationMethod` say, and `validate` is `ValidateAuthSessionWithTx`. -/
structure ProofUse (ρ : Type) where
  raw : String
  identity : AuthSessionIdentity
  binding : Except ProofError VerificationBinding
  lifetime : Except ProofError Unit := .ok ()
  session : Except ProofError Unit := .ok ()
  method : String → Except ProofError Unit := fun _ => .ok ()
  validate : ρ → Except AuthFlowError Unit := fun _ => .ok ()
  now : ℤ
  checked : ℤ
  acted : ℤ

section Calls

/- The HMAC of tokens, and the claims of a text that carries the server's signature. -/
variable (authFlowTokenHash : String → String) (signed : String → Option AuthClaims) {π ρ : Type}

def parseAuthClaims (lifetime : Except ProofError Unit) (raw expectedUse : String) : Except ProofError AuthClaims :=
  let raw := trimSpace raw
  if raw = "" then .error .tokenInvalid
  else
    match signed raw with
    | none => .error .tokenInvalid
    | some claims => do
      lifetime
      if claims.tokenUse ≠ expectedUse ∨ claims.id = "" ∨ claims.issuedAt = none ∨ claims.notBefore = none then
        .error .tokenInvalid
      else .ok claims

def verifySecurityProof (lifetime : Except ProofError Unit) (raw : String) (identity : AuthSessionIdentity)
    (binding : VerificationBinding) : Except ProofError AuthClaims := do
  let claims ← parseAuthClaims signed lifetime raw securityProofTokenUse
  if claims.subject ≠ some identity.userID ∨ claims.sessionID ≠ identity.sessionID ∨
      claims.userAuthVersion ≠ identity.userAuthVersion ∨ claims.sessionVersion ≠ identity.sessionVersion then
    .error .tokenInvalid
  else if claims.scopes ≠ [binding.scope] then .error .scope
  else if claims.contextHash = "" then .error .tokenInvalid
  else if claims.contextHash ≠ binding.contextHash then .error .context
  else .ok claims

/-- The flow of a proof belongs to the session. -/
def ProofUse.matching (use : ProofUse ρ) : AuthFlowMatch where
  purpose := authFlowPurposeSecurityProof
  userId := use.identity.userID
  sessionId := use.identity.sessionID

/-- The consumption that a proof asks for. -/
def ProofUse.consumption (use : ProofUse ρ) (claims : AuthClaims) : Consumption π ρ where
  token := claims.id
  matching := use.matching
  action := fun _ rest => ([], (use.validate rest).map fun _ => rest)
  now := use.now
  checked := use.checked
  acted := use.acted

/-- The checks before the flow is consumed. -/
def ProofUse.claims (use : ProofUse ρ) : Except ProofError (VerificationBinding × AuthClaims) := do
  let binding ← use.binding
  let claims ← verifySecurityProof signed use.lifetime use.raw use.identity binding
  use.session
  use.method claims.method
  return (binding, claims)

def AuthFlowError.proofError : AuthFlowError → ProofError
  | .consumed => .consumed
  | .expired => .tokenExpired
  | .invalid => .tokenInvalid
  | .failed message => .other message

def consumeOperationProof (db : Database π ρ) (use : ProofUse ρ) :
    Except ProofError (AuthFlowAuthorization × AuthFlow π × Database π ρ) := do
  let (binding, claims) ← use.claims signed
  let (flow, db) ← (consumeAuthFlowWithAction authFlowTokenHash db (use.consumption claims)).mapError
    AuthFlowError.proofError
  let authorization := {
    identity := use.identity
    proofID := flow.id
    scope := binding.scope
    contextHash := binding.contextHash
    method := claims.method }
  return (authorization, flow, db)

/-! ## The system -/

/-- A flow that a call returned. -/
structure Returned (π : Type) where
  flow : AuthFlow π
  matching : AuthFlowMatch
  checked : ℤ

structure System (π ρ : Type) extends Database π ρ where
  clock : ℤ
  consumed : List (Returned π) := []
  accepted : List (ℤ × Assertion) := []
  authorized : List (String × AuthFlowAuthorization) := []

inductive Call (π ρ : Type)
  | consume (c : Consumption π ρ)
  | prove (use : ProofUse ρ)
  | claim (now : ℤ) (a : Assertion)
  | deleteExpired (now : ℤ)

/-- The times that a call reads, in order. -/
def Call.times : Call π ρ → List ℤ
  | .consume c => [c.now, c.checked, c.acted]
  | .prove use => [use.now, use.checked, use.acted]
  | .claim now _ => [now]
  | .deleteExpired now => [now]

/-- Time does not go backwards. -/
def Chronological (s : System π ρ) (call : Call π ρ) : Prop := (s.clock :: call.times).Pairwise (· ≤ ·)

instance (s : System π ρ) (call : Call π ρ) : Decidable (Chronological s call) :=
  inferInstanceAs (Decidable (List.Pairwise _ _))

namespace System

/-- A call that returned an error. -/
def refuse (s : System π ρ) (now : ℤ) : System π ρ := { s with clock := now }

/-- A consumption that was committed. -/
def commit (s : System π ρ) (c : Consumption π ρ) (flow : AuthFlow π) (db : Database π ρ) : System π ρ where
  toDatabase := db
  clock := c.acted
  consumed := ⟨flow, c.matching, c.checked⟩ :: s.consumed
  accepted := ((c.action flow s.rest).1.map fun a => (c.acted, a)).reverse ++ s.accepted
  authorized := s.authorized

/-- A proof that was accepted. -/
def authorize (s : System π ρ) (use : ProofUse ρ) (authorization : AuthFlowAuthorization) (flow : AuthFlow π)
    (db : Database π ρ) : System π ρ where
  toDatabase := db
  clock := use.acted
  consumed := ⟨flow, use.matching, use.checked⟩ :: s.consumed
  accepted := s.accepted
  authorized := (use.raw, authorization) :: s.authorized

end System

def step (s : System π ρ) : Call π ρ → System π ρ
  | .consume c =>
    match consumeAuthFlowWithAction authFlowTokenHash s.toDatabase c with
    | .ok (flow, db) => s.commit c flow db
    | .error _ => s.refuse c.acted
  | .prove use =>
    match consumeOperationProof authFlowTokenHash signed s.toDatabase use with
    | .ok (authorization, flow, db) => s.authorize use authorization flow db
    | .error _ => s.refuse use.acted
  | .claim now a =>
    match claimExternalAuthAssertionWithTx authFlowTokenHash s.flows now a with
    | .ok flows => { s with flows, clock := now, accepted := (now, a) :: s.accepted }
    | .error _ => s.refuse now
  | .deleteExpired now => { s with flows := deleteExpiredAuthFlows s.flows now, clock := now }

/-- The call returns an error. -/
def Refused (s : System π ρ) : Call π ρ → Prop
  | .consume c => ∃ e, consumeAuthFlowWithAction authFlowTokenHash s.toDatabase c = .error e
  | .prove use => ∃ e, consumeOperationProof authFlowTokenHash signed s.toDatabase use = .error e
  | .claim now a => ∃ e, claimExternalAuthAssertionWithTx authFlowTokenHash s.flows now a = .error e
  | .deleteExpired _ => False

end Calls

end Vancine.AuthFlows
