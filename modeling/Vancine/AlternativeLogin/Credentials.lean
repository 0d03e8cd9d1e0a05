import Vancine.Lib.Text

/-!
# Login methods

The credentials of one account that count as an independent way to log in: a password hash, a passkey, the column of a
built-in provider, or a binding to a custom provider.
-/

namespace Vancine.AlternativeLogin

open Lib

/-- The live row of the account. -/
structure User where
  password : String := ""
  githubId : String := ""
  discordId : String := ""
  oidcId : String := ""
  linuxDOId : String := ""
  googleSub : String := ""
  deriving DecidableEq

structure PasskeyCredential where
  credentialID : String
  publicKey : String

structure UserOAuthBinding where
  providerId : ℕ
  providerUserId : String
  deriving DecidableEq

structure CustomOAuthProvider where
  id : ℕ
  name : String
  slug : String
  enabled : Bool
  clientId : String
  authorizationEndpoint : String
  tokenEndpoint : String
  userInfoEndpoint : String
  accessPolicy : String := ""

structure AccessConditionItem where
  field : String
  op : String
  /-- The value is an array. -/
  isArray : Bool

inductive AccessPolicyPayload
  | mk (logic : String) (conditions : List AccessConditionItem) (groups : List AccessPolicyPayload)

/-- `bcrypt.Cost` succeeds, `base64` decoding, `webauthncose.ParsePublicKey` succeeds, `strings.ToLower`, and the
decoding of an access policy. -/
structure CredentialLibrary where
  bcryptCost : String → Bool
  decodeString : String → Option (List UInt8)
  parsePublicKey : List UInt8 → Bool
  toLower : String → String
  unmarshalAccessPolicy : String → Option AccessPolicyPayload

structure AlternativeLoginPolicy where
  passwordLoginEnabled : Bool
  passkeyFeatureEnabled : Bool
  enabledBuiltInProviders : List (String × Bool)
  registeredEnabledCustomProviderIds : List ℕ

section Checks

variable (lib : CredentialLibrary)

def builtInOAuthBindingValue (user : User) (providerName : String) : String :=
  if providerName = "github" then user.githubId
  else if providerName = "discord" then user.discordId
  else if providerName = "oidc" then user.oidcId
  else if providerName = "linuxdo" then user.linuxDOId
  else ""

def hasUsablePasswordHash (stored : String) : Bool := trimSpace stored ≠ "" && lib.bcryptCost stored

/-- The decoded bytes, unless there are none. -/
def decodeNonEmpty (text : String) : Option (List UInt8) := (lib.decodeString text).filter fun bytes => !bytes.isEmpty

/-- The check of `hasValidPasskeyWithTx`, on the row that it read. -/
def hasValidPasskey (credential : PasskeyCredential) : Bool :=
  (decodeNonEmpty lib credential.credentialID).isSome &&
    (decodeNonEmpty lib credential.publicKey).any lib.parsePublicKey

def supportedAccessPolicyOps : List String :=
  ["eq", "ne", "gt", "gte", "lt", "lte", "in", "not_in", "contains", "not_contains", "exists", "not_exists"]

def validAccessCondition (condition : AccessConditionItem) : Bool :=
  let op := lib.toLower (trimSpace condition.op)
  trimSpace condition.field ≠ "" && supportedAccessPolicyOps.contains op &&
    (!(op = "in" || op = "not_in") || condition.isArray)

mutual

def validateAccessPolicyPayload : AccessPolicyPayload → Bool
  | .mk logic conditions groups =>
    ["", "and", "or"].contains (lib.toLower (trimSpace logic)) && !(conditions.isEmpty && groups.isEmpty) &&
      conditions.all (validAccessCondition lib) && validateAccessPolicyGroups groups

def validateAccessPolicyGroups : List AccessPolicyPayload → Bool
  | [] => true
  | group :: groups => validateAccessPolicyPayload group && validateAccessPolicyGroups groups

end

/-- `validateCustomOAuthProvider` finds nothing wrong. -/
def validateCustomOAuthProvider (provider : CustomOAuthProvider) : Bool :=
  let slug := lib.toLower provider.slug
  provider.name ≠ "" && provider.slug ≠ "" &&
    slug.toList.all (fun c => ('a' ≤ c && c ≤ 'z') || ('0' ≤ c && c ≤ '9') || c = '-') && slug ≠ "telegram" &&
    provider.clientId ≠ "" && provider.authorizationEndpoint ≠ "" && provider.tokenEndpoint ≠ "" &&
    provider.userInfoEndpoint ≠ "" &&
    (trimSpace provider.accessPolicy = "" ||
      (lib.unmarshalAccessPolicy provider.accessPolicy).any (validateAccessPolicyPayload lib))

end Checks

/-- The rows of the account, and the table of custom providers. A user has at most one binding for a provider. -/
structure Database where
  userId : ℕ
  user : Option User
  googleClaim : Option String
  passkey : Option PasskeyCredential
  bindings : List UserOAuthBinding
  providers : List CustomOAuthProvider

/-- The row of an enabled provider. -/
def Database.enabledProvider (db : Database) (providerId : ℕ) : Option CustomOAuthProvider :=
  db.providers.find? fun provider => decide (provider.id = providerId) && provider.enabled

/-- The password counts. -/
def passwordCounts (lib : CredentialLibrary) (policy : AlternativeLoginPolicy) (user : User) : Bool :=
  policy.passwordLoginEnabled && hasUsablePasswordHash lib user.password

/-- A built-in provider counts. -/
def builtInCounts (policy : AlternativeLoginPolicy) (user : User) : Bool :=
  policy.enabledBuiltInProviders.any fun (providerName, enabled) =>
    enabled && trimSpace (builtInOAuthBindingValue user providerName) ≠ ""

/-- A binding that is looked at: it is not blank, and its provider is enabled at run time. -/
def eligible (policy : AlternativeLoginPolicy) (binding : UserOAuthBinding) : Bool :=
  trimSpace binding.providerUserId ≠ "" && policy.registeredEnabledCustomProviderIds.contains binding.providerId

/-- The provider of the binding is enabled in the table, with a valid configuration. -/
def providerCounts (lib : CredentialLibrary) (db : Database) (binding : UserOAuthBinding) : Bool :=
  (db.enabledProvider binding.providerId).any (validateCustomOAuthProvider lib)

/-- A login method that counts, in a state of the tables. -/
def HasLogin (lib : CredentialLibrary) (policy : AlternativeLoginPolicy) (db : Database) : Prop :=
  ∃ user, db.user = some user ∧
    (passwordCounts lib policy user = true ∨
      (policy.passkeyFeatureEnabled = true ∧ db.passkey.any (hasValidPasskey lib) = true) ∨
      builtInCounts policy user = true ∨
      ∃ binding ∈ db.bindings, eligible policy binding = true ∧ providerCounts lib db binding = true)

end Vancine.AlternativeLogin
