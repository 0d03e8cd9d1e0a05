import Mathlib.Algebra.Order.Group.Int
import Vancine.Lib.Run

/-!
# Edits of a token and its consumption

`UpdateToken` and `DisableModelLimits` read the row of a token, change fields of the copy and write a list of columns
back, `remain_quota` among them. Requests that are charged to the token change `remain_quota` and `used_quota` by one
statement each, relative to the row. Batch updates are off.

The quota that a copy carries is right as long as nothing was consumed since the row was read. What the cache answers
to a reservation is part of the action.
-/

namespace Vancine.Tokens

open Lib

/-! ## Rows -/

inductive TokenStatus
  | enabled | disabled | expired | exhausted
  | other (value : ℤ)
  deriving DecidableEq

structure Token where
  id : ℕ
  userId : ℕ
  name : String
  status : TokenStatus
  accessedTime : ℤ
  /-- `-1` when the token does not expire. -/
  expiredTime : ℤ
  remainQuota : ℤ
  unlimitedQuota : Bool
  modelLimitsEnabled : Bool
  modelLimits : String
  allowIps : Option String
  usedQuota : ℤ
  group : String
  crossGroupRetry : Bool
  autoGroups : String
  deriving DecidableEq

/-- `Token.Update`: the columns that are written. -/
def Token.update (token row : Token) : Token :=
  { row with
    name := token.name
    status := token.status
    expiredTime := token.expiredTime
    remainQuota := token.remainQuota
    unlimitedQuota := token.unlimitedQuota
    modelLimitsEnabled := token.modelLimitsEnabled
    modelLimits := token.modelLimits
    allowIps := token.allowIps
    group := token.group
    crossGroupRetry := token.crossGroupRetry
    autoGroups := token.autoGroups }

/-! ## Edits -/

inductive TokenError
  | tokenNameTooLong
  | tokenQuotaNegative
  | tokenQuotaExceedMax (max : ℤ)
  | idEmpty
  | recordNotFound
  | tokenExpiredCannotEnable
  | tokenExhaustedCannotEnable
  | tokenAutoGroupsTooMany (max : ℕ)
  | tokenAutoGroupsDuplicate (group : String)
  | tokenAutoGroupsInvalid (group : String)
  | negativeQuota
  | database

/-- The settings that an edit is checked against. -/
structure TokenSettings where
  maxTokenQuota : ℤ
  maxTokenAutoGroups : ℕ
  /-- None when the group of the user cannot be read. -/
  isUserSelectableGroup : Option (String → Bool)
  marshal : List String → String

structure TokenRequest where
  token : Token
  /-- The groups, when the request has the field. -/
  autoGroups : Option (List String)
  deriving DecidableEq

/-- The checks of `setTokenAutoGroups` on the groups, in their order. -/
def checkAutoGroups (selectable : String → Bool) : List String → List String → Except TokenError Unit
  | _, [] => .ok ()
  | seen, group :: groups =>
    if group ∈ seen then .error (.tokenAutoGroupsDuplicate group)
    else if !selectable group then .error (.tokenAutoGroupsInvalid group)
    else checkAutoGroups selectable (group :: seen) groups

def setTokenAutoGroups (settings : TokenSettings) (groups : List String) (token : Token) : Except TokenError Token :=
  if groups = [] then .ok { token with autoGroups := "" }
  else if settings.maxTokenAutoGroups < groups.length then
    .error (.tokenAutoGroupsTooMany settings.maxTokenAutoGroups)
  else
    match settings.isUserSelectableGroup with
    | none => .error .database
    | some selectable => do
      checkAutoGroups selectable [] groups
      pure { token with autoGroups := settings.marshal groups }

/-- What `UpdateToken` checks before it reads the row. -/
def checkRequest (settings : TokenSettings) (token : Token) : Except TokenError Unit :=
  if 50 < token.name.utf8ByteSize then .error .tokenNameTooLong
  else if token.unlimitedQuota then .ok ()
  else if token.remainQuota < 0 then .error .tokenQuotaNegative
  else if settings.maxTokenQuota < token.remainQuota then .error (.tokenQuotaExceedMax settings.maxTokenQuota)
  else .ok ()

/-- A token is enabled only when it is neither past its time nor used up. -/
def checkEnable (now : ℤ) (token cleanToken : Token) : Except TokenError Unit :=
  if token.status ≠ .enabled then .ok ()
  else if cleanToken.status = .expired ∧ cleanToken.expiredTime ≤ now ∧ cleanToken.expiredTime ≠ -1 then
    .error .tokenExpiredCannotEnable
  else if cleanToken.status = .exhausted ∧ cleanToken.remainQuota ≤ 0 ∧ ¬cleanToken.unlimitedQuota then
    .error .tokenExhaustedCannotEnable
  else .ok ()

/-- The fields that a request changes on the copy of the row. -/
def editFields (settings : TokenSettings) (statusOnly : Bool) (request : TokenRequest) (cleanToken : Token) :
    Except TokenError Token :=
  let token := request.token
  if statusOnly then .ok { cleanToken with status := token.status }
  else
    let cleanToken := { cleanToken with
      name := token.name
      expiredTime := token.expiredTime
      remainQuota := token.remainQuota
      unlimitedQuota := token.unlimitedQuota
      modelLimitsEnabled := token.modelLimitsEnabled
      modelLimits := token.modelLimits
      allowIps := token.allowIps
      group := token.group
      crossGroupRetry := token.crossGroupRetry }
    if token.group ≠ "auto" then .ok { cleanToken with crossGroupRetry := false, autoGroups := "" }
    else
      match request.autoGroups with
      | none => .ok cleanToken
      | some groups => setTokenAutoGroups settings groups cleanToken

/-- `UpdateToken` up to its write: the copy of the row `cleanToken` that is written back. -/
def updateToken (settings : TokenSettings) (statusOnly : Bool) (now : ℤ) (userId : ℕ) (request : TokenRequest)
    (cleanToken : Token) : Except TokenError Token := do
  checkRequest settings request.token
  if request.token.id = 0 ∨ userId = 0 then .error .idEmpty
  else if request.token.id ≠ cleanToken.id ∨ userId ≠ cleanToken.userId then .error .recordNotFound
  else
    checkEnable now request.token cleanToken
    editFields settings statusOnly request cleanToken

/-- `DisableModelLimits` up to its write. -/
def disableModelLimits (token : Token) : Token := { token with modelLimitsEnabled := false, modelLimits := "" }

/-! ## Consumption -/

/-- What every statement does to the two quota columns. -/
def Token.consume (now quota : ℤ) (row : Token) : Token :=
  { row with remainQuota := row.remainQuota - quota, usedQuota := row.usedQuota + quota, accessedTime := now }

def increaseTokenQuota (fault : Bool) (now quota : ℤ) (row : Token) : Except TokenError Token :=
  if quota < 0 then .error .negativeQuota
  else if fault then .error .database
  else .ok (row.consume now (-quota))

def decreaseTokenQuota (fault : Bool) (now quota : ℤ) (row : Token) : Except TokenError Token :=
  if quota < 0 then .error .negativeQuota
  else if fault then .error .database
  else .ok (row.consume now quota)

/-- None when the row has too little. -/
def reserveTokenQuotaDB (fault : Bool) (now quota : ℤ) (row : Token) : Except TokenError (Option Token) :=
  if fault then .error .database
  else if quota ≤ row.remainQuota then .ok (some (row.consume now quota))
  else .ok none

def persistTokenQuotaDelta (fault : Bool) (now delta : ℤ) (row : Token) : Except TokenError Token :=
  if fault then .error .database else .ok (row.consume now (-delta))

/-- How the cache answers a reservation, after it was filled if need be; without Redis it has no answer. -/
inductive CacheQuotaResult
  | ok | insufficient | miss
  deriving DecidableEq

def tryReserveTokenQuota (cache : CacheQuotaResult) (fault : Bool) (now quota : ℤ) (unlimited : Bool) (row : Token) :
    Except TokenError (Option Token) :=
  if quota < 0 then .error .negativeQuota
  else if quota = 0 then .ok (some row)
  else if unlimited then (decreaseTokenQuota fault now quota row).map some
  else
    match cache with
    | .miss => reserveTokenQuotaDB fault now quota row
    | .insufficient => .ok none
    | .ok => (persistTokenQuotaDelta fault now (-quota) row).map some

/-! ## Runs -/

/-- The row, the copies that are still to be written back, and the net amount that calls have consumed. -/
structure TokenState where
  row : Token
  edits : List Token
  consumed : ℤ

def TokenState.start (row : Token) : TokenState := ⟨row, [], 0⟩

/-- A status-only `UpdateToken` or a `DisableModelLimits` reads, or one of them writes back; or the quota is reserved,
or changed by a settlement or a refund. -/
inductive TokenAction
  | readStatus (now : ℤ) (userId : ℕ) (request : TokenRequest)
  | readLimits
  | writeBack (edit : ℕ) (fault : Bool)
  | tryReserve (cache : CacheQuotaResult) (fault : Bool) (now quota : ℤ) (unlimited : Bool)
  | decrease (fault : Bool) (now quota : ℤ)
  | increase (fault : Bool) (now quota : ℤ)

namespace TokenState

/-- A call that went through has consumed `quota`; any other changes nothing. -/
def charge (s : TokenState) (quota : ℤ) (result : Except TokenError (Option Token)) : TokenState :=
  match result with
  | .ok (some row) => { s with row, consumed := s.consumed + quota }
  | _ => s

def read (s : TokenState) (edit : Except TokenError Token) : TokenState :=
  match edit with
  | .ok token => { s with edits := s.edits ++ [token] }
  | .error _ => s

def writeBack (s : TokenState) (edit : ℕ) (fault : Bool) : TokenState :=
  match s.edits[edit]? with
  | none => s
  | some token =>
    { s with row := if fault then s.row else token.update s.row, edits := s.edits.eraseIdx edit }

def step (settings : TokenSettings) (s : TokenState) : TokenAction → TokenState
  | .readStatus now userId request => s.read (updateToken settings true now userId request s.row)
  | .readLimits => s.read (.ok (disableModelLimits s.row))
  | .writeBack edit fault => s.writeBack edit fault
  | .tryReserve cache fault now quota unlimited =>
    s.charge quota (tryReserveTokenQuota cache fault now quota unlimited s.row)
  | .decrease fault now quota => s.charge quota ((decreaseTokenQuota fault now quota s.row).map some)
  | .increase fault now quota => s.charge (-quota) ((increaseTokenQuota fault now quota s.row).map some)

end TokenState

end Vancine.Tokens
