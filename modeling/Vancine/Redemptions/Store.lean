import Vancine.Lib.Run
import Vancine.Payment.Store

/-!
# Redemption codes

`Redeem` reads a code and then swaps its status from enabled to used; only the call whose swap matches the row credits
the wallet, in the same transaction. `UpdateRedemption` reads the row, changes fields of the copy and writes a list of
columns back, `status` among them. Deletions are soft: a deleted row is neither read nor written any more.

The read and the commit of a `Redeem` are two steps here, as they are where the database takes no row lock.
-/

namespace Vancine.Redemptions

open Lib Lib.Table
open Vancine.Billing (maxWalletQuota)
open Vancine.Payment (User wallet creditTopUpQuota)

/-! ## Rows -/

inductive RedemptionCodeStatus
  | enabled | disabled | used
  | other (value : ℤ)
  deriving DecidableEq

structure Redemption where
  id : ℤ
  key : String
  status : RedemptionCodeStatus
  name : String
  quota : ℤ
  redeemedTime : ℤ
  usedUserId : ℤ
  deleted : Bool
  /-- Zero for a code that does not expire. -/
  expiredTime : ℤ

inductive RedemptionError
  | noRedemptionKey
  | invalidUserId
  | redeemFailed
  | idEmpty
  | recordNotFound
  | redemptionQuotaNotPositive
  | walletQuotaExceeded
  | redemptionExpireTimeInvalid
  | invalidIds
  | database

/-- The row of an id that is not deleted. -/
def Redemption.Live (id : ℤ) (r : Redemption) : Bool := r.id = id ∧ ¬r.deleted

theorem Redemption.live_iff {id : ℤ} {r : Redemption} : r.Live id = true ↔ r.id = id ∧ r.deleted = false := by
  simp [Redemption.Live]

def getRedemptionById (id : ℤ) (codes : List Redemption) : Except RedemptionError Redemption :=
  if id = 0 then .error .idEmpty
  else
    match codes.find? (Redemption.Live id) with
    | none => .error .recordNotFound
    | some redemption => .ok redemption

/-- What `UpdateRedemption` and `Redemption.Update` check of a quota. -/
def checkQuota (quota : ℤ) : Except RedemptionError Unit :=
  if quota ≤ 0 then .error .redemptionQuotaNotPositive
  else if maxWalletQuota < quota then .error .walletQuotaExceeded
  else .ok ()

/-- The columns that `Redemption.Update` writes. -/
def Redemption.write (redemption row : Redemption) : Redemption :=
  { row with
    name := redemption.name
    status := redemption.status
    quota := redemption.quota
    redeemedTime := redemption.redeemedTime
    expiredTime := redemption.expiredTime }

/-- `Redemption.Update`. -/
def Redemption.update (redemption : Redemption) (fault : Bool) (codes : List Redemption) :
    Except RedemptionError (List Redemption) := do
  checkQuota redemption.quota
  if fault then .error .database else pure (updateWhere (Redemption.Live redemption.id) redemption.write codes)

/-! ## Edits -/

/-- A request to `UpdateRedemption` that does not ask for the enabled status. -/
structure EditRequest where
  id : ℤ
  statusOnly : Bool
  status : RedemptionCodeStatus
  name : String
  quota : ℤ
  expiredTime : ℤ
  asks_other : statusOnly = true → status ≠ .enabled

def validateExpiredTime (now expired : ℤ) : Except RedemptionError Unit :=
  if expired ≠ 0 ∧ expired < now then .error .redemptionExpireTimeInvalid else .ok ()

/-- `UpdateRedemption` up to its write: the copy of the row that is written back. -/
def updateRedemption (now : ℤ) (request : EditRequest) (codes : List Redemption) :
    Except RedemptionError Redemption := do
  let cleanRedemption ← getRedemptionById request.id codes
  if request.statusOnly then pure { cleanRedemption with status := request.status }
  else
    checkQuota request.quota
    validateExpiredTime now request.expiredTime
    pure { cleanRedemption with
      name := request.name, quota := request.quota, expiredTime := request.expiredTime }

/-! ## Deletions -/

def deleteWhere (p : Redemption → Bool) (codes : List Redemption) : List Redemption :=
  updateWhere (fun r => !r.deleted && p r) (fun r => { r with deleted := true }) codes

def deleteRedemptionById (id : ℤ) (codes : List Redemption) : Except RedemptionError (List Redemption) := do
  let redemption ← getRedemptionById id codes
  pure (deleteWhere (fun r => r.id = redemption.id) codes)

def deleteInvalidRedemptions (now : ℤ) (codes : List Redemption) : List Redemption :=
  deleteWhere (fun r => r.status = .used ∨ r.status = .disabled ∨
    (r.status = .enabled ∧ r.expiredTime ≠ 0 ∧ r.expiredTime < now)) codes

def batchDeleteRedemptions (ids : List ℤ) (codes : List Redemption) : Except RedemptionError (List Redemption) :=
  if ids = [] ∨ 1000 < ids.length ∨ ∃ id ∈ ids, id ≤ 0 then .error .invalidIds
  else .ok (deleteWhere (fun r => r.id ∈ ids) codes)

/-! ## Redemptions -/

/-- `Redeem` up to the swap: the code that it read. Every error of the transaction is `ErrRedeemFailed`. -/
def readCode (now : ℤ) (key : String) (userId : ℤ) (codes : List Redemption) : Except RedemptionError Redemption :=
  if key = "" then .error .noRedemptionKey
  else if userId = 0 then .error .invalidUserId
  else
    match codes.find? fun r => r.key = key ∧ ¬r.deleted with
    | none => .error .redeemFailed
    | some redemption =>
      if redemption.status ≠ .enabled then .error .redeemFailed
      else if redemption.expiredTime ≠ 0 ∧ redemption.expiredTime < now then .error .redeemFailed
      else .ok redemption

/-- The rows that the swap matches. -/
def Redemption.Swaps (id : ℤ) (r : Redemption) : Bool := r.Live id && r.status = .enabled

theorem Redemption.swaps_iff {id : ℤ} {r : Redemption} :
    r.Swaps id = true ↔ r.Live id = true ∧ r.status = .enabled := by
  simp [Redemption.Swaps]

def Redemption.swap (now userId : ℤ) (r : Redemption) : Redemption :=
  { r with redeemedTime := now, status := .used, usedUserId := userId }

/-- `Redeem` from the swap on. -/
def commitCode (fault : Bool) (now userId : ℤ) (redemption : Redemption) (codes : List Redemption)
    (users : List User) : Except RedemptionError (List Redemption × List User) :=
  if fault ∨ ¬codes.any (Redemption.Swaps redemption.id) then .error .redeemFailed
  else
    match creditTopUpQuota userId redemption.quota users with
    | .error _ => .error .redeemFailed
    | .ok users =>
      .ok (updateWhere (Redemption.Swaps redemption.id) (Redemption.swap now userId) codes, users)

/-! ## Runs -/

structure Credit where
  codeId : ℤ
  userId : ℤ
  quota : ℤ

/-- The tables; the calls of `Redeem` and the edits that have read their row; what was credited, and the codes that
were used at some time. -/
structure State where
  codes : List Redemption
  users : List User
  redeems : List (ℤ × Redemption)
  edits : List Redemption
  credits : List Credit
  used : List ℤ

inductive Action
  | readCode (now : ℤ) (key : String) (userId : ℤ)
  | commitCode (call : ℕ) (fault : Bool) (now : ℤ)
  | readEdit (now : ℤ) (request : EditRequest)
  | writeBack (edit : ℕ) (fault : Bool)
  | deleteById (id : ℤ)
  | deleteInvalid (now : ℤ)
  | deleteBatch (ids : List ℤ)

/-- The ids of the codes that are used. -/
def usedIds (codes : List Redemption) : List ℤ := (codes.filter fun r => r.status = .used).map Redemption.id

namespace State

def start (codes : List Redemption) (users : List User) : State := ⟨codes, users, [], [], [], usedIds codes⟩

/-- Replaces the codes; those that are used now are remembered. -/
def setCodes (s : State) (codes : List Redemption) : State := { s with codes, used := s.used ++ usedIds codes }

def commitCall (s : State) (call : ℕ) (fault : Bool) (now : ℤ) : Except RedemptionError State :=
  match s.redeems[call]? with
  | none => .ok s
  | some (userId, redemption) => do
    let (codes, users) ← commitCode fault now userId redemption s.codes s.users
    pure { s.setCodes codes with
      users
      redeems := s.redeems.eraseIdx call
      credits := s.credits ++ [⟨redemption.id, userId, redemption.quota⟩] }

def writeBack (s : State) (edit : ℕ) (fault : Bool) : Except RedemptionError State :=
  match s.edits[edit]? with
  | none => .ok s
  | some redemption => do
    let codes ← redemption.update fault s.codes
    pure { s.setCodes codes with edits := s.edits.eraseIdx edit }

/-- The error of the action, or the state after it. -/
def exec (s : State) : Action → Except RedemptionError State
  | .readCode now key userId => do
    let redemption ← readCode now key userId s.codes
    pure { s with redeems := s.redeems ++ [(userId, redemption)] }
  | .commitCode call fault now => s.commitCall call fault now
  | .readEdit now request => do
    let redemption ← updateRedemption now request s.codes
    pure { s with edits := s.edits ++ [redemption] }
  | .writeBack edit fault => s.writeBack edit fault
  | .deleteById id => do pure (s.setCodes (← deleteRedemptionById id s.codes))
  | .deleteInvalid now => .ok (s.setCodes (deleteInvalidRedemptions now s.codes))
  | .deleteBatch ids => do pure (s.setCodes (← batchDeleteRedemptions ids s.codes))

/-- A call that fails is over. -/
def drop (s : State) : Action → State
  | .commitCode call _ _ => { s with redeems := s.redeems.eraseIdx call }
  | .writeBack edit _ => { s with edits := s.edits.eraseIdx edit }
  | _ => s

def step (s : State) (a : Action) : State :=
  match s.exec a with
  | .ok s' => s'
  | .error _ => s.drop a

end State

end Vancine.Redemptions
