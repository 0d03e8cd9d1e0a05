import Mathlib.Data.Int.Notation
import Mathlib.Tactic.Common

/-!
# The cached user and its version floors

Three keys of Redis belong to a user: the hash with the user's columns, a pending fence, and the committed
floor. The hash and the fence expire; the floor has no time to live. The scripts below are the only
writers. A write that is older than the fence, the floor or the hash is refused, and one that is not
raises the floor to its version and drops a fence it has reached.

A whole-row write leaves the cached quota alone, which the quota scripts keep up to date.
-/

namespace Vancine.UserCache

/-! ## Rows -/

/-- The columns of a user that are cached. -/
structure UserBase where
  group : String
  email : String
  quota : ℤ
  status : ℤ
  role : ℤ
  username : String
  setting : String
  authVersion : ℤ
  deriving DecidableEq

/-- The fields that are refreshed on their own. -/
inductive UserField
  | group
  | email
  | username
  | setting
  deriving DecidableEq

def UserBase.set (user : UserBase) : UserField × String → UserBase
  | (.group, value) => { user with group := value }
  | (.email, value) => { user with email := value }
  | (.username, value) => { user with username := value }
  | (.setting, value) => { user with setting := value }

@[simp] theorem UserBase.set_authVersion (user : UserBase) (f : UserField × String) :
    (user.set f).authVersion = user.authVersion := by
  rcases f with ⟨field, value⟩
  cases field <;> rfl

theorem UserBase.set_quota (user : UserBase) (f : UserField × String) (quota : ℤ) :
    { user with quota }.set f = { user.set f with quota } := by
  rcases f with ⟨field, value⟩
  cases field <;> rfl

/-- The hash. `refreshed` keeps the single fields written since the last whole row, for the accounting. -/
structure UserHash where
  user : UserBase
  refreshed : List (UserField × String) := []
  deriving DecidableEq

structure UserKeys where
  hash : Option UserHash := none
  pending : Option ℤ := none
  committed : Option ℤ := none
  deriving DecidableEq

namespace UserKeys

/-- The version in the hash, or zero. -/
def current (k : UserKeys) : ℤ := (k.hash.map fun h => h.user.authVersion).getD 0

/-- `getUserAuthVersionFloor`. -/
def floor (k : UserKeys) : ℤ := max (k.pending.getD 0) (max (k.committed.getD 0) 0)

/-! ## Scripts -/

/-- The guard that the writes of the hash share. -/
def refuses (k : UserKeys) (incoming : ℤ) : Bool :=
  decide (k.pending.getD 0 > incoming ∨ k.committed.getD 0 > incoming ∨ k.current > incoming)

/-- Raise the floor to a version and drop a fence it has reached. -/
def pass (k : UserKeys) (incoming : ℤ) : UserKeys where
  hash := k.hash
  committed := if k.committed.getD 0 < incoming then some incoming else k.committed
  pending :=
    if 0 < k.pending.getD 0 ∧ k.pending.getD 0 ≤ incoming then none else k.pending

/-- `writeUserCache`; false when the script refuses. -/
def writeUserCache (k : UserKeys) (user : UserBase) (includeQuota : Bool) : Bool × UserKeys :=
  if k.refuses user.authVersion then (false, k)
  else
    let k := k.pass user.authVersion
    match k.hash with
    | none => (true, if includeQuota then { k with hash := some { user } } else k)
    | some h => (true, { k with hash := some { user := { user with quota := h.user.quota } } })

/-- `updateUserCacheFieldAtVersion`. -/
def updateUserCacheFieldAtVersion (k : UserKeys) (field : UserField) (value : String) (authVersion : ℤ) :
    Bool × UserKeys :=
  if k.refuses authVersion then (false, k)
  else
    let k := k.pass authVersion
    match k.hash with
    | none => (true, k)
    | some h =>
      if h.user.authVersion ≠ authVersion then (true, k)
      else (true, { k with
        hash := some ⟨h.user.set (field, value), h.refreshed ++ [(field, value)]⟩ })

/-- `SetUserAuthVersionFence`. -/
def setUserAuthVersionFence (k : UserKeys) (authVersion : ℤ) : UserKeys :=
  if k.pending.getD 0 < authVersion then { k with pending := some authVersion } else k

/-- `publishCommittedUserAuthVersion`. -/
def publishCommittedUserAuthVersion (k : UserKeys) (authVersion : ℤ) : UserKeys := k.pass authVersion

/-- `cacheIncrUserQuota`. -/
def cacheIncrUserQuota (k : UserKeys) (delta : ℤ) : UserKeys :=
  { k with hash := k.hash.map fun h => { h with user := { h.user with quota := h.user.quota + delta } } }

/-! ## What the scripts keep -/

variable {k : UserKeys} {v : ℤ}

@[simp] theorem pass_hash : (k.pass v).hash = k.hash := rfl

theorem pass_committed : (k.pass v).committed = if k.committed.getD 0 < v then some v else k.committed := rfl

theorem committed_le_pass : k.committed.getD 0 ≤ (k.pass v).committed.getD 0 := by
  rw [pass_committed]
  split_ifs with h
  · exact Int.le_of_lt h
  · exact Int.le_refl _

theorem le_pass_committed : v ≤ (k.pass v).committed.getD 0 := by
  rw [pass_committed]
  split_ifs with h
  · exact Int.le_refl _
  · exact Int.not_lt.mp h

theorem pass_pending {p : ℤ} (h : (k.pass v).pending = some p) : k.pending = some p := by
  unfold pass at h
  dsimp only at h
  split_ifs at h
  exact h

theorem floor_le_pass : k.floor ≤ (k.pass v).floor := by
  unfold floor
  have hcommitted := committed_le_pass (k := k) (v := v)
  have hpassed := le_pass_committed (k := k) (v := v)
  by_cases hdrop : 0 < k.pending.getD 0 ∧ k.pending.getD 0 ≤ v
  · omega
  · have hkept : (k.pass v).pending = k.pending := if_neg hdrop
    rw [hkept]
    omega

theorem writeUserCache_keys (k : UserKeys) (user : UserBase) (includeQuota : Bool) :
    ((k.writeUserCache user includeQuota).2.pending = k.pending ∧
        (k.writeUserCache user includeQuota).2.committed = k.committed) ∨
      ((k.writeUserCache user includeQuota).2.pending = (k.pass user.authVersion).pending ∧
        (k.writeUserCache user includeQuota).2.committed = (k.pass user.authVersion).committed) := by
  unfold writeUserCache
  by_cases hr : k.refuses user.authVersion = true
  · rw [if_pos hr]
    exact .inl ⟨rfl, rfl⟩
  · rw [if_neg hr]
    right
    dsimp only
    cases (k.pass user.authVersion).hash with
    | none => cases includeQuota <;> exact ⟨rfl, rfl⟩
    | some h => exact ⟨rfl, rfl⟩

theorem updateField_keys (k : UserKeys) (field : UserField) (value : String) (v : ℤ) :
    ((k.updateUserCacheFieldAtVersion field value v).2.pending = k.pending ∧
        (k.updateUserCacheFieldAtVersion field value v).2.committed = k.committed) ∨
      ((k.updateUserCacheFieldAtVersion field value v).2.pending = (k.pass v).pending ∧
        (k.updateUserCacheFieldAtVersion field value v).2.committed = (k.pass v).committed) := by
  unfold updateUserCacheFieldAtVersion
  by_cases hr : k.refuses v = true
  · rw [if_pos hr]
    exact .inl ⟨rfl, rfl⟩
  · rw [if_neg hr]
    right
    dsimp only
    cases (k.pass v).hash with
    | none => exact ⟨rfl, rfl⟩
    | some h =>
      dsimp only
      split_ifs <;> exact ⟨rfl, rfl⟩

/-- The hash after a whole-row write is the old one or the row with some quota. -/
theorem writeUserCache_hash {user : UserBase} {includeQuota : Bool} {h : UserHash}
    (hh : (k.writeUserCache user includeQuota).2.hash = some h) :
    k.hash = some h ∨ ∃ quota, h = { user := { user with quota } } := by
  unfold writeUserCache at hh
  by_cases hr : k.refuses user.authVersion = true
  · rw [if_pos hr] at hh
    exact .inl hh
  · rw [if_neg hr] at hh
    dsimp only [pass_hash] at hh
    cases hold : k.hash with
    | none =>
      rw [hold] at hh
      cases includeQuota with
      | true =>
        cases hh
        exact .inr ⟨user.quota, rfl⟩
      | false => exact .inl (hold ▸ hh)
    | some h₀ =>
      rw [hold] at hh
      cases hh
      exact .inr ⟨_, rfl⟩

theorem updateField_hash {field : UserField} {value : String} {h : UserHash}
    (hh : (k.updateUserCacheFieldAtVersion field value v).2.hash = some h) :
    k.hash = some h ∨ ∃ h₀, k.hash = some h₀ ∧ h₀.user.authVersion = v ∧
      h = ⟨h₀.user.set (field, value), h₀.refreshed ++ [(field, value)]⟩ := by
  unfold updateUserCacheFieldAtVersion at hh
  by_cases hr : k.refuses v = true
  · rw [if_pos hr] at hh
    exact .inl hh
  · rw [if_neg hr] at hh
    dsimp only [pass_hash] at hh
    cases hold : k.hash with
    | none =>
      rw [hold] at hh
      exact .inl (hold ▸ hh)
    | some h₀ =>
      rw [hold] at hh
      dsimp only at hh
      by_cases hv : h₀.user.authVersion ≠ v
      · rw [if_pos hv] at hh
        exact .inl (hold ▸ hh)
      · rw [if_neg hv] at hh
        cases hh
        exact .inr ⟨h₀, rfl, not_not.mp hv, rfl⟩

end UserKeys

end Vancine.UserCache
