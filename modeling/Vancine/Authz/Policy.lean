import Mathlib.Data.List.AList
import Mathlib.Data.List.Sort
import Mathlib.Data.String.Basic

/-!
# Authorization policies

The policy is stored as rows, and a snapshot of it is held in memory by the enforcer. A permission of a user comes from
the user's own entries, and without any from the baseline of the roles.

Calls of the database succeed and compare texts exactly; `casbin` is followed in the four calls that are used of it.
-/

namespace Vancine.Authz

/-! ## Rows and entries -/

/-- A row without its id; a table lists its rows by their ids, and no two are alike. -/
structure CasbinRule where
  ptype : String
  v0 : String
  v1 : String
  v2 : String
  v3 : String
  v4 : String
  v5 : String
  deriving DecidableEq

inductive Effect
  | allow | deny
  deriving DecidableEq

def Effect.text : Effect → String
  | .allow => "allow"
  | .deny => "deny"

/-- `p = sub, obj, act, eft` of the model. -/
structure Policy where
  subject : String
  resource : String
  action : String
  effect : Effect
  deriving DecidableEq

inductive LoadError
  | missingField (rule : CasbinRule)
  | invalidEffect (rule : CasbinRule)

/-- What `LoadPolicy` makes of a row: nothing of one that is no policy, and a denial of a scope it cannot enforce. -/
def loadRule (rule : CasbinRule) : Except LoadError (Option Policy) :=
  if rule.ptype ≠ "p" then .ok none
  else if rule.v0 = "" ∨ rule.v1 = "" ∨ rule.v2 = "" then .error (.missingField rule)
  else if rule.v3 ≠ "" ∧ rule.v3 ≠ "allow" ∧ rule.v3 ≠ "deny" then .error (.invalidEffect rule)
  else
    let unsupportedScope := rule.v5 ≠ "" ∨ rule.v4 ≠ "" ∧ rule.v4 ≠ "all"
    .ok (some ⟨rule.v0, rule.v1, rule.v2, if unsupportedScope ∨ rule.v3 = "deny" then .deny else .allow⟩)

/-- `persist.LoadPolicyArray`, which leaves out what is there. -/
def insertPolicy (policies : List Policy) (p : Policy) : List Policy :=
  if p ∈ policies then policies else policies ++ [p]

def loadStep (policies : List Policy) (rule : CasbinRule) : Except LoadError (List Policy) := do
  match ← loadRule rule with
  | none => pure policies
  | some p => pure (insertPolicy policies p)

/-- `LoadPolicy` of the adapter, into an empty model. -/
def loadPolicy (rows : List CasbinRule) : Except LoadError (List Policy) := rows.foldlM loadStep []

def newRule (p : Policy) : CasbinRule := ⟨"p", p.subject, p.resource, p.action, p.effect.text, "", ""⟩

/-- `Create` with `OnConflict{DoNothing: true}`. -/
def createRule (rows : List CasbinRule) (rule : CasbinRule) : List CasbinRule :=
  if rule ∈ rows then rows else rows ++ [rule]

def deleteRules (rows : List CasbinRule) (subject resource : String) : List CasbinRule :=
  rows.filter fun rule => ¬(rule.ptype = "p" ∧ rule.v0 = subject ∧ rule.v1 = resource)

/-! ## The enforcer -/

/-- The table and the snapshot of it. -/
structure Store where
  rows : List CasbinRule
  policies : List Policy

/-- `RemoveFilteredPolicy` of a subject and a resource, saved by the adapter. -/
def Store.removeFilteredPolicy (s : Store) (subject resource : String) : Store where
  rows := deleteRules s.rows subject resource
  policies := s.policies.filter fun p => ¬(p.subject = subject ∧ p.resource = resource)

/-- `AddPolicy`, saved by the adapter unless the snapshot has it. -/
def Store.addPolicy (s : Store) (p : Policy) : Store :=
  if p ∈ s.policies then s else ⟨createRule s.rows (newRule p), s.policies ++ [p]⟩

/-- `GetFilteredPolicy` of a subject, a resource and an action. -/
def filteredPolicy (policies : List Policy) (subject resource action : String) : List Policy :=
  policies.filter fun p => p.subject = subject ∧ p.resource = resource ∧ p.action = action

/-- One denial outweighs the rest. -/
def explicitSubjectEffect (policies : List Policy) (subject resource action : String) : Option Effect :=
  let found := filteredPolicy policies subject resource action
  if found.any (·.effect = .deny) then some .deny
  else if found.any (·.effect = .allow) then some .allow
  else none

/-! ## The registry -/

structure ResourceDefinition where
  resource : String
  actions : List String

/-- What the `init` functions register, in the order of their files. -/
def registry : List ResourceDefinition :=
  [⟨"audit", ["read"]⟩, ⟨"channel", ["read", "operate", "write", "sensitive_write", "secret_view"]⟩,
    ⟨"task_plugin", ["bind"]⟩]

def isKnownResource (resource : String) : Bool := registry.any (·.resource = resource)

def catalogActions (resource : String) : List String :=
  ((registry.find? (·.resource = resource)).map ResourceDefinition.actions).getD []

def isKnownPermission (resource action : String) : Bool :=
  registry.any fun known => known.resource = resource && known.actions.contains action

/-! ## Decisions -/

structure RoleSpec where
  key : String
  superuser : Bool

def builtInRoles : List RoleSpec := [⟨"root", true⟩, ⟨"admin", false⟩]

def isSuperuserRole (roleKey : String) : Bool :=
  ((builtInRoles.find? (·.key = roleKey)).map RoleSpec.superuser).getD false

def managedRoleKey : String := "admin"

/-- `common.RoleAdminUser` and `common.RoleRootUser`. -/
def roleAdminUser : ℤ := 10

def roleRootUser : ℤ := 100

def resolveSubjectRoles (systemRole : ℤ) : List String :=
  if roleRootUser ≤ systemRole then ["root"] else if roleAdminUser ≤ systemRole then ["admin"] else []

def userSubject (userID : ℤ) : String := "user:" ++ toString userID

def roleSubject (roleKey : String) : String := "role:" ++ roleKey

def roleBaselineAllows (policies : List Policy) (roleKey resource action : String) : Bool :=
  explicitSubjectEffect policies (roleSubject roleKey) resource action = some .allow

/-- `Can`. -/
def can (policies : List Policy) (userID systemRole : ℤ) (resource action : String) : Bool :=
  let roles := resolveSubjectRoles systemRole
  if roles = [] then false
  else if roles.any isSuperuserRole then true
  else if !isKnownPermission resource action then false
  else
    match explicitSubjectEffect policies (userSubject userID) resource action with
    | some effect => effect = .allow
    | none => roles.any fun role => roleBaselineAllows policies role resource action

/-! ## Setting permissions -/

/-- A map from resources to maps from actions, in the order in which `range` happens to visit it. -/
abbrev PermissionsMap := AList fun _ : String => AList fun _ : String => Bool

structure OverridePolicy where
  resource : String
  action : String
  effect : Effect

def effectOf (desired : Bool) : Effect := if desired then .allow else .deny

/-- What differs from the baseline of the managed role, by action. -/
def userOverridePolicies (policies : List Policy) (resource : String) (actions : AList fun _ : String => Bool) :
    List OverridePolicy :=
  let overrides := (catalogActions resource).filterMap fun action =>
    match actions.lookup action with
    | none => none
    | some desired =>
      if desired = roleBaselineAllows policies managedRoleKey resource action then none
      else some ⟨resource, action, effectOf desired⟩
  overrides.insertionSort fun a b => a.action ≤ b.action

def OverridePolicy.entry (o : OverridePolicy) (userID : ℤ) : Policy :=
  ⟨userSubject userID, o.resource, o.action, o.effect⟩

/-- The loop of `SetUserPermissions`. -/
def setResource (userID : ℤ) (s : Store) (entry : (_ : String) × AList fun _ : String => Bool) : Store :=
  if !isKnownResource entry.1 then s
  else
    let s := s.removeFilteredPolicy (userSubject userID) entry.1
    (userOverridePolicies s.policies entry.1 entry.2).foldl (fun s o => s.addPolicy (o.entry userID)) s

def setUserPermissions (s : Store) (userID : ℤ) (permissions : PermissionsMap) : Store :=
  permissions.entries.foldl (setResource userID) s

/-- The loop of `SetUserPermissionsInTx`; `policies` is the snapshot, which it only reads. -/
def setResourceInTx (policies : List Policy) (userID : ℤ) (rows : List CasbinRule)
    (entry : (_ : String) × AList fun _ : String => Bool) : List CasbinRule :=
  if !isKnownResource entry.1 then rows
  else
    (userOverridePolicies policies entry.1 entry.2).foldl (fun rows o => createRule rows (newRule (o.entry userID)))
      (deleteRules rows (userSubject userID) entry.1)

def setUserPermissionsInTx (s : Store) (userID : ℤ) (permissions : PermissionsMap) : List CasbinRule :=
  permissions.entries.foldl (setResourceInTx s.policies userID) s.rows

end Vancine.Authz
