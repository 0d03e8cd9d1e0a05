import Vancine.Lib.Run
import Vancine.Lib.Table
import Vancine.Lib.Text
import Mathlib.Algebra.Order.Group.Int

/-!
# Authentication flows

The table `auth_flows` keeps the state of authentication ceremonies that happen once, under a hash of a token that is
never stored, and the assertions of external providers that were used already. Every transaction here is one step.
Time is in nanoseconds; a transaction reads the clock more than once.
-/

namespace Vancine.AuthFlows

open Lib

/-! ## Rows -/

/-- A row; `payload` is what the text of that column decodes to, if anything. -/
structure AuthFlow (π : Type) where
  id : ℕ := 0
  tokenHash : String
  purpose : String
  provider : String := ""
  intent : String := ""
  userId : ℤ := 0
  sessionId : String := ""
  payload : Option π := none
  expiresAt : ℤ
  consumedAt : Option ℤ := none
  deriving DecidableEq

structure AuthFlowMatch where
  purpose : String
  provider : String := ""
  intent : String := ""
  userId : ℤ := 0
  sessionId : String := ""
  deriving DecidableEq

section Rows

variable {π : Type}

/-- `applyAuthFlowMatch`: a field that is empty or zero matches everything. -/
def applyAuthFlowMatch (tokenHash : String) (m : AuthFlowMatch) (row : AuthFlow π) : Bool :=
  row.tokenHash = tokenHash && row.purpose = m.purpose &&
  (m.provider = "" || row.provider = m.provider) &&
  (m.intent = "" || row.intent = m.intent) &&
  (m.userId = 0 || row.userId = m.userId) &&
  (m.sessionId = "" || row.sessionId = m.sessionId)

theorem applyAuthFlowMatch_iff {tokenHash : String} {m : AuthFlowMatch} {row : AuthFlow π} :
    applyAuthFlowMatch tokenHash m row = true ↔
      row.tokenHash = tokenHash ∧ row.purpose = m.purpose ∧ (m.provider = "" ∨ row.provider = m.provider) ∧
      (m.intent = "" ∨ row.intent = m.intent) ∧ (m.userId = 0 ∨ row.userId = m.userId) ∧
      (m.sessionId = "" ∨ row.sessionId = m.sessionId) := by
  simp only [applyAuthFlowMatch, Bool.and_eq_true, Bool.or_eq_true, decide_eq_true_eq, and_assoc]

/-- `Update("consumed_at", now)`. -/
def AuthFlow.consume (now : ℤ) (row : AuthFlow π) : AuthFlow π := { row with consumedAt := some now }

/-- `consumed_at IS NULL AND expires_at > ?`. -/
def AuthFlow.live (now : ℤ) (row : AuthFlow π) : Bool := row.consumedAt.isNone && now < row.expiresAt

/-- The table. The column `token_hash` has a unique index. -/
structure AuthFlowTable (π : Type) where
  rows : List (AuthFlow π)
  nextId : ℕ
  nodup_hash : (rows.map AuthFlow.tokenHash).Nodup
  nodup_id : (rows.map AuthFlow.id).Nodup
  id_lt : ∀ row ∈ rows, row.id < nextId

namespace AuthFlowTable

theorem eq_of_hash (table : AuthFlowTable π) {row row' : AuthFlow π} (h : row ∈ table.rows) (h' : row' ∈ table.rows)
    (hash : row.tokenHash = row'.tokenHash) : row = row' :=
  List.inj_on_of_nodup_map table.nodup_hash h h' hash

/-- `INSERT … ON CONFLICT (token_hash) DO NOTHING`; none when no row is affected. -/
def insert (table : AuthFlowTable π) (row : AuthFlow π) : Option (AuthFlowTable π) :=
  if free : row.tokenHash ∉ table.rows.map AuthFlow.tokenHash then
    some {
      rows := table.rows ++ [{ row with id := table.nextId }]
      nextId := table.nextId + 1
      nodup_hash := by
        rw [List.map_append, List.nodup_append]
        refine ⟨table.nodup_hash, by simp, ?_⟩
        rintro hash h _ h' rfl
        rw [List.map_singleton, List.mem_singleton] at h'
        exact free (h' ▸ h)
      nodup_id := by
        rw [List.map_append, List.nodup_append]
        refine ⟨table.nodup_id, by simp, ?_⟩
        rintro id h _ h' rfl
        obtain ⟨old, hold, rfl⟩ := List.mem_map.mp h
        rw [List.map_singleton, List.mem_singleton] at h'
        exact absurd (table.id_lt old hold) (by simp [h'])
      id_lt := by
        intro other h
        rcases List.mem_append.mp h with h | h
        · exact (table.id_lt other h).trans (Nat.lt_succ_self _)
        · rw [List.mem_singleton] at h
          subst h
          exact Nat.lt_succ_self _ }
  else none

/-- An `UPDATE` that keeps the keys. -/
def update (table : AuthFlowTable π) (p : AuthFlow π → Bool) (f : AuthFlow π → AuthFlow π)
    (keeps : ∀ row, (f row).tokenHash = row.tokenHash ∧ (f row).id = row.id) : AuthFlowTable π where
  rows := Table.updateWhere p f table.rows
  nextId := table.nextId
  nodup_hash := by
    rw [Table.map_updateWhere fun row => (keeps row).1]
    exact table.nodup_hash
  nodup_id := by
    rw [Table.map_updateWhere fun row => (keeps row).2]
    exact table.nodup_id
  id_lt := by
    intro row h
    rcases Table.mem_updateWhere.mp h with ⟨old, hold, -, rfl⟩ | ⟨hold, -⟩
    · rw [(keeps old).2]
      exact table.id_lt old hold
    · exact table.id_lt row hold

def delete (table : AuthFlowTable π) (p : AuthFlow π → Bool) : AuthFlowTable π where
  rows := table.rows.filter fun row => !p row
  nextId := table.nextId
  nodup_hash := table.nodup_hash.sublist (List.filter_sublist.map _)
  nodup_id := table.nodup_id.sublist (List.filter_sublist.map _)
  id_lt := fun row h => table.id_lt row (List.mem_of_mem_filter h)

/-- Marking rows as consumed. -/
def consume (table : AuthFlowTable π) (p : AuthFlow π → Bool) (now : ℤ) : AuthFlowTable π :=
  table.update p (AuthFlow.consume now) fun _ => ⟨rfl, rfl⟩

theorem mem_consume {table : AuthFlowTable π} {p : AuthFlow π → Bool} {now : ℤ} {row : AuthFlow π} :
    row ∈ (table.consume p now).rows ↔
      (∃ old ∈ table.rows, p old = true ∧ old.consume now = row) ∨ (row ∈ table.rows ∧ p row = false) :=
  Table.mem_updateWhere

end AuthFlowTable

end Rows

/-! ## Assertions and flows -/

inductive AuthFlowError
  | invalid
  | expired
  | consumed
  | failed (message : String)

/-- `AuthFlowDefaultCleanupRetention`, in nanoseconds. -/
def authFlowDefaultCleanupRetention : ℤ := 24 * 3600 * 10 ^ 9

/-- An assertion of an external provider, and until when the caller says it is good. -/
structure Assertion where
  purpose : String
  assertion : String
  expiresAt : ℤ

/-- Purpose and assertion as they are hashed. -/
def Assertion.key (a : Assertion) : String × String := (trimSpace a.purpose, trimSpace a.assertion)

/-- What a transaction that consumes a flow does besides: the assertions it claims, and its result on the other
tables. -/
abbrev Action (π ρ : Type) := AuthFlow π → ρ → List Assertion × Except AuthFlowError ρ

/-- No action. -/
def Action.nothing {π ρ : Type} : Action π ρ := fun _ rest => ([], .ok rest)

/-- The flows and all other tables. -/
structure Database (π ρ : Type) where
  flows : AuthFlowTable π
  rest : ρ

section Calls

/- `authFlowTokenHash`, an HMAC. -/
variable (authFlowTokenHash : String → String) {π ρ : Type}

/-- The hash of an assertion. -/
def assertionHash (key : String × String) : String :=
  authFlowTokenHash ("external:" ++ key.1 ++ ":" ++ key.2)

def claimExternalAuthAssertionWithTx (flows : AuthFlowTable π) (now : ℤ) (a : Assertion) :
    Except AuthFlowError (AuthFlowTable π) :=
  if a.key.1 = "" ∨ a.key.2 = "" ∨ ¬now < a.expiresAt then .error .invalid
  else
    match flows.insert {
      tokenHash := assertionHash authFlowTokenHash a.key
      purpose := a.key.1
      expiresAt := a.expiresAt
      consumedAt := some now } with
    | some flows => .ok flows
    | none => .error .consumed

/-- The assertions that one action claims, in order. -/
def claimAll (now : ℤ) : AuthFlowTable π → List Assertion → Except AuthFlowError (AuthFlowTable π)
  | flows, [] => .ok flows
  | flows, a :: as => do
    let flows ← claimExternalAuthAssertionWithTx authFlowTokenHash flows now a
    claimAll now flows as

/-- One call of `ConsumeAuthFlowWithAction`, with the times at which it marks the row, looks at the expiry and acts. -/
structure Consumption (π ρ : Type) where
  token : String
  matching : AuthFlowMatch
  action : Action π ρ := Action.nothing
  now : ℤ
  checked : ℤ
  acted : ℤ

/-- The rows that the call asks for. -/
def Consumption.selects (c : Consumption π ρ) : AuthFlow π → Bool :=
  applyAuthFlowMatch (authFlowTokenHash c.token) c.matching

/-- The rows that the call marks. -/
def Consumption.marks (c : Consumption π ρ) (row : AuthFlow π) : Bool :=
  c.selects authFlowTokenHash row && row.live c.now

def consumeAuthFlowWithAction (db : Database π ρ) (c : Consumption π ρ) :
    Except AuthFlowError (AuthFlow π × Database π ρ) :=
  if c.token = "" ∨ c.matching.purpose = "" then .error .invalid
  else
    let affected := db.flows.rows.countP (c.marks authFlowTokenHash)
    let flows := db.flows.consume (c.marks authFlowTokenHash) c.now
    match flows.rows.find? (c.selects authFlowTokenHash) with
    | none => .error .invalid
    | some consumed =>
      if affected ≠ 1 ∧ consumed.consumedAt ≠ none then .error .consumed
      else if ¬c.checked < consumed.expiresAt then .error .expired
      else if affected ≠ 1 then .error .invalid
      else do
        let flows ← claimAll authFlowTokenHash c.acted flows (c.action consumed db.rest).1
        let rest ← (c.action consumed db.rest).2
        return (consumed, { flows, rest })

/-- The rows that the clean-up removes. -/
def expired (now : ℤ) (row : AuthFlow π) : Bool :=
  row.expiresAt < now - authFlowDefaultCleanupRetention ||
    match row.consumedAt with
    | some consumedAt => consumedAt < now - authFlowDefaultCleanupRetention
    | none => false

def deleteExpiredAuthFlows (flows : AuthFlowTable π) (now : ℤ) : AuthFlowTable π := flows.delete (expired now)

end Calls

end Vancine.AuthFlows
