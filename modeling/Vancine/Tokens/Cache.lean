import Mathlib.Algebra.Order.Ring.Rat
import Vancine.Tokens.Edits

/-!
# The cached token and its fence

Two keys of Redis belong to a token: the hash with the columns of its row, and a fence. A mutation of the row raises
the fence, drops the hash and then writes the row; the fence is never removed and only expires. A reader that misses
the hash reads the row and publishes that snapshot later, if there is neither a fence nor a hash by then. The quota
scripts change a hash that is there.

The row can be changed and read at any time by anybody. Time is rational, in seconds.
-/

namespace Vancine.Tokens.Cache

open Lib

/-! ## Rows -/

/-- A row of the table, with the column that edits do not touch. -/
structure TokenRow extends Token where
  createdTime : ℤ

/-- What a row says besides its balance and its last use. -/
def TokenRow.metadata (row : TokenRow) : TokenRow := { row with accessedTime := 0, remainQuota := 0, usedQuota := 0 }

/-- `Update`, `SelectUpdate` and `Delete` of a copy of the row. -/
inductive Mutation
  | update (copy : Token)
  | selectUpdate (copy : Token)
  | delete

/-- The statement of a mutation; a row that is gone is not written. -/
def Mutation.write : Mutation → TokenRow → Option TokenRow
  | .update copy, row => some { row with toToken := copy.update row.toToken }
  | .selectUpdate copy, row => some { row with accessedTime := copy.accessedTime, status := copy.status }
  | .delete, _ => none

/-! ## Hashes -/

inductive Field
  | id | userId | status | name | createdTime | accessedTime | expiredTime | unlimitedQuota | modelLimitsEnabled
  | modelLimits | allowIps | group | crossGroupRetry | autoGroups | remainQuota | usedQuota
  deriving DecidableEq

inductive Value
  | number (n : ℤ)
  | status (s : TokenStatus)
  | flag (b : Bool)
  | text (s : String)

/-- A hash of Redis. -/
abbrev Hash := Field → Option Value

/-- A key without a hash has no fields. -/
def fields (hash : Option Hash) : Hash := hash.getD fun _ => none

/-- `HSET`, which makes the hash if there is none. -/
def hset (field : Field) (value : Value) (hash : Option Hash) : Option Hash :=
  some (Function.update (fields hash) field (some value))

def number (hash : Option Hash) (field : Field) : ℤ :=
  match fields hash field with
  | some (.number n) => n
  | _ => 0

/-- `HINCRBY`, which makes the hash and the field if there are none. -/
def hincrby (field : Field) (delta : ℤ) (hash : Option Hash) : Option Hash :=
  hset field (.number (number hash field + delta)) hash

/-- The fields that `cacheInitToken` writes. -/
def TokenRow.hash (row : TokenRow) : Hash
  | .id => some (.number row.id)
  | .userId => some (.number row.userId)
  | .status => some (.status row.status)
  | .name => some (.text row.name)
  | .createdTime => some (.number row.createdTime)
  | .accessedTime => some (.number row.accessedTime)
  | .expiredTime => some (.number row.expiredTime)
  | .unlimitedQuota => some (.flag row.unlimitedQuota)
  | .modelLimitsEnabled => some (.flag row.modelLimitsEnabled)
  | .modelLimits => some (.text row.modelLimits)
  | .allowIps => some (.text (row.allowIps.getD ""))
  | .group => some (.text row.group)
  | .crossGroupRetry => some (.flag row.crossGroupRetry)
  | .autoGroups => some (.text row.autoGroups)
  | .remainQuota => some (.number row.remainQuota)
  | .usedQuota => some (.number row.usedQuota)

def numberOf (value : Option Value) : ℤ :=
  match value with
  | some (.number n) => n
  | _ => 0

def statusOf (value : Option Value) : TokenStatus :=
  match value with
  | some (.status s) => s
  | _ => .other 0

def flagOf (value : Option Value) : Bool :=
  match value with
  | some (.flag b) => b
  | _ => false

def textOf (value : Option Value) : String :=
  match value with
  | some (.text s) => s
  | _ => ""

/-- `RedisHGetObj`: fields that are missing stay zero, and an empty list of addresses is none. -/
def decode (hash : Hash) : TokenRow where
  id := (numberOf (hash .id)).toNat
  userId := (numberOf (hash .userId)).toNat
  status := statusOf (hash .status)
  name := textOf (hash .name)
  createdTime := numberOf (hash .createdTime)
  accessedTime := numberOf (hash .accessedTime)
  expiredTime := numberOf (hash .expiredTime)
  unlimitedQuota := flagOf (hash .unlimitedQuota)
  modelLimitsEnabled := flagOf (hash .modelLimitsEnabled)
  modelLimits := textOf (hash .modelLimits)
  allowIps := if textOf (hash .allowIps) = "" then none else some (textOf (hash .allowIps))
  group := textOf (hash .group)
  crossGroupRetry := flagOf (hash .crossGroupRetry)
  autoGroups := textOf (hash .autoGroups)
  remainQuota := numberOf (hash .remainQuota)
  usedQuota := numberOf (hash .usedQuota)

/-- `cacheGetTokenByKey`: a hash without an id is refused. -/
def cacheGetTokenByKey (hash : Option Hash) : Option TokenRow :=
  hash.bind fun hash => if (decode hash).id = 0 then none else some (decode hash)

/-! ## Scripts -/

/-- The fields that a quota script looks for before it changes anything. -/
def quotaReady (id : ℤ) (hash : Option Hash) : Bool :=
  number hash .id = id && (fields hash .remainQuota).isSome && (fields hash .usedQuota).isSome

/-- The writes of both quota scripts. -/
def moveQuota (remain : ℤ) (accessedTime : ℤ) (hash : Option Hash) : Option Hash :=
  hset .accessedTime (.number accessedTime) (hincrby .usedQuota (-remain) (hincrby .remainQuota remain hash))

def tokenQuotaReserveScript (amount id accessedTime : ℤ) (hash : Option Hash) : Option Hash :=
  if quotaReady id hash then
    if number hash .remainQuota < amount then hash else moveQuota (-amount) accessedTime hash
  else hash

def tokenQuotaDeltaScript (delta id accessedTime : ℤ) (hash : Option Hash) : Option Hash :=
  if quotaReady id hash then moveQuota delta accessedTime hash else hash

/-! ## Steps -/

def tokenCacheFenceSeconds : ℚ := 10

/-- A mutation that has raised the fence. -/
structure Mutating where
  mutation : Mutation
  raisedAt : ℚ
  dropped : Bool := false

/-- A reader of `GetTokenByKey` that has read the row. -/
structure Reading where
  snapshot : TokenRow
  readAt : ℚ

structure State where
  now : ℚ
  row : Option TokenRow
  hash : Option Hash := none
  /-- When the fence expires. -/
  fence : Option ℚ := none
  mutating : List Mutating := []
  reading : List Reading := []

def State.fenced (s : State) : Bool := s.fence.any fun expires => s.now < expires

inductive Action
  | wait (seconds : ℚ)
  /-- A mutation raises the fence. -/
  | raise (mutation : Mutation)
  /-- The mutation at a place drops the hash. -/
  | drop (place : ℕ)
  /-- The mutation at a place writes the row and returns. -/
  | write (place : ℕ)
  /-- The mutation at a place ends without its write. -/
  | abandon (place : ℕ)
  /-- A statement that changes the balance and the last use of the row. -/
  | charge (remain accessedTime : ℤ)
  | readRow
  /-- The reader at a place runs `cacheInitToken`. -/
  | publish (place : ℕ)
  | reserve (amount id accessedTime : ℤ)
  | applyDelta (delta id accessedTime : ℤ)
  /-- The hash expires or is evicted. -/
  | expire

def dropHash (place : ℕ) (s : State) : State :=
  match s.mutating[place]? with
  | none => s
  | some m => { s with hash := none, mutating := s.mutating.set place { m with dropped := true } }

def writeRow (place : ℕ) (s : State) : State :=
  match s.mutating[place]? with
  | none => s
  | some m => if m.dropped then { s with row := s.row.bind m.mutation.write, mutating := s.mutating.eraseIdx place } else s

/-- `cacheInitToken`. A hash that is there only lives longer. -/
def publish (place : ℕ) (s : State) : State :=
  match s.reading[place]? with
  | none => s
  | some r =>
    { s with
      hash := if s.fenced || s.hash.isSome then s.hash else some r.snapshot.hash
      reading := s.reading.eraseIdx place }

def step (s : State) : Action → State
  | .wait seconds => { s with now := s.now + max seconds 0 }
  | .raise mutation =>
    { s with
      fence := some (s.now + tokenCacheFenceSeconds)
      mutating := s.mutating ++ [{ mutation, raisedAt := s.now }] }
  | .drop place => dropHash place s
  | .write place => writeRow place s
  | .abandon place => { s with mutating := s.mutating.eraseIdx place }
  | .charge remain accessedTime =>
    { s with row := s.row.map fun row =>
        { row with remainQuota := row.remainQuota + remain, usedQuota := row.usedQuota - remain, accessedTime } }
  | .readRow => { s with reading := s.reading ++ (s.row.map fun row => { snapshot := row, readAt := s.now }).toList }
  | .publish place => publish place s
  | .reserve amount id accessedTime => { s with hash := tokenQuotaReserveScript amount id accessedTime s.hash }
  | .applyDelta delta id accessedTime => { s with hash := tokenQuotaDeltaScript delta id accessedTime s.hash }
  | .expire => { s with hash := none }

/-- Nothing is cached, and nobody is under way. -/
def start (now : ℚ) (row : Option TokenRow) : State := { now, row }

end Vancine.Tokens.Cache
