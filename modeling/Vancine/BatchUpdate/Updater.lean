import Mathlib.Data.List.AList
import Vancine.Lib.Run

/-!
# The batch updater

`addNewRecord` adds a delta to the entry of its type and id in a map in memory. `batchUpdate` looks whether
any map has an entry, takes the maps out one after the other under their locks, and writes what it took:
each token and each channel with one statement, and each user with one statement for three columns.

Every section under a lock and every statement is one step, so that any number of calls of `addNewRecord`
and `batchUpdate` interleave here as they do in the program. A `range` over a map visits its keys in any
order: the key is part of the step.

An entry also carries the numbers of the calls of `addNewRecord` that went into it, which the program does
not keep; nothing is decided by them.
-/

namespace Vancine.BatchUpdate

open Lib

/-- `BatchUpdateTypeUserQuota` and so on. -/
inductive BatchUpdateType
  | userQuota
  | tokenQuota
  | usedQuota
  | channelUsedQuota
  | requestCount
  deriving DecidableEq

/-- The types in the order of their numbers. -/
def batchUpdateTypes : List BatchUpdateType :=
  [.userQuota, .tokenQuota, .usedQuota, .channelUsedQuota, .requestCount]

structure Entry where
  sum : Int64
  records : List ℕ
  deriving DecidableEq

/-- What a lookup of a key that is not there gives. -/
def Entry.zero : Entry := ⟨0, []⟩

/-- `map[int]int`. -/
abbrev Store := AList fun _ : ℤ => Entry

def Store.get (store : Store) (id : ℤ) : Entry := (store.lookup id).getD .zero

abbrev Stores := BatchUpdateType → Store

/-- One call of `addNewRecord`. -/
structure Record where
  type : BatchUpdateType
  id : ℤ
  value : Int64

/-- The statements of `increaseTokenQuota`, `updateChannelUsedQuota` and
`updateUserQuotaUsedQuotaAndRequestCount`: what they add, and where. -/
inductive Write
  | token (id : ℤ) (quota : Entry)
  | channel (id : ℤ) (quota : Entry)
  | user (id : ℤ) (quota usedQuota requestCount : Entry)

/-- The loops over what was taken. -/
inductive Loop
  | token
  | channel
  | user
  deriving DecidableEq

/-- Where a call of `batchUpdate` is. -/
inductive Flush
  | checking (left : List BatchUpdateType)
  | taking (left : List BatchUpdateType) (taken : Stores)
  | writing (taken : Stores) (loop : Loop) (keys : List ℤ)
  | finished

structure State where
  stores : Stores
  flushes : List Flush
  records : List Record
  writes : List Write
  skipped : List Write

def init : State := ⟨fun _ => ∅, [], [], [], []⟩

/-! ## Adding -/

/-- `old + value`, at the bound when it leaves the range of an `int`. -/
def addSaturated (old value : Int64) : Int64 :=
  let sum := old + value
  if (0 < value ∧ sum < old) ∨ (value < 0 ∧ old < sum) then
    if 0 < value then Int64.maxValue else Int64.minValue
  else sum

def addNewRecord (type : BatchUpdateType) (id : ℤ) (value : Int64) (s : State) : State :=
  let n := s.records.length
  let entry := match (s.stores type).lookup id with
    | none => ⟨value, [n]⟩
    | some old => ⟨addSaturated old.sum value, n :: old.records⟩
  { s with
    stores := Function.update s.stores type ((s.stores type).insert id entry)
    records := s.records ++ [⟨type, id, value⟩] }

/-! ## Flushing -/

/-- The keys that a loop goes over. -/
def Loop.keys (taken : Stores) : Loop → List ℤ
  | .token => (taken .tokenQuota).keys
  | .channel => (taken .channelUsedQuota).keys
  | .user => (taken .userQuota).keys ∪ ((taken .usedQuota).keys ∪ (taken .requestCount).keys)

def Loop.next? : Loop → Option Loop
  | .token => some .channel
  | .channel => some .user
  | .user => none

/-- The statement for one key. -/
def Loop.write (taken : Stores) (id : ℤ) : Loop → Write
  | .token => .token id ((taken .tokenQuota).get id)
  | .channel => .channel id ((taken .channelUsedQuota).get id)
  | .user => .user id ((taken .userQuota).get id) ((taken .usedQuota).get id) ((taken .requestCount).get id)

/-- `updateUserQuotaUsedQuotaAndRequestCount` returns when there is nothing to add. -/
def Write.isEmpty : Write → Bool
  | .user _ quota usedQuota requestCount => quota.sum = 0 && usedQuota.sum = 0 && requestCount.sum = 0
  | _ => false

def execute (write : Write) (s : State) : State :=
  if write.isEmpty then { s with skipped := write :: s.skipped } else { s with writes := write :: s.writes }

/-- One step of a call of `batchUpdate`. -/
def flushStep (key : ℤ) (s : State) : Flush → State × Flush
  | .checking [] => (s, .finished)
  | .checking (type :: left) =>
    if (s.stores type).keys = [] then (s, .checking left) else (s, .taking batchUpdateTypes fun _ => ∅)
  | .taking [] taken => (s, .writing taken .token (Loop.keys taken .token))
  | .taking (type :: left) taken =>
    ({ s with stores := Function.update s.stores type ∅ },
      .taking left (Function.update taken type (s.stores type)))
  | .writing taken loop [] =>
    match loop.next? with
    | some next => (s, .writing taken next (next.keys taken))
    | none => (s, .finished)
  | .writing taken loop (first :: keys) =>
    if key ∈ first :: keys then
      (execute (loop.write taken key) s, .writing taken loop ((first :: keys).erase key))
    else (s, .writing taken loop (first :: keys))
  | .finished => (s, .finished)

inductive Action
  | addNewRecord (type : BatchUpdateType) (id : ℤ) (value : Int64)
  | batchUpdate
  | step (flush : ℕ) (key : ℤ)

def step (s : State) : Action → State
  | .addNewRecord type id value => addNewRecord type id value s
  | .batchUpdate => { s with flushes := s.flushes ++ [.checking batchUpdateTypes] }
  | .step i key =>
    match s.flushes[i]? with
    | none => s
    | some flush =>
      let (s', flush') := flushStep key s flush
      { s' with flushes := s.flushes.set i flush' }

end Vancine.BatchUpdate
