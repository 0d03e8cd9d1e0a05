import Vancine.Lib.Run
import Vancine.Lib.RowLocks
import Vancine.ModelPricing.Values

/-!
# Updates of prices

`UpdateModelPricing` runs in one transaction: it reads the eleven options and locks the rows that are there, inserts the
rows that are missing, applies its changes to what it has read, and writes all options back. A process makes one update
at a time; the transactions of several processes interleave at their statements. A statement that needs a row of another
transaction waits, and sees what is committed by then.
-/

namespace Vancine.ModelPricing

open Lib

structure ModelPricingChange (ν : Type) where
  modelName : String
  /-- Missing when it is empty. -/
  expectedVersion : Option ν
  pricing : PricingValues
  reset : Bool := false

/-- The hash of the encoded prices, the built-in prices and expressions, what the plugins and the compiler say to an
expression, and whether the relay loads the options. -/
structure PricingLibrary (ν : Type) where
  modelPricingVersion : PricingValues → ν
  defaults : PricingOption → Entries
  builtin : Dict String
  /-- The plugin is there and declares the model. -/
  declares : String → String → Bool
  /-- The keys of plugins were checked when their manifests were read. -/
  declares_valid : ∀ key name, declares key name = true → validPluginKey key = true
  smokeTestTaskExpr : String → String → String → Bool
  /-- A model expression, next to the drafted variants and the previous expression. -/
  acceptsExpr : String → Entries → Option PricingValue → String → Bool
  loads : PricingMaps → Bool

inductive UpdateResult
  | saved
  | loadFailed
  | nothingSelected
  | duplicateChange
  | conflict
  | invalid
  | failed
  deriving DecidableEq

section Mutate

variable {ν : Type} (lib : PricingLibrary ν)

/-- `defaultPricingMaps`: there are no built-in expressions of plugins among them. -/
def defaultPricingMaps : PricingMaps
  | .of option => lib.defaults option
  | .pluginBillingExpr => ∅

def validVariant (name : String) (previous : PricingValues) (key : String) : PricingValue → Bool
  | .text expression =>
    trimSpace expression ≠ "" &&
      if lib.declares key name then lib.smokeTestTaskExpr key name expression
      else decide (previous.variants[key]? = some (.text expression))
  | _ => false

def validOption (name : String) (values previous : PricingValues) : PricingOption → PricingValue → Bool
  | .billingMode, value => decide (value = .text "ratio") || decide (value = .text "tiered_expr")
  | .billingExpr, .text expression =>
    trimSpace expression ≠ "" && lib.acceptsExpr name values.variants (previous.option .billingExpr) expression
  | .billingExpr, _ => false
  | _, .number x => decide (0 ≤ x)
  | _, _ => false

/-- `validateModelPricing` finds nothing wrong. -/
def validateModelPricing (name : String) (values previous : PricingValues) : Bool :=
  trimSpace name ≠ "" && values.variants.toList.all (fun (key, value) => validVariant lib name previous key value) &&
    pricingOptions.all (fun option => (values.option option).all (validOption lib name values previous option)) &&
    (!decide (values.option .billingMode = some (.text "tiered_expr")) || (values.option .billingExpr).isSome ||
      lib.builtin[name]?.isSome)

/-- What a change asks for. -/
def ModelPricingChange.draft (change : ModelPricingChange ν) : PricingValues :=
  if change.reset then modelPricingValues (defaultPricingMaps lib) change.modelName else change.pricing

/-- One change of `UpdateModelPricing`, on the options as they have been read. -/
def applyChange [DecidableEq ν] (values : PricingMaps) (change : ModelPricingChange ν) :
    Except UpdateResult PricingMaps :=
  let previous := modelPricingValues values change.modelName
  if change.expectedVersion ≠ some (lib.modelPricingVersion previous) then .error .conflict
  else if validateModelPricing lib change.modelName (change.draft lib) previous then
    .ok (replaceModelPricing values change.modelName (change.draft lib))
  else .error .invalid

def mutate [DecidableEq ν] (values : PricingMaps) (changes : List (ModelPricingChange ν)) :
    Except UpdateResult PricingMaps :=
  changes.foldlM (applyChange lib) values

def checkEach (seen : List String) : List (ModelPricingChange ν) → Option UpdateResult
  | [] => none
  | change :: rest =>
    if change.modelName ∈ seen then some .duplicateChange
    else if change.expectedVersion.isNone then some .conflict
    else checkEach (change.modelName :: seen) rest

/-- The checks before the transaction. -/
def checkChanges (changes : List (ModelPricingChange ν)) : Option UpdateResult :=
  if changes.isEmpty then some .nothingSelected else checkEach [] changes

end Mutate

/-! ## Transactions -/

/-- The rows of the options. A row that is not a JSON object has no entries. -/
abbrev OptionTable := OptionKey → Option (Option Entries)

/-- The statement that an update is about to make. `inserting` has the rows that were missing, `updating` the rows that
are still to be written. -/
inductive UpdatePhase
  | waiting
  | reading
  | inserting (values : PricingMaps) (missing : List OptionKey)
  | updating (values : PricingMaps) (rest : List OptionKey)
  | returned (result : UpdateResult)

structure Update (ν : Type) where
  process : ℕ
  changes : List (ModelPricingChange ν)
  phase : UpdatePhase

structure PricingState (ν : Type) where
  table : OptionTable
  calls : List (Update ν) := []
  locks : RowLocks OptionKey := []

/-- A call comes in, or goes on; the database can fail. -/
inductive UpdateAction (ν : Type)
  | call (process : ℕ) (changes : List (ModelPricingChange ν))
  | proceed (call : ℕ) (fails : Bool)

/-- The call has the mutex of its process. -/
def UpdatePhase.hasMutex : UpdatePhase → Bool
  | .waiting => false
  | .returned _ => false
  | _ => true

def UpdatePhase.result : UpdatePhase → Option UpdateResult
  | .returned result => some result
  | _ => none

section Steps

variable {ν : Type} (lib : PricingLibrary ν)

/-- The options that the rows stand for; a row that is missing has its default. -/
def storedMaps (table : OptionTable) : PricingMaps := fun key =>
  match table key with
  | some (some entries) => entries
  | _ => defaultPricingMaps lib key

/-- `readModelPricingMaps`: one row that is no object is enough to fail. -/
def readModelPricingMaps (table : OptionTable) : Option PricingMaps :=
  if modelPricingOptionKeys.any fun key => table key = some none then none else some (storedMaps lib table)

def missingKeys (table : OptionTable) : List OptionKey := modelPricingOptionKeys.filter fun key => (table key).isNone

namespace PricingState

variable (s : PricingState ν) (i : ℕ)

/-- A transaction that ends gives its locks back. -/
def goto (phase : UpdatePhase) : PricingState ν :=
  { s with
    calls := s.calls.modify i fun update => { update with phase }
    locks := if phase.result.isSome then s.locks.release i else s.locks }

def lock (keys : List OptionKey) : PricingState ν := { s with locks := s.locks.lock i keys }

/-- Another update of the process is under way. -/
def mutexTaken (process : ℕ) : Bool :=
  s.calls.any fun update => decide (update.process = process) && update.phase.hasMutex

end PricingState

/-- The next statement of a call. -/
def proceedAt [DecidableEq ν] (s : PricingState ν) (i : ℕ) (update : Update ν) : PricingState ν :=
  match update.phase with
  | .waiting => if s.mutexTaken update.process then s else s.goto i .reading
  | .reading =>
    if modelPricingOptionKeys.any fun key => (s.table key).isSome && s.locks.heldByOther i key then s
    else
      match readModelPricingMaps lib s.table with
      | none => s.goto i (.returned .failed)
      | some values =>
        (s.lock i (modelPricingOptionKeys.filter fun key => (s.table key).isSome)).goto i
          (.inserting values (missingKeys s.table))
  | .inserting values (key :: missing) =>
    if s.locks.heldByOther i key then s
    -- `ON CONFLICT DO NOTHING`
    else if (s.table key).isSome then s.goto i (.inserting values missing)
    else (s.lock i [key]).goto i (.inserting values missing)
  | .inserting values [] =>
    match mutate lib values update.changes with
    | .error result => s.goto i (.returned result)
    | .ok values => s.goto i (.updating values modelPricingOptionKeys)
  | .updating values (key :: rest) =>
    if s.locks.heldByOther i key then s else (s.lock i [key]).goto i (.updating values rest)
  | .updating values [] =>
    { s with table := fun key => some (some (values key)) }.goto i
      (.returned (if lib.loads values then .saved else .loadFailed))
  | .returned _ => s

def updateStep [DecidableEq ν] (s : PricingState ν) : UpdateAction ν → PricingState ν
  | .call process changes =>
    { s with calls := s.calls ++ [{ process, changes, phase := match checkChanges changes with
        | some result => .returned result
        | none => .waiting }] }
  | .proceed i fails =>
    match s.calls[i]? with
    | none => s
    | some update =>
      if fails ∧ update.phase.hasMutex then s.goto i (.returned .failed) else proceedAt lib s i update

end Steps

end Vancine.ModelPricing
