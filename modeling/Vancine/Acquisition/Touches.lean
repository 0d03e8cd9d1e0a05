import Vancine.Lib.Run
import Vancine.Lib.Table
import Mathlib.Algebra.Order.Group.Int

/-!
# Acquisition touches

A touch is the first landing of a visitor, with the milestones of the funnel. `MarkAcquisitionSignupStarted` and
`BindAcquisitionTouchToUser` read the row and then send one statement; what that statement writes is computed by the
database from the row as it is then. Databases differ in what the right-hand sides of one `UPDATE` see, and both
behaviours are here.
-/

namespace Vancine.Acquisition

open Lib Lib.Table

/-! ## Rows -/

structure AcquisitionUTMFields where
  utmSource : String
  utmMedium : String
  utmCampaign : String
  utmContent : String
  utmTerm : String
  landingPath : String
  deriving DecidableEq

structure AcquisitionTouch where
  id : ℕ
  touchId : String
  userId : Option ℤ := none
  utm : AcquisitionUTMFields
  firstSeenAt : ℤ
  signupStartedAt : Option ℤ := none
  signupCompletedAt : Option ℤ := none
  createdAt : ℤ
  updatedAt : ℤ
  deriving DecidableEq

/-- `touchIDPattern`. -/
def validTouchID (touchID : String) : Bool :=
  touchID.length = 32 && touchID.toList.all fun c => ('a' ≤ c && c ≤ 'f') || ('0' ≤ c && c ≤ '9')

/-! ## Statements -/

/-- What the right-hand sides of an `UPDATE` see: the row before the statement, or the row with the columns that stand
further left already written. -/
inductive Evaluation
  | oldRow
  | leftToRight (startedFirst : Bool)
  deriving DecidableEq

/-- The expression for `signup_started_at`. -/
def startedFill (now : ℤ) (row : AcquisitionTouch) : Option ℤ :=
  row.signupStartedAt <|> match row.signupCompletedAt with
    | some completed => some (if completed < now then completed else now)
    | none => some now

/-- The expression for `signup_completed_at`; a comparison with null is not true. -/
def completedFill (now : ℤ) (row : AcquisitionTouch) : Option ℤ :=
  row.signupCompletedAt <|> match row.signupStartedAt with
    | some started => some (if started > now then started else now)
    | none => some now

def setStarted (now : ℤ) (row : AcquisitionTouch) : AcquisitionTouch :=
  { row with signupStartedAt := startedFill now row }

def setCompleted (now : ℤ) (row : AcquisitionTouch) : AcquisitionTouch :=
  { row with signupCompletedAt := completedFill now row }

/-- `acquisitionMilestoneFillUpdates` on a row. -/
def acquisitionMilestoneFillUpdates (evaluation : Evaluation) (now : ℤ) (row : AcquisitionTouch) : AcquisitionTouch :=
  match evaluation with
  | .oldRow => { row with signupStartedAt := startedFill now row, signupCompletedAt := completedFill now row }
  | .leftToRight true => setCompleted now (setStarted now row)
  | .leftToRight false => setStarted now (setCompleted now row)

/-- The statement of `MarkAcquisitionSignupStarted`. -/
def markStarted (now : ℤ) (id : ℕ) (touches : List AcquisitionTouch) : List AcquisitionTouch :=
  updateWhere (fun row => row.id = id && row.signupStartedAt.isNone)
    (fun row => { setStarted now row with updatedAt := now }) touches

/-- The statement for a touch that is bound to the user already. -/
def fillMilestones (evaluation : Evaluation) (now : ℤ) (id : ℕ) (touches : List AcquisitionTouch) :
    List AcquisitionTouch :=
  updateWhere (fun row => row.id = id && (row.signupStartedAt.isNone || row.signupCompletedAt.isNone))
    (fun row => { acquisitionMilestoneFillUpdates evaluation now row with updatedAt := now }) touches

/-- The statement of the first bind. It fails if another touch owns the user. -/
def bindUser (evaluation : Evaluation) (now : ℤ) (id : ℕ) (userID : ℤ) (touches : List AcquisitionTouch) :
    List AcquisitionTouch :=
  if touches.any fun row => row.userId = some userID then touches
  else updateWhere (fun row => row.id = id && row.userId.isNone)
    (fun row => { acquisitionMilestoneFillUpdates evaluation now row with userId := some userID, updatedAt := now })
    touches

/-! ## Calls -/

/-- A call after its reads, with the statement that it sends next. -/
inductive Call
  | mark (id : ℕ)
  | fill (id : ℕ)
  /-- Whether another touch owns the user is not known yet. -/
  | count (id : ℕ) (userID : ℤ)
  | bind (id : ℕ) (userID : ℤ)
  deriving DecidableEq

/-- `GetAcquisitionTouchByTouchID`. -/
def getAcquisitionTouchByTouchID (touchID : String) (touches : List AcquisitionTouch) : Option AcquisitionTouch :=
  if validTouchID touchID then find AcquisitionTouch.touchId touchID touches else none

/-- `MarkAcquisitionSignupStarted` up to its statement. -/
def markAcquisitionSignupStarted (touchID : String) (touches : List AcquisitionTouch) : Option Call :=
  (getAcquisitionTouchByTouchID touchID touches).map fun touch => .mark touch.id

/-- `BindAcquisitionTouchToUser` up to its first statement. -/
def bindAcquisitionTouchToUser (touchID : String) (userID : ℤ) (touches : List AcquisitionTouch) : Option Call :=
  if userID ≤ 0 then none
  else
    match getAcquisitionTouchByTouchID touchID touches with
    | none => none
    | some touch =>
      match touch.userId with
      | some owner =>
        if owner = userID ∧ (touch.signupStartedAt.isNone ∨ touch.signupCompletedAt.isNone) then some (.fill touch.id)
        else none
      | none => some (.count touch.id userID)

/-! ## Steps -/

structure State where
  touches : List AcquisitionTouch := []
  nextId : ℕ := 0
  calls : List Call := []

/-- `CreateAcquisitionTouch` of sanitized fields; a touch id that exists is refused. -/
def createAcquisitionTouch (touchID : String) (utm : AcquisitionUTMFields) (now : ℤ) (s : State) : State :=
  if (find AcquisitionTouch.touchId touchID s.touches).isSome then s
  else
    { s with
      touches := s.touches ++
        [{ id := s.nextId, touchId := touchID, utm, firstSeenAt := now, createdAt := now, updatedAt := now }]
      nextId := s.nextId + 1 }

/-- The next statement of a call: the table after it, and what is left of the call. -/
def proceed (evaluation : Evaluation) (now : ℤ) (call : Call) (touches : List AcquisitionTouch) :
    List AcquisitionTouch × Option Call :=
  match call with
  | .mark id => (markStarted now id touches, none)
  | .fill id => (fillMilestones evaluation now id touches, none)
  | .count id userID =>
    (touches, if touches.any fun row => row.userId = some userID then none else some (.bind id userID))
  | .bind id userID => (bindUser evaluation now id userID touches, none)

inductive Action
  | create (touchID : String) (utm : AcquisitionUTMFields) (now : ℤ)
  | mark (touchID : String)
  | bind (touchID : String) (userID : ℤ)
  /-- The call at a place among those under way sends its next statement. -/
  | proceed (place : ℕ) (now : ℤ) (evaluation : Evaluation)

/-- The next statement of the call at a place. -/
def proceedAt (place : ℕ) (now : ℤ) (evaluation : Evaluation) (s : State) : State :=
  match s.calls[place]? with
  | none => s
  | some call =>
    let (touches, rest) := proceed evaluation now call s.touches
    { s with touches, calls := s.calls.eraseIdx place ++ rest.toList }

def step (s : State) : Action → State
  | .create touchID utm now => createAcquisitionTouch touchID utm now s
  | .mark touchID => { s with calls := s.calls ++ (markAcquisitionSignupStarted touchID s.touches).toList }
  | .bind touchID userID => { s with calls := s.calls ++ (bindAcquisitionTouchToUser touchID userID s.touches).toList }
  | .proceed place now evaluation => proceedAt place now evaluation s

end Vancine.Acquisition
