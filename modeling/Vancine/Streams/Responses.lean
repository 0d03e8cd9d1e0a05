import Vancine.Streams.Chunks

/-!
# Events of the Responses API

The events of a Responses stream, the output items in them, and the final response. Arguments and outputs of calls
are JSON strings, which are held as the texts that they stand for.
-/

namespace Vancine.Streams.Responses

open Lib

/-- The provider-hosted calls that a stream can carry. -/
inductive HostedType
  | webSearchCall | mcpCall
  deriving DecidableEq

inductive OutputType
  | message | reasoning | functionCall
  | hosted (type : HostedType)
  deriving DecidableEq

inductive Status
  | inProgress | completed | incomplete | failed
  deriving DecidableEq

structure WebSearchAction where
  type : String
  query : String
  queries : List String
  sources : Option Json
  url : String
  pattern : String

/-- A content part of type `output_text`. -/
structure OutputContent where
  text : String
  annotations : List Json

structure Output where
  type : OutputType
  id : String
  status : Status
  role : String := ""
  content : List OutputContent := []
  /-- Parts of type `summary_text`. -/
  summary : List String := []
  callId : String := ""
  name : String := ""
  arguments : Option String := none
  action : Option WebSearchAction := none
  serverLabel : String := ""
  output : Option String := none
  itemError : Option String := none

structure ResponseError where
  code : String
  message : String

structure Response (U : Type) where
  id : String
  createdAt : ℤ
  status : Status
  error : Option ResponseError := none
  incompleteDetails : Option String := none
  model : String
  output : List Output
  usage : Option U := none

/-- What follows the prefix of a hosted call in the name of an event. -/
inductive HostedPhase
  | inProgress | searching | completed | failed
  deriving DecidableEq

inductive EventType
  | created | completed | incomplete | failed | error
  | outputItemAdded | outputItemDone
  | outputTextDelta | outputTextDone | outputTextAnnotationAdded
  | functionArgsDelta | functionArgsDone
  | reasoningSummaryDelta | reasoningSummaryDone
  | hosted (type : HostedType) (phase : HostedPhase)
  | mcpCallArgumentsDelta | mcpCallArgumentsDone
  deriving DecidableEq

/-- `dto.ResponsesStreamResponse` without its type and number. -/
structure Payload (U : Type) where
  response : Option (Response U) := none
  code : String := ""
  message : String := ""
  param : String := ""
  delta : String := ""
  arguments : Option String := none
  name : String := ""
  text : Option String := none
  item : Option Output := none
  annotation : Option Json := none
  annotationIndex : Option ℕ := none
  outputIndex : Option ℕ := none
  contentIndex : Option ℕ := none
  summaryIndex : Option ℕ := none
  itemID : String := ""
  part : Option String := none

structure Event (U : Type) where
  type : EventType
  sequenceNumber : Option ℕ
  payload : Payload U

end Vancine.Streams.Responses
