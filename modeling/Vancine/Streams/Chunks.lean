import Vancine.Lib.Json

/-!
# Chunks of a chat stream

The parts of a chat completions chunk that the stream converters read.
-/

namespace Vancine.Streams

open Lib

/-- `json.RawMessage`: the bytes, and the value that they decode to if they are JSON. -/
structure Raw where
  text : String
  decoded : Option Json

/-- No bytes. -/
def Raw.empty : Raw := ⟨"", none⟩

structure FunctionResponse where
  name : String
  arguments : String
  deriving DecidableEq

structure ToolCallResponse where
  index : Option ℤ
  id : String
  function : FunctionResponse

structure ChoiceDelta where
  content : Option String := none
  reasoningContent : Option String := none
  reasoning : Option String := none
  toolCalls : List ToolCallResponse := []
  annotations : Raw := .empty

def ChoiceDelta.getContentString (d : ChoiceDelta) : String := d.content.getD ""

def ChoiceDelta.getReasoningContent (d : ChoiceDelta) : String := (d.reasoningContent <|> d.reasoning).getD ""

structure Choice where
  delta : ChoiceDelta
  finishReason : Option String

/-- `dto.ChatCompletionsStreamResponse`, over any type of usage. -/
structure ChatChunk (U : Type) where
  id : String
  model : String
  created : ℤ
  choices : List Choice
  usage : Option U

/-! ## Steps of a converter -/

/-- A step: the state after it, and what it sends. -/
abbrev Sender (S E : Type) := S → S × List E

namespace Sender

variable {S E : Type}

def none : Sender S E := fun s => (s, [])

def andThen (first second : Sender S E) : Sender S E := fun s =>
  let (s, events) := first s
  let (s, events') := second s
  (s, events ++ events')

/-- One step for each element of a list. -/
def each {α : Type} (f : α → Sender S E) : List α → Sender S E
  | [] => none
  | a :: as => (f a).andThen (each f as)

theorem andThen_fst (m m' : Sender S E) (s : S) : (m.andThen m' s).1 = (m' (m s).1).1 := rfl

theorem andThen_snd (m m' : Sender S E) (s : S) : (m.andThen m' s).2 = (m s).2 ++ (m' (m s).1).2 := rfl

end Sender

end Vancine.Streams
