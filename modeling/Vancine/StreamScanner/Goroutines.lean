import Vancine.Lib.Run
import Vancine.Lib.Text

/-!
# The goroutines of a stream

A scanner reads the lines of the upstream and puts their payloads into a channel, a handler takes them out, a ping keeps
the client awake, and the main goroutine waits for the end of any of them and then for all. Any interleaving is a run of
the steps below; the lock around writes keeps two of them apart that have nothing else in common.

A line is what stands between two line breaks. Counters and logs are left out but for the number of responses.
-/

namespace Vancine.StreamScanner

open Lib

/-! ## Lines -/

/-- `bufio.ScanLines` drops one carriage return. -/
def dropCR (raw : String) : String :=
  if raw.toList.getLast? = some '\r' then String.ofList raw.toList.dropLast else raw

/-- What the scanner makes of a line. -/
inductive Reading
  | skip
  | data (payload : String)
  | done

def readLine (line : String) : Reading :=
  if line.utf8ByteSize < 6 then .skip
  else if line.toList.take 5 ≠ "data:".toList ∧ line.toList.take 6 ≠ "[DONE]".toList then .skip
  else
    let data := trimSpace (String.ofList (line.toList.drop 5))
    if data = "" then .skip
    else if "[DONE]".toList <+: data.toList then .done
    else .data data

/-! ## States -/

inductive EndReason
  | done | timeout | clientGone | scannerErr | handlerStop | eof | panic | pingFail
  deriving DecidableEq

inductive Scanner
  /-- Before `scanner.Scan()`. -/
  | scanning (rest : List String)
  /-- Before the check whether to stop. -/
  | scanned (line : String) (rest : List String)
  /-- Before the payload is in the channel. -/
  | sending (payload : String) (rest : List String)
  /-- Before the channel is closed. -/
  | ending
  /-- Before `stop()`. -/
  | stopping
  | exited

inductive Handler
  | receiving
  | handling (payload : String)
  | stopping
  | exited
  deriving DecidableEq

inductive Main
  | waiting | cleaning | returned
  deriving DecidableEq

structure State where
  scanner : Scanner
  handler : Handler
  pinging : Bool
  main : Main
  /-- What is in `dataChan`. -/
  queue : List String
  dataClosed : Bool
  stopClosed : Bool
  cancelled : Bool
  bodyClosed : Bool
  /-- What `dataHandler` was called with. -/
  calls : List String
  endReason : Option EndReason
  receivedResponseCount : ℕ

/-- The limit of a line, and how the upstream ends. -/
structure Upstream where
  maxBytes : ℕ
  lines : List String
  readFails : Bool

def start (up : Upstream) (pingEnabled : Bool) : State where
  scanner := .scanning up.lines
  handler := .receiving
  pinging := pingEnabled
  main := .waiting
  queue := []
  dataClosed := false
  stopClosed := false
  cancelled := false
  bodyClosed := false
  calls := []
  endReason := none
  receivedResponseCount := 0

/-- `SetEndReason`, which does it once. -/
def State.setEndReason (s : State) (reason : EndReason) : State :=
  { s with endReason := s.endReason.or (some reason) }

def State.cleanup (s : State) : State :=
  { s with main := .cleaning, cancelled := true, stopClosed := true, bodyClosed := true }

def dataChanCapacity : ℕ := 10

/-! ## Steps -/

inductive Action
  | scan | scanAborted | check | send | giveUp | closeData | scannerStop | scannerPanic
  | receive | handle | handleStop (reason : EndReason) | handlePanic | handlerStop
  | pingSent | pingFailed | pingLeaves | pingExpires | pingPanic
  | stopSeen | timeout | clientGone | finish

/-- A step of one goroutine, where it can be taken. -/
def next (up : Upstream) (s : State) : Action → Option State
  | .scan =>
    match s.scanner with
    | .scanning [] => some { s.setEndReason (if up.readFails then .scannerErr else .eof) with scanner := .ending }
    | .scanning (raw :: rest) =>
      if up.maxBytes ≤ raw.utf8ByteSize then some { s.setEndReason .scannerErr with scanner := .ending }
      else some { s with scanner := .scanned (dropCR raw) rest }
    | _ => none
  | .scanAborted =>
    match s.scanner with
    | .scanning _ => if s.bodyClosed then some { s.setEndReason .scannerErr with scanner := .ending } else none
    | _ => none
  | .check =>
    match s.scanner with
    | .scanned line rest =>
      if s.stopClosed ∨ s.cancelled then some { s with scanner := .ending }
      else
        match readLine line with
        | .skip => some { s with scanner := .scanning rest }
        | .data payload =>
          some { s with scanner := .sending payload rest, receivedResponseCount := s.receivedResponseCount + 1 }
        | .done => some { s.setEndReason .done with scanner := .ending }
    | _ => none
  | .send =>
    match s.scanner with
    | .sending payload rest =>
      if s.queue.length < dataChanCapacity then
        some { s with scanner := .scanning rest, queue := s.queue ++ [payload] }
      else none
    | _ => none
  | .giveUp =>
    match s.scanner with
    | .sending _ _ => if s.stopClosed ∨ s.cancelled then some { s with scanner := .ending } else none
    | _ => none
  | .closeData =>
    match s.scanner with
    | .ending => some { s with scanner := .stopping, dataClosed := true }
    | _ => none
  | .scannerStop =>
    match s.scanner with
    | .stopping => some { s with scanner := .exited, stopClosed := true }
    | _ => none
  | .scannerPanic =>
    match s.scanner with
    | .scanning _ | .scanned _ _ | .sending _ _ =>
      some { s.setEndReason .panic with scanner := .stopping, dataClosed := true }
    | _ => none
  | .receive =>
    match s.handler, s.queue with
    | .receiving, payload :: queue => some { s with handler := .handling payload, queue }
    | .receiving, [] => if s.dataClosed then some { s with handler := .stopping } else none
    | _, _ => none
  | .handle =>
    match s.handler with
    | .handling payload => some { s with handler := .receiving, calls := s.calls ++ [payload] }
    | _ => none
  | .handleStop reason =>
    match s.handler with
    | .handling payload => some { s.setEndReason reason with handler := .stopping, calls := s.calls ++ [payload] }
    | _ => none
  | .handlePanic =>
    match s.handler with
    | .handling payload => some { s.setEndReason .panic with handler := .stopping, calls := s.calls ++ [payload] }
    | _ => none
  | .handlerStop =>
    match s.handler with
    | .stopping => some { s with handler := .exited, stopClosed := true }
    | _ => none
  | .pingSent => if s.pinging then some s else none
  | .pingFailed => if s.pinging then some { s.setEndReason .pingFail with pinging := false } else none
  | .pingLeaves =>
    if s.pinging ∧ (s.cancelled ∨ s.stopClosed) then some { s with pinging := false } else none
  | .pingExpires => if s.pinging then some { s with pinging := false } else none
  | .pingPanic =>
    if s.pinging then some { s.setEndReason .panic with pinging := false, stopClosed := true } else none
  | .stopSeen => if s.main = .waiting ∧ s.stopClosed then some s.cleanup else none
  | .timeout => if s.main = .waiting then some (s.setEndReason .timeout).cleanup else none
  | .clientGone => if s.main = .waiting then some (s.setEndReason .clientGone).cleanup else none
  | .finish =>
    match s.main, s.scanner, s.handler, s.pinging with
    | .cleaning, .exited, .exited, false => some { s with main := .returned }
    | _, _, _, _ => none

/-- No timeout, disconnect, panic or handler stop. -/
def Action.Quiet : Action → Prop
  | .scannerPanic | .handleStop _ | .handlePanic | .pingPanic | .timeout | .clientGone => False
  | _ => True

/-- What can be reached by steps that satisfy a test. -/
inductive Reaches (up : Upstream) (p : Action → Prop) (s : State) : State → Prop
  | refl : Reaches up p s s
  | step {t u : State} {a : Action} (hrest : Reaches up p s t) (ha : p a) (h : next up t a = some u) : Reaches up p s u

end Vancine.StreamScanner
