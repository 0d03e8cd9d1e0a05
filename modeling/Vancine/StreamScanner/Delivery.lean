import Vancine.StreamScanner.Payloads

/-!
# Delivery

In runs without a timeout, a disconnect, a panic or a handler stop, every payload the scanner reads is handled once and
in order, whatever the other goroutines do in between, and the end is always reached.
-/

namespace Vancine.StreamScanner

open Lib

/-! ## The invariant -/

/-- What the scanner has still to put into the channel. -/
def Scanner.pending (maxBytes : ℕ) : Scanner → List String
  | .scanning rest => delivered maxBytes rest
  | .scanned line rest =>
    match readLine line with
    | .skip => delivered maxBytes rest
    | .data payload => payload :: delivered maxBytes rest
    | .done => []
  | .sending payload rest => payload :: delivered maxBytes rest
  | .ending | .stopping | .exited => []

/-- The payload the handler is busy with. -/
def Handler.held : Handler → List String
  | .handling payload => [payload]
  | .receiving | .stopping | .exited => []

/-- The scanner is done with the channel. -/
def Scanner.Closed : Scanner → Prop
  | .stopping | .exited => True
  | .scanning _ | .scanned _ _ | .sending _ _ | .ending => False

/-- The handler is done with the channel. -/
def Handler.Over : Handler → Prop
  | .stopping | .exited => True
  | .receiving | .handling _ => False

/-- What a quiet run keeps. -/
structure Kept (up : Upstream) (s : State) : Prop where
  order : s.calls ++ s.handler.held ++ s.queue ++ s.scanner.pending up.maxBytes = delivered up.maxBytes up.lines
  closed : s.dataClosed ↔ s.scanner.Closed
  stopped : s.stopClosed → s.dataClosed
  cancelled : s.cancelled → s.stopClosed
  body : s.bodyClosed → s.stopClosed
  scannerExited : s.scanner = .exited → s.stopClosed
  handlerOver : s.handler.Over → s.dataClosed ∧ s.queue = []
  main : s.main ≠ .waiting → s.stopClosed
  returned : s.main = .returned → s.scanner = .exited ∧ s.handler = .exited

theorem kept_start (up : Upstream) (pingEnabled : Bool) : Kept up (start up pingEnabled) where
  order := rfl
  closed := by simp [start, Scanner.Closed]
  stopped h := by cases h
  cancelled h := by cases h
  body h := by cases h
  scannerExited h := by cases h
  handlerOver h := by cases h
  main h := absurd rfl h
  returned h := by cases h

variable {up : Upstream} {s : State}

theorem Kept.open (h : Kept up s) (hopen : ¬ s.scanner.Closed) :
    s.stopClosed = false ∧ s.cancelled = false ∧ s.bodyClosed = false := by
  have hstop : s.stopClosed = false := Bool.eq_false_iff.mpr fun hs => hopen (h.closed.mp (h.stopped hs))
  exact ⟨hstop, Bool.eq_false_iff.mpr fun hc => by simp [h.cancelled hc] at hstop,
    Bool.eq_false_iff.mpr fun hb => by simp [h.body hb] at hstop⟩

theorem Kept.waiting (h : Kept up s) (hopen : ¬ s.scanner.Closed) : s.main = .waiting := by
  by_contra hmain
  have := h.main hmain
  rw [(h.open hopen).1] at this
  cases this

theorem not_over (h : Kept up s) (hopen : ¬ s.scanner.Closed) : ¬ s.handler.Over :=
  fun hover => hopen (h.closed.mp (h.handlerOver hover).1)

/-! ## Steps of one goroutine -/

section Steps

variable {up : Upstream} {s t : State}

attribute [local simp] next

/-- The scanner moves, and nothing is lost between it and the channel. -/
theorem Kept.scannerMoves (h : Kept up s) (hopen : ¬ s.scanner.Closed)
    (hpending : t.queue ++ t.scanner.pending up.maxBytes = s.queue ++ s.scanner.pending up.maxBytes)
    (hclosed : t.dataClosed ↔ t.scanner.Closed) (hexited : t.scanner ≠ .exited) (hhandler : t.handler = s.handler)
    (hcalls : t.calls = s.calls) (hmain : t.main = s.main) (hstop : t.stopClosed = s.stopClosed)
    (hcancelled : t.cancelled = s.cancelled) (hbody : t.bodyClosed = s.bodyClosed) : Kept up t := by
  obtain ⟨hs, hc, hb⟩ := h.open hopen
  have hwaiting := h.waiting hopen
  constructor
  case order => rw [hcalls, hhandler, List.append_assoc, hpending, ← List.append_assoc, h.order]
  case closed => exact hclosed
  case stopped => simp [hstop, hs]
  case cancelled => simp [hcancelled, hc]
  case body => simp [hbody, hb]
  case scannerExited => exact fun hx => absurd hx hexited
  case handlerOver => exact fun hover => absurd (hhandler ▸ hover) (not_over h hopen)
  case main => exact fun hm => absurd (hmain.trans hwaiting) hm
  case returned =>
    intro hm
    rw [hmain, hwaiting] at hm
    cases hm

theorem Kept.handlerMoves (h : Kept up s) (hactive : s.handler ≠ .exited)
    (horder : t.calls ++ t.handler.held ++ t.queue = s.calls ++ s.handler.held ++ s.queue)
    (hover : t.handler.Over → t.dataClosed ∧ t.queue = []) (hscanner : t.scanner = s.scanner)
    (hdata : t.dataClosed = s.dataClosed) (hmain : t.main = s.main) (hstop : s.stopClosed → t.stopClosed)
    (hstopped : t.stopClosed → t.dataClosed) (hcancelled : t.cancelled = s.cancelled)
    (hbody : t.bodyClosed = s.bodyClosed) : Kept up t := by
  constructor
  case order => rw [horder, hscanner, h.order]
  case closed => rw [hdata, hscanner, h.closed]
  case stopped => exact hstopped
  case cancelled => exact fun hc => hstop (h.cancelled (hcancelled ▸ hc))
  case body => exact fun hb => hstop (h.body (hbody ▸ hb))
  case scannerExited => exact fun hx => hstop (h.scannerExited (hscanner ▸ hx))
  case handlerOver => exact hover
  case main => exact fun hm => hstop (h.main (hmain ▸ hm))
  case returned => exact fun hm => absurd (h.returned (hmain ▸ hm)).2 hactive

theorem Kept.othersMove (h : Kept up s) (hscanner : t.scanner = s.scanner) (hhandler : t.handler = s.handler)
    (hqueue : t.queue = s.queue) (hcalls : t.calls = s.calls) (hdata : t.dataClosed = s.dataClosed)
    (hstop : t.stopClosed = s.stopClosed) (hcancelled : t.cancelled → s.stopClosed)
    (hbody : t.bodyClosed → s.stopClosed) (hmain : t.main ≠ .waiting → s.stopClosed)
    (hreturned : t.main = .returned → s.scanner = .exited ∧ s.handler = .exited) : Kept up t := by
  constructor
  case order => rw [hscanner, hhandler, hqueue, hcalls, h.order]
  case closed => rw [hdata, hscanner, h.closed]
  case stopped => rw [hdata, hstop]; exact h.stopped
  case cancelled => rwa [hstop]
  case body => rwa [hstop]
  case scannerExited => rw [hscanner, hstop]; exact h.scannerExited
  case handlerOver => rw [hhandler, hdata, hqueue]; exact h.handlerOver
  case main => rwa [hstop]
  case returned => rwa [hscanner, hhandler]

theorem Kept.scan (h : Kept up s) (hstep : next up s .scan = some t) : Kept up t := by
  simp only [next] at hstep
  split at hstep
  next hs =>
    have hopen : ¬ s.scanner.Closed := by rw [hs]; exact id
    have hdata : ¬ s.dataClosed := fun hd => hopen (h.closed.mp hd)
    cases hstep
    exact h.scannerMoves hopen (by rw [hs]; rfl) (iff_of_false hdata id) (by simp) rfl rfl rfl rfl rfl rfl
  next raw rest hs =>
    have hopen : ¬ s.scanner.Closed := by rw [hs]; exact id
    have hdata : ¬ s.dataClosed := fun hd => hopen (h.closed.mp hd)
    split at hstep
    next hlong =>
      cases hstep
      refine h.scannerMoves hopen ?_ (iff_of_false hdata id) (by simp) rfl rfl rfl rfl rfl rfl
      rw [hs, Scanner.pending, Scanner.pending, delivered, if_pos hlong]
      rfl
    next hlong =>
      cases hstep
      have hrest : delivered up.maxBytes (raw :: rest) = (Scanner.scanned (dropCR raw) rest).pending up.maxBytes := by
        rw [delivered, if_neg hlong]
        rfl
      refine h.scannerMoves hopen ?_ (iff_of_false hdata id) (by simp) rfl rfl rfl rfl rfl rfl
      rw [hs]
      exact congrArg _ hrest.symm
  · cases hstep

theorem Kept.scanAborted (h : Kept up s) (hstep : next up s .scanAborted = some t) : Kept up t := by
  simp only [next] at hstep
  split at hstep
  next hs =>
    -- the body is closed only after the scanner is done
    have hbody := (h.open (by rw [hs]; exact id)).2.2
    rw [if_neg (by simp [hbody])] at hstep
    cases hstep
  · cases hstep

theorem Kept.check (h : Kept up s) (hstep : next up s .check = some t) : Kept up t := by
  simp only [next] at hstep
  split at hstep
  next line rest hs =>
    have hopen : ¬ s.scanner.Closed := by rw [hs]; exact id
    have hdata : ¬ s.dataClosed := fun hd => hopen (h.closed.mp hd)
    obtain ⟨hstop, hcancelled, -⟩ := h.open hopen
    rw [if_neg (by simp [hstop, hcancelled])] at hstep
    split at hstep
    next hread =>
      cases hstep
      refine h.scannerMoves hopen ?_ (iff_of_false hdata id) (by simp) rfl rfl rfl rfl rfl rfl
      simp only [hs, Scanner.pending, hread]
    next payload hread =>
      cases hstep
      refine h.scannerMoves hopen ?_ (iff_of_false hdata id) (by simp) rfl rfl rfl rfl rfl rfl
      simp only [hs, Scanner.pending, hread]
    next hread =>
      cases hstep
      refine h.scannerMoves hopen ?_ (iff_of_false hdata id) (by simp) rfl rfl rfl rfl rfl rfl
      simp only [hs, Scanner.pending, hread, State.setEndReason]
  · cases hstep

theorem Kept.send (h : Kept up s) (hstep : next up s .send = some t) : Kept up t := by
  simp only [next] at hstep
  split at hstep
  next payload rest hs =>
    have hopen : ¬ s.scanner.Closed := by rw [hs]; exact id
    have hdata : ¬ s.dataClosed := fun hd => hopen (h.closed.mp hd)
    split at hstep
    · cases hstep
      refine h.scannerMoves hopen ?_ (iff_of_false hdata id) (by simp) rfl rfl rfl rfl rfl rfl
      rw [hs, Scanner.pending, Scanner.pending, List.append_assoc]
      rfl
    · cases hstep
  · cases hstep

theorem Kept.giveUp (h : Kept up s) (hstep : next up s .giveUp = some t) : Kept up t := by
  simp only [next] at hstep
  split at hstep
  next hs =>
    obtain ⟨hstop, hcancelled, -⟩ := h.open (by rw [hs]; exact id)
    rw [if_neg (by simp [hstop, hcancelled])] at hstep
    cases hstep
  · cases hstep

theorem Kept.closeData (h : Kept up s) (hstep : next up s .closeData = some t) : Kept up t := by
  simp only [next] at hstep
  split at hstep
  next hs =>
    cases hstep
    exact h.scannerMoves (by rw [hs]; exact id) (by rw [hs]; rfl) (iff_of_true rfl trivial) (by simp) rfl rfl rfl rfl
      rfl rfl
  · cases hstep

theorem Kept.scannerStop (h : Kept up s) (hstep : next up s .scannerStop = some t) : Kept up t := by
  simp only [next] at hstep
  split at hstep
  next hs =>
    have hclosed : s.dataClosed := h.closed.mpr (by rw [hs]; exact trivial)
    cases hstep
    constructor
    case order =>
      have horder := h.order
      rwa [hs] at horder
    case closed => exact iff_of_true hclosed trivial
    case stopped => exact fun _ => hclosed
    case cancelled => exact fun _ => rfl
    case body => exact fun _ => rfl
    case scannerExited => exact fun _ => rfl
    case handlerOver => exact h.handlerOver
    case main => exact fun _ => rfl
    case returned =>
      intro hm
      have := (h.returned hm).1
      rw [hs] at this
      cases this
  · cases hstep

theorem Kept.receive (h : Kept up s) (hstep : next up s .receive = some t) : Kept up t := by
  simp only [next] at hstep
  split at hstep
  next payload queue hhandler hqueue =>
    cases hstep
    refine h.handlerMoves (by simp [hhandler]) ?_ (fun hover => hover.elim) rfl rfl rfl id h.stopped rfl rfl
    simp only [hhandler, hqueue, Handler.held, List.append_nil, List.append_assoc, List.singleton_append]
  next hhandler hqueue =>
    split at hstep
    next hdata =>
      cases hstep
      refine h.handlerMoves (by simp [hhandler]) ?_ (fun _ => ⟨hdata, hqueue⟩) rfl rfl rfl id h.stopped rfl rfl
      rw [hhandler]
      rfl
    · cases hstep
  · cases hstep

theorem Kept.handle (h : Kept up s) (hstep : next up s .handle = some t) : Kept up t := by
  simp only [next] at hstep
  split at hstep
  next payload hhandler =>
    cases hstep
    refine h.handlerMoves (by simp [hhandler]) ?_ (fun hover => hover.elim) rfl rfl rfl id h.stopped rfl rfl
    simp only [hhandler, Handler.held, List.append_nil]
  · cases hstep

theorem Kept.handlerStop (h : Kept up s) (hstep : next up s .handlerStop = some t) : Kept up t := by
  simp only [next] at hstep
  split at hstep
  next hhandler =>
    -- a quiet handler ends only when the channel is closed and empty
    have hover := h.handlerOver (by rw [hhandler]; exact trivial)
    cases hstep
    refine h.handlerMoves (by simp [hhandler]) ?_ (fun _ => hover) rfl rfl rfl (fun _ => rfl) (fun _ => hover.1) rfl
      rfl
    rw [hhandler]
    rfl
  · cases hstep

theorem Kept.stopSeen (h : Kept up s) (hstep : next up s .stopSeen = some t) : Kept up t := by
  simp only [next] at hstep
  split at hstep
  next hs =>
    cases hstep
    exact h.othersMove rfl rfl rfl rfl rfl hs.2.symm (fun _ => hs.2) (fun _ => hs.2) (fun _ => hs.2)
      (by simp [State.cleanup])
  · cases hstep

theorem Kept.finish (h : Kept up s) (hstep : next up s .finish = some t) : Kept up t := by
  simp only [next] at hstep
  split at hstep
  next hmain hscanner hhandler hpinging =>
    cases hstep
    exact h.othersMove rfl rfl rfl rfl rfl rfl h.cancelled h.body (fun _ => h.main (by simp [hmain]))
      fun _ => ⟨hscanner, hhandler⟩
  · cases hstep

end Steps

variable {a : Action} {p : Action → Prop}

theorem Kept.step {s t : State} (h : Kept up s) (ha : a.Quiet) (hstep : next up s a = some t) : Kept up t := by
  cases a with
  | scan => exact h.scan hstep
  | scanAborted => exact h.scanAborted hstep
  | check => exact h.check hstep
  | send => exact h.send hstep
  | giveUp => exact h.giveUp hstep
  | closeData => exact h.closeData hstep
  | scannerStop => exact h.scannerStop hstep
  | receive => exact h.receive hstep
  | handle => exact h.handle hstep
  | handlerStop => exact h.handlerStop hstep
  | stopSeen => exact h.stopSeen hstep
  | finish => exact h.finish hstep
  | pingSent | pingFailed | pingLeaves | pingExpires =>
    simp only [next] at hstep
    split at hstep
    · cases hstep
      exact h.othersMove rfl rfl rfl rfl rfl rfl h.cancelled h.body h.main h.returned
    · cases hstep
  | scannerPanic | handleStop _ | handlePanic | pingPanic | timeout | clientGone => exact ha.elim

theorem kept_of_reaches {pingEnabled : Bool} (h : Reaches up Action.Quiet (start up pingEnabled) s) : Kept up s := by
  induction h with
  | refl => exact kept_start up pingEnabled
  | step _ ha hstep ih => exact ih.step ha hstep

/-- What was handled is always a beginning of what the scanner delivers. -/
theorem Kept.calls_prefix (h : Kept up s) : s.calls <+: delivered up.maxBytes up.lines :=
  ⟨s.handler.held ++ s.queue ++ s.scanner.pending up.maxBytes, by rw [← h.order]; simp⟩

theorem Kept.calls_returned (h : Kept up s) (hmain : s.main = .returned) :
    s.calls = delivered up.maxBytes up.lines := by
  obtain ⟨hscanner, hhandler⟩ := h.returned hmain
  have hqueue : s.queue = [] := (h.handlerOver (by rw [hhandler]; exact trivial)).2
  have horder := h.order
  rw [hscanner, hhandler, hqueue] at horder
  simpa [Handler.held, Scanner.pending] using horder

/-! ## The end of a run -/

/-- The steps each goroutine may still take. -/
def Scanner.left : Scanner → ℕ
  | .scanning rest => 6 * rest.length + 3
  | .scanned _ rest => 6 * rest.length + 8
  | .sending _ rest => 6 * rest.length + 7
  | .ending => 2
  | .stopping => 1
  | .exited => 0

def Handler.left : Handler → ℕ
  | .receiving => 2
  | .handling _ => 4
  | .stopping => 1
  | .exited => 0

def Main.left : Main → ℕ
  | .waiting => 2
  | .cleaning => 1
  | .returned => 0

def State.left (s : State) : ℕ :=
  s.scanner.left + 3 * s.queue.length + s.handler.left + s.main.left + s.pinging.toNat

theorem left_lt {s t : State} (ha : a.Quiet) (hping : a ≠ .pingSent) (hstep : next up s a = some t) :
    t.left < s.left := by
  unfold State.left
  cases a with
  | scan =>
    simp only [next] at hstep
    split at hstep
    next hs =>
      cases hstep
      simp only [State.setEndReason, hs, Scanner.left, List.length_nil]
      omega
    next raw rest hs =>
      split at hstep <;> cases hstep <;>
        (simp only [State.setEndReason, hs, Scanner.left, List.length_cons]; omega)
    · cases hstep
  | check =>
    simp only [next] at hstep
    split at hstep
    next line rest hs =>
      split at hstep
      next =>
        cases hstep
        simp only [hs, Scanner.left]
        omega
      next =>
        split at hstep <;> cases hstep <;> (simp only [State.setEndReason, hs, Scanner.left]; omega)
    · cases hstep
  | scanAborted | giveUp =>
    simp only [next] at hstep
    split at hstep
    next hs =>
      split at hstep
      · cases hstep
        simp only [State.setEndReason, hs, Scanner.left]
        omega
      · cases hstep
    · cases hstep
  | send =>
    simp only [next] at hstep
    split at hstep
    next payload rest hs =>
      split at hstep
      · cases hstep
        simp only [hs, Scanner.left, List.length_append, List.length_singleton]
        omega
      · cases hstep
    · cases hstep
  | closeData | scannerStop =>
    simp only [next] at hstep
    split at hstep
    next hs =>
      cases hstep
      simp only [hs, Scanner.left]
      omega
    · cases hstep
  | receive =>
    simp only [next] at hstep
    split at hstep
    next payload queue hhandler hqueue =>
      cases hstep
      simp only [hhandler, hqueue, Handler.left, List.length_cons]
      omega
    next hhandler hqueue =>
      split at hstep
      · cases hstep
        simp only [hhandler, Handler.left]
        omega
      · cases hstep
    · cases hstep
  | handle | handlerStop =>
    simp only [next] at hstep
    split at hstep
    next hhandler =>
      cases hstep
      simp only [hhandler, Handler.left]
      omega
    · cases hstep
  | pingFailed | pingExpires =>
    simp only [next] at hstep
    split at hstep
    next hp =>
      cases hstep
      simp [State.setEndReason, hp]
    · cases hstep
  | pingLeaves =>
    simp only [next] at hstep
    split at hstep
    next hp =>
      cases hstep
      simp [hp.1]
    · cases hstep
  | stopSeen =>
    simp only [next] at hstep
    split at hstep
    next hs =>
      cases hstep
      simp only [State.cleanup, hs.1, Main.left]
      omega
    · cases hstep
  | finish =>
    simp only [next] at hstep
    split at hstep
    next hmain _ _ _ =>
      cases hstep
      simp only [hmain, Main.left]
      omega
    · cases hstep
  | pingSent => exact absurd rfl hping
  | scannerPanic | handleStop _ | handlePanic | pingPanic | timeout | clientGone => exact ha.elim

theorem Kept.enabled (h : Kept up s) (hmain : s.main ≠ .returned) :
    ∃ a : Action, a.Quiet ∧ a ≠ .pingSent ∧ (next up s a).isSome := by
  have hhandles {payload : String} (hh : s.handler = .handling payload) :
      ∃ a : Action, a.Quiet ∧ a ≠ .pingSent ∧ (next up s a).isSome :=
    ⟨.handle, trivial, by simp, by simp [next, hh]⟩
  cases hs : s.scanner with
  | scanning rest =>
    refine ⟨.scan, trivial, by simp, ?_⟩
    cases rest with
    | nil => simp [next, hs]
    | cons raw rest => by_cases hlong : up.maxBytes ≤ raw.utf8ByteSize <;> simp [next, hs, hlong]
  | scanned line rest =>
    refine ⟨.check, trivial, by simp, ?_⟩
    simp only [next, hs]
    split
    · rfl
    · split <;> rfl
  | sending payload rest =>
    by_cases hroom : s.queue.length < dataChanCapacity
    · exact ⟨.send, trivial, by simp, by simp [next, hs, hroom]⟩
    · cases hq : s.queue with
      | nil => simp [hq, dataChanCapacity] at hroom
      | cons first queue =>
        -- the channel is full, and the handler takes from it
        have hover := not_over h (by rw [hs]; exact id)
        cases hh : s.handler with
        | receiving => exact ⟨.receive, trivial, by simp, by simp [next, hh, hq]⟩
        | handling payload => exact hhandles hh
        | stopping | exited => exact absurd (by rw [hh]; exact trivial) hover
  | ending => exact ⟨.closeData, trivial, by simp, by simp [next, hs]⟩
  | stopping => exact ⟨.scannerStop, trivial, by simp, by simp [next, hs]⟩
  | exited =>
    have hstop := h.scannerExited hs
    have hdata := h.stopped hstop
    cases hh : s.handler with
    | receiving =>
      refine ⟨.receive, trivial, by simp, ?_⟩
      cases hq : s.queue <;> simp [next, hh, hq, hdata]
    | handling payload => exact hhandles hh
    | stopping => exact ⟨.handlerStop, trivial, by simp, by simp [next, hh]⟩
    | exited =>
      cases hp : s.pinging with
      | true => exact ⟨.pingLeaves, trivial, by simp, by simp [next, hp, hstop]⟩
      | false =>
        cases hm : s.main with
        | waiting => exact ⟨.stopSeen, trivial, by simp, by simp [next, hm, hstop]⟩
        | cleaning => exact ⟨.finish, trivial, by simp, by simp [next, hm, hs, hh, hp]⟩
        | returned => exact absurd hm hmain

theorem Reaches.head {s t u : State} (ha : p a) (hstep : next up s a = some t) (h : Reaches up p t u) :
    Reaches up p s u := by
  induction h with
  | refl => exact .step .refl ha hstep
  | step _ hb hnext ih => exact .step ih hb hnext

theorem Kept.returns (h : Kept up s) : ∃ t, Reaches up Action.Quiet s t ∧ t.main = .returned := by
  induction hn : s.left using Nat.strong_induction_on generalizing s with
  | _ n ih =>
    by_cases hmain : s.main = .returned
    · exact ⟨s, .refl, hmain⟩
    · obtain ⟨a, ha, hping, hsome⟩ := h.enabled hmain
      obtain ⟨t, hstep⟩ := Option.isSome_iff_exists.mp hsome
      obtain ⟨u, hu, hreturned⟩ := ih t.left (hn ▸ left_lt ha hping hstep) (h.step ha hstep) rfl
      exact ⟨u, hu.head ha hstep, hreturned⟩

/-! ## The end reason -/

@[simp] theorem State.setEndReason_endReason (s : State) (reason : EndReason) :
    (s.setEndReason reason).endReason = s.endReason.or (some reason) := rfl

theorem endReason_step {s t : State} {reason : EndReason} (hreason : s.endReason = some reason)
    (hstep : next up s a = some t) : t.endReason = some reason := by
  have hset (r : EndReason) : (s.setEndReason r).endReason = some reason := by
    rw [State.setEndReason_endReason, hreason]
    rfl
  have hcleanup (u : State) (hu : u.endReason = some reason) : u.cleanup.endReason = some reason := hu
  cases a <;> simp only [next] at hstep <;> repeat' split at hstep
  all_goals first | (cases hstep; first | exact hreason | exact hset _ | exact hcleanup _ (hset _)) | cases hstep

theorem endReason_kept {s t : State} {reason : EndReason} (h : Reaches up p s t) (hreason : s.endReason = some reason) :
    t.endReason = some reason := by
  induction h with
  | refl => exact hreason
  | step _ _ hstep ih => exact endReason_step ih hstep

/-! ## Every payload once and in order -/

/-- The handler is called with the payloads of the lines exactly where no token without `data:` ends them. -/
theorem streamScanner_delivers (up : Upstream) (pingEnabled : Bool) :
    ((∀ s, Reaches up Action.Quiet (start up pingEnabled) s → s.main = .returned →
        s.calls = payloads (up.lines.map dropCR)) ↔ EndsWithData up.maxBytes up.lines) ∧
      (∀ s, Reaches up Action.Quiet (start up pingEnabled) s →
        s.calls <+: delivered up.maxBytes up.lines ∧
          ∃ t, Reaches up Action.Quiet s t ∧ t.main = .returned ∧ t.calls = delivered up.maxBytes up.lines) ∧
      ∀ s t reason, Reaches up (fun _ => True) (start up pingEnabled) s → Reaches up (fun _ => True) s t →
        s.endReason = some reason → t.endReason = some reason := by
  refine ⟨?_, ?_, fun _ _ _ _ h hreason => endReason_kept h hreason⟩
  · rw [← delivered_eq_iff]
    constructor
    · intro h
      obtain ⟨t, ht, hreturned⟩ := (kept_start up pingEnabled).returns
      rw [← (kept_of_reaches ht).calls_returned hreturned, h t ht hreturned]
    · intro h s hs hreturned
      rw [(kept_of_reaches hs).calls_returned hreturned, h]
  · intro s hs
    have hkept := kept_of_reaches hs
    obtain ⟨t, ht, hreturned⟩ := hkept.returns
    have htkept : Kept up t := by
      clear hreturned
      induction ht with
      | refl => exact hkept
      | step _ ha hstep ih => exact ih.step ha hstep
    exact ⟨hkept.calls_prefix, t, ht, hreturned, htkept.calls_returned hreturned⟩

/-- A token without `data:` is handled as the payload `]`. -/
theorem bareToken_delivered :
    ∃ s, Reaches ⟨64, ["[DONE]"], false⟩ Action.Quiet (start ⟨64, ["[DONE]"], false⟩ false) s ∧
      s.main = .returned ∧ s.calls = ["]"] ∧ payloads (["[DONE]"].map dropCR) = [] := by
  obtain ⟨s, hs, hreturned⟩ := (kept_start ⟨64, ["[DONE]"], false⟩ false).returns
  refine ⟨s, hs, hreturned, ?_, ?_⟩
  · rw [(kept_of_reaches hs).calls_returned hreturned]
    have hraw : dropCR "[DONE]" = "[DONE]" := by decide
    have hread : readLine "[DONE]" = .data "]" := by
      have htrim : trimSpace (String.ofList ("[DONE]".toList.drop 5)) = "]" :=
        trimSpace_of_no_space (s := "]") fun c hc => by
          rw [List.mem_singleton.mp (show c ∈ [']'] from hc)]
          decide
      rw [readLine, htrim]
      rfl
    show delivered 64 ["[DONE]"] = ["]"]
    rw [delivered, if_neg (by decide), hraw, hread]
    rfl
  · exact payloads_cons_of_ends (Or.inl (by decide))

end Vancine.StreamScanner
