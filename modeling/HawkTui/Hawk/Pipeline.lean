import HawkTui.Hawk.Awk
import HawkTui.Hawk.Draw
import HawkTui.Lib.Channel
import HawkTui.Lib.Machine

/-! The running mirror: the threads that `main` starts, the channels between them,
the awk process in their midst, and the screen's loop. The threads move in any
order. A thread that has ended sends and takes nothing more; a channel whose
receiver is gone loses what is sent to it. Awk's input is a pipe: a write to it goes
on as far as there is room, and waits there until awk reads. -/

namespace HawkTui.Pipeline
open Lib Text Utf8 HawkFrame Awk Draw

/-- The bytes a pipe holds before its reader takes some out. -/
def pipeSize : Nat := 65536

/-- What `child.wait()` gives once awk is gone. -/
inductive Wait where
  | success
  | status (shown : Text)
  | failed (e : Text)
  deriving DecidableEq, Repr

/-- The holders of the bridge's error channel. -/
inductive ErrSender where
  | writer
  | reader
  | waiter
  deriving DecidableEq, Repr

/-- The holders of the screen's channel: the thread behind the source, the one
behind the bridge's frames and the one behind its errors. -/
inductive UiSender where
  | source
  | frames
  | errors
  deriving DecidableEq, Repr

inductive KeyCode where
  | char (c : Char)
  | esc
  | other
  deriving DecidableEq, Repr

/-- Where the screen's loop stands. -/
inductive Phase where
  | draining
  | drawing
  | polling
  | ended
  deriving DecidableEq, Repr

structure State where
  rxSource : Channel IngestMsg := {}
  rxFramesRaw : Channel HawkFrame := {}
  writerUp : Bool := true
  /-- The frames the writer has taken, each with the clock it read. -/
  written : List (HawkFrame × OffsetDateTime) := []
  /-- What awk's input has still to accept of the frame at hand, before its flush. -/
  writing : Option Bytes := none
  /-- All that awk's input has accepted. -/
  stdin : Bytes := []
  room : Nat := pipeSize
  inputOpen : Bool := true
  /-- What awk has printed: the part the reader is done with, and the rest. -/
  consumed : Bytes := []
  unread : Bytes := []
  exited : Option Wait := none
  readerUp : Bool := true
  reaped : Bool := false
  rxFramesOut : Channel HawkFrame := {}
  rxErr : Channel (ErrSender × Text) := {}
  rxUi : Channel (UiSender × IngestMsg) := {}
  app : App
  /-- The messages the mirror has taken in, each with the clock it read. -/
  log : List (OffsetDateTime × IngestMsg) := []
  screens : List Screen := []
  phase : Phase := .draining

def State.printed (state : State) : Bytes := state.consumed ++ state.unread

inductive Action where
  /-- The source sends its next message. -/
  | read
  | route
  /-- The writer: take a frame, have the next bytes of its line accepted, meet a
  broken pipe, flush. -/
  | write (now : OffsetDateTime)
  | accept (n : Nat)
  | writeFails
  | flush (done : Bool)
  /-- Awk reads, closes its input, prints or ends, whenever it likes. -/
  | drink (n : Nat)
  | hangUp
  | print (bytes : Bytes)
  | exit (wait : Wait)
  | readLine
  | reap
  | forward
  | report
  /-- The screen's loop: take a message, find none, draw, look for an event. -/
  | take (now : OffsetDateTime)
  | drained
  | draw (at_ : Readings)
  | poll (event : Option KeyCode)

def writeFailed : Text := "awk stdin write failed".toList

def newlineFailed : Text := "awk stdin newline failed".toList

def flushFailed : Text := "awk stdin flush failed".toList

def readFailed : Text := "awk stdout read failed".toList

section Bridge
variable (rfc : Rfc3339)

/-- The thread behind the source, for one message. -/
def routed (bridged : Bool) (msg : IngestMsg) (state : State) : State :=
  if bridged then
    match msg with
    | .frame f => if state.writerUp then { state with rxFramesRaw := state.rxFramesRaw.send f } else state
    | other => { state with rxUi := state.rxUi.send (.source, other) }
  else { state with rxUi := state.rxUi.send (.source, msg) }

def route (bridged : Bool) (state : State) : Option State :=
  state.rxSource.receive.map fun taken => routed bridged taken.1 { state with rxSource := taken.2 }

def write (now : OffsetDateTime) (state : State) : Option State :=
  if state.writerUp ∧ state.writing = none then
    state.rxFramesRaw.receive.map fun taken =>
      { state with
        rxFramesRaw := taken.2
        written := state.written ++ [(taken.1, now)]
        writing := some (encode (toTsvLine rfc taken.1 now) ++ [10]) }
  else none

/-- Part of a `write_all`: the pipe takes the next bytes, if it has room for them. -/
def accept (n : Nat) (state : State) : Option State :=
  match state.writing with
  | some rest =>
    if state.inputOpen ∧ 0 < n ∧ n ≤ rest.length ∧ n ≤ state.room then
      some { state with writing := some (rest.drop n), stdin := state.stdin ++ rest.take n, room := state.room - n }
    else none
  | none => none

def giveUp (e : Text) (state : State) : State :=
  { state with writerUp := false, writing := none, rxErr := state.rxErr.send (.writer, e) }

/-- Of the two writes for a frame, the second is that of the newline. -/
def writeError (rest : Bytes) : Text := if rest.length = 1 then newlineFailed else writeFailed

def writeFails (state : State) : Option State :=
  match state.writing with
  | some rest => if state.inputOpen = false ∧ rest ≠ [] then some (giveUp (writeError rest) state) else none
  | none => none

def flush (done : Bool) (state : State) : Option State :=
  if state.writing = some [] then some (if done then { state with writing := none } else giveUp flushFailed state) else none

/-- What `read_line` takes: up to a newline, or all there is once awk has ended. -/
def nextPiece (unread : Bytes) (ended : Bool) : Option (Bytes × Bytes) :=
  match unread.dropWhile (· != 10) with
  | newline :: rest => some (unread.takeWhile (· != 10) ++ [newline], rest)
  | [] => if ended && !unread.isEmpty then some (unread, []) else none

/-- The reader, for what one `read_line` gave. -/
def readPiece (piece : Bytes) (state : State) : State :=
  match (decode piece).map chomp with
  | none => { state with readerUp := false, rxErr := state.rxErr.send (.reader, readFailed) }
  | some line => match parseTsvLine rfc line with
    | .ok (some frame) => { state with rxFramesOut := state.rxFramesOut.send frame }
    | .ok none => state
    | .error _ => { state with rxErr := state.rxErr.send (.reader, invalidLine) }

def readLine (state : State) : Option State :=
  if state.readerUp then
    (nextPiece state.unread state.exited.isSome).map fun taken =>
      readPiece rfc taken.1 { state with consumed := state.consumed ++ taken.1, unread := taken.2 }
  else none

def waitError : Wait → Option Text
  | .success => none
  | .status shown => some ("awk exited with status ".toList ++ shown)
  | .failed e => some ("awk wait failed: ".toList ++ e)

def reap (state : State) : Option State :=
  if state.reaped then none
  else state.exited.map fun wait =>
    match waitError wait with
    | none => { state with reaped := true }
    | some e => { state with reaped := true, rxErr := state.rxErr.send (.waiter, e) }

def forward (state : State) : Option State :=
  state.rxFramesOut.receive.map fun taken =>
    { state with rxFramesOut := taken.2, rxUi := state.rxUi.send (.frames, .frame taken.1) }

def awkError (err : Text) : IngestMsg := .ioError ("awk: ".toList ++ err)

def report (state : State) : Option State :=
  state.rxErr.receive.map fun taken =>
    { state with rxErr := taken.2, rxUi := state.rxUi.send (.errors, awkError taken.1.2) }

end Bridge

section Screen
variable (rfc : Rfc3339)

def take (now : OffsetDateTime) (state : State) : Option State :=
  if state.phase = .draining then
    state.rxUi.receive.map fun taken =>
      { state with rxUi := taken.2, app := state.app.ingest rfc now taken.1.2, log := state.log ++ [(now, taken.1.2)] }
  else none

def drained (state : State) : Option State :=
  if state.phase = .draining ∧ state.rxUi.waiting = [] then some { state with phase := .drawing } else none

def draw (at_ : Readings) (state : State) : Option State :=
  if state.phase = .drawing then
    some { state with screens := state.screens ++ [drawApp rfc state.app at_], phase := .polling }
  else none

def poll (event : Option KeyCode) (state : State) : Option State :=
  if state.phase = .polling then
    let quit := event = some (.char 'q') ∨ event = some .esc
    some { state with phase := if quit then .ended else .draining }
  else none

end Screen

/-- One step of the process. `input` is what its source sends in the end, and
`bridged` tells whether a transform was chosen. Nothing moves once the screen's
loop has ended. -/
def step (rfc : Rfc3339) (input : List IngestMsg) (bridged : Bool) (state : State) (action : Action) : Option State :=
  if state.phase = .ended then none
  else match action with
    | .read => input[state.rxSource.sent.length]?.map fun msg => { state with rxSource := state.rxSource.send msg }
    | .route => route bridged state
    | .write now => write rfc now state
    | .accept n => accept n state
    | .writeFails => writeFails state
    | .flush done => flush done state
    | .drink n =>
      if bridged ∧ state.exited = none ∧ state.room + n ≤ pipeSize then some { state with room := state.room + n } else none
    | .hangUp => if bridged ∧ state.exited = none then some { state with inputOpen := false } else none
    | .print bytes => if bridged ∧ state.exited = none then some { state with unread := state.unread ++ bytes } else none
    | .exit wait =>
      if bridged ∧ state.exited = none then some { state with exited := some wait, inputOpen := false } else none
    | .readLine => readLine rfc state
    | .reap => reap state
    | .forward => forward state
    | .report => report state
    | .take now => take rfc now state
    | .drained => drained state
    | .draw at_ => draw rfc at_ state
    | .poll event => poll event state

/-- `run_tui` and the threads behind it, from the start. -/
def run (rfc : Rfc3339) (input : List IngestMsg) (bridged : Bool) (app : App) (actions : List Action) : Option State :=
  Machine.run (step rfc input bridged) { app } actions

end HawkTui.Pipeline
