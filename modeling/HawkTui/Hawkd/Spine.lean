import HawkTui.Hawkd.UnixIngest
import HawkTui.Lib.Retain
import Mathlib.Logic.Function.Basic

/-! The daemon's spine: the accept loop, the stdin source and the broadcast of
every message to all listed clients. The accept loop and the broadcast loop
share the client list under a mutex, so their steps interleave freely. -/

namespace HawkTui.Spine
open Lib Text Utf8 HawkFrame UnixIngest

/-- How the socket answers one `write_all`: all bytes are written, or it fails
after a prefix of them. -/
inductive WriteOutcome where
  | complete
  | fails (written : Nat)
  deriving DecidableEq, Repr

/-- A client's end of a stream. After a failed write it accepts no more bytes. -/
structure Socket where
  received : Bytes := []
  broken : Bool := false
  deriving DecidableEq

/-- `write_all`, with whether it returned `Ok`. On a broken socket it does so only for
nothing to write. -/
def Socket.writeAll (socket : Socket) (bytes : Bytes) (outcome : WriteOutcome) : Bool × Socket :=
  if socket.broken then (bytes.isEmpty, socket)
  else match outcome with
    | .complete => (true, { socket with received := socket.received ++ bytes })
    | .fails written => (false, { received := socket.received ++ bytes.take written, broken := true })

/-- Clients are numbered in the order they connect. `pending` is the stream the
accept loop has taken but not yet pushed, and `writes` records each `write_all`
with its result. -/
structure State where
  sockets : Nat → Socket := fun _ => {}
  accepted : Nat := 0
  pending : Option Nat := none
  clients : List Nat := []
  writes : List (Nat × Bool) := []

def banner : Bytes := encode "# hawkd connected\n".toList

def write (client : Nat) (bytes : Bytes) (outcome : WriteOutcome) (state : State) : Bool × State :=
  let written := (state.sockets client).writeAll bytes outcome
  (written.1, { state with
    sockets := Function.update state.sockets client written.2
    writes := state.writes ++ [(client, written.1)] })

def broadcast (bytes : Bytes) (outcome : Nat → WriteOutcome) (state : State) : State :=
  let swept := retainLoop (fun client state => write client bytes (outcome client) state) 0 state.clients state
  { swept.2 with clients := swept.1 }

inductive Step where
  /-- The accept loop takes a connection and writes the banner if it is on. -/
  | connect (bannerOn : Bool)
  | push
  /-- The broadcast loop handles one message of the spine. -/
  | broadcast (bytes : Bytes)
  deriving DecidableEq

def step (outcome : Nat → WriteOutcome) (state : State) : Step → Option State
  | .connect bannerOn =>
    if state.pending.isSome then none
    else
      let client := state.accepted
      let state := { state with accepted := client + 1, pending := some client }
      -- the result of the banner write is ignored
      some (if bannerOn then (write client banner (outcome client) state).2 else state)
  | .push => state.pending.map fun client =>
      { state with pending := none, clients := state.clients ++ [client] }
  | .broadcast bytes => some (broadcast bytes outcome state)

/-- `oracle k client` is how the socket of `client` answers in step `k`. -/
def runFrom (oracle : Nat → Nat → WriteOutcome) : Nat → State → List Step → Option State
  | _, state, [] => some state
  | k, state, action :: rest => (step (oracle k) state action).bind fun next => runFrom oracle (k + 1) next rest

def run (oracle : Nat → Nat → WriteOutcome) (steps : List Step) : Option State := runFrom oracle 0 {} steps

section
variable (rfc : Rfc3339) (table : DebugTable) (strict : Bool)

/-- The stdin source's loop. Without `strict` a bad line is dropped. -/
def stdinSourceLines (clock : Nat → OffsetDateTime) : Nat → List (Option Text) → List Bytes
  | _, [] => []
  | _, none :: _ => []
  | k, some line :: rest =>
    match parseTsvLine rfc line with
    | .ok (some frame) => lineBytes rfc frame (clock k) :: stdinSourceLines clock (k + 1) rest
    | .ok none => stdinSourceLines clock (k + 1) rest
    | .error e =>
      if strict then [encode ("# hawkd strict parse error: ".toList ++ e.debug table ++ ['\n'])]
      else stdinSourceLines clock (k + 1) rest

def spawnStdinSource (clock : Nat → OffsetDateTime) (stdin : Bytes) : List Bytes :=
  stdinSourceLines rfc table strict clock 0 (readLines stdin)

end

end HawkTui.Spine
