import HawkTui.Hawkd.GrpcHealth
import HawkTui.Hawkd.Spine
import HawkTui.Hawkd.Systemd
import HawkTui.Lib.Channel
import HawkTui.Lib.Machine

/-! The daemon as `main` puts it together: the threads that its command line asks
for, the spine they all send to, the accept loop and the broadcast loop. -/

namespace HawkTui.Daemon
open Lib Channel

inductive Source where
  | stdin
  | none
  deriving DecidableEq, Repr

/-- The options that decide what the daemon runs. -/
structure Cli where
  ingestPath : Option Text
  strict : Bool
  source : Source
  clientBanner : Bool
  watches : List GrpcHealth.WatchSpec
  units : List Systemd.UnitSpec
  grpc : GrpcHealth.GrpcWatchConfig
  systemd : Systemd.SystemdWatchConfig

/-- The holders of the spine's sending end. Publishers are numbered in the order
they connect, watchers and units in the order of the command line. -/
inductive Thread where
  | stdin
  | publisher (n : Nat)
  | watcher (n : Nat)
  | unit (n : Nat)
  deriving DecidableEq

/-- All that reaches the threads from outside, with the clocks they read. -/
structure Outside where
  stdin : Bytes
  stdinClock : Nat → OffsetDateTime
  publishers : Nat → Bytes
  publisherClock : Nat → Nat → OffsetDateTime
  attempts : Nat → List GrpcHealth.Attempt
  /-- The two readings for each frame of a watcher. -/
  watcherClock : Nat → Nat → OffsetDateTime × OffsetDateTime
  sessions : Nat → List Systemd.Session

def watchEvents (attempts : List GrpcHealth.Attempt) : List GrpcHealth.Event :=
  (GrpcHealth.watchOne attempts).flatMap GrpcHealth.Turn.events

section
variable (rfc : Rfc3339) (table : DebugTable) (cli : Cli) (outside : Outside)

/-- What each thread sends in the end. One that is not started sends nothing. -/
def sends : Thread → List Bytes
  | .stdin =>
    if cli.source = .stdin then Spine.spawnStdinSource rfc table cli.strict outside.stdinClock outside.stdin else []
  | .publisher n => match cli.ingestPath with
    | some path =>
      (UnixIngest.handleIngestClient rfc table path cli.strict (outside.publisherClock n) (outside.publishers n)).messages
    | none => []
  | .watcher n => match cli.watches[n]? with
    | some spec => (watchEvents (outside.attempts n)).mapIdx fun k event =>
        GrpcHealth.emit rfc spec cli.grpc (outside.watcherClock n k).1 (outside.watcherClock n k).2 event
    | none => []
  | .unit n => match cli.units[n]? with
    | some spec => (Systemd.watchOneUnit rfc spec cli.systemd (outside.sessions n)).flatMap Systemd.Turn.messages
    | none => []

end

structure State where
  spine : Channel (Thread × Bytes) := {}
  hub : Spine.State := {}

inductive Action where
  | send (thread : Thread)
  | connect (outcome : Spine.WriteOutcome)
  | push
  | broadcast (outcome : Nat → Spine.WriteOutcome)

/-- One step of one of the loops. A thread sends what is next in its own order. -/
def step (sends : Thread → List Bytes) (clientBanner : Bool) (state : State) : Action → Option State
  | .send thread => (sends thread)[(of thread state.spine.sent).length]?.map fun bytes =>
      { state with spine := state.spine.send (thread, bytes) }
  | .connect outcome => (Spine.step (fun _ => outcome) state.hub (.connect clientBanner)).map fun hub => { state with hub }
  | .push => (Spine.step (fun _ => .complete) state.hub .push).map fun hub => { state with hub }
  | .broadcast outcome => state.spine.receive.map fun taken =>
      { spine := taken.2, hub := Spine.broadcast taken.1.2 outcome state.hub }

def run (rfc : Rfc3339) (table : DebugTable) (cli : Cli) (outside : Outside) (actions : List Action) : Option State :=
  Machine.run (step (sends rfc table cli outside) cli.clientBanner) {} actions

end HawkTui.Daemon
