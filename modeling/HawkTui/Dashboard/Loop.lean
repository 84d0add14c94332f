import HawkTui.Lib.AwkRuntime
import Mathlib.Data.Rat.Defs

/-! The operator dashboard (`hawk_tui.py`): a cache of what its commands last said,
polled on timers, and the key loop over it. The commands, files, clocks and keys of
each turn come from outside; times are seconds. -/

namespace HawkTui.Dashboard
open Lib Text

def isSpace (c : Char) : Bool := isWhitespace c || (0x1c ≤ c.toNat && c.toNat ≤ 0x1f)

/-- `str.strip`. -/
def strip (s : Text) : Text := (s.dropWhile isSpace).rdropWhile isSpace

def isLineBreak (c : Char) : Bool :=
  let n := c.toNat
  (0x0a ≤ n && n ≤ 0x0d) || (0x1c ≤ n && n ≤ 0x1e) || n == 0x85 || n == 0x2028 || n == 0x2029

/-- `str.splitlines`. -/
def splitlines : Text → List Text
  | [] => []
  | '\r' :: '\n' :: rest => [] :: splitlines rest
  | c :: rest =>
    if isLineBreak c then [] :: splitlines rest
    else match splitlines rest with
      | [] => [[c]]
      | line :: more => (c :: line) :: more

/-- `s.split(sep, n)`. -/
def splitMax (sep : Char) : Nat → Text → List Text
  | 0, s => [s]
  | n + 1, s => match splitOnce sep s with
    | none => [s]
    | some (first, rest) => first :: splitMax sep n rest

/-- `xs[-n:]`, and what a `deque` of that length keeps. -/
def lastN (n : Nat) (xs : List α) : List α := xs.drop (xs.length - n)

/-- What `run_capture` returns: the exit code, and both streams together. -/
structure Answer where
  code : Int
  out : Text

/-- `subprocess.run` completes with a code and two streams, or raises. -/
def runCapture : Except Text (Int × Text × Text) → Answer
  | .ok (code, stdout, stderr) => ⟨code, strip (stdout ++ stderr)⟩
  | .error exc => ⟨1, exc⟩

def tailLines (file : Option Text) (n : Nat) : List Text :=
  match file with
  | none => []
  | some content => lastN n ((splitInclusive '\n' content).map fun line => line.rdropWhile (· = '\n'))

structure CatalogRow where
  id : Text
  title : Text
  runner : Text
  desc : Text

structure GrpcRow where
  endpoint : Text
  status : Text
  latency : Text
  source : Text

structure StateCache where
  commandCatalog : List CatalogRow := []
  selectedCommand : Nat := 0
  grpcRows : List GrpcRow := []
  grpcLast : Text := "never".toList
  grpcOk : Nat := 0
  grpcBad : Nat := 0
  streamRows : List Text := []
  streamLast : Text := "never".toList
  commandOutput : List Text := []
  commandLast : Text := "never".toList
  logTail : List Text := []
  logSize : Nat := 0
  logDelta : Nat := 0
  logLast : Text := "never".toList
  chatTail : List Text := []
  controlTail : List Text := []
  lastGrpcPoll : ℚ := 0
  lastStreamPoll : ℚ := 0
  lastCmdPoll : ℚ := 0
  lastLogPoll : ℚ := 0

def StateCache.ctl (cache : StateCache) (stamp line : Text) : StateCache :=
  { cache with controlTail := lastN 400 (cache.controlTail ++ [stamp ++ ' ' :: line]) }

/-- What the commands and files answer, if asked now. -/
structure Outside where
  /-- `hawk-cmd list` -/
  catalog : Answer
  /-- `hawk-cmd run grpc_health` -/
  grpc : Answer
  /-- `hawk-cmd run stream_lag` -/
  streams : Answer
  /-- `hawk-cmd run <id>` for the selected command -/
  command : Text → Answer
  /-- `daemon_ctl.sh <action> <unit>` -/
  daemon : Text → Answer
  /-- `exists` of the log file, then its size in bytes and the time of its last change. -/
  logStat : Except Text (Option (Nat × Text))
  /-- The files as `tail_lines` finds them: not there, or the text they hold. -/
  log : Except Text (Option Text)
  chat : Except Text (Option Text)
  /-- `mkdir` for the chat file. -/
  chatDir : Except Text Unit
  /-- Opening the chat file and writing to it. -/
  chatWrite : Except Text Unit
  /-- `datetime.now()` as it is shown. -/
  stamp : Text

/-- A list index out of range. -/
inductive IndexError where
  | commandCatalog
  | navItems
  deriving DecidableEq, Repr

/-- What nothing in the program catches. -/
inductive Raised where
  | index (list : IndexError)
  | file (exc : Text)
  deriving DecidableEq, Repr

def call (attempt : Except Text α) : Except Raised α := attempt.mapError .file

def catalogRow (line : Text) : Option CatalogRow :=
  match (splitMax '|' 3 line).map strip with
  | [id, title, runner, desc] => some { id, title, runner, desc }
  | _ => none

def said (answer : Answer) : List Text := if answer.code = 0 then splitlines answer.out else []

def pollCatalog (outside : Outside) (cache : StateCache) : StateCache :=
  let rows := (said outside.catalog).filterMap catalogRow
  { cache with
    commandCatalog := rows
    selectedCommand := if cache.selectedCommand ≥ rows.length then 0 else cache.selectedCommand }

section
variable (upper : Text → Text)

def grpcRow (line : Text) : Option GrpcRow :=
  match line.splitOn '\t' with
  | endpoint :: status :: latency :: source :: _ =>
    some { endpoint := strip endpoint, status := upper (strip status), latency := strip latency, source := strip source }
  | _ => none

def countGrpc (counts : Nat × Nat) (row : GrpcRow) : Nat × Nat :=
  if row.status = "SERVING".toList then (counts.1 + 1, counts.2) else (counts.1, counts.2 + 1)

def pollGrpc (outside : Outside) (cache : StateCache) : StateCache :=
  let rows := (said outside.grpc).filterMap (grpcRow upper)
  let counts := rows.foldl countGrpc (0, 0)
  { cache with grpcRows := rows, grpcOk := counts.1, grpcBad := counts.2, grpcLast := outside.stamp }

def pollStreams (outside : Outside) (cache : StateCache) : StateCache :=
  { cache with streamRows := said outside.streams, streamLast := outside.stamp }

def pollCommand (outside : Outside) (cache : StateCache) : Except Raised StateCache :=
  if cache.commandCatalog.isEmpty then .ok { cache with commandOutput := ["no commands loaded".toList] }
  else match cache.commandCatalog[cache.selectedCommand]? with
    | none => .error (.index .commandCatalog)
    | some cmd =>
      let answer := outside.command cmd.id
      let output :=
        if answer.code = 0 ∧ answer.out ≠ [] then lastN 80 (splitlines answer.out)
        else if answer.code = 0 then ["(no output)".toList]
        else ["command failed: ".toList ++ cmd.id, if answer.out = [] then "unknown error".toList else answer.out]
      .ok { cache with commandOutput := output, commandLast := outside.stamp }

def pollLogsAndChat (outside : Outside) (cache : StateCache) : Except Raised StateCache := do
  let cache := match ← call outside.logStat with
    | none => cache
    | some (size, changed) => { cache with logDelta := size - cache.logSize, logSize := size, logLast := changed }
  let log ← call outside.log
  let cache := { cache with logTail := tailLines log 200 }
  call outside.chatDir
  let chat ← call outside.chat
  -- a missing chat file is created empty
  if chat.isNone then call outside.chatWrite
  return { cache with chatTail := tailLines chat 200 }

/-! The four timers of `periodic_poll`, in its order. -/

def grpcTimer (now : ℚ) (outside : Outside) (cache : StateCache) : StateCache :=
  if now - cache.lastGrpcPoll ≥ 2 then { pollGrpc upper outside cache with lastGrpcPoll := now } else cache

def streamTimer (now : ℚ) (outside : Outside) (cache : StateCache) : StateCache :=
  if now - cache.lastStreamPoll ≥ 2 then { pollStreams outside cache with lastStreamPoll := now } else cache

def cmdTimer (now : ℚ) (outside : Outside) (cache : StateCache) : Except Raised StateCache :=
  if now - cache.lastCmdPoll ≥ 5 / 2 then (pollCommand outside cache).map fun cache => { cache with lastCmdPoll := now }
  else .ok cache

def logTimer (now : ℚ) (outside : Outside) (cache : StateCache) : Except Raised StateCache :=
  if now - cache.lastLogPoll ≥ 4 / 5 then (pollLogsAndChat outside cache).map fun cache => { cache with lastLogPoll := now }
  else .ok cache

def periodicPoll (now : ℚ) (outside : Outside) (cache : StateCache) : Except Raised StateCache :=
  cmdTimer now outside (streamTimer now outside (grpcTimer upper now outside cache)) >>= logTimer now outside

/-- The world after a note has been appended to the chat file. -/
def appendChat (stamp text : Text) (outside : Outside) : Except Raised Outside :=
  if strip text = [] then .ok outside
  else do
    call outside.chatWrite
    let noted (found : Option Text) : Text := found.getD [] ++ stamp ++ ' ' :: strip text ++ ['\n']
    return { outside with chat := outside.chat.map (some ∘ noted) }

def daemonAction (unit action : Text) (outside : Outside) (cache : StateCache) : StateCache :=
  let answer := outside.daemon action
  let verdict := if answer.code = 0 then " ok :: ".toList else " failed :: ".toList
  (lastN 6 (splitlines answer.out)).foldl (fun cache line => cache.ctl outside.stamp line)
    (cache.ctl outside.stamp (action ++ verdict ++ unit))

def navItems : List Text := ["Overview".toList, "gRPC".toList, "Streams".toList, "Commands".toList]

inductive Key where
  | none
  | quit
  | up
  | down
  | digit (n : Fin 4)
  | previous
  | next
  | enter
  | refresh
  | daemon (action : Text)
  | note
  | other
  deriving DecidableEq, Repr

/-- The codes `getch` returns; curses gives the arrows 258 and 259. -/
def key (code : Int) : Key :=
  let among (keys : List Char) : Bool := keys.any fun c => code = c.toNat
  if code = -1 then .none
  else if among ['q', 'Q'] then .quit
  else if code = 259 || among ['k'] then .up
  else if code = 258 || among ['j'] then .down
  else if among ['1'] then .digit 0
  else if among ['2'] then .digit 1
  else if among ['3'] then .digit 2
  else if among ['4'] then .digit 3
  else if among ['['] then .previous
  else if among [']'] then .next
  else if code = 10 || code = 13 then .enter
  else if among ['r', 'R'] then .refresh
  else if among ['a', 'A'] then .daemon "start".toList
  else if among ['z', 'Z'] then .daemon "stop".toList
  else if among ['e', 'E'] then .daemon "restart".toList
  else if among ['h', 'H'] then .daemon "health".toList
  else if among ['u', 'U'] then .daemon "status".toList
  else if among ['m', 'M'] then .note
  else .other

structure Ui where
  cache : StateCache
  selected : Nat := 0
  flash : Text := []
  flashUntil : ℚ := 0

def Ui.show (ui : Ui) (text : Text) (expiry : ℚ) : Ui := { ui with flash := text, flashUntil := expiry }

/-- One turn of the loop, as the world answers it. -/
structure Turn where
  now : ℚ
  polled : Outside
  code : Int
  /-- The world again, by the time the key is handled. -/
  pressed : Outside
  pressedAt : ℚ
  /-- What was typed at the prompt, stripped, and the time a note gets. -/
  typed : Text
  utc : Text

/-- `[` and `]`: the selection moves round the catalog by so many places. -/
def moveSelection (places : Nat) (turn : Turn) (ui : Ui) : Except Raised Ui :=
  if ui.cache.commandCatalog.isEmpty then .ok ui
  else
    let selected := (ui.cache.selectedCommand + places) % ui.cache.commandCatalog.length
    match ui.cache.commandCatalog[selected]? with
    | none => .error (.index .commandCatalog)
    | some cmd => .ok <| { ui with cache := { ui.cache with selectedCommand := selected } }.show
        ("selected cmd: ".toList ++ cmd.id) (turn.pressedAt + 3 / 2)

def refreshAll (outside : Outside) (cache : StateCache) : Except Raised StateCache :=
  pollCommand outside (pollStreams outside (pollGrpc upper outside (pollCatalog outside cache))) >>= pollLogsAndChat outside

/-- The branch of a key; `none` leaves the loop. -/
def press (unit : Text) (turn : Turn) (ui : Ui) : Except Raised (Option Ui) :=
  match key turn.code with
  | .none | .other => .ok (some ui)
  | .quit => .ok none
  | .up => .ok (some { ui with selected := (ui.selected + navItems.length - 1) % navItems.length })
  | .down => .ok (some { ui with selected := (ui.selected + 1) % navItems.length })
  | .digit n => .ok (some { ui with selected := n })
  | .previous => (moveSelection (ui.cache.commandCatalog.length - 1) turn ui).map some
  | .next => (moveSelection 1 turn ui).map some
  | .enter => (pollCommand turn.pressed ui.cache).map fun cache =>
      some ({ ui with cache }.show "command executed".toList (turn.pressedAt + 3 / 2))
  | .refresh => (refreshAll upper turn.pressed ui.cache).map fun cache =>
      some ({ ui with cache }.show "refreshed".toList (turn.pressedAt + 3 / 2))
  | .daemon action => .ok (some { ui with cache := daemonAction unit action turn.pressed ui.cache })
  | .note =>
    if turn.typed = [] then .ok (some (ui.show "empty note".toList (turn.pressedAt + 9 / 5)))
    else (appendChat turn.utc turn.typed turn.pressed >>= (pollLogsAndChat · ui.cache)).map fun cache =>
      some ({ ui with cache }.show "note appended".toList (turn.pressedAt + 9 / 5))

/-- The part of a turn before the key: what is polled, and what is then drawn. -/
def poll (turn : Turn) (ui : Ui) : Except Raised Ui := do
  let cache ← periodicPoll upper turn.now turn.polled ui.cache
  let ui := { ui with cache }
  let ui := if ui.flashUntil ≠ 0 ∧ turn.now > ui.flashUntil then ui.show [] 0 else ui
  -- the main pane's title
  match navItems[ui.selected]? with
  | none => .error (.index .navItems)
  | some _ => return ui

/-- The loop over the turns, until a key ends it. -/
def loop (unit : Text) (ui : Ui) : List Turn → Except Raised Ui
  | [] => .ok ui
  | turn :: rest => do
    let drawn ← poll upper turn ui
    match ← press upper unit turn drawn with
    | none => return drawn
    | some next => loop unit next rest

/-- `run_ui`, with the world at start-up. -/
def runUi (unit : Text) (now : ℚ) (outside : Outside) (turns : List Turn) : Except Raised Ui := do
  let cache ← periodicPoll upper now outside (pollCatalog outside {})
  loop upper unit { cache } turns

/-- What `--check` prints. -/
structure Check where
  commands : Nat
  grpcOk : Nat
  grpcBad : Nat
  streamRows : Nat
  logSize : Nat
  logDelta : Nat
  deriving DecidableEq, Repr

def runCheck (outside : Outside) : Except Raised Check := do
  let cache ← refreshAll upper outside {}
  return {
    commands := cache.commandCatalog.length
    grpcOk := cache.grpcOk
    grpcBad := cache.grpcBad
    streamRows := cache.streamRows.length
    logSize := cache.logSize
    logDelta := cache.logDelta }

end

/-! The command behind the health pane. The adapter's lines go through
`grpc_health.awk`, and the dashboard captures what that prints. -/

/-- `toupper`, in the POSIX locale. -/
def toupper (s : Text) : Text := s.map Char.toUpper

/-- The rule of `grpc_health.awk`. -/
def grpcHealth (record : Text) : List Text :=
  match AwkRuntime.fields '\t' record with
  | endpoint :: status :: latency :: source :: _ => [['\t'].intercalate [endpoint, toupper status, latency, source]]
  | _ => []

/-- `hawk-cmd run grpc_health` where the adapter has printed this and all went well. -/
def captureGrpcHealth (adapter : Text) : Answer :=
  runCapture (.ok (0, AwkRuntime.run (fun _ record => ((), grpcHealth record)) () adapter, []))

end HawkTui.Dashboard
