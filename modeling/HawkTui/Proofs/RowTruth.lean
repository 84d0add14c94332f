import HawkTui.Proofs.Outcomes
import HawkTui.Proofs.Spoken

/-! From the watched service to the row on the screen. Once a mirror has taken in all
that the daemon has sent it, a row says what its watcher said last. -/

namespace HawkTui.Proofs.RowTruth
open Lib Text Utf8 HawkFrame UnixIngest Channel App FrameCodec Entities PipelineFlow Schedules Outcomes Segments Spoken
open Daemon (Thread Cli Outside)
open GrpcHealth (WatchSpec GrpcWatchConfig Event)

def rowKey (f : HawkFrame) : Text := entityKey f.scope f.id

/-- A mirror without a transform that has taken in all that an intact connection to
the daemon brought, and nothing is on its way. -/
structure Watching (rfc : Rfc3339) (table : DebugTable) (cli : Cli) (outside : Outside) (client : Nat) (strict : Bool)
    (daemon : Daemon.State) (mirror : Pipeline.State) : Prop where
  spoke : ∃ actions, Daemon.run rfc table cli outside actions = some daemon
  accepted : client < daemon.hub.accepted
  intact : (daemon.hub.sockets client).broken = false
  drained : daemon.spine.waiting = []
  read : ∃ tailSize staleS deadS actions,
    Pipeline.run rfc (Io.spawnUnixReader rfc strict (daemon.hub.sockets client).received) false
      (App.new tailSize staleS deadS) actions = some mirror
  idle : Idle rfc (Io.spawnUnixReader rfc strict (daemon.hub.sockets client).received) false mirror

section Mirror
variable {rfc : Rfc3339} {input : List IngestMsg} {tailSize : Nat} {staleS deadS : Int} {actions : List Pipeline.Action}
  {mirror : Pipeline.State}

/-- The row of a key at a mirror that reads its source directly and has read all of it. -/
theorem direct_row (ran : Pipeline.run rfc input false (App.new tailSize staleS deadS) actions = some mirror)
    (idle : Idle rfc input false mirror) (key : Text) :
    ∃ now, mirror.app.entities[key]? = ((framesOf input).filter (rowKey · = key)).getLast?.map (entityState · now) := by
  have flows := run_flows ran
  have rest := atRest_of_idle idle
  have all : mirrored mirror = input := by
    rw [mirrored_done flows rest, direct_sent flows (run_unbridged ran), source_done flows rest]
  have frames : (frameMsgs mirror.log).map Prod.snd = framesOf input := by rw [frameMsgs_snd, ← all, mirrored]
  rw [flows.shown.app, row_lookup, ← frames, List.filter_map, List.getLast?_map]
  change ∃ now, ((frameMsgs mirror.log).filter fun item => rowKey item.2 = key).getLast?.map _ =
    (((frameMsgs mirror.log).filter fun item => rowKey item.2 = key).getLast?.map Prod.snd).map _
  cases ((frameMsgs mirror.log).filter fun item => rowKey item.2 = key).getLast? with
  | none => exact ⟨⟨0, 0⟩, rfl⟩
  | some item => exact ⟨item.1, rfl⟩

end Mirror

section Thread
variable {rfc : Rfc3339} {table : DebugTable} {cli : Cli} {outside : Outside} {client : Nat} {strict : Bool}
  {daemon : Daemon.State} {mirror : Pipeline.State} {thread : Thread} {key : Text}

/-- The thread speaks of one entity only, and is the only one to do so. -/
structure Owns (rfc : Rfc3339) (sends : Thread → List Bytes) (thread : Thread) (key : Text) : Prop where
  own : ∀ message ∈ sends thread, ∃ f, told rfc message = some f ∧ rowKey f = key
  others : ∀ other, other ≠ thread → ∀ message ∈ sends other, ∀ f, told rfc message = some f → rowKey f ≠ key

theorem last_heard {items sent : List β} (suffix : items <:+ sent) (some : items ≠ []) : items.getLast? = sent.getLast? := by
  obtain ⟨front, rfl⟩ := suffix
  rw [List.getLast?_append_of_ne_nil _ some]

/-- The last frame with a thread's key is what the thread said last. -/
theorem last_told {sends : Thread → List Bytes} {heard : List (Thread × Bytes)} (owns : Owns rfc sends thread key)
    (within : ∀ thread, of thread heard ⊆ sends thread) :
    (((heard.map Prod.snd).filterMap (told rfc)).filter (rowKey · = key)).getLast? =
      (of thread heard).getLast?.bind (told rfc) := by
  have picked : ∀ message ∈ of thread heard, (told rfc message).filter (rowKey · = key) = told rfc message := by
    intro message member
    obtain ⟨f, tells, same⟩ := owns.own message (within thread member)
    simp [tells, same]
  have silent : ∀ other message, other ≠ thread → message ∈ of other heard →
      (told rfc message).filter (rowKey · = key) = none := by
    intro other message apart member
    cases tells : told rfc message with
    | none => rfl
    | some f => simpa using owns.others other apart message (within other member) f tells
  rw [List.filter_filterMap, filterMap_of thread heard _ silent, List.filterMap_congr picked, getLast?_filterMap]
  intro message member
  obtain ⟨f, tells, -⟩ := owns.own message (within thread member)
  simp [tells]

/-- The row of an entity that one thread speaks of. It is there as soon as the client
has heard that thread once. -/
theorem Watching.row (watching : Watching rfc table cli outside client strict daemon mirror) (calm : Calm rfc cli outside)
    (owns : Owns rfc (Daemon.sends rfc table cli outside) thread key) :
    ∃ heard now, Heard daemon cli.clientBanner client heard ∧
      (of thread heard = [] → mirror.app.entities[key]? = none) ∧
      (of thread heard ≠ [] → mirror.app.entities[key]? =
        ((of thread daemon.spine.sent).getLast?.bind (told rfc)).map (entityState · now)) := by
  obtain ⟨actions, spoke⟩ := watching.spoke
  obtain ⟨tailSize, staleS, deadS, moves, read⟩ := watching.read
  obtain ⟨steps, relays⟩ := run_relays spoke
  obtain ⟨heard, hears⟩ := exists_heard relays watching.accepted
  obtain ⟨whole, tail, -, stream, -, all⟩ := hears_sound strict (heard_sound calm relays hears) hears
  obtain ⟨rfl, rfl⟩ := all watching.intact
  obtain ⟨now, row⟩ := direct_row read watching.idle key
  rw [List.append_nil] at stream
  rw [stream, framesOf_frames, last_told owns fun thread => (heard_of relays hears thread).subset] at row
  refine ⟨whole, now, hears, fun none => ?_, fun some => ?_⟩
  · rw [row, none]
    rfl
  · have suffix : of thread whole <:+ of thread daemon.spine.sent := by
      obtain ⟨front, split⟩ := hears.1
      rw [← received_eq_sent watching.drained, ← split, of_append]
      exact List.suffix_append _ _
    rw [row, last_heard suffix some]

/-- What a message says comes back, except that its bag may read differently. -/
theorem told_lineBytes {f : HawkFrame} {now : OffsetDateTime} (headed : Headed f) (stamp : rfc.RoundTrips (f.ts.getD now)) :
    ∃ kv, told rfc (lineBytes rfc f now) = some { f with ts := some (f.ts.getD now), kv } := by
  obtain ⟨kv, parsed⟩ := parse_headed headed stamp
  exact ⟨kv, told_encode parsed⟩

/-- A row that shows what a frame says. -/
structure Displays (f : HawkFrame) (row : EntityState) : Prop where
  scope : row.scope = f.scope
  id : row.id = f.id
  level : row.lastLevel = f.level
  msg : row.lastMsg = f.msg
  kind : row.kind = f.kind
  seen : some row.lastSeen = f.ts

/-- The `k`-th message of a thread is a frame that is `spoken k`. All of them have one
key and carry their own time. -/
def Speaks (rfc : Rfc3339) (key : Text) (spoken : Nat → HawkFrame → Prop) (messages : List Bytes) : Prop :=
  ∀ k message, messages[k]? = some message → ∃ f now, spoken k f ∧ message = lineBytes rfc f now ∧ Headed f ∧
    rowKey f = key ∧ ∃ ts, f.ts = some ts ∧ rfc.RoundTrips ts

theorem Speaks.told {spoken : Nat → HawkFrame → Prop} {messages : List Bytes} (speaks : Speaks rfc key spoken messages) {k : Nat}
    {message : Bytes} (sent : messages[k]? = some message) :
    ∃ f now kv, spoken k f ∧ message = lineBytes rfc f now ∧ told rfc message = some { f with kv } ∧ rowKey f = key ∧
      f.ts ≠ none := by
  obtain ⟨f, now, said, rfl, headed, same, ts, dated, stamp⟩ := speaks k message sent
  have stamped : rfc.RoundTrips (f.ts.getD now) := by simpa [dated] using stamp
  have kept : some (f.ts.getD now) = f.ts := by simp [dated]
  obtain ⟨kv, parsed⟩ := told_lineBytes headed stamped
  rw [kept] at parsed
  exact ⟨f, now, kv, said, rfl, parsed, same, by simp [dated]⟩

theorem Speaks.owns {spoken : Nat → HawkFrame → Prop} {sends : Thread → List Bytes}
    (speaks : Speaks rfc key spoken (sends thread))
    (others : ∀ other, other ≠ thread → ∀ message ∈ sends other, ∀ f, Segments.told rfc message = some f → rowKey f ≠ key) :
    Owns rfc sends thread key := by
  refine ⟨fun message member => ?_, others⟩
  obtain ⟨k, sent⟩ := List.getElem?_of_mem member
  obtain ⟨f, now, kv, -, -, parsed, same, -⟩ := speaks.told sent
  exact ⟨_, parsed, same⟩

/-- The row of an entity that one thread speaks of: it shows the frame of the thread's
last message, and is there as soon as the client has heard the thread once. -/
theorem Watching.shows {spoken : Nat → HawkFrame → Prop} (watching : Watching rfc table cli outside client strict daemon mirror)
    (calm : Calm rfc cli outside) (speaks : Speaks rfc key spoken (Daemon.sends rfc table cli outside thread))
    (others : ∀ other, other ≠ thread → ∀ message ∈ Daemon.sends rfc table cli outside other, ∀ f,
      Segments.told rfc message = some f → rowKey f ≠ key) :
    ∃ heard, Heard daemon cli.clientBanner client heard ∧ (key ∈ mirror.app.entities ↔ of thread heard ≠ []) ∧
      ∀ row, mirror.app.entities[key]? = some row →
        ∃ f now, spoken ((of thread daemon.spine.sent).length - 1) f ∧
          (of thread daemon.spine.sent).getLast? = some (lineBytes rfc f now) ∧ Displays f row := by
  obtain ⟨actions, spoke⟩ := watching.spoke
  obtain ⟨steps, relays⟩ := run_relays spoke
  obtain ⟨heard, now, hears, absent, present⟩ := watching.row calm (speaks.owns others)
  have last : of thread heard ≠ [] → ∃ message, (of thread daemon.spine.sent).getLast? = some message ∧
      (Daemon.sends rfc table cli outside thread)[(of thread daemon.spine.sent).length - 1]? = some message := by
    intro some
    have sent : of thread daemon.spine.sent ≠ [] := by
      intro none
      obtain ⟨front, split⟩ := hears.1
      rw [← received_eq_sent watching.drained, ← split, of_append, List.append_eq_nil_iff] at none
      exact some none.2
    have final := List.getLast?_eq_some_getLast sent
    refine ⟨_, final, ?_⟩
    rw [List.getLast?_eq_getElem?] at final
    obtain ⟨inside, same⟩ := List.getElem?_eq_some_iff.mp final
    rw [← same]
    exact List.prefix_iff_getElem?.mp (relays.own thread) _ inside
  refine ⟨heard, hears, ?_, fun row found => ?_⟩
  · rw [← Std.ExtTreeMap.isSome_getElem?_iff_mem]
    constructor
    · intro found none
      simp [absent none] at found
    · intro some
      obtain ⟨message, final, sent⟩ := last some
      obtain ⟨f, time, kv, -, -, parsed, -⟩ := speaks.told sent
      simp [present some, final, parsed]
  · have some : of thread heard ≠ [] := by
      intro none
      simp [absent none] at found
    obtain ⟨message, final, sent⟩ := last some
    obtain ⟨f, time, kv, said, written, parsed, -, dated⟩ := speaks.told sent
    rw [present some, final, Option.bind_some, parsed] at found
    cases found
    refine ⟨f, time, said, written ▸ final, rfl, rfl, rfl, rfl, rfl, ?_⟩
    obtain ⟨ts, stamped⟩ := Option.ne_none_iff_exists'.mp dated
    simp [entityState, stamped]

end Thread

section Grpc
variable {rfc : Rfc3339} {spec : WatchSpec} {cfg : GrpcWatchConfig}

/-- What a row says of an event. -/
def shownAs : Event → Level × Text
  | .status st => GrpcHealth.statusLevel st
  | .failure stage _ => (.fail, stage.msg)

/-- A frame of the watcher with what the event and the clock gave it. -/
structure Reports (spec : WatchSpec) (event : Event) (now : OffsetDateTime) (f : HawkFrame) : Prop where
  ts : f.ts = some now
  kind : f.kind = "HEALTH".toList
  scope : f.scope = "grpc".toList
  id : f.id = spec.id
  shown : (f.level, f.msg) = shownAs event

theorem Reports.headed {event : Event} {now : OffsetDateTime} {f : HawkFrame} (reports : Reports spec event now f)
    (column : Column spec.id) : Headed f := by
  obtain ⟨-, kind, scope, id, shown⟩ := reports
  obtain ⟨-, msg⟩ := Prod.mk.inj shown
  refine ⟨kind ▸ ⟨by decide, by decide⟩, scope ▸ ⟨by decide, by decide⟩, id ▸ column, ?_⟩
  rw [msg]
  cases event with
  | status st => cases st <;> exact ⟨by decide, by decide⟩
  | failure stage err =>
    change Column stage.msg
    cases stage <;> exact ⟨by decide, by decide⟩

theorem emit_reports (now later : OffsetDateTime) (event : Event) :
    ∃ f, GrpcHealth.emit rfc spec cfg now later event = lineBytes rfc f later ∧ Reports spec event now f := by
  cases event with
  | status st => exact ⟨GrpcHealth.statusFrame spec cfg now st, rfl, rfl, rfl, rfl, rfl, rfl⟩
  | failure stage err => exact ⟨GrpcHealth.errorFrame spec cfg now stage.msg err, rfl, rfl, rfl, rfl, rfl, rfl⟩

end Grpc

/-- The row of a watched service shows the last event its watcher has sent, at the
time it was seen, whatever the other threads sent in between. -/
theorem watched_row (rfc : Rfc3339) (table : DebugTable) (cli : Cli) (outside : Outside) (calm : Calm rfc cli outside)
    (client : Nat) (strict : Bool) (daemon : Daemon.State) (mirror : Pipeline.State)
    (watching : Watching rfc table cli outside client strict daemon mirror) (n : Nat) (spec : WatchSpec)
    (watched : cli.watches[n]? = some spec) (column : Column spec.id)
    (others : ∀ other, other ≠ .watcher n → ∀ message ∈ Daemon.sends rfc table cli outside other, ∀ f,
      told rfc message = some f → rowKey f ≠ entityKey "grpc".toList spec.id) :
    ∃ heard, Heard daemon cli.clientBanner client heard ∧
      (entityKey "grpc".toList spec.id ∈ mirror.app.entities ↔ of (.watcher n) heard ≠ []) ∧
      ∀ row, mirror.app.entities[entityKey "grpc".toList spec.id]? = some row →
        ∃ event, (Daemon.watchEvents (outside.attempts n))[(of (.watcher n) daemon.spine.sent).length - 1]? = some event ∧
          (row.lastLevel, row.lastMsg) = shownAs event ∧
          row.lastSeen = (outside.watcherClock n ((of (.watcher n) daemon.spine.sent).length - 1)).1 := by
  have speaks : Speaks rfc (entityKey "grpc".toList spec.id)
      (fun k f => ∃ event, (Daemon.watchEvents (outside.attempts n))[k]? = some event ∧
        Reports spec event (outside.watcherClock n k).1 f)
      (Daemon.sends rfc table cli outside (.watcher n)) := by
    intro k message sent
    simp only [Daemon.sends, watched, List.getElem?_mapIdx] at sent
    obtain ⟨event, happened, rfl⟩ := Option.map_eq_some_iff.mp sent
    obtain ⟨f, same, reports⟩ := emit_reports (outside.watcherClock n k).1 (outside.watcherClock n k).2 event
    refine ⟨f, _, ⟨event, happened, reports⟩, same, reports.headed column, ?_, _, reports.ts, calm.watcherClock n k⟩
    rw [rowKey, reports.scope, reports.id]
  obtain ⟨heard, hears, present, shows⟩ := watching.shows calm speaks others
  refine ⟨heard, hears, present, fun row found => ?_⟩
  obtain ⟨f, now, ⟨event, happened, reports⟩, -, shown⟩ := shows row found
  refine ⟨event, happened, ?_, ?_⟩
  · rw [shown.level, shown.msg, reports.shown]
  · exact Option.some.inj (shown.seen.trans reports.ts)

/-- A mirror that reads along from the second message of a thread on. -/
theorem exists_watching {rfc : Rfc3339} {table : DebugTable} {cli : Cli} {outside : Outside} {thread : Thread}
    {first second : Bytes} {rest : List Bytes} (banner : cli.clientBanner = true) (strict : Bool)
    (given : Daemon.sends rfc table cli outside thread = first :: second :: rest)
    (silent : ∀ other, other ≠ thread → Daemon.sends rfc table cli outside other = []) (present : second ≠ []) :
    ∃ daemon mirror, Watching rfc table cli outside 0 strict daemon mirror ∧ of thread daemon.spine.sent = [first, second] ∧
      ∀ heard, Heard daemon cli.clientBanner 0 heard → of thread heard ≠ [] := by
  obtain ⟨daemon, spoke, accepted, socket, drained, sent⟩ := joinActions_run given
  rw [← banner] at spoke
  obtain ⟨steps, relays⟩ := run_relays spoke
  obtain ⟨moves, mirror, -, read, idle⟩ := exists_idle rfc
    (Io.spawnUnixReader rfc strict (daemon.hub.sockets 0).received) false { app := App.new 10 30 90 } rfl
  refine ⟨daemon, mirror, ⟨⟨_, spoke⟩, accepted, by rw [socket], drained, ⟨10, 30, 90, moves, read⟩, idle⟩, sent, ?_⟩
  intro heard hears none
  have nothing : heard = [] := by
    apply List.eq_nil_iff_forall_not_mem.mpr
    rintro ⟨owner, message⟩ member
    have own := (mem_of owner).mpr member
    by_cases same : owner = thread
    · simp [same, none] at own
    · have said := (heard_of relays hears owner).subset own
      simp [silent owner same] at said
  have stream := hears.2.2 (by rw [socket])
  rw [socket, nothing, banner] at stream
  simp [present] at stream

theorem watchCli_silent (other : Thread) (apart : other ≠ .watcher 0) :
    Daemon.sends sampleClock (fun _ => false) watchCli watchOutside other = [] := by
  cases other with
  | stdin | publisher | unit => rfl
  | watcher n =>
    cases n with
    | zero => exact absurd rfl apart
    | succ n => rfl

theorem watched_row_svc :
    ∃ (daemon : Daemon.State) (mirror : Pipeline.State) (row : EntityState),
      Watching sampleClock (fun _ => false) watchCli watchOutside 0 true daemon mirror ∧
      mirror.app.entities[entityKey "grpc".toList "svc".toList]? = some row ∧
      row.lastLevel = .fail ∧ row.lastMsg = "NOT_SERVING".toList := by
  obtain ⟨daemon, mirror, watching, sent, hearing⟩ := exists_watching rfl true
    (rfl : Daemon.sends sampleClock (fun _ => false) watchCli watchOutside (.watcher 0) = _ :: _ :: _) watchCli_silent
    (by decide)
  obtain ⟨heard, hears, present, shows⟩ := watched_row sampleClock (fun _ => false) watchCli watchOutside watchOutside_calm 0
    true daemon mirror watching 0 ⟨"http://svc:50051".toList, [], "svc".toList⟩ rfl ⟨by decide, by decide⟩
    fun other apart message member => by simp [watchCli_silent other apart] at member
  obtain ⟨row, found⟩ :=
    Option.isSome_iff_exists.mp (Std.ExtTreeMap.isSome_getElem?_iff_mem.mpr (present.mpr (hearing heard hears)))
  obtain ⟨event, happened, shown, -⟩ := shows row found
  rw [sent] at happened
  obtain rfl : GrpcHealth.Event.status .notServing = event := Option.some.inj happened
  exact ⟨daemon, mirror, row, watching, found, Prod.mk.inj shown⟩

section Systemd
open Systemd
variable {rfc : Rfc3339} {spec : UnitSpec} {cfg : SystemdWatchConfig} {sessions : List Session}

theorem unitSaid_key {f : HawkFrame} (said : UnitSaid rfc spec cfg sessions f) :
    rowKey f = entityKey "systemd".toList spec.id := by
  cases said <;> rfl

theorem unitSaid_headed {f : HawkFrame} (said : UnitSaid rfc spec cfg sessions f) (column : Column spec.id)
    (states : ∀ session ∈ sessions, ∀ unit ∈ session.first :: session.signals, ∀ state, readUnit unit = .ok state →
      Column (state.active ++ ':' :: state.sub)) : Headed f := by
  have kind : Column "HEALTH".toList := ⟨by decide, by decide⟩
  have scope : Column "systemd".toList := ⟨by decide, by decide⟩
  have failed : Column watchFailed := ⟨by decide, by decide⟩
  cases said with
  | reading here inside read => exact ⟨kind, scope, column, states _ here _ inside _ read⟩
  | failure here => exact ⟨kind, scope, column, failed⟩

end Systemd

/-- The row of a watched unit shows the last frame its watcher has sent: a reading of
the unit's states, or the error that ended a session. -/
theorem unit_row (rfc : Rfc3339) (table : DebugTable) (cli : Cli) (outside : Outside) (calm : Calm rfc cli outside)
    (client : Nat) (strict : Bool) (daemon : Daemon.State) (mirror : Pipeline.State)
    (watching : Watching rfc table cli outside client strict daemon mirror) (n : Nat) (spec : Systemd.UnitSpec)
    (watched : cli.units[n]? = some spec) (column : Column spec.id)
    (states : ∀ session ∈ outside.sessions n, ∀ unit ∈ session.first :: session.signals, ∀ state,
      Systemd.readUnit unit = .ok state → Column (state.active ++ ':' :: state.sub))
    (others : ∀ other, other ≠ .unit n → ∀ message ∈ Daemon.sends rfc table cli outside other, ∀ f,
      told rfc message = some f → rowKey f ≠ entityKey "systemd".toList spec.id) :
    ∃ heard, Heard daemon cli.clientBanner client heard ∧
      (entityKey "systemd".toList spec.id ∈ mirror.app.entities ↔ of (.unit n) heard ≠ []) ∧
      ∀ row, mirror.app.entities[entityKey "systemd".toList spec.id]? = some row →
        ∃ f now, (of (.unit n) daemon.spine.sent).getLast? = some (lineBytes rfc f now) ∧
          UnitSaid rfc spec cli.systemd (outside.sessions n) f ∧ Displays f row := by
  have speaks : Speaks rfc (entityKey "systemd".toList spec.id)
      (fun _ f => UnitSaid rfc spec cli.systemd (outside.sessions n) f) (Daemon.sends rfc table cli outside (.unit n)) := by
    intro k message sent
    have member := List.mem_of_getElem? sent
    simp only [Daemon.sends, watched] at member
    obtain ⟨turn, inside, own⟩ := List.mem_flatMap.mp member
    obtain ⟨f, now, said, rfl⟩ := watchUnitFrom_said (List.Subset.refl _) _ turn inside message own
    exact ⟨f, now, said, rfl, unitSaid_headed said column states, unitSaid_key said, said.dated (calm.sessions n)⟩
  obtain ⟨heard, hears, present, shows⟩ := watching.shows calm speaks others
  refine ⟨heard, hears, present, fun row found => ?_⟩
  obtain ⟨f, now, said, last, shown⟩ := shows row found
  exact ⟨f, now, last, said, shown⟩

def reading (active sub : Text) : Systemd.UnitReading where
  now := sampleNow
  activeState := .ok active
  subState := .ok sub
  loadState := .ok "loaded".toList
  description := .ok []

def unitCli : Cli := { watchCli with watches := [], units := [⟨"web.service".toList, "web".toList⟩] }

/-- A unit that runs and then fails. -/
def unitSession : Systemd.Session where
  system := .ok ()
  managerProxy := .ok ()
  getUnit := .ok "/unit/web".toList
  unitPath := .ok ()
  unitBuild := .ok ()
  propsDestination := .ok ()
  propsPath := .ok ()
  propsBuild := .ok ()
  first := reading "active".toList "running".toList
  receive := .ok ()
  signals := [reading "failed".toList "failed".toList]
  failedAt := sampleNow

def unitOutside : Outside := { watchOutside with
  attempts := fun _ => []
  sessions := fun n => if n = 0 then [unitSession] else [] }

theorem mem_unitOutside {n : Nat} {session : Systemd.Session} (member : session ∈ unitOutside.sessions n) :
    session = unitSession := by
  simp only [unitOutside] at member
  split at member
  · exact List.mem_singleton.mp member
  · cases member

theorem unitCli_silent (other : Thread) (apart : other ≠ .unit 0) :
    Daemon.sends sampleClock (fun _ => false) unitCli unitOutside other = [] := by
  cases other with
  | stdin | publisher | watcher => rfl
  | unit n =>
    cases n with
    | zero => exact absurd rfl apart
    | succ n => rfl

theorem unitOutside_calm : Calm sampleClock unitCli unitOutside where
  lawful := sampleTimes_proper.lawful
  stdinClock := fun _ => sampleNow_roundTrips
  publisherClock := fun _ _ => sampleNow_roundTrips
  watcherClock := fun _ _ => sampleNow_roundTrips
  ingestPath := by simp [unitCli, watchCli]
  watches := by simp [unitCli]
  failures := by simp [unitOutside, Daemon.watchEvents, GrpcHealth.watchOne, GrpcHealth.watchFrom]
  units := by
    intro spec member
    rw [List.mem_singleton.mp member]
    exact (by decide : ∀ text ∈ ["web.service".toList, "web".toList], '\n' ∉ text)
  sessions := by
    intro n session member
    rw [mem_unitOutside member]
    refine ⟨(by decide : ∀ text ∈ sessionTexts unitSession, '\n' ∉ text), sampleNow_roundTrips, ?_⟩
    simp [unitSession, reading, sampleNow_roundTrips]

theorem unit_row_web :
    ∃ (daemon : Daemon.State) (mirror : Pipeline.State) (row : EntityState) (f : HawkFrame) (now : OffsetDateTime),
      Watching sampleClock (fun _ => false) unitCli unitOutside 0 true daemon mirror ∧
      mirror.app.entities[entityKey "systemd".toList "web".toList]? = some row ∧
      (of (.unit 0) daemon.spine.sent).getLast? = some (lineBytes sampleClock f now) ∧ Displays f row := by
  obtain ⟨daemon, mirror, watching, -, hearing⟩ := exists_watching rfl true
    (rfl : Daemon.sends sampleClock (fun _ => false) unitCli unitOutside (.unit 0) = _ :: _ :: _) unitCli_silent (by decide)
  have states : ∀ session ∈ unitOutside.sessions 0, ∀ unit ∈ session.first :: session.signals, ∀ state,
      Systemd.readUnit unit = .ok state → Column (state.active ++ ':' :: state.sub) := by
    intro session member unit inside state read
    rw [mem_unitOutside member] at inside
    rcases List.mem_cons.mp inside with rfl | later
    · cases read
      exact ⟨by decide, by decide⟩
    · obtain rfl := List.mem_singleton.mp later
      cases read
      exact ⟨by decide, by decide⟩
  obtain ⟨heard, hears, present, shows⟩ := unit_row sampleClock (fun _ => false) unitCli unitOutside unitOutside_calm 0 true
    daemon mirror watching 0 ⟨"web.service".toList, "web".toList⟩ rfl ⟨by decide, by decide⟩ states
    fun other apart message member => by simp [unitCli_silent other apart] at member
  obtain ⟨row, found⟩ :=
    Option.isSome_iff_exists.mp (Std.ExtTreeMap.isSome_getElem?_iff_mem.mpr (present.mpr (hearing heard hears)))
  obtain ⟨f, now, last, -, shown⟩ := shows row found
  exact ⟨daemon, mirror, row, f, now, watching, found, last, shown⟩

end HawkTui.Proofs.RowTruth
