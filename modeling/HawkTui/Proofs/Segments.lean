import HawkTui.Hawkd.Daemon
import HawkTui.Hawk.Io
import HawkTui.Proofs.Broadcast
import HawkTui.Proofs.FrameCodec

/-! What a client hears of the daemon's threads. A client may join at any time and
break at any time; in between it hears each thread without a gap and in order. -/

namespace HawkTui.Proofs.Segments
open Lib Text Utf8 HawkFrame Io Spine Channel Broadcast FrameCodec
open Daemon (Thread)

section
variable {sends : Thread → List Bytes} {bannerOn : Bool} {state next : Daemon.State} {action : Daemon.Action}

/-- The daemon's state after the given steps of its accept and broadcast loops. -/
structure Relays (sends : Thread → List Bytes) (bannerOn : Bool) (steps : List Step) (state : Daemon.State) : Prop where
  delivered : Delivered steps state.hub
  banners : ∀ flag ∈ connects steps, flag = bannerOn
  taken : messages steps = state.spine.received.map Prod.snd
  own : ∀ thread, of thread state.spine.sent <+: sends thread

theorem relays_step {steps : List Step} (relays : Relays sends bannerOn steps state)
    (moved : Daemon.step sends bannerOn state action = some next) : ∃ steps', Relays sends bannerOn steps' next := by
  obtain ⟨delivered, banners, taken, own⟩ := relays
  cases action with
  | send thread =>
    obtain ⟨bytes, found, rfl⟩ := Option.map_eq_some_iff.mp moved
    refine ⟨steps, delivered, banners, taken, ?_⟩
    rw [sent_send]
    exact of_snoc thread own found
  | connect outcome =>
    obtain ⟨hub, stepped, rfl⟩ := Option.map_eq_some_iff.mp moved
    refine ⟨steps ++ [.connect bannerOn], step_preserves delivered stepped, ?_, ?_, own⟩
    · rw [connects_append]
      intro flag member
      rcases List.mem_append.mp member with old | new
      · exact banners flag old
      · exact List.mem_singleton.mp new
    · rw [messages_append, taken]
      exact List.append_nil _
  | push =>
    obtain ⟨hub, stepped, rfl⟩ := Option.map_eq_some_iff.mp moved
    refine ⟨steps ++ [.push], step_preserves delivered stepped, ?_, ?_, own⟩
    · rw [connects_append]
      simpa [connects] using banners
    · rw [messages_append, taken]
      exact List.append_nil _
  | broadcast outcome =>
    obtain ⟨⟨⟨thread, bytes⟩, rest⟩, received, rfl⟩ := Option.map_eq_some_iff.mp moved
    refine ⟨steps ++ [.broadcast bytes], step_preserves delivered rfl, ?_, ?_, ?_⟩
    · rw [connects_append]
      simpa [connects] using banners
    · rw [messages_append, taken, received_receive received, List.map_append]
      rfl
    · rw [sent_receive received]
      exact own

theorem run_relays {actions : List Daemon.Action}
    (ran : Machine.run (Daemon.step sends bannerOn) {} actions = some state) :
    ∃ steps, Relays sends bannerOn steps state := by
  refine Machine.invariant (fun state => ∃ steps, Relays sends bannerOn steps state) ?_ ?_ ran
  · rintro before action after ⟨steps, relays⟩ moved
    exact relays_step relays moved
  · exact ⟨[], delivered_initial, by simp [connects], rfl, fun _ => List.nil_prefix⟩

theorem messagesAfter_suffix (client : Nat) (steps : List Step) : messagesAfter client steps <:+ messages steps := by
  induction steps generalizing client with
  | nil => exact List.nil_suffix
  | cons first rest ih =>
    cases first with
    | push =>
      cases client with
      | zero => exact List.suffix_rfl
      | succ client => exact ih client
    | connect flag => exact ih client
    | broadcast bytes => exact (ih client).trans (List.suffix_cons bytes (messages rest))

/-- What the client has been sent, each message with the thread it comes from. -/
def Heard (state : Daemon.State) (bannerOn : Bool) (client : Nat) (heard : List (Thread × Bytes)) : Prop :=
  heard <:+ state.spine.received ∧
    (state.hub.sockets client).received <+: (if bannerOn then banner else []) ++ (heard.map Prod.snd).flatten ∧
    ((state.hub.sockets client).broken = false →
      (state.hub.sockets client).received = (if bannerOn then banner else []) ++ (heard.map Prod.snd).flatten)

theorem exists_heard {steps : List Step} (relays : Relays sends bannerOn steps state) {client : Nat}
    (accepted : client < state.hub.accepted) : ∃ heard, Heard state bannerOn client heard := by
  obtain ⟨front, whole⟩ := messagesAfter_suffix client steps
  rw [relays.taken] at whole
  have start : bannerOf client steps = if bannerOn then banner else [] := by
    rw [relays.delivered.accepted] at accepted
    have flag := relays.banners _ (List.getElem_mem accepted)
    simp only [bannerOf, List.getElem?_eq_getElem accepted, flag, Option.some.injEq]
  have later : (state.spine.received.drop front.length).map Prod.snd = messagesAfter client steps := by
    rw [List.map_drop, ← whole, List.drop_left]
  refine ⟨state.spine.received.drop front.length, List.drop_suffix _ _, ?_, fun intact => ?_⟩
  · rw [later, ← start]
    cases broken : (state.hub.sockets client).broken with
    | false => exact (relays.delivered.whole client accepted broken).1 ▸ List.prefix_rfl
    | true => exact (relays.delivered.cut client accepted broken).1
  · rw [later, ← start]
    exact (relays.delivered.whole client accepted intact).1

theorem heard_of {steps : List Step} (relays : Relays sends bannerOn steps state) {client : Nat}
    {heard : List (Thread × Bytes)} (hears : Heard state bannerOn client heard) (thread : Thread) :
    of thread heard <:+: sends thread := by
  obtain ⟨earlier, whole⟩ := hears.1
  have received : of thread state.spine.received <+: sends thread :=
    (of_front thread (received_front _)).trans (relays.own thread)
  rw [← whole, of_append] at received
  exact (List.suffix_append _ _).isInfix.trans received.isInfix

end

section Reader
variable {rfc : Rfc3339} (strict : Bool)

/-- One line that the mirror takes, as a frame or as a comment. -/
def Sound (rfc : Rfc3339) (message : Bytes) : Prop :=
  ∃ line, message = encode (line ++ ['\n']) ∧ '\n' ∉ line ∧ ¬ Rejected rfc line

/-- What the mirror makes of one message. -/
def told (rfc : Rfc3339) (message : Bytes) : Option HawkFrame :=
  (decode message).bind fun line => (parseTsvLine rfc line).toOption.join

theorem told_encode {line : Text} {out : Option HawkFrame} (parsed : parseTsvLine rfc line = .ok out) :
    told rfc (encode (line ++ ['\n'])) = out := by
  rw [told, decode_encode, Option.bind_some, parse_append_newline, parsed]
  rfl

theorem banner_sound (rfc : Rfc3339) : Sound rfc banner ∧ told rfc banner = none := by
  have parsed : parseTsvLine rfc "# hawkd connected".toList = .ok none := parse_ignored (by decide)
  refine ⟨⟨"# hawkd connected".toList, rfl, by decide, ?_⟩, told_encode parsed⟩
  rintro ⟨e, rejected⟩
  rw [parsed] at rejected
  cases rejected

/-- Sound messages are taken one by one, whatever follows them. -/
theorem spawnUnixReader_sound {messages : List Bytes} (sound : ∀ message ∈ messages, Sound rfc message) (rest : Bytes) :
    spawnUnixReader rfc strict (messages.flatten ++ rest) =
      (messages.filterMap (told rfc)).map .frame ++ spawnUnixReader rfc strict rest := by
  induction messages with
  | nil => rfl
  | cons message messages ih =>
    have later := ih fun other member => sound other (by simp [member])
    obtain ⟨line, rfl, single, kept⟩ := sound message (by simp)
    have first := bufLines_append [line] (by simpa using single) (messages.flatten ++ rest)
    rw [List.map_singleton, List.flatten_singleton, List.map_singleton, List.singleton_append] at first
    unfold spawnUnixReader at later ⊢
    rw [List.flatten_cons, List.append_assoc, first, readerLoop, parse_chomp, parse_append_newline]
    cases parsed : parseTsvLine rfc line with
    | error e => exact absurd ⟨e, parsed⟩ kept
    | ok out =>
      rw [List.filterMap_cons, told_encode parsed]
      cases out with
      | none => exact later
      | some frame => rw [later]; rfl

theorem readerLoop_length {reads : List (Option Text)} (few : reads.length ≤ 1) : (readerLoop rfc strict reads).length ≤ 1 := by
  cases reads with
  | nil => simp [readerLoop]
  | cons read reads =>
    obtain rfl : reads = [] := by simpa using few
    cases read with
    | none => simp [readerLoop]
    | some line =>
      simp only [readerLoop]
      cases parseTsvLine rfc line with
      | error e => cases strict <;> simp
      | ok out => cases out <;> simp

/-- A message that breaks off tells at most one thing. -/
theorem spawnUnixReader_part {message part : Bytes} (sound : Sound rfc message) (front : part <+: message)
    (short : part.length < message.length) : (spawnUnixReader rfc strict part).length ≤ 1 := by
  obtain ⟨line, rfl, single, -⟩ := sound
  apply readerLoop_length strict
  apply bufLines_length
  have newline : encode (line ++ ['\n']) = encode line ++ [10] := by rw [encode_append]; rfl
  rw [newline] at front short
  have inside : part <+: encode line := by
    refine List.prefix_of_prefix_length_le front (List.prefix_append _ _) ?_
    rw [List.length_append, List.length_singleton] at short
    omega
  exact fun member => newline_not_mem_encode single (inside.subset member)

/-- A stream of sound messages that may break off anywhere. -/
theorem spawnUnixReader_front {messages : List Bytes} {stream : Bytes} (sound : ∀ message ∈ messages, Sound rfc message)
    (front : stream <+: messages.flatten) :
    ∃ whole tail, whole <+: messages ∧ spawnUnixReader rfc strict stream = (whole.filterMap (told rfc)).map .frame ++ tail ∧
      tail.length ≤ 1 ∧ (stream = messages.flatten → whole = messages ∧ tail = []) := by
  by_cases all : stream = messages.flatten
  · have told := spawnUnixReader_sound strict sound []
    rw [List.append_nil, ← all] at told
    exact ⟨messages, [], List.prefix_rfl, told, Nat.zero_le 1, fun _ => ⟨rfl, rfl⟩⟩
  · obtain ⟨whole, part, known, rfl, cut⟩ := exists_whole_of_front front
    have told := spawnUnixReader_sound strict (fun message member => sound message (known.subset member)) part
    refine ⟨whole, spawnUnixReader rfc strict part, known, told, ?_, fun same => absurd same all⟩
    rcases cut with rfl | ⟨message, member, inside, short⟩
    · exact Nat.zero_le 1
    · exact spawnUnixReader_part strict (sound message member) inside short

/-- What the mirror makes of the stream of one client. Only the message at which the
stream breaks off can be misread, and at most one frame or error comes of it. -/
theorem hears_sound {bannerOn : Bool} {state : Daemon.State} {client : Nat} {heard : List (Thread × Bytes)}
    (sound : ∀ item ∈ heard, Sound rfc item.2) (hears : Heard state bannerOn client heard) :
    ∃ whole tail, whole <+: heard ∧
      spawnUnixReader rfc strict (state.hub.sockets client).received =
        ((whole.map Prod.snd).filterMap (told rfc)).map .frame ++ tail ∧
      tail.length ≤ 1 ∧ ((state.hub.sockets client).broken = false → whole = heard ∧ tail = []) := by
  obtain ⟨-, front, intact⟩ := hears
  have spoken : ∀ message ∈ heard.map Prod.snd, Sound rfc message := by
    intro message member
    obtain ⟨item, inside, rfl⟩ := List.mem_map.mp member
    exact sound item inside
  cases bannerOn with
  | false =>
    obtain ⟨whole, tail, known, read, few, all⟩ := spawnUnixReader_front strict spoken front
    obtain ⟨items, within, rfl⟩ := List.prefix_map_iff.mp known
    refine ⟨items, tail, within, read, few, fun unbroken => ?_⟩
    obtain ⟨same, none⟩ := all (intact unbroken)
    exact ⟨within.eq_of_length (by simpa using congrArg List.length same), none⟩
  | true =>
    obtain ⟨greeting, silent⟩ := banner_sound rfc
    obtain ⟨whole, tail, known, read, few, all⟩ :=
      spawnUnixReader_front strict (List.forall_mem_cons.mpr ⟨greeting, spoken⟩) front
    rcases List.prefix_cons_iff.mp known with rfl | ⟨rest, rfl, later⟩
    · exact ⟨[], tail, List.nil_prefix, read, few, fun unbroken => absurd (all (intact unbroken)).1 (by simp)⟩
    · obtain ⟨items, within, rfl⟩ := List.prefix_map_iff.mp later
      rw [List.filterMap_cons, silent] at read
      refine ⟨items, tail, within, read, few, fun unbroken => ?_⟩
      obtain ⟨same, none⟩ := all (intact unbroken)
      exact ⟨within.eq_of_length (by simpa using congrArg List.length same), none⟩

end Reader

/-- In any order of sends, joins and broadcasts a client gets whole messages from some
point on, among them each thread's own without a gap, in the thread's order. -/
theorem daemon_segments (rfc : Rfc3339) (table : DebugTable) (cli : Daemon.Cli) (outside : Daemon.Outside)
    (actions : List Daemon.Action) (state : Daemon.State) (client : Nat)
    (ran : Daemon.run rfc table cli outside actions = some state) (accepted : client < state.hub.accepted) :
    ∃ heard, Heard state cli.clientBanner client heard ∧
      ∀ thread, of thread heard <:+: Daemon.sends rfc table cli outside thread := by
  obtain ⟨steps, relays⟩ := run_relays ran
  obtain ⟨heard, hears⟩ := exists_heard relays accepted
  exact ⟨heard, hears, heard_of relays hears⟩

def watchCli : Daemon.Cli where
  ingestPath := none
  strict := false
  source := .none
  clientBanner := true
  watches := [⟨"http://svc:50051".toList, [], "svc".toList⟩]
  units := []
  grpc := ⟨30, 90⟩
  systemd := ⟨30, 90⟩

/-- A service that serves, stops serving and then drops the stream. -/
def watchOutside : Daemon.Outside where
  stdin := []
  stdinClock := fun _ => sampleNow
  publishers := fun _ => []
  publisherClock := fun _ _ => sampleNow
  attempts := fun n => if n = 0 then [.streamed [.ok 1, .ok 2, .error "reset".toList]] else []
  watcherClock := fun _ _ => (sampleNow, sampleNow)
  sessions := fun _ => []

/-- A client joins between the first two messages of a thread. -/
def joinActions (thread : Thread) : List Daemon.Action :=
  [.send thread, .broadcast (fun _ => .complete), .connect .complete, .push, .send thread, .broadcast (fun _ => .complete)]

theorem joinActions_run {sends : Thread → List Bytes} {thread : Thread} {first second : Bytes} {rest : List Bytes}
    (given : sends thread = first :: second :: rest) :
    ∃ state, Machine.run (Daemon.step sends true) {} (joinActions thread) = some state ∧ 0 < state.hub.accepted ∧
      state.hub.sockets 0 = { received := banner ++ second } ∧ state.spine.waiting = [] ∧
      of thread state.spine.sent = [first, second] := by
  simp [Machine.run, joinActions, Daemon.step, given, broadcast, retainLoop_eq_sweep, send, sent, receive, of, Spine.step,
    sweep, write, Socket.writeAll]

theorem daemon_segments_watch :
    ∃ state heard, Heard state true 0 heard ∧
      of (.watcher 0) heard <:+: Daemon.sends sampleClock (fun _ => false) watchCli watchOutside (.watcher 0) := by
  obtain ⟨state, ran, accepted, -⟩ :=
    joinActions_run (rfl : Daemon.sends sampleClock (fun _ => false) watchCli watchOutside (.watcher 0) = _ :: _ :: _)
  obtain ⟨heard, hears, inside⟩ :=
    daemon_segments sampleClock (fun _ => false) watchCli watchOutside (joinActions (.watcher 0)) state 0 ran accepted
  exact ⟨state, heard, hears, inside (.watcher 0)⟩

end HawkTui.Proofs.Segments
