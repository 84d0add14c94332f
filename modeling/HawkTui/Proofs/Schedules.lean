import HawkTui.Proofs.Filters
import HawkTui.Proofs.PipelineFlow
import Mathlib.Data.Prod.Lex

/-! The running mirror from start to rest. No order of the threads' steps loses,
repeats or invents a message, and every order comes to rest. Awk can hold up the
writer alone, by not reading its input. -/

namespace HawkTui.Proofs.Schedules
open Lib Text Utf8 HawkFrame Awk Draw Channel Filters PipelineFlow HawkTui.Pipeline

def parseErrorsOf (msgs : List IngestMsg) : List HawkFrameParseError :=
  msgs.filterMap fun | .parseError e => some e | _ => none

def isIoError (msg : IngestMsg) : Bool := msg matches .ioError _

/-- What the mirror has taken in. -/
def mirrored (state : State) : List IngestMsg := state.log.map Prod.snd

section Channels
variable {rfc : Rfc3339} {input : List IngestMsg} {bridged : Bool} {start : App} {state : State}

theorem parseErrorsOf_othersOf (msgs : List IngestMsg) : parseErrorsOf (othersOf msgs) = parseErrorsOf msgs := by
  rw [parseErrorsOf, othersOf, List.filterMap_filter]
  apply List.filterMap_congr
  intro msg _
  cases msg <;> rfl

theorem framesOf_frames (frames : List HawkFrame) : framesOf (frames.map .frame) = frames := by
  simp [framesOf, List.filterMap_map]

/-- The senders of the screen's channel, told apart by what they send. -/
theorem sent_by_kind (flows : Flows rfc input true start state) {sender : UiSender} {msg : IngestMsg}
    (member : msg ∈ of sender state.rxUi.sent) :
    match sender with
    | .source => ∀ frame, msg ≠ .frame frame
    | .frames => ∃ frame, msg = .frame frame
    | .errors => ∃ text, msg = .ioError text := by
  cases sender with
  | source =>
    rw [flows.sorted.ui] at member
    have other := List.of_mem_filter member
    rintro frame rfl
    cases other
  | frames =>
    rw [flows.shown.frames] at member
    obtain ⟨frame, -, rfl⟩ := List.mem_map.mp member
    exact ⟨frame, rfl⟩
  | errors =>
    rw [flows.shown.errors] at member
    obtain ⟨err, -, rfl⟩ := List.mem_map.mp member
    exact ⟨_, rfl⟩

theorem frames_sent (flows : Flows rfc input true start state) :
    framesOf (state.rxUi.sent.map Prod.snd) = state.rxFramesOut.received := by
  rw [framesOf, filterMap_of .frames _ _, flows.shown.frames]
  · exact framesOf_frames _
  · intro sender msg apart member
    have kind := sent_by_kind flows member
    cases sender with
    | source => cases msg <;> first | rfl | exact absurd rfl (kind _)
    | frames => exact absurd rfl apart
    | errors =>
      obtain ⟨text, rfl⟩ := kind
      rfl

theorem parseErrors_sent (flows : Flows rfc input true start state) :
    parseErrorsOf (state.rxUi.sent.map Prod.snd) = parseErrorsOf state.rxSource.received := by
  rw [parseErrorsOf, filterMap_of .source _ _, flows.sorted.ui]
  · exact parseErrorsOf_othersOf _
  · intro sender msg apart member
    have kind := sent_by_kind flows member
    cases sender with
    | source => exact absurd rfl apart
    | frames =>
      obtain ⟨frame, rfl⟩ := kind
      rfl
    | errors =>
      obtain ⟨text, rfl⟩ := kind
      rfl

theorem ioErrors_sent (flows : Flows rfc input true start state) :
    (state.rxUi.sent.map Prod.snd).countP isIoError =
      state.rxSource.received.countP isIoError + state.rxErr.received.length := by
  rw [(perm_of [.source, .frames, .errors] _ (by decide) fun item _ => by cases item.1 <;> simp).countP_eq]
  have source : (of .source state.rxUi.sent).countP isIoError = state.rxSource.received.countP isIoError := by
    rw [flows.sorted.ui, shownBy, if_pos rfl, othersOf, List.countP_filter]
    apply List.countP_congr
    intro msg _
    cases msg <;> simp [isIoError]
  have frames : (of .frames state.rxUi.sent).countP isIoError = 0 := by
    rw [List.countP_eq_zero]
    intro msg member
    obtain ⟨frame, rfl⟩ := sent_by_kind flows member
    simp [isIoError]
  have errors : (of .errors state.rxUi.sent).countP isIoError = state.rxErr.received.length := by
    rw [flows.shown.errors, List.countP_map, List.countP_eq_length.mpr]
    intro err _
    rfl
  simp [source, frames, errors]

theorem errors_by_sender (state : State) :
    state.rxErr.sent.length = (of .writer state.rxErr.sent).length + (of .reader state.rxErr.sent).length +
      (of .waiter state.rxErr.sent).length := by
  have total := (perm_of [.writer, .reader, .waiter] state.rxErr.sent (by decide)
    fun item _ => by cases item.1 <;> simp).length_eq
  simpa [Nat.add_assoc] using total

theorem mirrored_front (flows : Flows rfc input bridged start state) : mirrored state <+: state.rxUi.sent.map Prod.snd := by
  rw [mirrored, flows.shown.log]
  exact (received_front _).map _

theorem read_front (flows : Flows rfc input bridged start state) :
    (bridgeReader rfc state.consumed).frames <+: (bridgeReader rfc state.printed).frames := by
  rcases flows.reading.boundary with ends | ⟨empty, -⟩
  · rw [bridgeReader, bridgeReader, State.printed, bufLines_append_of_ends ends]
    exact bridgeReaderLoop_front _ _
  · rw [State.printed, empty, List.append_nil]

end Channels

/-- At every moment of every run, awk has been fed the first of the source's frames,
each as its own line; the mirror has taken in the first of the frames that awk's
output holds and the first of the source's parse errors, in order; and the screens
show growing parts of what it has taken in. -/
theorem mirror_follows (rfc : Rfc3339) (input : List IngestMsg) (start : App) (actions : List Action) (state : State)
    (ran : run rfc input true start actions = some state) :
    state.written.map Prod.fst <+: framesOf input ∧
      state.stdin <+: fed rfc state.written ∧
      framesOf (mirrored state) <+: (bridgeReader rfc state.printed).frames ∧
      parseErrorsOf (mirrored state) <+: parseErrorsOf input ∧
      ∃ marks : List (Nat × Readings), (marks.map Prod.fst).Pairwise (· ≤ ·) ∧
        (∀ mark ∈ marks, mark.1 ≤ state.log.length) ∧
        state.screens = marks.map fun mark => drawApp rfc (start.ingestAll rfc (state.log.take mark.1)) mark.2 := by
  have flows := run_flows ran
  have source : state.rxSource.received <+: input := (received_front _).trans flows.sorted.sent
  refine ⟨?_, flows.fed.stdin, ?_, ?_, flows.shown.screens⟩
  · rw [flows.fed.taken]
    have handed : state.rxFramesRaw.sent <+: framesOf state.rxSource.received := flows.sorted.raw
    exact ((received_front _).trans handed).trans (source.filterMap _)
  · have passed : framesOf (mirrored state) <+: framesOf (state.rxUi.sent.map Prod.snd) := (mirrored_front flows).filterMap _
    rw [frames_sent flows] at passed
    have read : state.rxFramesOut.received <+: (bridgeReader rfc state.consumed).frames := by
      rw [← flows.reading.frames]
      exact received_front _
    exact (passed.trans read).trans (read_front flows)
  · have passed : parseErrorsOf (mirrored state) <+: parseErrorsOf (state.rxUi.sent.map Prod.snd) :=
      (mirrored_front flows).filterMap _
    rw [parseErrors_sent flows] at passed
    exact passed.trans (source.filterMap _)

def unitMsgs : List IngestMsg := [.frame (unitFrame "web.service".toList .warn), .parseError .empty]

theorem mirror_follows_broken :
    ∃ state, run sampleClock unitMsgs true (App.new 10 30 90)
        [.read, .read, .route, .write sampleNow, .accept 3, .hangUp, .writeFails, .report, .take sampleNow, .route] = some state ∧
      state.written.map Prod.fst <+: framesOf unitMsgs ∧ parseErrorsOf (mirrored state) <+: [.empty] := by
  refine ⟨_, rfl, ?_⟩
  have follows := mirror_follows sampleClock unitMsgs (App.new 10 30 90)
    [.read, .read, .route, .write sampleNow, .accept 3, .hangUp, .writeFails, .report, .take sampleNow, .route] _ rfl
  exact ⟨follows.1, follows.2.2.2.1⟩

section Rest
variable {rfc : Rfc3339} {input : List IngestMsg} {bridged : Bool} {start : App} {state next : State} {action : Action}

/-- The steps of the program's own threads. Awk's steps and the screen's are left out. -/
def Internal : Action → Bool
  | .read | .route | .write _ | .accept _ | .writeFails | .flush _ | .readLine | .reap | .forward | .report | .take _ => true
  | .drink _ | .hangUp | .print _ | .exit _ | .drained | .draw _ | .poll _ => false

/-- The screen waits for messages and none of the threads can move. -/
def Idle (rfc : Rfc3339) (input : List IngestMsg) (bridged : Bool) (state : State) : Prop :=
  state.phase = .draining ∧ ∀ action, Internal action = true → step rfc input bridged state action = none

/-- The writer is inside a write, and the pipe is full. -/
structure Stuck (state : State) : Prop where
  writing : ∃ rest, rest ≠ [] ∧ state.writing = some rest
  full : state.room = 0
  open_ : state.inputOpen = true

/-- How far the threads are from rest, the pipe apart. Whatever is passed on weighs less
behind than before. -/
def load (input : List IngestMsg) (state : State) : Nat :=
  6 * (input.length - state.rxSource.sent.length) + 5 * state.rxSource.waiting.length +
    4 * state.rxFramesRaw.waiting.length + (if state.writing = none then 0 else 3) + 3 * state.unread.length +
    (if state.reaped then 0 else 3) + 2 * state.rxFramesOut.waiting.length + 2 * state.rxErr.waiting.length +
    state.rxUi.waiting.length

/-- Every step of the threads lessens their load, or fills the pipe. -/
def rank (input : List IngestMsg) (state : State) : Nat := load input state + state.room

def pending (state : State) : Nat := (state.writing.getD []).length

theorem waiting_receive {α : Type} {channel rest : Channel α} {item : α} (taken : channel.receive = some (item, rest)) :
    channel.waiting.length = rest.waiting.length + 1 := by
  rw [(receive_eq_some_iff.mp taken).1, List.length_cons]

theorem waitError_length (wait : Wait) : (waitError wait).toList.length ≤ 1 := by
  cases wait <;> simp [waitError]

theorem said_length (rfc : Rfc3339) (read : Option Text) :
    (bridgeReaderLoop rfc [read]).frames.length + (bridgeReaderLoop rfc [read]).errors.length ≤ 1 := by
  cases read with
  | none => simp [bridgeReaderLoop]
  | some line =>
    simp only [bridgeReaderLoop]
    cases parseTsvLine rfc line with
    | error e => simp
    | ok parsed => cases parsed <;> simp

/-- A step of the threads leaves the pipe as it is and passes something on, or moves
bytes into the pipe. -/
theorem load_drops (internal : Internal action = true) (moved : step rfc input bridged state action = some next) :
    load input next < load input state ∧ next.room = state.room ∨
      load input next = load input state ∧ next.room < state.room ∧ pending next < pending state := by
  cases moves_of_step moved with
  | read msg found =>
    have inside := (List.getElem?_eq_some_iff.mp found).1
    refine Or.inl ⟨?_, rfl⟩
    simp only [load, sent_send, waiting_send, List.length_append, List.length_singleton]
    omega
  | route msg rest taken =>
    have one : (shownBy bridged [msg]).length + (bridgedBy bridged [msg]).length = 1 := by
      cases bridged <;> cases msg <;> rfl
    have fewer : (if state.writerUp then bridgedBy bridged [msg] else []).length ≤ (bridgedBy bridged [msg]).length := by
      split <;> simp
    refine Or.inl ⟨?_, rfl⟩
    simp only [load, sent_receive taken, waiting_receive taken, waiting_sendAll, List.length_append, List.length_map]
    omega
  | write now frame rest up free taken =>
    refine Or.inl ⟨?_, rfl⟩
    simp only [load, waiting_receive taken, free, ↓reduceIte, reduceCtorEq]
    omega
  | accept n rest writing open_ some_ fits room =>
    refine Or.inr ⟨?_, ?_, ?_⟩
    · simp only [load, writing, ↓reduceIte, reduceCtorEq]
    · exact Nat.sub_lt (Nat.lt_of_lt_of_le some_ room) some_
    · rw [pending, pending, writing, Option.getD_some, Option.getD_some, List.length_drop]
      omega
  | writeFails rest writing closed present =>
    refine Or.inl ⟨?_, rfl⟩
    simp only [load, writing, waiting_sendAll, List.length_append, List.length_singleton, ↓reduceIte, reduceCtorEq]
    omega
  | flushed written =>
    refine Or.inl ⟨?_, rfl⟩
    simp only [load, written, ↓reduceIte, reduceCtorEq]
    omega
  | flushFails written =>
    refine Or.inl ⟨?_, rfl⟩
    simp only [load, written, waiting_sendAll, List.length_append, List.length_singleton, ↓reduceIte, reduceCtorEq]
    omega
  | readLine piece rest up taken frames errors said =>
    obtain ⟨split, present, -⟩ := nextPiece_some taken
    have shorter : state.unread.length = piece.length + rest.length := by rw [split, List.length_append]
    have some_read := List.length_pos_iff.mpr present
    have one := said_length rfc ((decode piece).map chomp)
    rw [said] at one
    refine Or.inl ⟨?_, rfl⟩
    simp only [load, shorter, waiting_sendAll, List.length_append, List.length_map] at one ⊢
    omega
  | reap wait gone due =>
    have one := waitError_length wait
    refine Or.inl ⟨?_, rfl⟩
    simp only [load, due, ↓reduceIte, Bool.false_eq_true, waiting_sendAll, List.length_append, List.length_map]
    omega
  | forward frame rest taken =>
    refine Or.inl ⟨?_, rfl⟩
    simp only [load, waiting_receive taken, waiting_send, List.length_append, List.length_singleton]
    omega
  | report err rest taken =>
    refine Or.inl ⟨?_, rfl⟩
    simp only [load, waiting_receive taken, waiting_send, List.length_append, List.length_singleton]
    omega
  | take now msg rest draining taken =>
    refine Or.inl ⟨?_, rfl⟩
    simp only [load, waiting_receive taken]
    omega
  | drink | hangUp | print | exit | drained | draw | poll => cases internal

theorem rank_drops (internal : Internal action = true) (moved : step rfc input bridged state action = some next) :
    rank input next < rank input state := by
  unfold rank
  rcases load_drops internal moved with less | fuller <;> omega

/-- What it means that no thread can move. -/
structure AtRest (input : List IngestMsg) (state : State) : Prop where
  source : input.length ≤ state.rxSource.sent.length
  sorted : state.rxSource.waiting = []
  stuck : state.writing ≠ none → Stuck state
  fed : state.writerUp = true → state.writing = none → state.rxFramesRaw.waiting = []
  lines : state.readerUp = true → nextPiece state.unread state.exited.isSome = none
  reaped : state.exited.isSome = true → state.reaped = true
  forwarded : state.rxFramesOut.waiting = []
  reported : state.rxErr.waiting = []
  taken : state.rxUi.waiting = []

/-- A writer that can neither have a byte accepted nor flush waits for room or meets a
broken pipe. -/
theorem write_waits {rest : Bytes} (live : state.phase ≠ .ended) (writing : state.writing = some rest)
    (accepts : step rfc input bridged state (.accept 1) = none) (flushes : step rfc input bridged state (.flush true) = none) :
    rest ≠ [] ∧ (state.inputOpen = true → state.room = 0) := by
  have present : rest ≠ [] := by
    rintro rfl
    simp [step, live, flush, writing] at flushes
  refine ⟨present, fun open_ => ?_⟩
  by_contra some_
  have room : 1 ≤ state.room := Nat.one_le_iff_ne_zero.mpr some_
  have length : 1 ≤ rest.length := List.length_pos_iff.mpr present
  simp [step, live, accept, writing, open_, room, length] at accepts

theorem atRest_of_idle (idle : Idle rfc input bridged state) : AtRest input state := by
  obtain ⟨draining, still⟩ := idle
  have live : state.phase ≠ .ended := by simp [draining]
  refine ⟨?_, ?_, fun busy => ?_, fun up free => ?_, ?_, fun gone => ?_, ?_, ?_, ?_⟩
  · simpa [step, live] using still .read rfl
  · simpa [step, live, route, receive_eq_none_iff] using still .route rfl
  · obtain ⟨rest, writing⟩ := Option.ne_none_iff_exists'.mp busy
    obtain ⟨present, full⟩ := write_waits live writing (still _ rfl) (still _ rfl)
    have open_ : state.inputOpen = true := by
      have whole := still .writeFails rfl
      simpa [step, live, writeFails, writing, present] using whole
    exact ⟨⟨rest, present, writing⟩, full open_, open_⟩
  · simpa [step, live, write, up, free, receive_eq_none_iff] using still (.write ⟨0, 0⟩) rfl
  · simpa [step, live, readLine] using still .readLine rfl
  · have done := still .reap rfl
    simp only [step, live, ↓reduceIte, reap] at done
    by_contra due
    simp only [due, ↓reduceIte, Option.map_eq_none_iff] at done
    simp [done] at gone
  · simpa [step, live, forward, receive_eq_none_iff] using still .forward rfl
  · simpa [step, live, report, receive_eq_none_iff] using still .report rfl
  · simpa [step, live, take, draining, receive_eq_none_iff] using still (.take ⟨0, 0⟩) rfl

theorem still_of_atRest (rest : AtRest input state) (internal : Internal action = true) :
    step rfc input bridged state action = none := by
  rw [Option.eq_none_iff_forall_ne_some]
  intro next moved
  cases moves_of_step moved with
  | read msg found => exact absurd (List.getElem?_eq_some_iff.mp found).1 (Nat.not_lt.mpr rest.source)
  | route msg others taken => exact absurd taken (by simp [receive_eq_none_iff.mpr rest.sorted])
  | write now frame others up free taken => exact absurd taken (by simp [receive_eq_none_iff.mpr (rest.fed up free)])
  | accept n bytes writing open_ some_ fits room =>
    have full := (rest.stuck (by simp [writing])).full
    omega
  | writeFails bytes writing closed => exact absurd closed (by simp [(rest.stuck (by simp [writing])).open_])
  | flushed written | flushFails written =>
    obtain ⟨bytes, present, writing⟩ := (rest.stuck (by simp [written])).writing
    exact present (Option.some_inj.mp (writing.symm.trans written))
  | readLine piece others up taken => exact absurd taken (by simp [rest.lines up])
  | reap wait gone due => exact absurd due (by simp [rest.reaped (by simp [gone])])
  | forward frame others taken => exact absurd taken (by simp [receive_eq_none_iff.mpr rest.forwarded])
  | report err others taken => exact absurd taken (by simp [receive_eq_none_iff.mpr rest.reported])
  | take now msg others waits taken => exact absurd taken (by simp [receive_eq_none_iff.mpr rest.taken])
  | drink | hangUp | print | exit | drained | draw | poll => cases internal

theorem idle_iff : Idle rfc input bridged state ↔ state.phase = .draining ∧ AtRest input state := by
  constructor
  · intro idle
    exact ⟨idle.1, atRest_of_idle idle⟩
  · rintro ⟨draining, rest⟩
    exact ⟨draining, fun action internal => still_of_atRest rest internal⟩

theorem phase_kept (internal : Internal action = true) (moved : step rfc input bridged state action = some next) :
    next.phase = state.phase := by
  cases moves_of_step moved with
  | drained | draw | poll => cases internal
  | read | route | write | accept | writeFails | flushed | flushFails | drink | hangUp | print | exit | readLine | reap | forward |
      report | take => rfl

/-- From every state in which the screen waits the threads can come to rest. -/
theorem exists_idle (rfc : Rfc3339) (input : List IngestMsg) (bridged : Bool) (state : State)
    (draining : state.phase = .draining) :
    ∃ actions finish, (∀ action ∈ actions, Internal action = true) ∧
      Machine.run (step rfc input bridged) state actions = some finish ∧ Idle rfc input bridged finish := by
  obtain ⟨actions, finish, own, ran, still⟩ := Machine.exists_rest (rank input) (fun action => Internal action = true)
    (fun _ _ _ internal moved => rank_drops internal moved) state
  have waits : finish.phase = .draining := Machine.invariant_of (fun state => state.phase = .draining) _
    (fun _ _ _ internal before moved => (phase_kept internal moved).trans before) draining own ran
  exact ⟨actions, finish, own, ran, waits, still⟩

/-- The steps of the threads and of an awk that reads, when no write and no flush fails
and the writer's clock stands still. -/
structure Smooth (now : OffsetDateTime) (action : Action) : Prop where
  own : Internal action = true ∨ ∃ n, 0 < n ∧ action = .drink n
  clock : ∀ at_, action = .write at_ → at_ = now
  writes : action ≠ .writeFails
  flushes : action ≠ .flush false

/-- What a smooth run leaves as it was. -/
structure Smoothly (now : OffsetDateTime) (state next : State) : Prop where
  phase : next.phase = state.phase
  up : next.writerUp = state.writerUp
  open_ : next.inputOpen = state.inputOpen
  exited : next.exited = state.exited
  printed : next.printed = state.printed
  stamped : (∀ item ∈ state.written, item.2 = now) → ∀ item ∈ next.written, item.2 = now

theorem smooth_step {now : OffsetDateTime} (smooth : Smooth now action)
    (moved : step rfc input bridged state action = some next) : Smoothly now state next := by
  cases moves_of_step moved with
  | write at_ frame rest up free taken =>
    refine ⟨rfl, rfl, rfl, rfl, rfl, ?_⟩
    intro before item member
    rcases List.mem_append.mp member with old | new
    · exact before item old
    · rw [List.mem_singleton.mp new]
      exact smooth.clock at_ rfl
  | readLine piece rest up taken frames errors said =>
    refine ⟨rfl, rfl, rfl, rfl, ?_, id⟩
    simp only [State.printed, (nextPiece_some taken).1, List.append_assoc]
  | writeFails => exact absurd rfl smooth.writes
  | flushFails => exact absurd rfl smooth.flushes
  | read | route | accept | flushed | drink | reap | forward | report | take => exact ⟨rfl, rfl, rfl, rfl, rfl, id⟩
  | hangUp | print | exit | drained | draw | poll =>
    rcases smooth.own with internal | ⟨n, -, same⟩
    · cases internal
    · cases same

/-- What is left to do when awk reads: first the load, then the bytes of the line at
hand, then those that wait in the pipe. -/
def remaining (input : List IngestMsg) (state : State) : ℕ ×ₗ ℕ ×ₗ ℕ :=
  toLex (load input state, toLex (pending state, pipeSize - state.room))

theorem remaining_drops {now : OffsetDateTime} (smooth : Smooth now action)
    (moved : step rfc input bridged state action = some next) : remaining input next < remaining input state := by
  rcases smooth.own with internal | ⟨n, some_, rfl⟩
  · rcases load_drops internal moved with less | fuller
    · exact Prod.Lex.toLex_lt_toLex.mpr (Or.inl less.1)
    · exact Prod.Lex.toLex_lt_toLex.mpr (Or.inr ⟨fuller.1, Prod.Lex.toLex_lt_toLex.mpr (Or.inl fuller.2.2)⟩)
  · cases moves_of_step moved with
    | drink n started running fits =>
      have emptier : pipeSize - (state.room + n) < pipeSize - state.room := by omega
      exact Prod.Lex.toLex_lt_toLex.mpr (Or.inr ⟨rfl, Prod.Lex.toLex_lt_toLex.mpr (Or.inr ⟨rfl, emptier⟩)⟩)

/-- Where no smooth step is left, none is left at all, and the writer waits for frames. -/
theorem idle_of_smooth {now : OffsetDateTime} (draining : state.phase = .draining) (open_ : state.inputOpen = true)
    (running : state.exited = none) (still : ∀ action, Smooth now action → step rfc input true state action = none) :
    Idle rfc input true state ∧ state.writing = none := by
  have live : state.phase ≠ .ended := by simp [draining]
  have free : state.writing = none := by
    rw [Option.eq_none_iff_forall_ne_some]
    intro rest writing
    have full := (write_waits live writing (still _ ⟨Or.inl rfl, by simp, by simp, by simp⟩)
      (still _ ⟨Or.inl rfl, by simp, by simp, by simp⟩)).2 open_
    have reads := still (.drink 1) ⟨Or.inr ⟨1, by decide, rfl⟩, by simp, by simp, by simp⟩
    simp [step, live, running, full, pipeSize] at reads
  refine ⟨⟨draining, fun action internal => ?_⟩, free⟩
  rw [Option.eq_none_iff_forall_ne_some]
  intro next moved
  have smooth : ∀ {action}, Internal action = true → (∀ at_, action ≠ .write at_) → action ≠ .writeFails → action ≠ .flush false →
      step rfc input true state action = none := fun internal clock writes flushes =>
    still _ ⟨Or.inl internal, fun at_ same => absurd same (clock at_), writes, flushes⟩
  cases moves_of_step moved with
  | write at_ frame rest up idle taken =>
    have calm := still (.write now) ⟨Or.inl rfl, by simp, by simp, by simp⟩
    simp [step, live, write, up, idle, taken] at calm
  | accept n rest writing | writeFails rest writing | flushed writing | flushFails writing => simp [free] at writing
  | read | route | readLine | reap | forward | report | take =>
    simp [smooth internal (by simp) (by simp) (by simp)] at moved
  | drink | hangUp | print | exit | drained | draw | poll => cases internal

/-- While awk runs and reads its input, the threads can come to rest with every frame
written. -/
theorem exists_fed (rfc : Rfc3339) (input : List IngestMsg) (now : OffsetDateTime) (state : State)
    (draining : state.phase = .draining) (open_ : state.inputOpen = true) (running : state.exited = none) :
    ∃ actions finish, (∀ action ∈ actions, Internal action = true ∨ ∃ n, action = .drink n) ∧
      Machine.run (step rfc input true) state actions = some finish ∧ Smoothly now state finish ∧
      Idle rfc input true finish ∧ finish.writing = none := by
  have drops : ∀ before action after, Smooth now action → step rfc input true before action = some after →
      remaining input after < remaining input before := fun _ _ _ smooth moved => remaining_drops smooth moved
  obtain ⟨actions, finish, smooth, ran, still⟩ := Machine.exists_rest (remaining input) (Smooth now) drops state
  have smoothly : Smoothly now state finish := by
    refine Machine.invariant_of (Smoothly now state) (Smooth now) ?_ ⟨rfl, rfl, rfl, rfl, rfl, id⟩ smooth ran
    intro middle action next calm before moved
    have after := smooth_step calm moved
    exact ⟨after.phase.trans before.phase, after.up.trans before.up, after.open_.trans before.open_,
      after.exited.trans before.exited, after.printed.trans before.printed, after.stamped ∘ before.stamped⟩
  have idle := idle_of_smooth (smoothly.phase.trans draining) (smoothly.open_.trans open_) (smoothly.exited.trans running) still
  refine ⟨actions, finish, fun action member => (smooth action member).own.imp id ?_, ran, smoothly, idle⟩
  rintro ⟨n, -, rfl⟩
  exact ⟨n, rfl⟩

/-- Nothing is left for the writer. -/
structure Settled (input : List IngestMsg) (state : State) : Prop where
  source : input.length ≤ state.rxSource.sent.length
  sorted : state.rxSource.waiting = []
  raw : state.rxFramesRaw.waiting = []
  free : state.writing = none

/-- What the threads leave as it was once nothing is left for the writer. -/
structure Quietly (state next : State) : Prop where
  up : next.writerUp = state.writerUp
  written : next.written = state.written
  exited : next.exited = state.exited
  printed : next.printed = state.printed

theorem settled_step (settled : Settled input state) (internal : Internal action = true)
    (moved : step rfc input bridged state action = some next) : Settled input next ∧ Quietly state next := by
  obtain ⟨source, sorted, raw, free⟩ := settled
  cases moves_of_step moved with
  | read msg found => exact absurd (List.getElem?_eq_some_iff.mp found).1 (Nat.not_lt.mpr source)
  | route msg rest taken => simp [receive_eq_none_iff.mpr sorted] at taken
  | write now frame rest up idle taken => simp [receive_eq_none_iff.mpr raw] at taken
  | accept n rest writing | writeFails rest writing | flushed writing | flushFails writing => simp [free] at writing
  | readLine piece rest up taken frames errors said =>
    refine ⟨⟨source, sorted, raw, free⟩, rfl, rfl, rfl, ?_⟩
    simp only [State.printed, (nextPiece_some taken).1, List.append_assoc]
  | reap | forward | report | take => exact ⟨⟨source, sorted, raw, free⟩, rfl, rfl, rfl, rfl⟩
  | drink | hangUp | print | exit | drained | draw | poll => cases internal

/-- A run in which awk reads all its input, prints what it likes and ends. -/
theorem exists_ended (rfc : Rfc3339) (input : List IngestMsg) (start : App) (now : OffsetDateTime) (wait : Wait)
    (out : List (HawkFrame × OffsetDateTime) → Bytes) :
    ∃ actions state, run rfc input true start actions = some state ∧ Idle rfc input true state ∧ state.writerUp = true ∧
      state.exited = some wait ∧ state.printed = out state.written ∧ ∀ item ∈ state.written, item.2 = now := by
  obtain ⟨first, fed, -, ranFirst, smooth, idle, free⟩ := exists_fed rfc input now { app := start } rfl rfl rfl
  have running : fed.exited = none := smooth.exited
  have nothing : fed.printed = [] := smooth.printed
  have live : fed.phase ≠ .ended := by simp [idle.1]
  have rest := atRest_of_idle idle
  let gone : State := { fed with unread := fed.unread ++ out fed.written, exited := some wait, inputOpen := false }
  have ranAwk : Machine.run (step rfc input true) fed [.print (out fed.written), .exit wait] = some gone := by
    simp [Machine.run, step, live, running, gone]
  obtain ⟨last, state, own, ranLast, still⟩ := exists_idle rfc input true gone idle.1
  have settled : Settled input gone := ⟨rest.source, rest.sorted, rest.fed smooth.up free, free⟩
  have quietly : Settled input state ∧ Quietly gone state := by
    refine Machine.invariant_of (fun state => Settled input state ∧ Quietly gone state) _ ?_ ⟨settled, rfl, rfl, rfl, rfl⟩ own
      ranLast
    intro middle action next internal before moved
    obtain ⟨after, quiet⟩ := settled_step before.1 internal moved
    exact ⟨after, quiet.up.trans before.2.up, quiet.written.trans before.2.written, quiet.exited.trans before.2.exited,
      quiet.printed.trans before.2.printed⟩
  have ran : run rfc input true start (first ++ ([.print (out fed.written), .exit wait] ++ last)) = some state :=
    Machine.run_append.mpr ⟨fed, ranFirst, Machine.run_append.mpr ⟨gone, ranAwk, ranLast⟩⟩
  refine ⟨_, state, ran, still, quietly.2.up.trans smooth.up, quietly.2.exited, ?_, ?_⟩
  · have split : gone.printed = fed.printed ++ out fed.written := (List.append_assoc _ _ _).symm
    rw [quietly.2.printed, split, nothing, List.nil_append, quietly.2.written]
  · rw [quietly.2.written]
    exact smooth.stamped (by simp)

theorem nextPiece_eq_none_iff {unread : Bytes} {ended : Bool} :
    nextPiece unread ended = none ↔ 10 ∉ unread ∧ (ended = true → unread = []) := by
  have newline : unread.dropWhile (· != 10) = [] ↔ 10 ∉ unread := by
    simp only [List.dropWhile_eq_nil_iff, bne_iff_ne]
    exact ⟨fun all member => all 10 member rfl, fun absent b member same => absent (same ▸ member)⟩
  unfold nextPiece
  split
  next first rest found =>
    have present : ¬ 10 ∉ unread := fun absent => by simp [newline.mpr absent] at found
    simp [present]
  next empty => simp [newline.mp empty]

/-- At rest the reader has said all there is to say of what awk has printed, if awk is
gone or has ended its line. -/
theorem reader_done (flows : Flows rfc input bridged start state) (rest : AtRest input state)
    (complete : state.exited.isSome = true ∨ ∀ b, state.printed.getLast? = some b → b = 10) :
    bridgeReader rfc state.printed = bridgeReader rfc state.consumed := by
  by_cases empty : state.unread = []
  · rw [State.printed, empty, List.append_nil]
  · have down : ¬ state.readerUp = true := by
      intro up
      obtain ⟨open_, ended⟩ := nextPiece_eq_none_iff.mp (rest.lines up)
      rcases complete with gone | ends
      · exact empty (ended gone)
      · have last := ends (state.unread.getLast empty)
          (by rw [State.printed, List.getLast?_append_of_ne_nil _ empty, List.getLast?_eq_some_getLast empty])
        exact open_ (last ▸ List.getLast_mem empty)
    have failed : none ∈ bufLines state.consumed := not_not.mp fun good => down (flows.reading.up.mpr good)
    rw [State.printed, bridgeReader, bufLines_append_of_ends (flows.reading.ends (Or.inl empty)), bridgeReaderLoop_stops failed]
    rfl

theorem source_done (flows : Flows rfc input bridged start state) (rest : AtRest input state) :
    state.rxSource.received = input := by
  rw [received_eq_sent rest.sorted]
  exact flows.sorted.sent.eq_of_length_le rest.source

theorem mirrored_done (flows : Flows rfc input bridged start state) (rest : AtRest input state) :
    mirrored state = state.rxUi.sent.map Prod.snd := by
  rw [mirrored, flows.shown.log, received_eq_sent rest.taken]

theorem errors_done (flows : Flows rfc input bridged start state) (rest : AtRest input state) :
    state.rxErr.received.length = (if state.writerUp then 0 else 1) + (bridgeReader rfc state.consumed).errors.length +
      (state.exited.bind waitError).toList.length := by
  rw [received_eq_sent rest.reported, errors_by_sender, flows.reading.errors, flows.waiting.said]
  congr 2
  · cases up : state.writerUp with
    | true => rw [(flows.fed.whole up).2]; rfl
    | false =>
      obtain ⟨e, -, single⟩ := flows.fed.failed up
      rw [single]; rfl
  · cases gone : state.exited with
    | none => simp
    | some wait => simp [rest.reaped (by simp [gone])]

theorem frames_done (flows : Flows rfc input true start state) (rest : AtRest input state)
    (complete : state.exited.isSome = true ∨ ∀ b, state.printed.getLast? = some b → b = 10) :
    framesOf (mirrored state) = (bridgeReader rfc state.printed).frames := by
  rw [reader_done flows rest complete, mirrored_done flows rest, frames_sent flows, received_eq_sent rest.forwarded,
    flows.reading.frames]

theorem parseErrors_done (flows : Flows rfc input true start state) (rest : AtRest input state) :
    parseErrorsOf (mirrored state) = parseErrorsOf input := by
  rw [mirrored_done flows rest, parseErrors_sent flows, source_done flows rest]

theorem ioErrors_done (flows : Flows rfc input true start state) (rest : AtRest input state)
    (complete : state.exited.isSome = true ∨ ∀ b, state.printed.getLast? = some b → b = 10) :
    (mirrored state).countP isIoError =
      input.countP isIoError + (bridgeReader rfc state.printed).errors.length + (if state.writerUp then 0 else 1) +
        (state.exited.bind waitError).toList.length := by
  rw [reader_done flows rest complete, mirrored_done flows rest, ioErrors_sent flows, source_done flows rest,
    errors_done flows rest]
  omega

/-- A writer that has not given up has written everything, unless it is stuck. -/
theorem writer_done (flows : Flows rfc input true start state) (rest : AtRest input state) (up : state.writerUp = true) :
    Stuck state ∨ state.written.map Prod.fst = framesOf input ∧ state.stdin = fed rfc state.written := by
  by_cases free : state.writing = none
  · refine Or.inr ⟨?_, ?_⟩
    · rw [flows.fed.taken, received_eq_sent (rest.fed up free), flows.sorted.rawWhole up, source_done flows rest]
      rfl
    · simpa [free] using (flows.fed.whole up).1
  · exact Or.inl (rest.stuck free)

/-- Once awk is gone, no writer waits for it to read. -/
theorem not_stuck (flows : Flows rfc input bridged start state) (gone : state.exited.isSome = true) : ¬ Stuck state := by
  intro stuck
  exact absurd stuck.open_ (by simp [flows.waiting.closed gone])

end Rest

/-- When the threads of a bridged run have come to rest, every frame that awk's
output holds has been mirrored, in order, and every error has been counted once: the
source's, one for each line the reader could not take, one if the writer gave up and
one if awk did not end well. A writer that has not given up has written every frame,
or awk has left it with a full pipe. -/
theorem rest_accounts (rfc : Rfc3339) (input : List IngestMsg) (start : App) (actions : List Action) (state : State)
    (ran : run rfc input true start actions = some state) (idle : Idle rfc input true state)
    (complete : state.exited.isSome = true ∨ ∀ b, state.printed.getLast? = some b → b = 10) :
    framesOf (mirrored state) = (bridgeReader rfc state.printed).frames ∧
      parseErrorsOf (mirrored state) = parseErrorsOf input ∧
      (mirrored state).countP isIoError =
        input.countP isIoError + (bridgeReader rfc state.printed).errors.length + (if state.writerUp then 0 else 1) +
          (state.exited.bind waitError).toList.length ∧
      (state.writerUp = true →
        Stuck state ∧ state.exited = none ∨ state.written.map Prod.fst = framesOf input ∧ state.stdin = fed rfc state.written) ∧
      state.app = start.ingestAll rfc state.log := by
  have flows := run_flows ran
  have rest := atRest_of_idle idle
  refine ⟨frames_done flows rest complete, parseErrors_done flows rest, ioErrors_done flows rest complete, fun up => ?_,
    flows.shown.app⟩
  refine (writer_done flows rest up).imp_left fun stuck => ⟨stuck, ?_⟩
  by_contra gone
  exact not_stuck flows (Option.isSome_iff_ne_none.mpr gone) stuck

theorem rest_accounts_status :
    ∃ state, Idle sampleClock unitMsgs true state ∧ (mirrored state).countP isIoError = 1 ∧
      state.written.map Prod.fst = framesOf unitMsgs := by
  obtain ⟨actions, state, ran, idle, up, exited, printed, -⟩ :=
    exists_ended sampleClock unitMsgs (App.new 10 30 90) sampleNow (.status "1".toList) fun _ => []
  have accounts := rest_accounts sampleClock unitMsgs (App.new 10 30 90) actions state ran idle (Or.inl (by simp [exited]))
  refine ⟨state, idle, accounts.2.2.1.trans ?_, ?_⟩
  · rw [printed, up, exited]
    rfl
  · rcases accounts.2.2.2.1 up with stuck | whole
    · simp [exited] at stuck
    · exact whole.1

/-- In whatever order the threads move, they come to rest within as many steps as
their rank says. When none of them can move nothing is left in any channel, but for
frames behind a writer that gave up or waits for room; and an awk that goes on reading
lets the writer finish. -/
theorem comes_to_rest (rfc : Rfc3339) (input : List IngestMsg) (bridged : Bool) (state : State)
    (draining : state.phase = .draining) :
    (∀ actions next, (∀ action ∈ actions, Internal action = true) →
        Machine.run (step rfc input bridged) state actions = some next →
        actions.length + rank input next ≤ rank input state) ∧
      (∃ actions next, (∀ action ∈ actions, Internal action = true) ∧
        Machine.run (step rfc input bridged) state actions = some next ∧ Idle rfc input bridged next) ∧
      (∀ next, Idle rfc input bridged next → AtRest input next) ∧
      (bridged = true → state.writerUp = true → state.inputOpen = true → state.exited = none →
        ∃ actions next, (∀ action ∈ actions, Internal action = true ∨ ∃ n, action = .drink n) ∧
          Machine.run (step rfc input bridged) state actions = some next ∧ Idle rfc input bridged next ∧
          next.writing = none ∧ next.rxFramesRaw.waiting = []) := by
  refine ⟨fun actions next own ran => ?_, exists_idle rfc input bridged state draining, fun next idle => atRest_of_idle idle, ?_⟩
  · exact Machine.length_le_rank (fun state action member next moved => rank_drops (own action member) moved) ran
  · rintro rfl up open_ running
    obtain ⟨actions, next, own, ran, smooth, idle, free⟩ := exists_fed rfc input ⟨0, 0⟩ state draining open_ running
    exact ⟨actions, next, own, ran, idle, free, (atRest_of_idle idle).fed (smooth.up.trans up) free⟩

theorem comes_to_rest_units :
    (∃ actions next, Machine.run (step sampleClock unitMsgs true) { app := App.new 10 30 90 } actions = some next ∧
      actions.length ≤ 65551 ∧ AtRest unitMsgs next) ∧
    ∃ actions next, Machine.run (step sampleClock unitMsgs true) { app := App.new 10 30 90 } actions = some next ∧
      AtRest unitMsgs next ∧ next.writing = none ∧ next.rxFramesRaw.waiting = [] := by
  obtain ⟨bound, ⟨actions, next, own, ran, idle⟩, rest, reads⟩ :=
    comes_to_rest sampleClock unitMsgs true { app := App.new 10 30 90 } rfl
  obtain ⟨others, last, -, fed, still, free, empty⟩ := reads rfl rfl rfl rfl
  exact ⟨⟨actions, next, ran, (Nat.le_add_right _ _).trans (bound actions next own ran), rest next idle⟩,
    others, last, fed, rest last still, free, empty⟩

/-- An awk that never reads holds the writer up in the middle of a line as long as the
pipe, and no thread can move. -/
theorem long_line_sticks (rfc : Rfc3339) (frame : HawkFrame) (now : OffsetDateTime) (start : App)
    (long : pipeSize ≤ (encode (toTsvLine rfc frame now)).length) :
    ∃ state, run rfc [.frame frame] true start [.read, .route, .write now, .accept pipeSize] = some state ∧
      Idle rfc [.frame frame] true state ∧ Stuck state := by
  let line : Bytes := encode (toTsvLine rfc frame now) ++ [10]
  have longer : pipeSize < line.length := by
    rw [List.length_append, List.length_singleton]
    omega
  have some_ : 0 < pipeSize := by decide
  -- the frame is in the writer's hands, and nothing else is on its way
  obtain ⟨begun, ran, writing, room, open_, draining, source, sorted, lines, reaped, forwarded, reported, shown⟩ :
      ∃ begun, run rfc [.frame frame] true start [.read, .route, .write now] = some begun ∧ begun.writing = some line ∧
        begun.room = pipeSize ∧ begun.inputOpen = true ∧ begun.phase = .draining ∧ begun.rxSource.sent.length = 1 ∧
        begun.rxSource.waiting = [] ∧ begun.unread = [] ∧ begun.exited = none ∧ begun.rxFramesOut.waiting = [] ∧
        begun.rxErr.waiting = [] ∧ begun.rxUi.waiting = [] :=
    ⟨_, rfl, rfl, rfl, rfl, rfl, rfl, rfl, rfl, rfl, rfl, rfl, rfl⟩
  let stuck : State := { begun with
    writing := some (line.drop pipeSize), stdin := begun.stdin ++ line.take pipeSize, room := begun.room - pipeSize }
  have held : Stuck stuck := by
    refine ⟨⟨line.drop pipeSize, ?_, rfl⟩, by simp [stuck, room], open_⟩
    rw [ne_eq, List.drop_eq_nil_iff]
    omega
  have last : step rfc [.frame frame] true begun (.accept pipeSize) = some stuck := by
    simp [step, draining, accept, writing, open_, some_, longer.le, room, stuck]
  refine ⟨stuck, ?_, idle_iff.mpr ⟨draining, ?_⟩, held⟩
  · exact Machine.run_append.mpr ⟨begun, ran, Machine.run_cons.mpr ⟨stuck, last, rfl⟩⟩
  · refine ⟨source.ge, sorted, fun _ => held, (fun _ free => by cases free), fun _ => ?_, fun gone => ?_, forwarded, reported,
      shown⟩
    · rw [nextPiece_eq_none_iff]
      simp [stuck, lines]
    · simp [stuck, reaped] at gone

end HawkTui.Proofs.Schedules
