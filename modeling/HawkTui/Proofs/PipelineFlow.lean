import HawkTui.Hawk.Pipeline
import HawkTui.Proofs.MirrorRun

/-! What flows through the running mirror. Its threads move in any order, awk reads,
prints and ends when it likes, and a write to it may wait or fail; yet at every moment
what has passed each channel is a fixed function of what went in. -/

namespace HawkTui.Proofs.PipelineFlow
open Lib Text Utf8 HawkFrame Awk Draw Channel HawkTui.Pipeline

def framesOf (msgs : List IngestMsg) : List HawkFrame :=
  msgs.filterMap fun | .frame f => some f | _ => none

def othersOf (msgs : List IngestMsg) : List IngestMsg :=
  msgs.filter fun | .frame _ => false | _ => true

@[simp] theorem framesOf_append (msgs others : List IngestMsg) : framesOf (msgs ++ others) = framesOf msgs ++ framesOf others :=
  List.filterMap_append

@[simp] theorem othersOf_append (msgs others : List IngestMsg) : othersOf (msgs ++ others) = othersOf msgs ++ othersOf others :=
  List.filter_append _ _

section Lines
variable {rfc : Rfc3339}

/-- A piece of the reader is one line of its own. -/
theorem nextPiece_some {unread piece rest : Bytes} {ended : Bool} (taken : nextPiece unread ended = some (piece, rest)) :
    unread = piece ++ rest ∧ piece ≠ [] ∧ bufLines piece = [(decode piece).map chomp] ∧
      ((∀ b, piece.getLast? = some b → b = 10) ∨ rest = [] ∧ ended = true) := by
  have absent : (10 : UInt8) ∉ unread.takeWhile (· != 10) := by
    intro member
    simpa using List.mem_takeWhile_imp member
  have whole := List.takeWhile_append_dropWhile (p := (· != (10 : UInt8))) (l := unread)
  unfold nextPiece at taken
  split at taken
  next newline others found =>
    cases taken
    have stop := List.head_dropWhile_not (· != (10 : UInt8)) (l := unread) (by simp [found])
    obtain rfl : newline = 10 := by simpa [found] using stop
    rw [found] at whole
    refine ⟨by rw [List.append_assoc]; exact whole.symm, by simp, ?_, Or.inl (by simp)⟩
    have single := splitInclusive_append_cons absent []
    rw [bufLines, readLines, single]
    rfl
  next none =>
    split at taken
    next last =>
      rw [Bool.and_eq_true] at last
      cases taken
      rw [none, List.append_nil] at whole
      rw [whole] at absent
      have present : unread ≠ [] := by simpa using last.2
      refine ⟨by rw [List.append_nil], present, ?_, Or.inr ⟨rfl, last.1⟩⟩
      rw [bufLines, readLines, splitInclusive_of_absent absent present]
      rfl
    · cases taken

theorem bridgeReaderLoop_append (rfc : Rfc3339) {reads : List (Option Text)} (good : none ∉ reads) (later : List (Option Text)) :
    (bridgeReaderLoop rfc (reads ++ later)).frames = (bridgeReaderLoop rfc reads).frames ++ (bridgeReaderLoop rfc later).frames ∧
      (bridgeReaderLoop rfc (reads ++ later)).errors =
        (bridgeReaderLoop rfc reads).errors ++ (bridgeReaderLoop rfc later).errors := by
  induction reads with
  | nil => exact ⟨rfl, rfl⟩
  | cons read reads ih =>
    rw [List.mem_cons, not_or] at good
    obtain ⟨frames, errors⟩ := ih good.2
    cases read with
    | none => exact absurd rfl good.1
    | some line =>
      simp only [List.cons_append, bridgeReaderLoop]
      cases parseTsvLine rfc line with
      | error e => exact ⟨frames, by rw [errors]; rfl⟩
      | ok parsed => cases parsed with
        | none => exact ⟨frames, errors⟩
        | some frame => exact ⟨by rw [frames]; rfl, errors⟩

/-- After a failed read nothing more is looked at. -/
theorem bridgeReaderLoop_stops {reads : List (Option Text)} (failed : none ∈ reads) (later : List (Option Text)) :
    bridgeReaderLoop rfc (reads ++ later) = bridgeReaderLoop rfc reads := by
  induction reads with
  | nil => cases failed
  | cons read reads ih =>
    cases read with
    | none => rfl
    | some line =>
      have rest := ih (by simpa using failed)
      simp only [List.cons_append, bridgeReaderLoop, rest]

theorem bridgeReaderLoop_front (reads later : List (Option Text)) :
    (bridgeReaderLoop rfc reads).frames <+: (bridgeReaderLoop rfc (reads ++ later)).frames := by
  by_cases failed : none ∈ reads
  · rw [bridgeReaderLoop_stops failed]
  · rw [(bridgeReaderLoop_append rfc failed later).1]
    exact List.prefix_append _ _

end Lines

/-- What the thread behind the source sends to the screen for the given messages. -/
def shownBy (bridged : Bool) (msgs : List IngestMsg) : List IngestMsg := if bridged then othersOf msgs else msgs

/-- What it sends to the bridge. -/
def bridgedBy (bridged : Bool) (msgs : List IngestMsg) : List HawkFrame := if bridged then framesOf msgs else []

theorem shownBy_append (bridged : Bool) (msgs others : List IngestMsg) :
    shownBy bridged (msgs ++ others) = shownBy bridged msgs ++ shownBy bridged others := by
  cases bridged <;> simp [shownBy]

theorem bridgedBy_append (bridged : Bool) (msgs others : List IngestMsg) :
    bridgedBy bridged (msgs ++ others) = bridgedBy bridged msgs ++ bridgedBy bridged others := by
  cases bridged <;> simp [bridgedBy]

section Steps
variable (rfc : Rfc3339) (state : State)

theorem routed_eq (bridged : Bool) (msg : IngestMsg) :
    routed bridged msg state =
      { state with
        rxFramesRaw := state.rxFramesRaw.sendAll (if state.writerUp then bridgedBy bridged [msg] else [])
        rxUi := state.rxUi.sendAll ((shownBy bridged [msg]).map (.source, ·)) } := by
  cases bridged with
  | false => simp [routed, shownBy, bridgedBy, sendAll_singleton]
  | true =>
    cases msg with
    | frame f =>
      cases up : state.writerUp with
      | true => simp [routed, up, shownBy, bridgedBy, framesOf, othersOf, sendAll_singleton]
      | false =>
        simp only [routed, up, shownBy, othersOf, ↓reduceIte, Bool.false_eq_true, sendAll_nil,
          List.filter_cons, List.filter_nil, List.map_nil]
        rw [← up]
    | parseError e => simp [routed, shownBy, bridgedBy, framesOf, othersOf, sendAll_singleton]
    | ioError text => simp [routed, shownBy, bridgedBy, framesOf, othersOf, sendAll_singleton]

theorem giveUp_eq (e : Text) :
    giveUp e state =
      { state with writerUp := false, writing := none, rxErr := state.rxErr.sendAll [(.writer, e)] } := by
  rw [giveUp, sendAll_singleton]

theorem readPiece_eq (piece : Bytes) (up : state.readerUp = true) :
    let said := bridgeReaderLoop rfc [(decode piece).map chomp]
    readPiece rfc piece state =
      { state with
        readerUp := ((decode piece).map chomp).isSome
        rxFramesOut := state.rxFramesOut.sendAll said.frames
        rxErr := state.rxErr.sendAll (said.errors.map (.reader, ·)) } := by
  unfold readPiece
  cases (decode piece).map chomp with
  | none =>
    have said : bridgeReaderLoop rfc [none] = { errors := [readFailed] } := rfl
    simp only [said, Option.isSome_none, List.map_cons, List.map_nil, sendAll_nil, sendAll_singleton]
  | some line =>
    simp only [bridgeReaderLoop]
    cases parseTsvLine rfc line with
    | error e => simp [up, sendAll_singleton]
    | ok parsed => cases parsed with
      | some frame => simp [up, sendAll_singleton]
      | none =>
        simp only [Option.isSome_some, sendAll_nil, List.map_nil]
        rw [← up]

end Steps

/-- The steps of the process, each with what it needs and what it leaves. -/
inductive Moves (rfc : Rfc3339) (input : List IngestMsg) (bridged : Bool) (state : State) : Action → State → Prop where
  | read (msg : IngestMsg) (found : input[state.rxSource.sent.length]? = some msg) :
    Moves rfc input bridged state .read { state with rxSource := state.rxSource.send msg }
  | route (msg : IngestMsg) (rest : Channel IngestMsg) (taken : state.rxSource.receive = some (msg, rest)) :
    Moves rfc input bridged state .route
      { state with
        rxSource := rest
        rxFramesRaw := state.rxFramesRaw.sendAll (if state.writerUp then bridgedBy bridged [msg] else [])
        rxUi := state.rxUi.sendAll ((shownBy bridged [msg]).map (.source, ·)) }
  | write (now : OffsetDateTime) (frame : HawkFrame) (rest : Channel HawkFrame) (up : state.writerUp = true)
    (free : state.writing = none) (taken : state.rxFramesRaw.receive = some (frame, rest)) :
    Moves rfc input bridged state (.write now)
      { state with
        rxFramesRaw := rest
        written := state.written ++ [(frame, now)]
        writing := some (encode (toTsvLine rfc frame now) ++ [10]) }
  | accept (n : Nat) (rest : Bytes) (writing : state.writing = some rest) (open_ : state.inputOpen = true) (some_ : 0 < n)
    (fits : n ≤ rest.length) (room : n ≤ state.room) :
    Moves rfc input bridged state (.accept n)
      { state with writing := some (rest.drop n), stdin := state.stdin ++ rest.take n, room := state.room - n }
  | writeFails (rest : Bytes) (writing : state.writing = some rest) (closed : state.inputOpen = false) (present : rest ≠ []) :
    Moves rfc input bridged state .writeFails
      { state with writerUp := false, writing := none, rxErr := state.rxErr.sendAll [(.writer, writeError rest)] }
  | flushed (written : state.writing = some []) :
    Moves rfc input bridged state (.flush true) { state with writing := none }
  | flushFails (written : state.writing = some []) :
    Moves rfc input bridged state (.flush false)
      { state with writerUp := false, writing := none, rxErr := state.rxErr.sendAll [(.writer, flushFailed)] }
  | drink (n : Nat) (started : bridged = true) (running : state.exited = none) (fits : state.room + n ≤ pipeSize) :
    Moves rfc input bridged state (.drink n) { state with room := state.room + n }
  | hangUp (started : bridged = true) (running : state.exited = none) :
    Moves rfc input bridged state .hangUp { state with inputOpen := false }
  | print (bytes : Bytes) (started : bridged = true) (running : state.exited = none) :
    Moves rfc input bridged state (.print bytes) { state with unread := state.unread ++ bytes }
  | exit (wait : Wait) (started : bridged = true) (running : state.exited = none) :
    Moves rfc input bridged state (.exit wait) { state with exited := some wait, inputOpen := false }
  | readLine (piece rest : Bytes) (up : state.readerUp = true)
    (taken : nextPiece state.unread state.exited.isSome = some (piece, rest)) (frames : List HawkFrame) (errors : List Text)
    (said : bridgeReaderLoop rfc [(decode piece).map chomp] = { frames, errors }) :
    Moves rfc input bridged state .readLine
      { state with
        consumed := state.consumed ++ piece
        unread := rest
        readerUp := ((decode piece).map chomp).isSome
        rxFramesOut := state.rxFramesOut.sendAll frames
        rxErr := state.rxErr.sendAll (errors.map (.reader, ·)) }
  | reap (wait : Wait) (gone : state.exited = some wait) (due : state.reaped = false) :
    Moves rfc input bridged state .reap
      { state with reaped := true, rxErr := state.rxErr.sendAll ((waitError wait).toList.map (.waiter, ·)) }
  | forward (frame : HawkFrame) (rest : Channel HawkFrame) (taken : state.rxFramesOut.receive = some (frame, rest)) :
    Moves rfc input bridged state .forward
      { state with rxFramesOut := rest, rxUi := state.rxUi.send (.frames, .frame frame) }
  | report (err : ErrSender × Text) (rest : Channel (ErrSender × Text)) (taken : state.rxErr.receive = some (err, rest)) :
    Moves rfc input bridged state .report { state with rxErr := rest, rxUi := state.rxUi.send (.errors, awkError err.2) }
  | take (now : OffsetDateTime) (msg : UiSender × IngestMsg) (rest : Channel (UiSender × IngestMsg))
    (draining : state.phase = .draining) (taken : state.rxUi.receive = some (msg, rest)) :
    Moves rfc input bridged state (.take now)
      { state with rxUi := rest, app := state.app.ingest rfc now msg.2, log := state.log ++ [(now, msg.2)] }
  | drained (draining : state.phase = .draining) (empty : state.rxUi.waiting = []) :
    Moves rfc input bridged state .drained { state with phase := .drawing }
  | draw (at_ : Readings) (drawing : state.phase = .drawing) :
    Moves rfc input bridged state (.draw at_)
      { state with screens := state.screens ++ [drawApp rfc state.app at_], phase := .polling }
  | poll (event : Option KeyCode) (phase : Phase) (polling : state.phase = .polling) :
    Moves rfc input bridged state (.poll event) { state with phase }

theorem moves_of_step {rfc : Rfc3339} {input : List IngestMsg} {bridged : Bool} {state next : State} {action : Action}
    (moved : step rfc input bridged state action = some next) : Moves rfc input bridged state action next := by
  unfold step at moved
  split at moved
  · cases moved
  cases action with
  | read =>
    obtain ⟨msg, found, rfl⟩ := Option.map_eq_some_iff.mp moved
    exact .read msg found
  | route =>
    obtain ⟨⟨msg, rest⟩, taken, rfl⟩ := Option.map_eq_some_iff.mp moved
    rw [routed_eq]
    exact .route msg rest taken
  | write now =>
    simp only [write] at moved
    split at moved
    next free =>
      obtain ⟨⟨frame, rest⟩, taken, rfl⟩ := Option.map_eq_some_iff.mp moved
      exact .write now frame rest free.1 free.2 taken
    next => cases moved
  | accept n =>
    simp only [accept] at moved
    split at moved
    next rest writing =>
      split at moved
      next fits =>
        cases moved
        exact .accept n rest writing fits.1 fits.2.1 fits.2.2.1 fits.2.2.2
      next => cases moved
    next => cases moved
  | writeFails =>
    simp only [writeFails] at moved
    split at moved
    next rest writing =>
      split at moved
      next broken =>
        cases moved
        rw [giveUp_eq]
        exact .writeFails rest writing broken.1 broken.2
      next => cases moved
    next => cases moved
  | flush done =>
    simp only [flush] at moved
    split at moved
    next written =>
      cases done with
      | true =>
        cases moved
        exact .flushed written
      | false =>
        cases moved
        rw [if_neg (by decide), giveUp_eq]
        exact .flushFails written
    next => cases moved
  | drink n =>
    simp only at moved
    split at moved
    next fits =>
      cases moved
      exact .drink n fits.1 fits.2.1 fits.2.2
    next => cases moved
  | hangUp =>
    simp only at moved
    split at moved
    next running =>
      cases moved
      exact .hangUp running.1 running.2
    next => cases moved
  | print bytes =>
    simp only at moved
    split at moved
    next running =>
      cases moved
      exact .print bytes running.1 running.2
    next => cases moved
  | exit wait =>
    simp only at moved
    split at moved
    next running =>
      cases moved
      exact .exit wait running.1 running.2
    next => cases moved
  | readLine =>
    simp only [readLine] at moved
    split at moved
    next up =>
      obtain ⟨⟨piece, rest⟩, taken, rfl⟩ := Option.map_eq_some_iff.mp moved
      rw [readPiece_eq rfc { state with consumed := state.consumed ++ piece, unread := rest } piece up]
      exact .readLine piece rest up taken _ _ rfl
    next => cases moved
  | reap =>
    simp only [reap] at moved
    split at moved
    next => cases moved
    next due =>
      obtain ⟨wait, gone, rfl⟩ := Option.map_eq_some_iff.mp moved
      have reaped : Moves rfc input bridged state .reap _ := .reap wait gone (by simpa using due)
      cases error : waitError wait with
      | none => simpa [error] using reaped
      | some e => simpa [error, sendAll_singleton] using reaped
  | forward =>
    obtain ⟨⟨frame, rest⟩, taken, rfl⟩ := Option.map_eq_some_iff.mp moved
    exact .forward frame rest taken
  | report =>
    obtain ⟨⟨err, rest⟩, taken, rfl⟩ := Option.map_eq_some_iff.mp moved
    exact .report err rest taken
  | take now =>
    simp only [take] at moved
    split at moved
    next draining =>
      obtain ⟨⟨msg, rest⟩, taken, rfl⟩ := Option.map_eq_some_iff.mp moved
      exact .take now msg rest draining taken
    next => cases moved
  | drained =>
    simp only [drained] at moved
    split at moved
    next done =>
      cases moved
      exact .drained done.1 done.2
    next => cases moved
  | draw at_ =>
    simp only [draw] at moved
    split at moved
    next drawing =>
      cases moved
      exact .draw at_ drawing
    next => cases moved
  | poll event =>
    simp only [poll] at moved
    split at moved
    next polling =>
      cases moved
      exact .poll event _ polling
    next => cases moved

def writerErrors : List Text := [writeFailed, newlineFailed, flushFailed]

theorem writeError_mem (rest : Bytes) : writeError rest ∈ writerErrors := by
  unfold writeError
  split <;> simp [writerErrors]

/-- All that awk would be fed for the given frames. -/
def fed (rfc : Rfc3339) (written : List (HawkFrame × OffsetDateTime)) : Bytes := encode (bridgeWriter rfc written).flatten

theorem fed_append (rfc : Rfc3339) (written : List (HawkFrame × OffsetDateTime)) (frame : HawkFrame) (now : OffsetDateTime) :
    fed rfc (written ++ [(frame, now)]) = fed rfc written ++ (encode (toTsvLine rfc frame now) ++ [10]) := by
  have newline : encode ['\n'] = [10] := by decide
  simp [fed, bridgeWriter, newline]

section Invariants
variable {rfc : Rfc3339} {input : List IngestMsg} {bridged : Bool} {start : App} {state next : State} {action : Action}

/-- The source and the thread behind it. -/
structure Sorted (input : List IngestMsg) (bridged : Bool) (state : State) : Prop where
  sent : state.rxSource.sent <+: input
  ui : of .source state.rxUi.sent = shownBy bridged state.rxSource.received
  raw : state.rxFramesRaw.sent <+: bridgedBy bridged state.rxSource.received
  rawWhole : state.writerUp = true → state.rxFramesRaw.sent = bridgedBy bridged state.rxSource.received

theorem sorted_moves (sorted : Sorted input bridged state) (moved : Moves rfc input bridged state action next) :
    Sorted input bridged next := by
  obtain ⟨sent, ui, raw, rawWhole⟩ := sorted
  cases moved with
  | read msg found =>
    refine ⟨?_, ui, raw, rawWhole⟩
    rw [sent_send]
    exact front_snoc sent found
  | route msg rest taken =>
    have handed := bridgedBy_append bridged state.rxSource.received [msg]
    rw [← received_receive taken] at handed
    refine ⟨sent_receive taken ▸ sent, ?_, ?_, fun up => ?_⟩
    · simp [received_receive taken, shownBy_append, ui]
    · rw [sent_sendAll, handed]
      split
      next up => rw [rawWhole up]
      next => exact List.append_nil _ ▸ raw.trans (List.prefix_append _ _)
    · rw [sent_sendAll, handed, if_pos up, rawWhole up]
  | write now frame rest up free taken =>
    have same := sent_receive taken
    exact ⟨sent, ui, same ▸ raw, fun _ => same ▸ rawWhole up⟩
  | writeFails | flushFails => exact ⟨sent, ui, raw, (fun up => by cases up)⟩
  | forward frame rest taken => exact ⟨sent, by simpa using ui, raw, rawWhole⟩
  | report err rest taken => exact ⟨sent, by simpa using ui, raw, rawWhole⟩
  | take now msg rest draining taken => exact ⟨sent, sent_receive taken ▸ ui, raw, rawWhole⟩
  | accept | flushed | drink | hangUp | print | exit | readLine | reap | drained | draw | poll =>
    exact ⟨sent, ui, raw, rawWhole⟩

/-- The bridge's writer and awk's input. -/
structure Fed (rfc : Rfc3339) (state : State) : Prop where
  taken : state.written.map Prod.fst = state.rxFramesRaw.received
  stdin : state.stdin <+: fed rfc state.written
  whole : state.writerUp = true →
    state.stdin ++ state.writing.getD [] = fed rfc state.written ∧ of .writer state.rxErr.sent = []
  busy : state.writing ≠ none → state.writerUp = true
  failed : state.writerUp = false → ∃ e ∈ writerErrors, of .writer state.rxErr.sent = [e]

/-- A writer that gives up has said nothing before. -/
theorem Fed.giveUp (held : Fed rfc state) (up : state.writerUp = true) {e : Text} (known : e ∈ writerErrors) :
    Fed rfc { state with writerUp := false, writing := none, rxErr := state.rxErr.sendAll [(.writer, e)] } := by
  refine ⟨held.taken, held.stdin, (fun still => by cases still), (fun busy => absurd rfl busy), fun _ => ⟨e, known, ?_⟩⟩
  simp [(held.whole up).2]

theorem fed_moves (held : Fed rfc state) (moved : Moves rfc input bridged state action next) : Fed rfc next := by
  have quit := held.giveUp
  obtain ⟨written, stdin, whole, busy, failed⟩ := held
  cases moved with
  | write now frame rest up free taken =>
    obtain ⟨before, quiet⟩ := whole up
    rw [free, Option.getD_none, List.append_nil] at before
    refine ⟨?_, ?_, fun _ => ⟨?_, quiet⟩, fun _ => up, failed⟩
    · rw [received_receive taken, List.map_append, written]
      rfl
    · rw [fed_append]
      exact stdin.trans (List.prefix_append _ _)
    · rw [fed_append, before, Option.getD_some]
  | accept n rest writing open_ some_ fits room =>
    have up : state.writerUp = true := busy (by simp [writing])
    obtain ⟨before, quiet⟩ := whole up
    rw [writing, Option.getD_some] at before
    have split : state.stdin ++ rest.take n ++ rest.drop n = fed rfc state.written := by
      rw [List.append_assoc, List.take_append_drop, before]
    exact ⟨written, ⟨_, split⟩, fun _ => ⟨split, quiet⟩, fun _ => up, failed⟩
  | writeFails rest writing closed present => exact quit (busy (by simp [writing])) (writeError_mem rest)
  | flushFails done => exact quit (busy (by simp [done])) (by simp [writerErrors])
  | flushed done =>
    refine ⟨written, stdin, fun up => ?_, fun busy => absurd rfl busy, failed⟩
    simpa [done] using whole up
  | readLine piece rest up taken frames errors said =>
    exact ⟨written, stdin, by simpa using whole, busy, by simpa using failed⟩
  | reap wait gone due => exact ⟨written, stdin, by simpa using whole, busy, by simpa using failed⟩
  | report err rest taken =>
    have same := sent_receive taken
    exact ⟨written, stdin, same ▸ whole, busy, same ▸ failed⟩
  | read | route | drink | hangUp | print | exit | forward | take | drained | draw | poll =>
    exact ⟨written, stdin, whole, busy, failed⟩

/-- What the bridge's reader has looked at and what it has sent for it. -/
structure ReaderSent (rfc : Rfc3339) (state : State) : Prop where
  boundary : (∀ b, state.consumed.getLast? = some b → b = 10) ∨ state.unread = [] ∧ state.exited.isSome = true
  frames : state.rxFramesOut.sent = (bridgeReader rfc state.consumed).frames
  errors : of .reader state.rxErr.sent = (bridgeReader rfc state.consumed).errors
  up : state.readerUp = true ↔ none ∉ bufLines state.consumed

/-- While awk runs, the reader stands behind a newline. -/
theorem ReaderSent.ends (reading : ReaderSent rfc state) (more : state.unread ≠ [] ∨ state.exited = none) :
    ∀ b, state.consumed.getLast? = some b → b = 10 := by
  rcases reading.boundary with ends | ⟨empty, gone⟩
  · exact ends
  · rcases more with present | running
    · exact absurd empty present
    · simp [running] at gone

theorem readLine_reading {piece rest : Bytes} {frames : List HawkFrame} {errors : List Text} (reading : ReaderSent rfc state)
    (up : state.readerUp = true) (taken : nextPiece state.unread state.exited.isSome = some (piece, rest))
    (said : bridgeReaderLoop rfc [(decode piece).map chomp] = { frames, errors }) :
    ReaderSent rfc
      { state with
        consumed := state.consumed ++ piece
        unread := rest
        readerUp := ((decode piece).map chomp).isSome
        rxFramesOut := state.rxFramesOut.sendAll frames
        rxErr := state.rxErr.sendAll (errors.map (.reader, ·)) } := by
  obtain ⟨split, present, single, last⟩ := nextPiece_some taken
  have ends := reading.ends (Or.inl (by simp [split, present]))
  have good : none ∉ bufLines state.consumed := reading.up.mp up
  have lines : bufLines (state.consumed ++ piece) = bufLines state.consumed ++ [(decode piece).map chomp] := by
    rw [bufLines_append_of_ends ends, single]
  obtain ⟨readFrames, readErrors⟩ := bridgeReaderLoop_append rfc good [(decode piece).map chomp]
  rw [← lines, said] at readFrames readErrors
  refine ⟨?_, ?_, ?_, ?_⟩
  · rcases last with newline | done
    · refine Or.inl ?_
      rw [List.getLast?_append_of_ne_nil _ present]
      exact newline
    · exact Or.inr done
  · rw [sent_sendAll, reading.frames]
    exact readFrames.symm
  · rw [sent_sendAll, of_append, of_map_self, reading.errors]
    exact readErrors.symm
  · rw [lines, List.mem_append, List.mem_singleton, not_or, Option.isSome_iff_ne_none, ne_comm]
    exact ⟨fun decoded => ⟨good, decoded⟩, And.right⟩

theorem reading_moves (reading : ReaderSent rfc state) (moved : Moves rfc input bridged state action next) :
    ReaderSent rfc next := by
  have standing := reading.ends
  obtain ⟨boundary, frames, errors, up⟩ := reading
  cases moved with
  | writeFails | flushFails => exact ⟨boundary, frames, by simpa using errors, up⟩
  | print bytes started running => exact ⟨Or.inl (standing (Or.inr running)), frames, errors, up⟩
  | exit wait started running => exact ⟨Or.inl (standing (Or.inr running)), frames, errors, up⟩
  | readLine piece rest open_ taken said_frames said_errors said =>
    exact readLine_reading ⟨boundary, frames, errors, up⟩ open_ taken said
  | reap wait gone due => exact ⟨boundary, frames, by simpa using errors, up⟩
  | forward frame rest taken => exact ⟨boundary, sent_receive taken ▸ frames, errors, up⟩
  | report err rest taken => exact ⟨boundary, frames, sent_receive taken ▸ errors, up⟩
  | read | route | write | accept | flushed | drink | hangUp | take | drained | draw | poll =>
    exact ⟨boundary, frames, errors, up⟩

/-- The thread that waits for awk. -/
structure Waiting (state : State) : Prop where
  gone : state.reaped = true → state.exited.isSome = true
  closed : state.exited.isSome = true → state.inputOpen = false
  said : of .waiter state.rxErr.sent = if state.reaped then (state.exited.bind waitError).toList else []

theorem waiting_moves (waiting : Waiting state) (moved : Moves rfc input bridged state action next) : Waiting next := by
  obtain ⟨gone, closed, said⟩ := waiting
  cases moved with
  | writeFails | flushFails => exact ⟨gone, closed, by simpa using said⟩
  | hangUp => exact ⟨gone, fun _ => rfl, said⟩
  | exit wait started running =>
    have early : state.reaped = false := by
      by_contra done
      have left := gone (by simpa using done)
      simp [running] at left
    exact ⟨fun _ => rfl, fun _ => rfl, by simpa [early] using said⟩
  | readLine piece rest up taken frames errors read => exact ⟨gone, closed, by simpa using said⟩
  | reap wait left due =>
    rw [due] at said
    exact ⟨fun _ => by simp [left], closed, by simp [said, left]⟩
  | report err rest taken => exact ⟨gone, closed, sent_receive taken ▸ said⟩
  | read | route | write | accept | flushed | drink | print | forward | take | drained | draw | poll =>
    exact ⟨gone, closed, said⟩

/-- The two threads behind the bridge, the mirror and its screens. Each screen shows
the mirror after some of the messages, and later ones show no less. -/
structure Shown (rfc : Rfc3339) (start : App) (state : State) : Prop where
  frames : of .frames state.rxUi.sent = state.rxFramesOut.received.map .frame
  errors : of .errors state.rxUi.sent = state.rxErr.received.map fun err => awkError err.2
  log : state.log.map Prod.snd = state.rxUi.received.map Prod.snd
  app : state.app = start.ingestAll rfc state.log
  screens : ∃ marks : List (Nat × Readings), (marks.map Prod.fst).Pairwise (· ≤ ·) ∧
    (∀ mark ∈ marks, mark.1 ≤ state.log.length) ∧
    state.screens = marks.map fun mark => drawApp rfc (start.ingestAll rfc (state.log.take mark.1)) mark.2

theorem taken_shown {msg : UiSender × IngestMsg} {rest : Channel (UiSender × IngestMsg)} (shown : Shown rfc start state)
    (taken : state.rxUi.receive = some (msg, rest)) (now : OffsetDateTime) :
    Shown rfc start
      { state with rxUi := rest, app := state.app.ingest rfc now msg.2, log := state.log ++ [(now, msg.2)] } := by
  obtain ⟨frames, errors, log, app, marks, ordered, known, screens⟩ := shown
  have same := sent_receive taken
  refine ⟨same ▸ frames, same ▸ errors, ?_, ?_, marks, ordered, ?_, ?_⟩
  · rw [received_receive taken, List.map_append, List.map_append, log]
    rfl
  · rw [MirrorRun.ingestAll_append, app]
  · intro mark member
    rw [List.length_append]
    exact (known mark member).trans (Nat.le_add_right _ _)
  · rw [screens]
    apply List.map_congr_left
    intro mark member
    rw [List.take_append_of_le_length (known mark member)]

theorem drawn_shown (shown : Shown rfc start state) (at_ : Readings) :
    Shown rfc start { state with screens := state.screens ++ [drawApp rfc state.app at_], phase := .polling } := by
  obtain ⟨frames, errors, log, app, marks, ordered, known, screens⟩ := shown
  refine ⟨frames, errors, log, app, marks ++ [(state.log.length, at_)], ?_, ?_, ?_⟩
  · rw [List.map_append, List.pairwise_append]
    refine ⟨ordered, List.pairwise_singleton _ _, ?_⟩
    intro a earlier b last
    obtain ⟨mark, member, rfl⟩ := List.mem_map.mp earlier
    obtain rfl : b = state.log.length := by simpa using last
    exact known mark member
  · intro mark member
    rcases List.mem_append.mp member with earlier | last
    · exact known mark earlier
    · obtain rfl := List.mem_singleton.mp last
      exact le_rfl
  · rw [List.map_append, screens, app]
    simp

theorem shown_moves (shown : Shown rfc start state) (moved : Moves rfc input bridged state action next) :
    Shown rfc start next := by
  obtain ⟨frames, errors, log, app, screens⟩ := shown
  cases moved with
  | route msg rest taken => exact ⟨by simpa using frames, by simpa using errors, log, app, screens⟩
  | forward frame rest taken =>
    refine ⟨?_, by simpa using errors, log, app, screens⟩
    simp [received_receive taken, frames]
  | report err rest taken =>
    refine ⟨by simpa using frames, ?_, log, app, screens⟩
    simp [received_receive taken, errors]
  | take now msg rest draining taken => exact taken_shown ⟨frames, errors, log, app, screens⟩ taken now
  | draw at_ drawing => exact drawn_shown ⟨frames, errors, log, app, screens⟩ at_
  | read | write | accept | writeFails | flushed | flushFails | drink | hangUp | print | exit | readLine | reap | drained | poll =>
    exact ⟨frames, errors, log, app, screens⟩

/-- All of it, at every moment of every run. -/
structure Flows (rfc : Rfc3339) (input : List IngestMsg) (bridged : Bool) (start : App) (state : State) : Prop where
  sorted : Sorted input bridged state
  fed : Fed rfc state
  reading : ReaderSent rfc state
  waiting : Waiting state
  shown : Shown rfc start state

theorem Flows.initial : Flows rfc input bridged start { app := start } where
  sorted := by
    refine ⟨List.nil_prefix, ?_, List.nil_prefix, fun _ => ?_⟩
    · cases bridged <;> rfl
    · cases bridged <;> rfl
  fed := ⟨rfl, List.nil_prefix, (fun _ => ⟨rfl, rfl⟩), (fun _ => rfl), (fun down => by cases down)⟩
  reading := by
    have none_read : bufLines [] = [] := rfl
    exact ⟨Or.inl (by simp), rfl, rfl, by simp [none_read]⟩
  waiting := ⟨(fun done => by cases done), (fun gone => by cases gone), rfl⟩
  shown := ⟨rfl, rfl, rfl, rfl, [], List.Pairwise.nil, by simp, rfl⟩

theorem Flows.step (flows : Flows rfc input bridged start state) (moved : step rfc input bridged state action = some next) :
    Flows rfc input bridged start next := by
  have moves := moves_of_step moved
  exact ⟨sorted_moves flows.sorted moves, fed_moves flows.fed moves, reading_moves flows.reading moves,
    waiting_moves flows.waiting moves, shown_moves flows.shown moves⟩

theorem run_flows {actions : List Action} (ran : run rfc input bridged start actions = some state) :
    Flows rfc input bridged start state :=
  Machine.invariant _ (fun _ _ _ flows moved => flows.step moved) .initial ran

end Invariants

end HawkTui.Proofs.PipelineFlow
