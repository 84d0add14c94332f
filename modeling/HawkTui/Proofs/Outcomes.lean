import HawkTui.Proofs.Schedules

/-! What the mirror holds in the end. With a script that turns its whole input into
its output, the end does not depend on the order in which the threads moved; without
one, the mirror takes in the source's messages as they are. -/

namespace HawkTui.Proofs.Outcomes
open Lib Text Utf8 AwkRuntime HawkFrame App Awk Threads Channel Entities MirrorRun Filters PipelineFlow Schedules HawkTui.Pipeline

/-- A whole run with the given transform: awk was fed without trouble, printed what
the transform makes of its input and ended well, and the threads have come to rest. -/
structure Finished (rfc : Rfc3339) (input : List IngestMsg) (awk : Text → Text) (start : App) (state : State) : Prop where
  ran : ∃ actions, run rfc input true start actions = some state
  idle : Idle rfc input true state
  up : state.writerUp = true
  exited : state.exited = some .success
  printed : state.printed = encode (awk (bridgeWriter rfc state.written).flatten)

section
variable {rfc : Rfc3339} {input : List IngestMsg} {awk : Text → Text} {start : App} {state : State}

theorem Finished.flows (finished : Finished rfc input awk start state) : Flows rfc input true start state := by
  obtain ⟨actions, ran⟩ := finished.ran
  exact run_flows ran

theorem Finished.rest (finished : Finished rfc input awk start state) : AtRest input state := atRest_of_idle finished.idle

theorem Finished.fed (finished : Finished rfc input awk start state) :
    state.written.map Prod.fst = framesOf input ∧ state.stdin = fed rfc state.written :=
  (writer_done finished.flows finished.rest finished.up).resolve_left
    (not_stuck finished.flows (by simp [finished.exited]))

theorem Finished.written (finished : Finished rfc input awk start state) : state.written.map Prod.fst = framesOf input :=
  finished.fed.1

theorem Finished.output (finished : Finished rfc input awk start state) :
    bridgeReader rfc state.printed = startBridge rfc awk state.written := by
  rw [finished.printed, startBridge]

theorem Finished.frames (finished : Finished rfc input awk start state) :
    framesOf (mirrored state) = (startBridge rfc awk state.written).frames := by
  rw [frames_done finished.flows finished.rest (Or.inl (by simp [finished.exited])), finished.output]

theorem Finished.ioErrors (finished : Finished rfc input awk start state) :
    (mirrored state).countP isIoError = input.countP isIoError + (startBridge rfc awk state.written).errors.length := by
  rw [ioErrors_done finished.flows finished.rest (Or.inl (by simp [finished.exited])), finished.output, finished.up,
    finished.exited]
  rfl

/-- Such a run exists, whatever the source sends and whatever the transform does. -/
theorem exists_finished (rfc : Rfc3339) (input : List IngestMsg) (awk : Text → Text) (start : App) (now : OffsetDateTime) :
    ∃ state, Finished rfc input awk start state ∧ ∀ item ∈ state.written, item.2 = now := by
  obtain ⟨actions, state, ran, idle, up, exited, printed, stamps⟩ :=
    exists_ended rfc input start now .success fun written => encode (awk (bridgeWriter rfc written).flatten)
  exact ⟨state, ⟨⟨actions, ran⟩, idle, up, exited, printed⟩, stamps⟩

theorem bridgeWriter_dated {left right : List (HawkFrame × OffsetDateTime)} (same : left.map Prod.fst = right.map Prod.fst)
    (dated : ∀ item ∈ left, item.1.ts ≠ none) : bridgeWriter rfc left = bridgeWriter rfc right := by
  have line : ∀ f : HawkFrame, f.ts ≠ none → ∀ now now', toTsvLine rfc f now = toTsvLine rfc f now' := by
    intro f known now now'
    obtain ⟨ts, found⟩ := Option.ne_none_iff_exists'.mp known
    simp only [toTsvLine, found, Option.getD_some]
  induction left generalizing right with
  | nil =>
    obtain rfl : right = [] := by simpa using same.symm
    rfl
  | cons item left ih =>
    cases right with
    | nil => cases same
    | cons other right =>
      rw [List.map_cons, List.map_cons, List.cons.injEq] at same
      have rest := ih same.2 fun item member => dated item (by simp [member])
      have head := line item.1 (dated item (by simp)) item.2 other.2
      rw [bridgeWriter, List.map_cons, head, same.1]
      exact congrArg _ rest

theorem frameMsgs_snd (log : List (OffsetDateTime × IngestMsg)) : (frameMsgs log).map Prod.snd = framesOf (log.map Prod.snd) := by
  rw [frameMsgs, framesOf, List.map_filterMap, List.filterMap_map]
  apply List.filterMap_congr
  rintro ⟨now, msg⟩ -
  cases msg <;> rfl

attribute [ext] App

section Mirror
variable {tailSize : Nat} {staleS deadS : Int} {left right : List (OffsetDateTime × IngestMsg)}

theorem entities_of_frames (lists : (frameMsgs left).map Prod.snd = (frameMsgs right).map Prod.snd)
    (dated : ∀ f ∈ (frameMsgs left).map Prod.snd, f.ts ≠ none) :
    ((App.new tailSize staleS deadS).ingestAll rfc left).entities =
      ((App.new tailSize staleS deadS).ingestAll rfc right).entities := by
  have dates : ∀ item ∈ frameMsgs left, item.2.ts ≠ none :=
    fun item member => dated item.2 (List.mem_map_of_mem member)
  have dates' : ∀ item ∈ frameMsgs right, item.2.ts ≠ none :=
    fun item member => dated item.2 (lists ▸ List.mem_map_of_mem member)
  apply Std.ExtTreeMap.ext_getElem?
  intro key
  rw [row_of_stream dates key ⟨0, 0⟩, row_of_stream dates' key ⟨0, 0⟩, streamOf, streamOf, lists]

/-- The mirror of a log is known from its dated frames, in order, and the numbers of its errors. -/
theorem ingestAll_of_frames (frames : framesOf (left.map Prod.snd) = framesOf (right.map Prod.snd))
    (dated : ∀ f ∈ framesOf (left.map Prod.snd), f.ts ≠ none) (parses : parseErrorCount left = parseErrorCount right)
    (ios : ioErrorCount left = ioErrorCount right) :
    (App.new tailSize staleS deadS).ingestAll rfc left = (App.new tailSize staleS deadS).ingestAll rfc right := by
  have counted : Counted rfc tailSize left _ := run_counted tailSize staleS deadS left
  have counted' : Counted rfc tailSize right _ := run_counted tailSize staleS deadS right
  obtain ⟨stale, dead⟩ := ingestAll_config rfc (App.new tailSize staleS deadS) left
  obtain ⟨stale', dead'⟩ := ingestAll_config rfc (App.new tailSize staleS deadS) right
  rw [← frameMsgs_snd] at frames dated
  rw [← frameMsgs_snd] at frames
  have lengths : (frameMsgs left).length = (frameMsgs right).length := by
    simpa using congrArg List.length frames
  have lines : (frameMsgs left).reverse.map (fun item => toCompactLine rfc item.2) =
      (frameMsgs right).reverse.map fun item => toCompactLine rfc item.2 := by
    have compact := congrArg (fun frames => (frames.map (toCompactLine rfc)).reverse) frames
    simpa only [List.map_map, ← List.map_reverse, Function.comp_def] using compact
  apply App.ext
  · rw [counted.tail, counted'.tail, counted.tailSize, counted'.tailSize, lines]
  · rw [counted.tailSize, counted'.tailSize]
  · rw [counted.framesSeen, counted'.framesSeen, lengths]
  · rw [counted.parseErrors, counted'.parseErrors, parses]
  · rw [counted.ioErrors, counted'.ioErrors, ios]
  · exact entities_of_frames frames dated
  · rw [stale, stale']
  · rw [dead, dead']

end Mirror

theorem parseErrorCount_eq (log : List (OffsetDateTime × IngestMsg)) :
    parseErrorCount log = (parseErrorsOf (log.map Prod.snd)).length := by
  induction log with
  | nil => rfl
  | cons msg log ih =>
    obtain ⟨now, msg⟩ := msg
    cases msg <;> simp_all [parseErrorCount, parseErrorsOf]

theorem ioErrorCount_eq (log : List (OffsetDateTime × IngestMsg)) : ioErrorCount log = (log.map Prod.snd).countP isIoError := by
  rw [ioErrorCount, List.countP_map]
  rfl

end

/-- Two whole runs on the same dated frames and with the same transform end with the
same mirror, in whatever order their threads moved and whatever their clocks were. -/
theorem schedule_independent (rfc : Rfc3339) (input : List IngestMsg) (awk : Text → Text) (tailSize : Nat)
    (staleS deadS : Int) (left right : State) (dated : ∀ f ∈ framesOf input, f.ts ≠ none)
    (first : Finished rfc input awk (App.new tailSize staleS deadS) left)
    (second : Finished rfc input awk (App.new tailSize staleS deadS) right)
    (kept : ∀ f ∈ framesOf (mirrored left), f.ts ≠ none) :
    left.stdin = right.stdin ∧ framesOf (mirrored left) = framesOf (mirrored right) ∧ left.app = right.app := by
  have written : left.written.map Prod.fst = right.written.map Prod.fst := by rw [first.written, second.written]
  have lines : bridgeWriter rfc left.written = bridgeWriter rfc right.written := by
    refine bridgeWriter_dated written fun item member => dated item.1 ?_
    rw [← first.written]
    exact List.mem_map_of_mem member
  have output : startBridge rfc awk left.written = startBridge rfc awk right.written := by
    rw [startBridge, lines, startBridge]
  have frames : framesOf (mirrored left) = framesOf (mirrored right) := by rw [first.frames, second.frames, output]
  refine ⟨?_, frames, ?_⟩
  · rw [first.fed.2, second.fed.2, fed, lines, fed]
  · rw [first.flows.shown.app, second.flows.shown.app]
    apply ingestAll_of_frames frames kept
    · rw [parseErrorCount_eq, parseErrorCount_eq]
      exact congrArg _ ((parseErrors_done first.flows first.rest).trans (parseErrors_done second.flows second.rest).symm)
    · rw [ioErrorCount_eq, ioErrorCount_eq]
      exact (first.ioErrors.trans (output ▸ second.ioErrors.symm))

def stampedUnit (id : Text) (level : Level) : HawkFrame := { unitFrame id level with ts := some sampleNow }

def unitInput : List IngestMsg :=
  [.frame (stampedUnit "web.service".toList .fail), .parseError .empty, .frame (stampedUnit "db.service".toList .ok)]

theorem unitInput_sourced : ∀ f ∈ framesOf unitInput, Sourced sampleClock f := by
  have frames : framesOf unitInput = [stampedUnit "web.service".toList .fail, stampedUnit "db.service".toList .ok] := rfl
  intro f member
  simp only [frames, List.mem_cons, List.not_mem_nil, or_false] at member
  rcases member with rfl | rfl
  · exact ⟨"2026-02-16T12:34:57Z\tHEALTH\tsystemd\tweb.service\tFAIL\t\t".toList, by decide, by decide⟩
  · exact ⟨"2026-02-16T12:34:57Z\tHEALTH\tsystemd\tdb.service\tok\t\t".toList, by decide, by decide⟩

theorem schedule_independent_clocks :
    ∃ left right : State, left.written ≠ right.written ∧ left.stdin = right.stdin ∧ left.app = right.app := by
  obtain ⟨left, first, early⟩ := exists_finished sampleClock unitInput id (App.new 10 30 90) sampleNow
  obtain ⟨right, second, late⟩ := exists_finished sampleClock unitInput id (App.new 10 30 90) ⟨0, 0⟩
  have dated : ∀ f ∈ framesOf unitInput, f.ts ≠ none := by decide
  have framed : ∀ item ∈ left.written, Framed sampleClock item := by
    intro item member
    have known : item.1 ∈ framesOf unitInput := first.written ▸ List.mem_map_of_mem member
    exact (unitInput_sourced item.1 known).framed sampleTimes_proper.lawful (early item member ▸ sampleNow_roundTrips)
  have kept : ∀ f ∈ framesOf (mirrored left), f.ts ≠ none := by
    have lines : (bridgeWriter sampleClock left.written).flatten =
        output (left.written.map fun item => toTsvLine sampleClock item.1 item.2) := by
      rw [bridgeWriter, AwkRuntime.output, List.map_map]
      rfl
    rw [first.frames, startBridge, lines, id_eq, bridgeReader_lines framed]
    intro f member
    obtain ⟨item, -, rfl⟩ := List.mem_map.mp member
    simp [FrameCodec.relayed]
  obtain ⟨stdin, -, app⟩ := schedule_independent sampleClock unitInput id 10 30 90 left right dated first second kept
  refine ⟨left, right, fun same => ?_, stdin, app⟩
  have some_written : left.written ≠ [] := by
    intro empty
    have none := first.written
    rw [empty] at none
    cases none
  obtain ⟨item, member⟩ := List.exists_mem_of_ne_nil _ some_written
  exact absurd ((early item member).symm.trans (late item (same ▸ member))) (by decide)

theorem mem_entities_iff {rfc : Rfc3339} {tailSize : Nat} {staleS deadS : Int} {log : List (OffsetDateTime × IngestMsg)}
    {key : Text} :
    key ∈ ((App.new tailSize staleS deadS).ingestAll rfc log).entities ↔
      key ∈ (framesOf (log.map Prod.snd)).map fun f => entityKey f.scope f.id := by
  rw [← Std.ExtTreeMap.isSome_getElem?_iff_mem, row_lookup, Option.isSome_map, List.getLast?_isSome, ← frameMsgs_snd,
    List.map_map]
  simp only [ne_eq, List.filter_eq_nil_iff, decide_eq_true_eq, not_forall, not_not, List.mem_map]
  constructor
  · rintro ⟨item, member, same⟩
    exact ⟨item, member, same⟩
  · rintro ⟨item, member, same⟩
    exact ⟨item, member, same⟩

/-- With the thread that keeps failures, a whole run gives a row to exactly the
entities that failed or warned within the chosen scope. -/
theorem failing_mirror {ν : Type} [DecidableEq ν] (rfc : Rfc3339) (lawful : rfc.Lawful) (dialect : Dialect ν) (script v : Text)
    (words : dialect.number v = none) (plain : '\\' ∉ v) (input : List IngestMsg) (tailSize : Nat) (staleS deadS : Int)
    (state : State) (sourced : ∀ f ∈ framesOf input, Sourced rfc f) (clock : ∀ item ∈ state.written, rfc.RoundTrips item.2)
    (finished : Finished rfc input
      (runFilter (failOnly dialect (commandLine script (BTreeMap.extend ∅ [("scope".toList, v)]))))
      (App.new tailSize staleS deadS) state) :
    List.Forall₂ Carried (state.written.filter (failing v)) (framesOf (mirrored state)) ∧
      ∀ key, key ∈ state.app.entities ↔
        ∃ f ∈ framesOf input, (f.level = .fail ∨ f.level = .warn) ∧ (v = [] ∨ f.scope = v) ∧ entityKey f.scope f.id = key := by
  have framed : ∀ item ∈ state.written, Framed rfc item := by
    intro item member
    have known : item.1 ∈ framesOf input := finished.written ▸ List.mem_map_of_mem member
    exact (sourced item.1 known).framed lawful (clock item member)
  have carried : List.Forall₂ Carried (state.written.filter (failing v)) (framesOf (mirrored state)) := by
    rw [finished.frames]
    refine bridge_selects framed fun item member => ?_
    rw [commandLine_single]
    exact failOnly_line (framed item member) (dialect.assigned_single (by decide) plain script) words
  have keys : (state.written.filter (failing v)).map (fun item => entityKey item.1.scope item.1.id) =
      (framesOf (mirrored state)).map fun f => entityKey f.scope f.id := by
    rw [← List.forall₂_eq_eq_eq, List.forall₂_map_left_iff, List.forall₂_map_right_iff]
    exact carried.imp fun item g same => by rw [same.scope, same.id]
  refine ⟨carried, fun key => ?_⟩
  rw [finished.flows.shown.app, mem_entities_iff, ← finished.written]
  change key ∈ (framesOf (mirrored state)).map _ ↔ _
  rw [← keys]
  simp only [List.mem_map, List.mem_filter, failing, decide_eq_true_eq, exists_exists_and_eq_and, and_assoc]

theorem failing_mirror_units :
    ∃ state : State, entityKey "systemd".toList "web.service".toList ∈ state.app.entities ∧
      entityKey "systemd".toList "db.service".toList ∉ state.app.entities := by
  obtain ⟨state, finished, stamps⟩ := exists_finished sampleClock unitInput
    (runFilter (failOnly sampleDialect (commandLine [] (BTreeMap.extend ∅ [("scope".toList, "systemd".toList)]))))
    (App.new 10 30 90) sampleNow
  have rows := (failing_mirror sampleClock sampleTimes_proper.lawful sampleDialect [] "systemd".toList (by decide) (by decide)
    unitInput 10 30 90 state unitInput_sourced (fun item member => stamps item member ▸ sampleNow_roundTrips) finished).2
  exact ⟨state, (rows _).mpr (by decide), fun row => absurd ((rows _).mp row) (by decide)⟩

section Direct
variable {rfc : Rfc3339} {input : List IngestMsg} {start : App} {state next : State} {action : Action}

/-- Without a transform the bridge is never used. -/
structure Unbridged (state : State) : Prop where
  up : state.writerUp = true
  free : state.writing = none
  consumed : state.consumed = []
  unread : state.unread = []
  running : state.exited = none

theorem unbridged_moves (sorted : Sorted input false state) (idle : Unbridged state)
    (moved : Moves rfc input false state action next) : Unbridged next := by
  obtain ⟨up, free, consumed, unread, running⟩ := idle
  cases moved with
  | accept n rest writing | writeFails rest writing | flushed writing | flushFails writing => simp [free] at writing
  | drink n started => cases started
  | hangUp started => cases started
  | write now frame rest _ _ taken =>
    have none_sent : state.rxFramesRaw.sent = [] := List.prefix_nil.mp sorted.raw
    have waiting := (receive_eq_some_iff.mp taken).1
    simp [sent, waiting] at none_sent
  | print bytes started => cases started
  | exit wait started => cases started
  | readLine piece rest _ taken =>
    obtain ⟨split, present, -⟩ := nextPiece_some taken
    rw [unread] at split
    exact absurd (List.append_eq_nil_iff.mp split.symm).1 present
  | reap wait gone => simp [running] at gone
  | read | route | forward | report | take | drained | draw | poll => exact ⟨up, free, consumed, unread, running⟩

theorem run_unbridged {actions : List Action} (ran : run rfc input false start actions = some state) : Unbridged state := by
  refine (Machine.invariant (fun state => Flows rfc input false start state ∧ Unbridged state) ?_
    ⟨.initial, rfl, rfl, rfl, rfl, rfl⟩ ran).2
  intro before action after held moved
  exact ⟨held.1.step moved, unbridged_moves held.1.sorted held.2 (moves_of_step moved)⟩

/-- All that reaches the screen comes from the source. -/
theorem direct_sent (flows : Flows rfc input false start state) (idle : Unbridged state) :
    state.rxUi.sent.map Prod.snd = state.rxSource.received := by
  have nothing : bridgeReader rfc state.consumed = {} := by rw [idle.consumed]; rfl
  have no_frames : state.rxFramesOut.sent = [] := by rw [flows.reading.frames, nothing]
  have not_reaped : ¬ state.reaped = true := fun reaped => by simpa [idle.running] using flows.waiting.gone reaped
  have no_errors : state.rxErr.sent = [] := by
    rw [← List.length_eq_zero_iff, errors_by_sender, (flows.fed.whole idle.up).2, flows.reading.errors, nothing,
      flows.waiting.said, if_neg not_reaped]
    rfl
  have frames : of .frames state.rxUi.sent = [] := by
    have forwarded : state.rxFramesOut.received = [] := List.prefix_nil.mp (no_frames ▸ received_front state.rxFramesOut)
    rw [flows.shown.frames, forwarded, List.map_nil]
  have errors : of .errors state.rxUi.sent = [] := by
    have reported : state.rxErr.received = [] := List.prefix_nil.mp (no_errors ▸ received_front state.rxErr)
    rw [flows.shown.errors, reported, List.map_nil]
  have own := filterMap_of .source state.rxUi.sent some fun sender msg apart member => by
    cases sender with
    | source => exact absurd rfl apart
    | frames => simp [frames] at member
    | errors => simp [errors] at member
  rw [List.filterMap_some, List.filterMap_some] at own
  rw [own, flows.sorted.ui]
  rfl

end Direct

/-- Without a transform the mirror takes in the source's messages one after another,
whatever the threads' order, and all of them in the end. -/
theorem direct_mirror (rfc : Rfc3339) (input : List IngestMsg) (start : App) (actions : List Action) (state : State)
    (ran : run rfc input false start actions = some state) :
    mirrored state <+: input ∧ (Idle rfc input false state → mirrored state = input) ∧
      state.app = start.ingestAll rfc state.log ∧ state.stdin = [] := by
  have flows := run_flows ran
  have idle := run_unbridged ran
  have sent := direct_sent flows idle
  refine ⟨?_, fun still => ?_, flows.shown.app, ?_⟩
  · have front := mirrored_front flows
    rw [sent] at front
    exact front.trans ((received_front _).trans flows.sorted.sent)
  · have rest := atRest_of_idle still
    rw [mirrored_done flows rest, sent, source_done flows rest]
  · have none_taken : state.written.map Prod.fst = [] := by
      rw [flows.fed.taken]
      exact List.prefix_nil.mp ((received_front _).trans flows.sorted.raw)
    have whole := (flows.fed.whole idle.up).1
    rw [List.map_eq_nil_iff.mp none_taken] at whole
    exact (List.append_eq_nil_iff.mp whole).1

theorem direct_mirror_units :
    ∃ state, Idle sampleClock unitInput false state ∧ mirrored state = unitInput := by
  obtain ⟨actions, state, -, ran, idle⟩ := exists_idle sampleClock unitInput false { app := App.new 10 30 90 } rfl
  exact ⟨state, idle, (direct_mirror sampleClock unitInput (App.new 10 30 90) actions state ran).2.1 idle⟩

end HawkTui.Proofs.Outcomes
