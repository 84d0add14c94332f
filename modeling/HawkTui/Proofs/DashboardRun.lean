import HawkTui.Dashboard.Loop
import HawkTui.Lib.Collect

/-! Runs of the dashboard. Whatever the commands answer and whichever keys are
pressed, no list is read out of range and what is drawn is in order. Only a call on a
file can end the run. -/

namespace HawkTui.Proofs.DashboardRun
open Lib Text Dashboard Collect

/-- What the draw functions rely on. -/
structure InOrder (cache : StateCache) : Prop where
  selection : cache.selectedCommand = 0 ∨ cache.selectedCommand < cache.commandCatalog.length
  serving : cache.grpcOk = cache.grpcRows.countP fun row => row.status = "SERVING".toList
  counted : cache.grpcOk + cache.grpcBad = cache.grpcRows.length
  output : cache.commandOutput.length ≤ 80
  log : cache.logTail.length ≤ 200
  chat : cache.chatTail.length ≤ 200
  control : cache.controlTail.length ≤ 400

theorem length_lastN (n : Nat) (xs : List α) : (lastN n xs).length ≤ n := by
  rw [lastN, List.length_drop]
  omega

theorem length_tailLines (file : Option Text) (n : Nat) : (tailLines file n).length ≤ n := by
  cases file with
  | none => simp [tailLines]
  | some content => exact length_lastN n _

theorem foldl_countGrpc (rows : List GrpcRow) (counts : Nat × Nat) :
    rows.foldl countGrpc counts = (counts.1 + rows.countP (fun row => row.status = "SERVING".toList),
      counts.2 + rows.countP fun row => row.status ≠ "SERVING".toList) := by
  induction rows generalizing counts with
  | nil => rfl
  | cons row rows ih =>
    rw [List.foldl_cons, ih, List.countP_cons, List.countP_cons]
    by_cases serving : row.status = "SERVING".toList
    · simp only [countGrpc, serving, if_true, decide_true, ne_eq, not_true_eq_false, decide_false, Bool.false_eq_true, if_false,
        Nat.add_zero]
      rw [Nat.add_right_comm, Nat.add_assoc]
    · simp only [countGrpc, serving, if_true, decide_true, ne_eq, not_false_eq_true, decide_false, Bool.false_eq_true, if_false,
        Nat.add_zero]
      rw [Nat.add_right_comm counts.2, Nat.add_assoc counts.2]

theorem serving_or_not (rows : List GrpcRow) :
    rows.countP (fun row => row.status = "SERVING".toList) + rows.countP (fun row => row.status ≠ "SERVING".toList) =
      rows.length := by
  rw [List.length_eq_countP_add_countP fun row : GrpcRow => decide (row.status = "SERVING".toList)]
  simp only [ne_eq, decide_eq_true_eq]

section Polls
variable (upper : Text → Text) (outside : Outside) {cache : StateCache}

theorem InOrder.empty : InOrder {} := ⟨Or.inl rfl, rfl, rfl, by simp, by simp, by simp, by simp⟩

theorem pollCatalog_inOrder (order : InOrder cache) : InOrder (pollCatalog outside cache) := by
  refine ⟨?_, order.serving, order.counted, order.output, order.log, order.chat, order.control⟩
  simp only [pollCatalog]
  split
  · exact Or.inl rfl
  · exact Or.inr (by omega)

theorem pollGrpc_inOrder (order : InOrder cache) : InOrder (pollGrpc upper outside cache) := by
  refine ⟨order.selection, ?_, ?_, order.output, order.log, order.chat, order.control⟩
  · simp only [pollGrpc, foldl_countGrpc, Nat.zero_add]
  · simp only [pollGrpc, foldl_countGrpc, Nat.zero_add]
    exact serving_or_not _

theorem pollStreams_inOrder (order : InOrder cache) : InOrder (pollStreams outside cache) :=
  ⟨order.selection, order.serving, order.counted, order.output, order.log, order.chat, order.control⟩

theorem InOrder.selected (order : InOrder cache) (loaded : cache.commandCatalog.isEmpty = false) :
    ∃ cmd, cache.commandCatalog[cache.selectedCommand]? = some cmd := by
  have inside : cache.selectedCommand < cache.commandCatalog.length := by
    rcases order.selection with first | inside
    · rw [first, List.length_pos_iff]
      simpa using loaded
    · exact inside
  exact ⟨_, List.getElem?_eq_getElem inside⟩

theorem pollCommand_inOrder (order : InOrder cache) : ∃ next, pollCommand outside cache = .ok next ∧ InOrder next := by
  unfold pollCommand
  cases loaded : cache.commandCatalog.isEmpty with
  | true => exact ⟨_, rfl, order.selection, order.serving, order.counted, by simp, order.log, order.chat, order.control⟩
  | false =>
    obtain ⟨cmd, found⟩ := order.selected loaded
    simp only [Bool.false_eq_true, if_false, found]
    refine ⟨_, rfl, order.selection, order.serving, order.counted, ?_, order.log, order.chat, order.control⟩
    simp only
    split
    · exact length_lastN 80 _
    split
    · rw [List.length_singleton]
      omega
    · rw [List.length_cons, List.length_singleton]
      omega

/-- What the calls on the two files find. -/
structure Contents where
  stat : Option (Nat × Text)
  log : Option Text
  chat : Option Text

/-- The calls on the two files, in their order. -/
def filesOf (outside : Outside) : Except Text Contents := do
  let stat ← outside.logStat
  let log ← outside.log
  outside.chatDir
  let chat ← outside.chat
  if chat.isNone then outside.chatWrite
  return { stat, log, chat }

def measured (cache : StateCache) (stat : Option (Nat × Text)) : StateCache :=
  stat.elim cache fun stat => { cache with logDelta := stat.1 - cache.logSize, logSize := stat.1, logLast := stat.2 }

def filed (cache : StateCache) (found : Contents) : StateCache :=
  { measured cache found.stat with logTail := tailLines found.log 200, chatTail := tailLines found.chat 200 }

/-- What the calls find does not depend on the cache, and nothing else can fail. -/
theorem pollLogsAndChat_eq (cache : StateCache) :
    pollLogsAndChat outside cache = (call (filesOf outside)).map (filed cache) := by
  unfold pollLogsAndChat filesOf
  cases outside.logStat with
  | error exc => rfl
  | ok stat =>
    cases outside.log with
    | error exc => rfl
    | ok log =>
      cases outside.chatDir with
      | error exc => rfl
      | ok made =>
        cases outside.chat with
        | error exc => rfl
        | ok chat =>
          cases chat with
          | none => cases outside.chatWrite <;> cases stat <;> rfl
          | some content => cases stat <;> rfl

/-- One of the calls on the files raises this. -/
inductive Raises (outside : Outside) (exc : Text) : Prop where
  | logStat (raised : outside.logStat = .error exc)
  | log (raised : outside.log = .error exc)
  | chatDir (raised : outside.chatDir = .error exc)
  | chat (raised : outside.chat = .error exc)
  | chatWrite (raised : outside.chatWrite = .error exc)

theorem raises_of_filesOf {world : Outside} {exc : Text} (raised : filesOf world = .error exc) : Raises world exc := by
  unfold filesOf at raised
  rcases bind_eq_error.mp raised with first | ⟨stat, -, raised⟩
  · exact .logStat first
  rcases bind_eq_error.mp raised with first | ⟨log, -, raised⟩
  · exact .log first
  rcases bind_eq_error.mp raised with first | ⟨made, -, raised⟩
  · exact .chatDir first
  rcases bind_eq_error.mp raised with first | ⟨chat, -, raised⟩
  · exact .chat first
  cases chat with
  | some content => cases raised
  | none =>
    rcases bind_eq_error.mp raised with first | ⟨written, -, raised⟩
    · exact .chatWrite first
    · cases raised

/-- The run has ended with what a call on a file has raised. -/
def FileFault (outside : Outside) (raised : Raised) : Prop := ∃ exc, raised = .file exc ∧ Raises outside exc

theorem filesOf_ends : Ends (fun _ => True) (FileFault outside) (call (filesOf outside)) := by
  cases found : filesOf outside with
  | error exc => exact ⟨exc, rfl, raises_of_filesOf found⟩
  | ok files => trivial

theorem filed_inOrder (order : InOrder cache) (found : Contents) : InOrder (filed cache found) := by
  have kept : InOrder (measured cache found.stat) := by
    cases found.stat with
    | none => exact order
    | some stat => exact ⟨order.selection, order.serving, order.counted, order.output, order.log, order.chat, order.control⟩
  exact ⟨kept.selection, kept.serving, kept.counted, kept.output, length_tailLines _ _, length_tailLines _ _, kept.control⟩

theorem pollLogsAndChat_inOrder (order : InOrder cache) : Ends InOrder (FileFault outside) (pollLogsAndChat outside cache) := by
  rw [pollLogsAndChat_eq]
  exact (filesOf_ends outside).map fun found _ => filed_inOrder order found

theorem InOrder.timed (order : InOrder cache) (grpc streams command log : ℚ) : InOrder { cache with
    lastGrpcPoll := grpc, lastStreamPoll := streams, lastCmdPoll := command, lastLogPoll := log } :=
  ⟨order.selection, order.serving, order.counted, order.output, order.log, order.chat, order.control⟩

theorem grpcTimer_inOrder (now : ℚ) (order : InOrder cache) : InOrder (grpcTimer upper now outside cache) := by
  unfold grpcTimer
  split
  · exact (pollGrpc_inOrder upper outside order).timed _ _ _ _
  · exact order

theorem streamTimer_inOrder (now : ℚ) (order : InOrder cache) : InOrder (streamTimer now outside cache) := by
  unfold streamTimer
  split
  · exact (pollStreams_inOrder outside order).timed _ _ _ _
  · exact order

theorem cmdTimer_inOrder (now : ℚ) (order : InOrder cache) : ∃ next, cmdTimer now outside cache = .ok next ∧ InOrder next := by
  unfold cmdTimer
  split
  · obtain ⟨polled, ran, polledOrder⟩ := pollCommand_inOrder outside order
    rw [ran]
    exact ⟨_, rfl, polledOrder.timed _ _ _ _⟩
  · exact ⟨cache, rfl, order⟩

theorem refreshAll_inOrder (order : InOrder cache) : Ends InOrder (FileFault outside) (refreshAll upper outside cache) := by
  have started := pollStreams_inOrder outside (pollGrpc_inOrder upper outside (pollCatalog_inOrder outside order))
  obtain ⟨polled, ran, polledOrder⟩ := pollCommand_inOrder outside started
  rw [refreshAll, ran]
  exact pollLogsAndChat_inOrder outside polledOrder

/-- Writing a note brings no failure that was not there. -/
theorem appendChat_ends (stamp text : Text) :
    Ends (fun after => ∀ exc, Raises after exc → Raises outside exc) (FileFault outside) (appendChat stamp text outside) := by
  unfold appendChat
  split
  · exact fun _ raises => raises
  cases written : outside.chatWrite with
  | error exc => exact ⟨exc, rfl, .chatWrite written⟩
  | ok done =>
    intro exc raises
    cases raises with
    | logStat raised => exact .logStat raised
    | log raised => exact .log raised
    | chatDir raised => exact .chatDir raised
    | chatWrite raised => exact .chatWrite (written.trans raised)
    | chat raised =>
      -- a file that could not be read still cannot
      cases chat : outside.chat with
      | error other =>
        simp only [chat, Except.map] at raised
        exact .chat (chat.trans raised)
      | ok found =>
        simp only [chat, Except.map] at raised
        cases raised

theorem ctl_inOrder (stamp line : Text) (order : InOrder cache) : InOrder (cache.ctl stamp line) := by
  unfold StateCache.ctl
  refine ⟨order.selection, order.serving, order.counted, order.output, order.log, order.chat, ?_⟩
  simp only
  exact length_lastN 400 _

/-- An action only adds to the control tail. -/
theorem daemonAction_keeps {holds : StateCache → Prop} (unit action : Text)
    (keeps : ∀ cache stamp line, holds cache → holds (cache.ctl stamp line)) (start : holds cache) :
    holds (daemonAction unit action outside cache) := by
  unfold daemonAction
  apply List.foldlRecOn
  · exact keeps _ _ _ start
  · intro cache kept line _
    exact keeps _ _ _ kept

end Polls

/-! What a step leaves alone. -/

def grpcOf (upper : Text → Text) (outside : Outside) : List GrpcRow := (said outside.grpc).filterMap (grpcRow upper)

structure SameRows (before after : StateCache) : Prop where
  grpcRows : after.grpcRows = before.grpcRows
  lastGrpc : after.lastGrpcPoll = before.lastGrpcPoll
  streamRows : after.streamRows = before.streamRows
  lastStream : after.lastStreamPoll = before.lastStreamPoll

/-- Neither the rows nor the timers of the rows and the log have been touched. -/
structure SameFeeds (before after : StateCache) : Prop extends SameRows before after where
  lastLog : after.lastLogPoll = before.lastLogPoll

/-- The time of a timer after a turn of this time. -/
def tick (period last now : ℚ) : ℚ := if now - last ≥ period then now else last

section Feeds
variable {upper : Text → Text} {outside : Outside} {cache next : StateCache} {now : ℚ}

theorem SameRows.trans {middle : StateCache} (first : SameRows cache middle) (second : SameRows middle next) :
    SameRows cache next :=
  ⟨second.grpcRows.trans first.grpcRows, second.lastGrpc.trans first.lastGrpc, second.streamRows.trans first.streamRows,
    second.lastStream.trans first.lastStream⟩

theorem SameFeeds.refl (cache : StateCache) : SameFeeds cache cache := ⟨⟨rfl, rfl, rfl, rfl⟩, rfl⟩

theorem SameFeeds.trans {middle : StateCache} (first : SameFeeds cache middle) (second : SameFeeds middle next) :
    SameFeeds cache next :=
  ⟨first.toSameRows.trans second.toSameRows, second.lastLog.trans first.lastLog⟩

theorem pollCommand_writes (ran : pollCommand outside cache = .ok next) :
    ∃ output last, next = { cache with commandOutput := output, commandLast := last } := by
  unfold pollCommand at ran
  split at ran
  · cases ran
    exact ⟨_, _, rfl⟩
  split at ran
  · cases ran
  · cases ran
    exact ⟨_, _, rfl⟩

theorem pollCommand_feeds (ran : pollCommand outside cache = .ok next) : SameFeeds cache next := by
  obtain ⟨output, last, rfl⟩ := pollCommand_writes ran
  exact ⟨⟨rfl, rfl, rfl, rfl⟩, rfl⟩

theorem pollLogsAndChat_feeds (ran : pollLogsAndChat outside cache = .ok next) : SameFeeds cache next := by
  rw [pollLogsAndChat_eq, map_eq_ok] at ran
  obtain ⟨⟨stat, log, chat⟩, -, rfl⟩ := ran
  cases stat with
  | none => exact ⟨⟨rfl, rfl, rfl, rfl⟩, rfl⟩
  | some stat => exact ⟨⟨rfl, rfl, rfl, rfl⟩, rfl⟩

theorem cmdTimer_feeds (ran : cmdTimer now outside cache = .ok next) : SameFeeds cache next := by
  unfold cmdTimer at ran
  split at ran
  · obtain ⟨middle, polled, rfl⟩ := map_eq_ok.mp ran
    exact (pollCommand_feeds polled).trans ⟨⟨rfl, rfl, rfl, rfl⟩, rfl⟩
  · cases ran
    exact SameFeeds.refl cache

theorem logTimer_rows (ran : logTimer now outside cache = .ok next) :
    SameRows cache next ∧ next.lastLogPoll = tick (4 / 5) cache.lastLogPoll now := by
  unfold logTimer at ran
  unfold tick
  split at ran
  next due =>
    obtain ⟨middle, polled, rfl⟩ := map_eq_ok.mp ran
    exact ⟨(pollLogsAndChat_feeds polled).toSameRows.trans ⟨rfl, rfl, rfl, rfl⟩, (if_pos due).symm⟩
  next early =>
    cases ran
    exact ⟨(SameFeeds.refl cache).toSameRows, (if_neg early).symm⟩

theorem ctl_feeds (stamp line : Text) : SameFeeds cache (cache.ctl stamp line) := by
  unfold StateCache.ctl
  exact ⟨⟨rfl, rfl, rfl, rfl⟩, rfl⟩

theorem refreshAll_feeds (ran : refreshAll upper outside cache = .ok next) :
    next.grpcRows = grpcOf upper outside ∧ next.streamRows = said outside.streams ∧
      next.lastGrpcPoll = cache.lastGrpcPoll ∧ next.lastStreamPoll = cache.lastStreamPoll ∧
      next.lastLogPoll = cache.lastLogPoll := by
  obtain ⟨middle, polled, logged⟩ := bind_eq_ok.mp ran
  have same := (pollCommand_feeds polled).trans (pollLogsAndChat_feeds logged)
  exact ⟨same.grpcRows, same.streamRows, same.lastGrpc, same.lastStream, same.lastLog⟩

theorem rowTimers_lastLog : (streamTimer now outside (grpcTimer upper now outside cache)).lastLogPoll = cache.lastLogPoll := by
  unfold streamTimer grpcTimer
  split <;> split <;> rfl

theorem periodicPoll_lastLog (ran : periodicPoll upper now outside cache = .ok next) :
    next.lastLogPoll = tick (4 / 5) cache.lastLogPoll now := by
  obtain ⟨middle, commanded, logged⟩ := bind_eq_ok.mp ran
  rw [(logTimer_rows logged).2, (cmdTimer_feeds commanded).lastLog, rowTimers_lastLog]

theorem moveSelection_feeds {places : Nat} {turn : Turn} {ui later : Ui} (moved : moveSelection places turn ui = .ok later) :
    SameFeeds ui.cache later.cache := by
  unfold moveSelection at moved
  split at moved
  · cases moved
    exact SameFeeds.refl _
  simp only at moved
  split at moved
  · cases moved
  · cases moved
    exact ⟨⟨rfl, rfl, rfl, rfl⟩, rfl⟩

theorem poll_cache {turn : Turn} {ui drawn : Ui} (polled : poll upper turn ui = .ok drawn) :
    periodicPoll upper turn.now turn.polled ui.cache = .ok drawn.cache := by
  unfold poll at polled
  obtain ⟨cache, ran, rest⟩ := bind_eq_ok.mp polled
  rw [ran]
  by_cases expired : ui.flashUntil ≠ 0 ∧ turn.now > ui.flashUntil
  · simp only [if_pos expired] at rest
    split at rest
    · cases rest
    · cases rest
      rfl
  · simp only [if_neg expired] at rest
    split at rest
    · cases rest
    · cases rest
      rfl

/-- A key that does not end the loop leaves the timers alone, and only a refresh asks for the rows. -/
theorem press_feeds {unit : Text} {turn : Turn} {ui later : Ui} (pressed : press upper unit turn ui = .ok (some later)) :
    key turn.code ≠ .quit ∧ (SameFeeds ui.cache later.cache ∨
      key turn.code = .refresh ∧ refreshAll upper turn.pressed ui.cache = .ok later.cache) := by
  unfold press at pressed
  cases name : key turn.code with
  | none | other | up | down | digit n =>
    rw [name] at pressed
    cases pressed
    exact ⟨by simp, Or.inl (SameFeeds.refl _)⟩
  | quit =>
    rw [name] at pressed
    cases pressed
  | previous | next =>
    rw [name] at pressed
    obtain ⟨moved, ran, same⟩ := map_eq_ok.mp pressed
    cases same
    exact ⟨by simp, Or.inl (moveSelection_feeds ran)⟩
  | enter =>
    rw [name] at pressed
    obtain ⟨cache, ran, same⟩ := map_eq_ok.mp pressed
    cases same
    exact ⟨by simp, Or.inl (pollCommand_feeds ran)⟩
  | refresh =>
    rw [name] at pressed
    obtain ⟨cache, ran, same⟩ := map_eq_ok.mp pressed
    cases same
    exact ⟨by simp, Or.inr ⟨rfl, ran⟩⟩
  | daemon action =>
    rw [name] at pressed
    cases pressed
    have kept : SameFeeds ui.cache (daemonAction unit action turn.pressed ui.cache) :=
      daemonAction_keeps _ unit action (fun _ stamp line same => same.trans (ctl_feeds stamp line)) (SameFeeds.refl _)
    exact ⟨by simp, Or.inl kept⟩
  | note =>
    rw [name] at pressed
    simp only at pressed
    split at pressed
    · cases pressed
      exact ⟨by simp, Or.inl (SameFeeds.refl _)⟩
    · obtain ⟨cache, ran, same⟩ := map_eq_ok.mp pressed
      cases same
      obtain ⟨after, -, ran⟩ := bind_eq_ok.mp ran
      exact ⟨by simp, Or.inl (pollLogsAndChat_feeds ran)⟩

theorem press_lastLog {unit : Text} {turn : Turn} {ui : Ui} {next : Option Ui} (pressed : press upper unit turn ui = .ok next) :
    ∀ later, next = some later → key turn.code ≠ .quit ∧ later.cache.lastLogPoll = ui.cache.lastLogPoll := by
  rintro later rfl
  obtain ⟨goes, same | ⟨-, ran⟩⟩ := press_feeds pressed
  · exact ⟨goes, same.lastLog⟩
  · exact ⟨goes, (refreshAll_feeds ran).2.2.2.2⟩

end Feeds

/-! The worlds that are really asked: by a timer that is due, or by a key. -/

def due (period last now : ℚ) (outside : Outside) : List (ℚ × Outside) := if now - last ≥ period then [(now, outside)] else []

def keyed (asks : Turn → Bool) (turn : Turn) : List (ℚ × Outside) := if asks turn then [(turn.now, turn.pressed)] else []

/-- Those of the turns, until a key ends the loop. -/
def asked (period : ℚ) (asks : Turn → Bool) (last : ℚ) : List Turn → List (ℚ × Outside)
  | [] => []
  | turn :: rest => due period last turn.now turn.polled ++ keyed asks turn ++
      if key turn.code = .quit then [] else asked period asks (tick period last turn.now) rest

def refreshes (turn : Turn) : Bool := key turn.code = .refresh

def opensFiles (turn : Turn) : Bool := key turn.code = .refresh ∨ key turn.code = .note ∧ turn.typed ≠ []

/-- One of these worlds has ended the run, with what a call on a file raised there. -/
def Fault (worlds : List (ℚ × Outside)) (raised : Raised) : Prop := ∃ world ∈ worlds, FileFault world.2 raised

theorem Fault.mono {worlds more : List (ℚ × Outside)} {raised : Raised} (fault : Fault worlds raised) (grown : worlds ⊆ more) :
    Fault more raised := by
  obtain ⟨world, member, fault⟩ := fault
  exact ⟨world, grown member, fault⟩

section Timers
variable (upper : Text → Text) (outside : Outside) {cache : StateCache} (now : ℚ)

theorem logTimer_inOrder (order : InOrder cache) :
    Ends InOrder (Fault (due (4 / 5) cache.lastLogPoll now outside)) (logTimer now outside cache) := by
  by_cases expired : now - cache.lastLogPoll ≥ 4 / 5
  · rw [logTimer, due, if_pos expired, if_pos expired]
    have here : ∀ raised, FileFault outside raised → Fault [(now, outside)] raised :=
      fun raised fault => ⟨(now, outside), by simp, fault⟩
    exact ((pollLogsAndChat_inOrder outside order).mono here).map fun _ polledOrder => polledOrder.timed _ _ _ _
  · rw [logTimer, if_neg expired]
    exact order

theorem periodicPoll_inOrder (order : InOrder cache) :
    Ends InOrder (Fault (due (4 / 5) cache.lastLogPoll now outside)) (periodicPoll upper now outside cache) := by
  have started := streamTimer_inOrder outside now (grpcTimer_inOrder upper outside now order)
  obtain ⟨polled, ran, polledOrder⟩ := cmdTimer_inOrder outside now started
  have lastLog : polled.lastLogPoll = cache.lastLogPoll := (cmdTimer_feeds ran).lastLog.trans rowTimers_lastLog
  rw [periodicPoll, ran, ← lastLog]
  exact logTimer_inOrder outside now polledOrder

end Timers

/-- A state the loop can go on from. -/
structure Steady (ui : Ui) : Prop where
  cache : InOrder ui.cache
  selected : ui.selected < navItems.length

section Turns
variable (upper : Text → Text) (unit : Text) (turn : Turn) {ui : Ui}

theorem moveSelection_steady (places : Nat) (steady : Steady ui) :
    ∃ next, moveSelection places turn ui = .ok next ∧ Steady next := by
  unfold moveSelection
  cases loaded : ui.cache.commandCatalog.isEmpty with
  | true => exact ⟨ui, rfl, steady⟩
  | false =>
    have inside : (ui.cache.selectedCommand + places) % ui.cache.commandCatalog.length < ui.cache.commandCatalog.length := by
      apply Nat.mod_lt
      rw [List.length_pos_iff]
      simpa using loaded
    simp only [Bool.false_eq_true, if_false, List.getElem?_eq_getElem inside]
    have order := steady.cache
    exact ⟨_, rfl, ⟨Or.inr inside, order.serving, order.counted, order.output, order.log, order.chat, order.control⟩,
      steady.selected⟩

theorem press_steady (steady : Steady ui) :
    Ends (fun next => ∀ later, next = some later → Steady later) (Fault (keyed opensFiles turn)) (press upper unit turn ui) := by
  have goes : ∀ {later : Ui}, Steady later → ∀ next, some later = some next → Steady next :=
    fun steady _ same => Option.some.inj same ▸ steady
  have opened : opensFiles turn = true → ∀ raised, FileFault turn.pressed raised → Fault (keyed opensFiles turn) raised :=
    fun opens raised fault => ⟨(turn.now, turn.pressed), by simp [keyed, opens], fault⟩
  have order := steady.cache
  unfold press
  cases name : key turn.code with
  | none => exact goes steady
  | other => exact goes steady
  | quit => exact fun later same => by cases same
  | up => exact goes ⟨order, Nat.mod_lt _ (by decide)⟩
  | down => exact goes ⟨order, Nat.mod_lt _ (by decide)⟩
  | digit n => exact goes ⟨order, n.isLt⟩
  | previous =>
    obtain ⟨later, moved, steady⟩ := moveSelection_steady turn (ui.cache.commandCatalog.length - 1) steady
    simp only [moved]
    exact goes steady
  | next =>
    obtain ⟨later, moved, steady⟩ := moveSelection_steady turn 1 steady
    simp only [moved]
    exact goes steady
  | enter =>
    obtain ⟨cache, ran, order⟩ := pollCommand_inOrder turn.pressed order
    simp only [ran]
    exact goes ⟨order, steady.selected⟩
  | refresh =>
    have polled := (refreshAll_inOrder upper turn.pressed order).mono (opened (by simp [opensFiles, name]))
    exact polled.map fun _ order => goes ⟨order, steady.selected⟩
  | daemon action => exact goes ⟨daemonAction_keeps _ unit action (fun _ => ctl_inOrder) order, steady.selected⟩
  | note =>
    simp only
    split
    · exact goes ⟨order, steady.selected⟩
    next typed =>
      have opened := opened (by simp [opensFiles, name, typed])
      have noted := (appendChat_ends turn.pressed turn.utc turn.typed).mono opened
      refine (noted.bind fun after kept => ?_).map fun _ order => goes ⟨order, steady.selected⟩
      refine (pollLogsAndChat_inOrder after order).mono fun raised fault => opened raised ?_
      obtain ⟨exc, same, raises⟩ := fault
      exact ⟨exc, same, kept exc raises⟩

theorem poll_steady (steady : Steady ui) :
    Ends Steady (Fault (due (4 / 5) ui.cache.lastLogPoll turn.now turn.polled)) (poll upper turn ui) := by
  obtain ⟨title, titled⟩ : ∃ title, navItems[ui.selected]? = some title := ⟨_, List.getElem?_eq_getElem steady.selected⟩
  refine (periodicPoll_inOrder upper turn.polled turn.now steady.cache).bind fun cache order => ?_
  by_cases expired : ui.flashUntil ≠ 0 ∧ turn.now > ui.flashUntil
  · simp only [if_pos expired, Ui.show, titled]
    exact ⟨order, steady.selected⟩
  · simp only [if_neg expired, titled]
    exact ⟨order, steady.selected⟩

/-- The files are asked when the log's timer says so, which no key sets. -/
theorem loop_steady (turns : List Turn) (steady : Steady ui) :
    Ends Steady (Fault (asked (4 / 5) opensFiles ui.cache.lastLogPoll turns)) (loop upper unit ui turns) := by
  induction turns generalizing ui with
  | nil => exact steady
  | cons turn rest ih =>
    have polled := (poll_steady upper turn steady).and fun drawn ran => periodicPoll_lastLog (poll_cache ran)
    refine (polled.mono fun raised fault => fault.mono ?_).bind fun drawn drawnSteady => ?_
    · simp only [asked, List.append_assoc]
      exact List.subset_append_left _ _
    obtain ⟨steady, timed⟩ := drawnSteady
    have pressed := (press_steady upper unit turn steady).and fun next ran => press_lastLog ran
    refine (pressed.mono fun raised fault => fault.mono ?_).bind fun next kept => ?_
    · intro world member
      simp [asked, member]
    cases next with
    | none => exact steady
    | some next =>
      obtain ⟨goes, same⟩ := kept.2 next rfl
      refine (ih (kept.1 next rfl)).mono fun raised fault => fault.mono ?_
      rw [same, timed]
      intro world member
      simp [asked, goes, member]

end Turns

theorem runUi_ends (upper : Text → Text) (unit : Text) (now : ℚ) (outside : Outside) (turns : List Turn) :
    Ends Steady (Fault (due (4 / 5) 0 now outside ++ asked (4 / 5) opensFiles (tick (4 / 5) 0 now) turns))
      (runUi upper unit now outside turns) := by
  have started := (periodicPoll_inOrder upper outside now (pollCatalog_inOrder outside InOrder.empty)).and fun cache ran =>
    periodicPoll_lastLog ran
  refine (started.mono fun raised fault => fault.mono (List.subset_append_left _ _)).bind fun cache kept => ?_
  have first : 0 < navItems.length := by decide
  refine (loop_steady upper unit turns ⟨kept.1, first⟩).mono fun raised fault => fault.mono ?_
  have timed : cache.lastLogPoll = tick (4 / 5) 0 now := kept.2
  rw [timed]
  exact List.subset_append_right _ _

/-- Whatever the world answers and whichever keys are pressed, the loop never reads a
list out of range, and the gauges and tails it draws are in order. What can end it is a
call on the log or the chat file, when it polls them. -/
theorem dashboard_steady (upper : Text → Text) (unit : Text) (now : ℚ) (outside : Outside) (turns : List Turn) :
    (∃ ui, runUi upper unit now outside turns = .ok ui ∧ Steady ui) ∨
      ∃ exc, runUi upper unit now outside turns = .error (.file exc) ∧
        ∃ world ∈ due (4 / 5) 0 now outside ++ asked (4 / 5) opensFiles (tick (4 / 5) 0 now) turns, Raises world.2 exc := by
  rcases ends_iff.mp (runUi_ends upper unit now outside turns) with steady | fault
  · exact Or.inl steady
  · obtain ⟨raised, ended, world, member, exc, rfl, raises⟩ := fault
    exact Or.inr ⟨exc, ended, world, member, raises⟩

end HawkTui.Proofs.DashboardRun
