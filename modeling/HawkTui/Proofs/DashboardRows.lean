import HawkTui.Proofs.DashboardRun
import Mathlib.Tactic.Linarith
import Mathlib.Tactic.NormNum

/-! The rows on the dashboard's screen: they are recent, and a refresh shows what the
check prints. -/

namespace HawkTui.Proofs.DashboardRows
open Lib Text Dashboard Collect DashboardRun

/-- Both feeds were last due at this time, and their rows came from a world asked since. -/
structure RecentRows (upper : Text → Text) (worlds : List (ℚ × Outside)) (last : ℚ) (cache : StateCache) : Prop where
  lastGrpc : cache.lastGrpcPoll = last
  lastStream : cache.lastStreamPoll = last
  grpc : ∃ world ∈ worlds, last ≤ world.1 ∧ cache.grpcRows = grpcOf upper world.2
  streams : ∃ world ∈ worlds, last ≤ world.1 ∧ cache.streamRows = said world.2.streams

section Feeds
variable {upper : Text → Text} {outside : Outside} {cache next : StateCache} {worlds : List (ℚ × Outside)} {now last : ℚ}

theorem RecentRows.of_same (recent : RecentRows upper worlds last cache) (same : SameRows cache next) :
    RecentRows upper worlds last next := by
  refine ⟨same.lastGrpc.trans recent.lastGrpc, same.lastStream.trans recent.lastStream, ?_, ?_⟩
  · rw [same.grpcRows]
    exact recent.grpc
  · rw [same.streamRows]
    exact recent.streams

theorem RecentRows.mono {more : List (ℚ × Outside)} (recent : RecentRows upper worlds last cache) (grown : worlds ⊆ more) :
    RecentRows upper more last cache := by
  obtain ⟨grpc, grpcIn, grpcRows⟩ := recent.grpc
  obtain ⟨stream, streamIn, streamRows⟩ := recent.streams
  exact ⟨recent.lastGrpc, recent.lastStream, ⟨grpc, grown grpcIn, grpcRows⟩, stream, grown streamIn, streamRows⟩

theorem periodicPoll_due (grpcDue : now - cache.lastGrpcPoll ≥ 2) (streamDue : now - cache.lastStreamPoll ≥ 2)
    (ran : periodicPoll upper now outside cache = .ok next) : RecentRows upper [(now, outside)] now next := by
  obtain ⟨middle, commanded, logged⟩ := bind_eq_ok.mp ran
  have streamDue : now - (grpcTimer upper now outside cache).lastStreamPoll ≥ 2 := by
    rw [grpcTimer, if_pos grpcDue]
    exact streamDue
  have recent : RecentRows upper [(now, outside)] now (streamTimer now outside (grpcTimer upper now outside cache)) := by
    rw [streamTimer, if_pos streamDue, grpcTimer, if_pos grpcDue]
    exact ⟨rfl, rfl, ⟨(now, outside), by simp, le_rfl, rfl⟩, (now, outside), by simp, le_rfl, rfl⟩
  exact recent.of_same ((cmdTimer_feeds commanded).toSameRows.trans (logTimer_rows logged).1)

theorem periodicPoll_early (grpcEarly : ¬ now - cache.lastGrpcPoll ≥ 2) (streamEarly : ¬ now - cache.lastStreamPoll ≥ 2)
    (ran : periodicPoll upper now outside cache = .ok next) : SameRows cache next := by
  obtain ⟨middle, commanded, logged⟩ := bind_eq_ok.mp ran
  rw [grpcTimer, if_neg grpcEarly, streamTimer, if_neg streamEarly] at commanded
  exact (cmdTimer_feeds commanded).toSameRows.trans (logTimer_rows logged).1

theorem poll_recent {turn : Turn} {ui drawn : Ui} (recent : RecentRows upper worlds last ui.cache)
    (polled : poll upper turn ui = .ok drawn) :
    RecentRows upper (worlds ++ due 2 last turn.now turn.polled) (tick 2 last turn.now) drawn.cache := by
  have ran := poll_cache polled
  have grpcLast := recent.lastGrpc
  have streamLast := recent.lastStream
  by_cases expired : turn.now - last ≥ 2
  · rw [due, tick, if_pos expired, if_pos expired]
    refine (periodicPoll_due ?_ ?_ ran).mono (List.subset_append_right _ _)
    · rwa [grpcLast]
    · rwa [streamLast]
  · rw [due, tick, if_neg expired, if_neg expired, List.append_nil]
    refine recent.of_same (periodicPoll_early ?_ ?_ ran)
    · rwa [grpcLast]
    · rwa [streamLast]

theorem press_recent {unit : Text} {turn : Turn} {ui later : Ui} (recent : RecentRows upper worlds last ui.cache)
    (past : last ≤ turn.now) (pressed : press upper unit turn ui = .ok (some later)) :
    RecentRows upper (worlds ++ keyed refreshes turn) last later.cache := by
  rcases (press_feeds pressed).2 with same | ⟨name, ran⟩
  · exact (recent.of_same same.toSameRows).mono (List.subset_append_left _ _)
  · obtain ⟨grpc, streams, lastGrpc, lastStream, -⟩ := refreshAll_feeds ran
    have member : (turn.now, turn.pressed) ∈ worlds ++ keyed refreshes turn := by simp [keyed, refreshes, name]
    exact ⟨lastGrpc.trans recent.lastGrpc, lastStream.trans recent.lastStream, ⟨_, member, past, grpc⟩, _, member, past, streams⟩

theorem tick_le {period : ℚ} (past : last ≤ now) : tick period last now ≤ now := by
  unfold tick
  split
  · exact le_rfl
  · exact past

theorem loop_recent {unit : Text} {turns : List Turn} {ui final : Ui} (recent : RecentRows upper worlds last ui.cache)
    (ordered : (last :: turns.map Turn.now).Pairwise (· ≤ ·)) (ran : loop upper unit ui turns = .ok final) {later : ℚ}
    (after : ∀ time ∈ last :: turns.map Turn.now, time ≤ later) :
    ∃ polled ≤ later, RecentRows upper (worlds ++ asked 2 refreshes last turns) polled final.cache := by
  induction turns generalizing ui last worlds with
  | nil =>
    cases ran
    exact ⟨last, after last (by simp), by simpa [asked] using recent⟩
  | cons turn rest ih =>
    have next : last ≤ turn.now := List.rel_of_pairwise_cons ordered (by simp)
    have now : tick 2 last turn.now ≤ turn.now := tick_le next
    have later : turn.now ≤ later := after turn.now (by simp)
    obtain ⟨drawn, polled, ran⟩ := bind_eq_ok.mp ran
    obtain ⟨pressed, handled, ran⟩ := bind_eq_ok.mp ran
    have recent := poll_recent recent polled
    cases pressed with
    | none =>
      cases ran
      refine ⟨tick 2 last turn.now, now.trans later, recent.mono ?_⟩
      simp [asked, ← List.append_assoc]
    | some kept =>
      have goes := (press_feeds handled).1
      have onward : (tick 2 last turn.now :: rest.map Turn.now).Pairwise (· ≤ ·) := by
        refine List.pairwise_cons.mpr ⟨fun time member => now.trans ?_, ordered.of_cons.of_cons⟩
        exact List.rel_of_pairwise_cons ordered.of_cons member
      obtain ⟨last, past, recent⟩ := ih (press_recent recent now handled) onward ran (by
        intro time member
        rcases List.mem_cons.mp member with rfl | member
        · exact now.trans later
        · exact after time (by simp [member]))
      refine ⟨last, past, ?_⟩
      simpa [asked, goes, List.append_assoc] using recent

end Feeds

/-- The health and stream rows on the screen are what the commands answered less than
two seconds before, by a clock that does not go back. -/
theorem drawn_recent (upper : Text → Text) (unit : Text) (now : ℚ) (outside : Outside) (turns : List Turn) (turn : Turn)
    (ui drawn : Ui) (epoch : 2 ≤ now) (ordered : (now :: (turns ++ [turn]).map Turn.now).Pairwise (· ≤ ·))
    (ran : runUi upper unit now outside turns = .ok ui) (polled : poll upper turn ui = .ok drawn) :
    (∃ world ∈ (now, outside) :: asked 2 refreshes now turns ++ due 2 ui.cache.lastGrpcPoll turn.now turn.polled,
      turn.now - world.1 < 2 ∧ drawn.cache.grpcRows = grpcOf upper world.2) ∧
    ∃ world ∈ (now, outside) :: asked 2 refreshes now turns ++ due 2 ui.cache.lastStreamPoll turn.now turn.polled,
      turn.now - world.1 < 2 ∧ drawn.cache.streamRows = said world.2.streams := by
  obtain ⟨cache, started, ran⟩ := bind_eq_ok.mp ran
  have expired : now - (pollCatalog outside {}).lastGrpcPoll ≥ 2 := by
    simp only [pollCatalog]
    linarith
  have recent : RecentRows upper [(now, outside)] now cache := periodicPoll_due expired expired started
  rw [List.map_append, ← List.cons_append, List.pairwise_append] at ordered
  obtain ⟨earlier, -, final⟩ := ordered
  have past : ∀ time ∈ now :: turns.map Turn.now, time ≤ turn.now := fun time member => final time member turn.now (by simp)
  obtain ⟨last, before, recent⟩ := loop_recent recent earlier ran past
  rw [recent.lastGrpc, recent.lastStream]
  have fresh : turn.now - tick 2 last turn.now < 2 := by
    unfold tick
    split
    · simp
    next early => exact not_le.mp early
  obtain ⟨-, -, ⟨grpc, grpcIn, grpcAge, grpcRows⟩, stream, streamIn, streamAge, streamRows⟩ := poll_recent recent polled
  exact ⟨⟨grpc, grpcIn, by linarith, grpcRows⟩, stream, streamIn, by linarith, streamRows⟩

section Sample

def sampleOutside : Outside where
  catalog := ⟨0, "grpc_health|gRPC Health|adapter+awk|Probe endpoints".toList⟩
  grpc := ⟨0, "db:443\tserving\t3\tfake".toList⟩
  streams := ⟨1, "timeout".toList⟩
  command _ := ⟨0, []⟩
  daemon _ := ⟨0, []⟩
  logStat := .ok none
  log := .ok none
  chat := .ok none
  chatDir := .ok ()
  chatWrite := .ok ()
  stamp := "12:00:00".toList

def sampleTurn (now : ℚ) (code : Int) : Turn where
  now
  polled := sampleOutside
  code
  pressed := sampleOutside
  pressedAt := now
  typed := []
  utc := []

/-- Where all worlds are like this one, every call on a file goes well. -/
theorem ok_of_sample {α : Type} {holds : α → Prop} {attempt : Except Raised α} {worlds : List (ℚ × Outside)}
    (ends : Ends holds (Fault worlds) attempt) (alike : ∀ world ∈ worlds, world.2 = sampleOutside) :
    ∃ a, attempt = .ok a ∧ holds a := by
  rcases ends_iff.mp ends with done | ⟨raised, -, world, member, exc, -, raises⟩
  · exact done
  · rw [alike world member] at raises
    cases raises <;> contradiction

theorem mem_due {period last now : ℚ} {outside : Outside} {world : ℚ × Outside} (member : world ∈ due period last now outside) :
    world.2 = outside := by
  unfold due at member
  split at member
  · rw [List.mem_singleton.mp member]
  · cases member

theorem asked_alike (period : ℚ) (asks : Turn → Bool) (last : ℚ) (codes : List (ℚ × Int)) :
    ∀ world ∈ asked period asks last (codes.map fun item => sampleTurn item.1 item.2), world.2 = sampleOutside := by
  induction codes generalizing last with
  | nil => simp [asked]
  | cons item rest ih =>
    intro world member
    simp only [List.map_cons, asked, List.mem_append] at member
    rcases member with (polled | pressed) | later
    · exact mem_due polled
    · unfold keyed at pressed
      split at pressed
      · rw [List.mem_singleton.mp pressed]
        rfl
      · cases pressed
    · split at later
      · cases later
      · exact ih _ world later

theorem sample_run (codes : List (ℚ × Int)) : ∃ ui,
    runUi id "hawk-agent.service".toList 100 sampleOutside (codes.map fun item => sampleTurn item.1 item.2) = .ok ui ∧
      Steady ui := by
  refine ok_of_sample (runUi_ends _ _ _ _ _) fun world member => ?_
  rcases List.mem_append.mp member with started | later
  · exact mem_due started
  · exact asked_alike _ _ _ _ world later

/-- A refresh between two turns of the timers. -/
theorem drawn_recent_refreshed : ∃ ui drawn,
    runUi id "hawk-agent.service".toList 100 sampleOutside [sampleTurn 101 'r'.toNat] = .ok ui ∧
      poll id (sampleTurn (203 / 2) (-1)) ui = .ok drawn ∧
      ∃ world ∈ (100, sampleOutside) :: asked 2 refreshes 100 [sampleTurn 101 'r'.toNat] ++
          due 2 ui.cache.lastGrpcPoll (203 / 2) sampleOutside,
        203 / 2 - world.1 < 2 ∧ drawn.cache.grpcRows = grpcOf id world.2 := by
  obtain ⟨ui, ran, steady⟩ := sample_run [(101, 'r'.toNat)]
  obtain ⟨drawn, polled, -⟩ := ok_of_sample (poll_steady id (sampleTurn (203 / 2) (-1)) steady) fun _ => mem_due
  have ordered : ((100 : ℚ) :: ([sampleTurn 101 'r'.toNat] ++ [sampleTurn (203 / 2) (-1)]).map Turn.now).Pairwise (· ≤ ·) := by
    simp only [sampleTurn, List.map_append, List.map_cons, List.map_nil]
    norm_num
  exact ⟨ui, drawn, ran, polled, (drawn_recent id _ 100 sampleOutside _ _ ui drawn (by norm_num) ordered ran polled).1⟩

end Sample

/-! The check and the screen. -/

/-- The check prints in a world how many rows a refresh there leaves on the screen. To
the check every log is new; the dashboard measures from the size that it saw before, and
keeps that if there is no log. -/
structure Agrees (world : Outside) (check : Check) (before after : StateCache) : Prop where
  commands : check.commands = after.commandCatalog.length
  grpcOk : check.grpcOk = after.grpcRows.countP fun row => row.status = "SERVING".toList
  grpcBad : check.grpcOk + check.grpcBad = after.grpcRows.length
  streamRows : check.streamRows = after.streamRows.length
  log : ∀ stat, world.logStat = .ok (some stat) → check.logSize = stat.1 ∧ check.logDelta = stat.1 ∧
    after.logSize = stat.1 ∧ after.logDelta = stat.1 - before.logSize
  missing : world.logStat = .ok none → check.logSize = 0 ∧ check.logDelta = 0 ∧
    after.logSize = before.logSize ∧ after.logDelta = before.logDelta

section Check
variable (upper : Text → Text) (outside : Outside) {cache : StateCache}

/-- A refresh fails only where the files do, and then in the same way from every cache. -/
theorem refreshAll_eq (order : InOrder cache) : ∃ output last, refreshAll upper outside cache =
    (call (filesOf outside)).map (filed { pollStreams outside (pollGrpc upper outside (pollCatalog outside cache)) with
      commandOutput := output, commandLast := last }) := by
  obtain ⟨middle, ran, -⟩ := pollCommand_inOrder outside
    (pollStreams_inOrder outside (pollGrpc_inOrder upper outside (pollCatalog_inOrder outside order)))
  obtain ⟨output, last, rfl⟩ := pollCommand_writes ran
  refine ⟨output, last, ?_⟩
  rw [refreshAll, ran, ← pollLogsAndChat_eq]
  rfl

theorem stat_of_filesOf {world : Outside} {found : Contents} (read : filesOf world = .ok found) :
    world.logStat = .ok found.stat := by
  unfold filesOf at read
  obtain ⟨stat, first, read⟩ := bind_eq_ok.mp read
  obtain ⟨log, -, read⟩ := bind_eq_ok.mp read
  obtain ⟨made, -, read⟩ := bind_eq_ok.mp read
  obtain ⟨chat, -, read⟩ := bind_eq_ok.mp read
  cases chat with
  | some content =>
    cases read
    exact first
  | none =>
    obtain ⟨written, -, read⟩ := bind_eq_ok.mp read
    cases read
    exact first

/-- In one world, the check and a refresh of any cache both raise the same, or they agree. -/
theorem check_or_raise (order : InOrder cache) :
    (∃ exc, Raises outside exc ∧ runCheck upper outside = .error (.file exc) ∧
      refreshAll upper outside cache = .error (.file exc)) ∨
    ∃ check after, runCheck upper outside = .ok check ∧ refreshAll upper outside cache = .ok after ∧
      Agrees outside check cache after := by
  obtain ⟨printed, printedAt, checked⟩ := refreshAll_eq upper outside InOrder.empty
  obtain ⟨output, last, ran⟩ := refreshAll_eq upper outside order
  have gauges := pollGrpc_inOrder upper outside (pollCatalog_inOrder outside order)
  rw [runCheck, checked, ran]
  cases found : filesOf outside with
  | error exc => exact Or.inl ⟨exc, raises_of_filesOf found, rfl, rfl⟩
  | ok files =>
    obtain ⟨stat, log, chat⟩ := files
    have stated := stat_of_filesOf found
    refine Or.inr ⟨_, _, rfl, rfl, ?_⟩
    cases stat with
    | none =>
      exact ⟨rfl, gauges.serving, gauges.counted, rfl, fun stat same => by simp [stated] at same, fun _ => ⟨rfl, rfl, rfl, rfl⟩⟩
    | some stat =>
      refine ⟨rfl, gauges.serving, gauges.counted, rfl, fun other same => ?_, fun same => by simp [stated] at same⟩
      rw [stated] at same
      cases same
      exact ⟨rfl, rfl, rfl, rfl⟩

end Check

/-- After any run, `r` and the check in the same world both fail by the same call on a
file, or both go through and agree. -/
theorem refresh_shows_check (upper : Text → Text) (unit : Text) (now : ℚ) (outside : Outside) (turns : List Turn) (turn : Turn)
    (ui drawn : Ui) (refresh : key turn.code = .refresh) (ran : runUi upper unit now outside turns = .ok ui)
    (polled : poll upper turn ui = .ok drawn) :
    (∃ exc, Raises turn.pressed exc ∧ runCheck upper turn.pressed = .error (.file exc) ∧
      press upper unit turn drawn = .error (.file exc)) ∨
    ∃ check shown, runCheck upper turn.pressed = .ok check ∧ press upper unit turn drawn = .ok (some shown) ∧
      Agrees turn.pressed check drawn.cache shown.cache := by
  have steady := runUi_ends upper unit now outside turns
  rw [ran] at steady
  have drawnSteady := poll_steady upper turn steady
  rw [polled] at drawnSteady
  simp only [press, refresh]
  rcases check_or_raise upper turn.pressed drawnSteady.cache with
    ⟨exc, raises, checked, refreshed⟩ | ⟨check, after, checked, refreshed, agrees⟩
  · exact Or.inl ⟨exc, raises, checked, by rw [refreshed]; rfl⟩
  · exact Or.inr ⟨check, _, checked, by rw [refreshed]; rfl, agrees⟩

def loggedOutside : Outside :=
  { sampleOutside with logStat := .ok (some (120, "11:59:58".toList)), log := .ok (some "started\n".toList) }

/-- A log that was not there at start-up. -/
theorem refresh_shows_check_log : ∃ ui drawn check shown,
    runUi id "hawk-agent.service".toList 100 sampleOutside [] = .ok ui ∧
      poll id { sampleTurn 101 'r'.toNat with pressed := loggedOutside } ui = .ok drawn ∧
      runCheck id loggedOutside = .ok check ∧
      press id "hawk-agent.service".toList { sampleTurn 101 'r'.toNat with pressed := loggedOutside } drawn = .ok (some shown) ∧
      check.logDelta = 120 ∧ shown.cache.logSize = 120 := by
  obtain ⟨ui, ran, steady⟩ := sample_run []
  obtain ⟨drawn, polled, -⟩ :=
    ok_of_sample (poll_steady id { sampleTurn 101 'r'.toNat with pressed := loggedOutside } steady) fun _ => mem_due
  rcases refresh_shows_check id "hawk-agent.service".toList 100 sampleOutside [] _ ui drawn (by decide) ran polled with
    ⟨exc, raises, -⟩ | ⟨check, shown, checked, pressed, agrees⟩
  · cases raises <;> contradiction
  · have log := agrees.log (120, "11:59:58".toList) rfl
    exact ⟨ui, drawn, check, shown, ran, polled, checked, pressed, log.2.1, log.2.2.1⟩

end HawkTui.Proofs.DashboardRows
