import HawkTui.Hawkd.Systemd
import HawkTui.Lib.Backoff
import HawkTui.Lib.Collect
import HawkTui.Proofs.FrameCodec

/-! The pauses of a systemd watcher. They were to start over once a unit could be
watched again. A session ends in an error however well it went, so the branch
that puts them back is never taken, and they grow from session to session. -/

namespace HawkTui.Proofs.UnitBackoff
open Lib Text Lib.Backoff Collect Systemd FrameCodec

section
variable (rfc : Rfc3339) (spec : UnitSpec) (cfg : SystemdWatchConfig)

def sleeps (sessions : List Session) : List Nat := (watchOneUnit rfc spec cfg sessions).map Turn.sleepMs

def snapshots (session : Session) : Nat := (watchOneUnitOnce rfc spec cfg session).1.length

/-- The pauses start over after every session that sent a snapshot, and double
after every other. -/
def Restarts (sessions : List Session) : Prop :=
  Paced 250 15000 (fun session => 0 < snapshots rfc spec cfg session) (fun session => snapshots rfc spec cfg session = 0)
    sessions (sleeps rfc spec cfg sessions)

end

/-- All calls up to the first snapshot go through. -/
structure Reaches (session : Session) : Prop where
  system : session.system = .ok ()
  managerProxy : session.managerProxy = .ok ()
  getUnit : ∃ path, session.getUnit = .ok path
  unitPath : session.unitPath = .ok ()
  unitBuild : session.unitBuild = .ok ()
  propsDestination : session.propsDestination = .ok ()
  propsPath : session.propsPath = .ok ()
  propsBuild : session.propsBuild = .ok ()
  states : ∃ active sub load, session.first.activeState = .ok active ∧ session.first.subState = .ok sub ∧
    session.first.loadState = .ok load

variable {rfc : Rfc3339} {spec : UnitSpec} {cfg : SystemdWatchConfig}

theorem openUnit_ok_iff {session : Session} : openUnit spec session = .ok () ↔
    session.system = .ok () ∧ session.managerProxy = .ok () ∧ (∃ path, session.getUnit = .ok path) ∧
      session.unitPath = .ok () ∧ session.unitBuild = .ok () ∧ session.propsDestination = .ok () ∧
      session.propsPath = .ok () ∧ session.propsBuild = .ok () := by
  simp only [openUnit, bind_eq_ok, mapError_eq_ok, exists_and_right, exists_unit_eq_ok]

theorem snapshot_ok_iff {unit : UnitReading} : (∃ message, snapshot rfc spec cfg unit = .ok message) ↔
    ∃ active sub load, unit.activeState = .ok active ∧ unit.subState = .ok sub ∧ unit.loadState = .ok load := by
  simp only [snapshot, readUnit, bind_eq_ok, mapError_eq_ok]
  constructor
  · rintro ⟨_, _, ⟨active, first, sub, second, load, third, -⟩, -⟩
    exact ⟨active, sub, load, first, second, third⟩
  · rintro ⟨active, sub, load, first, second, third⟩
    exact ⟨_, _, ⟨active, first, sub, second, load, third, rfl⟩, rfl⟩

theorem reaches_iff (rfc : Rfc3339) (spec : UnitSpec) (cfg : SystemdWatchConfig) (session : Session) :
    Reaches session ↔
      openUnit spec session = .ok () ∧ ∃ message, snapshot rfc spec cfg session.first = .ok message := by
  rw [openUnit_ok_iff, snapshot_ok_iff]
  constructor
  · intro reaches
    exact ⟨⟨reaches.system, reaches.managerProxy, reaches.getUnit, reaches.unitPath, reaches.unitBuild,
      reaches.propsDestination, reaches.propsPath, reaches.propsBuild⟩, reaches.states⟩
  · rintro ⟨⟨system, managerProxy, getUnit, unitPath, unitBuild, propsDestination, propsPath, propsBuild⟩, states⟩
    exact ⟨system, managerProxy, getUnit, unitPath, unitBuild, propsDestination, propsPath, propsBuild, states⟩

theorem followSignals_fails (signals : List UnitReading) : ∃ e, (followSignals rfc spec cfg signals).2 = .error e := by
  induction signals with
  | nil => exact ⟨_, rfl⟩
  | cons unit rest ih =>
    unfold followSignals
    split
    next e failed => exact ⟨e, rfl⟩
    next message sent => exact ih

/-- How a session can go. It never returns `Ok`. -/
theorem watchOneUnitOnce_cases (rfc : Rfc3339) (spec : UnitSpec) (cfg : SystemdWatchConfig) (session : Session) :
    (∃ e, (watchOneUnitOnce rfc spec cfg session).2 = .error e) ∧
      (0 < (watchOneUnitOnce rfc spec cfg session).1.length ↔ Reaches session) := by
  rw [reaches_iff rfc spec cfg]
  unfold watchOneUnitOnce
  split
  next e failed => simp [failed]
  next opened =>
    split
    next e failed => simp [failed]
    next message sent =>
      split
      next e refused => simp [opened, sent]
      next => simp [opened, sent, followSignals_fails]

theorem sleeps_eq (sessions : List Session) :
    sleeps rfc spec cfg sessions = pauses 250 15000 (fun _ => false) 250 sessions := by
  have loop : ∀ backoffMs, (watchUnitFrom rfc spec cfg backoffMs sessions).map Turn.sleepMs =
      pauses 250 15000 (fun _ => false) backoffMs sessions := by
    induction sessions with
    | nil => intro _; rfl
    | cons session rest ih =>
      intro backoffMs
      obtain ⟨e, failed⟩ := (watchOneUnitOnce_cases rfc spec cfg session).1
      rw [pauses, ← ih]
      simp [watchUnitFrom, watchUnitTurn, failed, maxBackoffMs, Nat.mul_comm]
  exact loop 250

/-- The pauses start over as they should exactly when no session after the first
gets as far as a snapshot. -/
theorem unit_backoff_restarts_iff (rfc : Rfc3339) (spec : UnitSpec) (cfg : SystemdWatchConfig) (sessions : List Session) :
    Restarts rfc spec cfg sessions ↔ ∀ session ∈ sessions.tail, ¬ Reaches session := by
  have sends : ∀ session, 0 < snapshots rfc spec cfg session ↔ Reaches session := fun session =>
    (watchOneUnitOnce_cases rfc spec cfg session).2
  rw [Restarts, sleeps_eq, paced_iff (by decide) (by decide)]
  simp [sends]

def calm : UnitReading where
  now := sampleNow
  activeState := .ok "active".toList
  subState := .ok "running".toList
  loadState := .ok "loaded".toList
  description := .ok []

/-- A session in which everything works until the stream of signals ends. -/
def healthy : Session where
  system := .ok ()
  managerProxy := .ok ()
  getUnit := .ok "/org/freedesktop/systemd1/unit/web".toList
  unitPath := .ok ()
  unitBuild := .ok ()
  propsDestination := .ok ()
  propsPath := .ok ()
  propsBuild := .ok ()
  first := calm
  receive := .ok ()
  signals := [calm]
  failedAt := sampleNow

theorem healthy_sessions_slow_down :
    snapshots sampleClock ⟨"web.service".toList, "web".toList⟩ ⟨3600, 21600⟩ healthy = 2 ∧
      sleeps sampleClock ⟨"web.service".toList, "web".toList⟩ ⟨3600, 21600⟩ [healthy, healthy, healthy] = [250, 500, 1000] ∧
      ¬ Restarts sampleClock ⟨"web.service".toList, "web".toList⟩ ⟨3600, 21600⟩ [healthy, healthy] := by
  refine ⟨rfl, rfl, ?_⟩
  intro restarts
  have again := restarts.reset 1 healthy 500 rfl rfl (by decide)
  exact absurd again (by decide)

end HawkTui.Proofs.UnitBackoff
