import HawkTui.Hawkd.UnixIngest
import HawkTui.Lib.Numbers

/-! The systemd unit watchers. A unit's states and its description are texts
read over D-Bus, and every call there can fail. -/

namespace HawkTui.Systemd
open Lib Text Numbers UnixIngest

structure UnitSpec where
  unit : Text
  id : Text
  deriving DecidableEq

structure SystemdWatchConfig where
  ttlStaleS : Int
  ttlDeadS : Int

/-- `unit,id`, where the id defaults to the unit's name. -/
def parseUnitSpec (s : Text) : Except Text UnitSpec :=
  let parts := s.splitOn ','
  let unit := (parts[0]?.map trim).getD []
  if unit.isEmpty then .error "unit spec missing unit name".toList
  else
    let id := match parts[1]?.map trim with
      | some v => if v.isEmpty then unit else v
      | none => unit
    .ok { unit, id }

/-- What the unit's proxy answers; an unreadable description is empty. -/
structure UnitState where
  active : Text
  sub : Text
  load : Text
  desc : Text

def mapSystemdLevel (active sub load : Text) : Level :=
  let a := toAsciiLowercase active
  let s := toAsciiLowercase sub
  let l := toAsciiLowercase load
  if l = "not-found".toList then .fail
  else if a = "failed".toList ∨ s = "failed".toList then .fail
  else if a = "active".toList then .ok
  else if a = "activating".toList ∨ a = "reloading".toList then .info
  else if a = "deactivating".toList ∨ a = "inactive".toList then .warn
  else .unknown

def snapshotFrame (spec : UnitSpec) (cfg : SystemdWatchConfig) (now : OffsetDateTime) (unit : UnitState) : HawkFrame :=
  let kv : KvBag := ∅
  let kv := kv.insert "unit".toList spec.unit
  let kv := kv.insert "active".toList unit.active
  let kv := kv.insert "sub".toList unit.sub
  let kv := kv.insert "load".toList unit.load
  let kv := if unit.desc.isEmpty then kv else kv.insert "desc".toList unit.desc
  let kv := kv.insert "ttl_stale_s".toList (i64ToText cfg.ttlStaleS)
  let kv := kv.insert "ttl_dead_s".toList (i64ToText cfg.ttlDeadS)
  { ts := some now
    kind := "HEALTH".toList
    scope := "systemd".toList
    id := spec.id
    level := mapSystemdLevel unit.active unit.sub unit.load
    msg := unit.active ++ ':' :: unit.sub
    kv }

def emitSnapshotFrame (rfc : Rfc3339) (spec : UnitSpec) (cfg : SystemdWatchConfig) (now : OffsetDateTime)
    (unit : UnitState) : Bytes :=
  lineBytes rfc (snapshotFrame spec cfg now unit) now

def errorFrame (spec : UnitSpec) (cfg : SystemdWatchConfig) (now : OffsetDateTime) (msg err : Text) : HawkFrame :=
  let kv : KvBag := ∅
  let kv := kv.insert "unit".toList spec.unit
  let kv := kv.insert "error".toList err
  let kv := kv.insert "ttl_stale_s".toList (i64ToText cfg.ttlStaleS)
  let kv := kv.insert "ttl_dead_s".toList (i64ToText cfg.ttlDeadS)
  { ts := some now
    kind := "HEALTH".toList
    scope := "systemd".toList
    id := spec.id
    level := .fail
    msg
    kv }

def emitErrorFrame (rfc : Rfc3339) (spec : UnitSpec) (cfg : SystemdWatchConfig) (now : OffsetDateTime)
    (msg err : Text) : Bytes :=
  lineBytes rfc (errorFrame spec cfg now msg err) now

def watchFailed : Text := "systemd watch failed".toList

/-- What the unit's proxy answers from the given instant on. -/
structure UnitReading where
  now : OffsetDateTime
  activeState : Except Text Text
  subState : Except Text Text
  loadState : Except Text Text
  description : Except Text Text

/-- What one session meets on the bus, call by call. A signal is told by what is
read after it, and behind the last of them the stream ends. -/
structure Session where
  system : Except Text Unit
  managerProxy : Except Text Unit
  getUnit : Except Text Text
  unitPath : Except Text Unit
  unitBuild : Except Text Unit
  propsDestination : Except Text Unit
  propsPath : Except Text Unit
  propsBuild : Except Text Unit
  first : UnitReading
  receive : Except Text Unit
  signals : List UnitReading
  failedAt : OffsetDateTime

def context (what : String) (e : Text) : Text := what.toList ++ ": ".toList ++ e

def readUnit (unit : UnitReading) : Except Text UnitState := do
  let active ← unit.activeState.mapError (context "ActiveState")
  let sub ← unit.subState.mapError (context "SubState")
  let load ← unit.loadState.mapError (context "LoadState")
  let desc := unit.description.toOption.getD []
  return { active, sub, load, desc }

/-- The calls that come before the first snapshot. -/
def openUnit (spec : UnitSpec) (session : Session) : Except Text Unit := do
  session.system.mapError (context "connect system bus")
  session.managerProxy.mapError (context "manager proxy")
  let _ ← session.getUnit.mapError fun e => "GetUnit ".toList ++ spec.unit ++ ": ".toList ++ e
  session.unitPath.mapError (context "unit proxy builder")
  session.unitBuild.mapError (context "unit proxy build")
  session.propsDestination.mapError (context "properties destination")
  session.propsPath.mapError (context "properties path")
  session.propsBuild.mapError (context "properties proxy")

section
variable (rfc : Rfc3339) (spec : UnitSpec) (cfg : SystemdWatchConfig)

/-- `emit_snapshot_frame`, with the message it sends. -/
def snapshot (unit : UnitReading) : Except Text Bytes := do
  let state ← readUnit unit
  return emitSnapshotFrame rfc spec cfg unit.now state

def followSignals : List UnitReading → List Bytes × Except Text Unit
  | [] => ([], .error "properties stream ended".toList)
  | unit :: rest => match snapshot rfc spec cfg unit with
    | .error e => ([], .error e)
    | .ok message => (message :: (followSignals rest).1, (followSignals rest).2)

/-- The snapshots a session sends, and what it returns. -/
def watchOneUnitOnce (session : Session) : List Bytes × Except Text Unit :=
  match openUnit spec session with
  | .error e => ([], .error e)
  | .ok () => match snapshot rfc spec cfg session.first with
    | .error e => ([], .error e)
    | .ok message => match session.receive.mapError (context "receive PropertiesChanged") with
      | .error e => ([message], .error e)
      | .ok () => (message :: (followSignals rfc spec cfg session.signals).1, (followSignals rfc spec cfg session.signals).2)

structure Turn where
  messages : List Bytes
  sleepMs : Nat

def initialBackoffMs : Nat := 250

def maxBackoffMs : Nat := 15000

/-- One turn of the loop, with the backoff for the next. -/
def watchUnitTurn (backoffMs : Nat) (session : Session) : Turn × Nat :=
  let sent := (watchOneUnitOnce rfc spec cfg session).1
  match (watchOneUnitOnce rfc spec cfg session).2 with
  | .ok () => ⟨⟨sent, initialBackoffMs⟩, initialBackoffMs⟩
  | .error err =>
    ⟨⟨sent ++ [emitErrorFrame rfc spec cfg session.failedAt watchFailed err], backoffMs⟩, min (backoffMs * 2) maxBackoffMs⟩

def watchUnitFrom (backoffMs : Nat) : List Session → List Turn
  | [] => []
  | session :: rest =>
    (watchUnitTurn rfc spec cfg backoffMs session).1 ::
      watchUnitFrom (watchUnitTurn rfc spec cfg backoffMs session).2 rest

/-- The first turns of the loop, as far as their sessions are known. -/
def watchOneUnit (sessions : List Session) : List Turn := watchUnitFrom rfc spec cfg initialBackoffMs sessions

end

end HawkTui.Systemd
