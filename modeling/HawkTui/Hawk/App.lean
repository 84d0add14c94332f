import HawkTui.Core.HawkFrame
import HawkTui.Lib.Numbers

/-! The mirror's state: counters, the event tail and one row for each entity.
The wall clock is a parameter wherever the program reads it. -/

namespace HawkTui
open Lib Text Numbers

inductive IngestMsg where
  | frame (f : HawkFrame)
  | parseError (e : HawkFrameParseError)
  | ioError (text : Text)
  deriving DecidableEq

structure EntityState where
  scope : Text
  id : Text
  lastLevel : Level
  lastMsg : Text
  lastSeen : OffsetDateTime
  kind : Text
  kv : KvBag
  deriving DecidableEq

structure App where
  /-- Newest first. -/
  tail : List Text
  tailSize : Nat
  framesSeen : UInt64
  parseErrors : UInt64
  ioErrors : UInt64
  entities : BTreeMap Text EntityState
  staleS : Int
  deadS : Int

inductive Liveness where
  | active
  | dream
  | stale
  | dead
  deriving DecidableEq, Repr

namespace App

def new (tailSize : Nat) (staleS deadS : Int) : App where
  tail := []
  tailSize
  framesSeen := 0
  parseErrors := 0
  ioErrors := 0
  entities := ∅
  staleS
  deadS

/-- The loop that pops the tail's oldest lines. -/
def popBack (size : Nat) (tail : List Text) : List Text :=
  if tail.length > size then popBack size tail.dropLast else tail
termination_by tail.length
decreasing_by simp only [List.length_dropLast]; omega

def pushTail (app : App) (line : Text) : App := { app with tail := popBack app.tailSize (line :: app.tail) }

def entityKey (scope id : Text) : Text := scope ++ ':' :: id

def entityState (f : HawkFrame) (now : OffsetDateTime) : EntityState where
  scope := f.scope
  id := f.id
  lastLevel := f.level
  lastMsg := f.msg
  lastSeen := f.ts.getD now
  kind := f.kind
  kv := f.kv

def ingestFrame (rfc : Rfc3339) (app : App) (now : OffsetDateTime) (f : HawkFrame) : App :=
  let compact := f.toCompactLine rfc
  let app := { app with
    framesSeen := app.framesSeen + 1
    entities := app.entities.insert (entityKey f.scope f.id) (entityState f now) }
  app.pushTail compact

def ingest (rfc : Rfc3339) (app : App) (now : OffsetDateTime) : IngestMsg → App
  | .frame f => app.ingestFrame rfc now f
  | .parseError _ => { app with parseErrors := app.parseErrors + 1 }
  | .ioError _ => { app with ioErrors := app.ioErrors + 1 }

/-- A run of the mirror: each message with the instant it arrives at. -/
def ingestAll (rfc : Rfc3339) (app : App) (msgs : List (OffsetDateTime × IngestMsg)) : App :=
  msgs.foldl (fun app msg => app.ingest rfc msg.1 msg.2) app

/-- Age in whole seconds, truncated toward zero as `Duration::whole_seconds` does. -/
def wholeSeconds (lastSeen now : OffsetDateTime) : Int := (now.unixNanos - lastSeen.unixNanos).tdiv 1000000000

def computeLivenessWithTtl (lastSeen now : OffsetDateTime) (staleS deadS : Int) : Liveness :=
  let ageS := wholeSeconds lastSeen now
  if ageS ≥ deadS then .dead
  else if ageS ≥ staleS then .stale
  -- active within half the stale window, and at least one second
  else if ageS ≤ max (staleS.tdiv 2) 1 then .active
  else .dream

def computeLiveness (app : App) (lastSeen now : OffsetDateTime) : Liveness :=
  computeLivenessWithTtl lastSeen now app.staleS app.deadS

def parseTtlFromKv (kv : KvBag) (key : Text) : Option Int := do
  let v ← kv[key]?
  let n ← parseI64 v
  if n > 0 then some n else none

def computeEntityLiveness (app : App) (st : EntityState) (now : OffsetDateTime) : Liveness :=
  let staleS := (parseTtlFromKv st.kv "ttl_stale_s".toList).getD app.staleS
  let deadS := (parseTtlFromKv st.kv "ttl_dead_s".toList).getD app.deadS
  computeLivenessWithTtl st.lastSeen now staleS deadS

structure Counts where
  total : Nat
  ok : Nat
  warn : Nat
  fail : Nat
  stale : Nat
  dead : Nat
  deriving DecidableEq

def countEntity (app : App) (now : OffsetDateTime) (counts : Counts) (st : EntityState) : Counts :=
  match app.computeEntityLiveness st now with
  | .stale => { counts with stale := counts.stale + 1 }
  | .dead => { counts with dead := counts.dead + 1 }
  | _ => match st.lastLevel with
    | .fail => { counts with fail := counts.fail + 1 }
    | .warn => { counts with warn := counts.warn + 1 }
    | .ok | .info | .unknown => { counts with ok := counts.ok + 1 }

def values (app : App) : List EntityState := app.entities.toList.map Prod.snd

def countsByState (app : App) (now : OffsetDateTime) : Counts :=
  { app.values.foldl (app.countEntity now) ⟨0, 0, 0, 0, 0, 0⟩ with total := app.entities.size }

def rankLive : Liveness → Nat
  | .dead => 0
  | .stale => 1
  | .active => 2
  | .dream => 3

/-- Dead and stale first, then severity, then recency, then the id. -/
def compareEntities (app : App) (now : OffsetDateTime) (a b : EntityState) : Ordering :=
  (compare (rankLive (app.computeEntityLiveness a now)) (rankLive (app.computeEntityLiveness b now))).then <|
    (compare (LevelRank a.lastLevel) (LevelRank b.lastLevel)).then <|
      (compare b.lastSeen.unixNanos a.lastSeen.unixNanos).then (compare a.id b.id)

/-- `sort_by` is stable, and starts from the map's key order. -/
def sortedEntities (app : App) (now : OffsetDateTime) : List EntityState :=
  app.values.mergeSort fun a b => (app.compareEntities now a b).isLE

end App

end HawkTui
