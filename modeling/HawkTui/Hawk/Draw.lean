import HawkTui.Hawk.App

/-! The drawing layer, as the texts it puts on the screen. The clock is read again
by every function that needs it. -/

namespace HawkTui.Draw
open Lib Text Numbers App

structure Row where
  scope : Text
  id : Text
  kind : Text
  level : Text
  state : Text
  age : Text
  lastMsg : Text
  deriving DecidableEq

def liveStr : Liveness → Text
  | .active => "active".toList
  | .dream => "dream".toList
  | .stale => "stale".toList
  | .dead => "dead".toList

def entityRow (app : App) (now : OffsetDateTime) (st : EntityState) : Row where
  scope := st.scope
  id := st.id
  kind := st.kind
  level := st.lastLevel.asStr
  state := liveStr (app.computeEntityLiveness st now)
  age := i64ToText (max (wholeSeconds st.lastSeen now) 0) ++ ['s']
  lastMsg := st.lastMsg

/-- The entities that get a row. -/
def shownEntities (app : App) (sortedAt : OffsetDateTime) : List EntityState := (app.sortedEntities sortedAt).take 200

def drawEntityTable (app : App) (now sortedAt : OffsetDateTime) : List Row :=
  (shownEntities app sortedAt).map (entityRow app now)

def showCounts (counts : Counts) : Text :=
  "entities=".toList ++ i64ToText counts.total ++ "  ok=".toList ++ i64ToText counts.ok ++
    "  warn=".toList ++ i64ToText counts.warn ++ "  fail=".toList ++ i64ToText counts.fail ++
    "  stale=".toList ++ i64ToText counts.stale ++ "  dead=".toList ++ i64ToText counts.dead

def drawTopBar (rfc : Rfc3339) (app : App) (countedAt now : OffsetDateTime) : Text :=
  "HAWK  ".toList ++ showCounts (app.countsByState countedAt) ++
    "  frames=".toList ++ i64ToText app.framesSeen.toNat ++ "  parse_err=".toList ++ i64ToText app.parseErrors.toNat ++
    "  io_err=".toList ++ i64ToText app.ioErrors.toNat ++ "  ".toList ++ (rfc.format now).getD []

def drawTail (app : App) : List Text := app.tail

/-- The clock readings of one frame of the screen, in the order they are made. -/
structure Readings where
  countedAt : OffsetDateTime
  topBarAt : OffsetDateTime
  tableAt : OffsetDateTime
  sortedAt : OffsetDateTime

structure Screen where
  topBar : Text
  table : List Row
  tail : List Text
  deriving DecidableEq

def drawApp (rfc : Rfc3339) (app : App) (at_ : Readings) : Screen where
  topBar := drawTopBar rfc app at_.countedAt at_.topBarAt
  table := drawEntityTable app at_.tableAt at_.sortedAt
  tail := drawTail app

end HawkTui.Draw
