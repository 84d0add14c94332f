import HawkTui.Core.Severity
import HawkTui.Lib.Maps

/-! The HawkFrame line format: seven tab-separated columns, the last of them a
bag of `key=value` entries. The RFC 3339 reader and writer of the `time` crate
are parameters. -/

namespace HawkTui
open Lib Text

/-- An instant in nanoseconds since the Unix epoch, with the offset in seconds it is written in. -/
structure OffsetDateTime where
  unixNanos : Int
  utcOffset : Int
  deriving DecidableEq, Repr

structure Rfc3339 where
  parse : Text → Option OffsetDateTime
  format : OffsetDateTime → Option Text

abbrev KvBag := BTreeMap Text Text

structure HawkFrame where
  ts : Option OffsetDateTime
  kind : Text
  scope : Text
  id : Text
  level : Level
  msg : Text
  kv : KvBag
  deriving DecidableEq

inductive HawkFrameParseError where
  | empty
  | tooFewColumns (found : Nat)
  | badTimestamp (raw : Text)
  deriving DecidableEq, Repr

def trueText : Text := "true".toList

/-- One turn of the loop over the bag's parts. A part without `=` is a bare flag. -/
def insertPart (out : KvBag) (part : Text) : KvBag :=
  let part := trim part
  if part.isEmpty then out
  else match splitOnce '=' part with
    | some (k, v) => out.insert (trim k) (trim v)
    | none => out.insert part trueText

def parseKvBag (s : Text) : KvBag :=
  if (trim s).isEmpty then ∅ else (s.splitOn ';').foldl insertPart ∅

def serializeEntry (entry : Text × Text) : Text :=
  if entry.2 = trueText then entry.1 else entry.1 ++ '=' :: entry.2

def serializeKvBag (kv : KvBag) : Text :=
  if kv.isEmpty then [] else [';'].intercalate (kv.toList.map serializeEntry)

def isLineEnd (c : Char) : Bool := c == '\n' || c == '\r'

namespace HawkFrame

variable (rfc : Rfc3339)

def parseTs (rawTs : Text) : Except HawkFrameParseError (Option OffsetDateTime) :=
  if rawTs.isEmpty then .ok none
  else match rfc.parse rawTs with
    | some v => .ok (some v)
    | none => .error (.badTimestamp rawTs)

def parseColumns : List Text → Except HawkFrameParseError (Option HawkFrame)
  -- columns past the seventh are not looked at
  | c0 :: c1 :: c2 :: c3 :: c4 :: c5 :: c6 :: _ => do
    let ts ← parseTs rfc (trim c0)
    return some {
      ts
      kind := trim c1
      scope := trim c2
      id := trim c3
      level := Level.parse c4
      msg := trim c5
      kv := parseKvBag (trim c6) }
  | cols => .error (.tooFewColumns cols.length)

def parseTsvLine (line : Text) : Except HawkFrameParseError (Option HawkFrame) :=
  let line := trimEndMatches isLineEnd line
  if (trim line).isEmpty then .ok none
  else if startsWith ['#'] (trimStart line) then .ok none
  else parseColumns rfc (line.splitOn '\t')

/-- The formatted timestamp, or nothing when the crate refuses to format it. -/
def formatTs (t : OffsetDateTime) : Text := (rfc.format t).getD []

def toCompactLine (f : HawkFrame) : Text :=
  ['\t'].intercalate [(f.ts.map (formatTs rfc)).getD [], f.kind, f.scope, f.id, f.level.asStr, f.msg]

def toTsvLine (f : HawkFrame) (now : OffsetDateTime) : Text :=
  ['\t'].intercalate
    [formatTs rfc (f.ts.getD now), f.kind, f.scope, f.id, f.level.asStr, f.msg, serializeKvBag f.kv]

end HawkFrame

end HawkTui
