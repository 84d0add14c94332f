import HawkTui.Core.Debug
import HawkTui.Lib.Utf8

/-! The ingest socket of the daemon: one thread for each publisher reads lines
and forwards frames to the spine. A panic ends the thread. -/

namespace HawkTui.UnixIngest
open Lib Text Utf8 HawkFrame

/-- The offending line, capped for the error frame; `none` is the panic of
`truncate` inside a character. -/
def clipRaw (raw : Text) : Option Text :=
  if byteLen raw > 240 then (truncate raw 240).map (· ++ "...".toList) else some raw

def parseErrorFrame (now : OffsetDateTime) (ingestPath raw err : Text) : Option HawkFrame := do
  let kv : KvBag := ∅
  let kv := kv.insert "ingest_path".toList ingestPath
  let kv := kv.insert "error".toList err
  let clipped ← clipRaw raw
  let kv := kv.insert "raw".toList clipped
  return {
    ts := some now
    kind := "RECEIPT_EVENT".toList
    scope := "hawkd".toList
    id := "ingest".toList
    level := .warn
    msg := "ingest parse error".toList
    kv }

/-- What a source thread puts on the spine, and whether it ends by a panic. -/
structure Sent where
  messages : List Bytes
  panicked : Bool
  deriving DecidableEq

def Sent.after (message : Bytes) (rest : Sent) : Sent := { rest with messages := message :: rest.messages }

def lineBytes (rfc : Rfc3339) (f : HawkFrame) (now : OffsetDateTime) : Bytes :=
  encode (toTsvLine rfc f now ++ ['\n'])

section
variable (rfc : Rfc3339) (table : DebugTable) (ingestPath : Text) (strict : Bool)

/-- The read loop. `clock k` is the instant read while handling line `k`. -/
def handleIngestLines (clock : Nat → OffsetDateTime) : Nat → List (Option Text) → Sent
  | _, [] => ⟨[], false⟩
  | _, none :: _ => ⟨[], false⟩
  | k, some line :: rest =>
    match parseTsvLine rfc line with
    | .ok (some frame) => .after (lineBytes rfc frame (clock k)) (handleIngestLines clock (k + 1) rest)
    | .ok none => handleIngestLines clock (k + 1) rest
    | .error e =>
      match parseErrorFrame (clock k) ingestPath line (e.debug table) with
      | none => ⟨[], true⟩
      | some errFrame =>
        .after (lineBytes rfc errFrame (clock k))
          (if strict then ⟨[], false⟩ else handleIngestLines clock (k + 1) rest)

def handleIngestClient (clock : Nat → OffsetDateTime) (stream : Bytes) : Sent :=
  handleIngestLines rfc table ingestPath strict clock 0 (bufLines stream)

end

end HawkTui.UnixIngest
