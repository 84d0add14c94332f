import HawkTui.Hawk.App
import HawkTui.Lib.Utf8

/-! The mirror's line sources. Both run one loop over what their reads give:
stdin keeps each line's terminator, the socket reader strips it. -/

namespace HawkTui.Io
open Lib Text Utf8 HawkFrame

def invalidUtf8 : Text := "stream did not contain valid UTF-8".toList

section
variable (rfc : Rfc3339) (strict : Bool)

/-- The messages sent for a sequence of reads; `none` is a failed read. -/
def readerLoop : List (Option Text) → List IngestMsg
  | [] => []
  | none :: _ => [.ioError invalidUtf8]
  | some line :: rest =>
    match parseTsvLine rfc line with
    | .ok (some f) => .frame f :: readerLoop rest
    | .ok none => readerLoop rest
    | .error e => .parseError e :: if strict then [] else readerLoop rest

def spawnStdinReader (stdin : Bytes) : List IngestMsg := readerLoop rfc strict (readLines stdin)

def spawnUnixReader (stream : Bytes) : List IngestMsg := readerLoop rfc strict (bufLines stream)

end

end HawkTui.Io
