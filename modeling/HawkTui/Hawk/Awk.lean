import HawkTui.Hawk.Io
import HawkTui.Hawk.Packs

/-! The bridge to an awk thread: frames go to the script's input as lines, and
the script's output lines come back as frames. -/

namespace HawkTui.Awk
open Lib Text Utf8 HawkFrame

/-- The arguments awk is started with: the variables in key order, then the script. -/
def commandLine (scriptPath : Text) (tvars : BTreeMap Text Text) : List Text :=
  (tvars.toList.flatMap fun entry => ["-v".toList, entry.1 ++ '=' :: entry.2]) ++ ["-f".toList, scriptPath]

/-- `AwkRunner::spawn` up to the start of the process. -/
def spawn (fs : Packs.FileSystem) (table : DebugTable) (scriptPath : Text) (tvars : BTreeMap Text Text) :
    Except Text (List Text) :=
  if !fs.pathExists scriptPath then .error ("awk script not found: ".toList ++ debugStr table scriptPath)
  else .ok (commandLine scriptPath tvars)

/-- What the writer thread feeds to awk, for frames taken at the given instants. -/
def bridgeWriter (rfc : Rfc3339) (frames : List (HawkFrame × OffsetDateTime)) : List Text :=
  frames.map fun item => toTsvLine rfc item.1 item.2 ++ ['\n']

/-- What the reader thread sends on its two channels. -/
structure BridgeOutput where
  frames : List HawkFrame := []
  errors : List Text := []

def invalidLine : Text := "awk emitted invalid TSV line".toList

def bridgeReaderLoop (rfc : Rfc3339) : List (Option Text) → BridgeOutput
  | [] => {}
  | none :: _ => { errors := ["awk stdout read failed".toList] }
  | some line :: rest =>
    let later := bridgeReaderLoop rfc rest
    match parseTsvLine rfc line with
    | .ok (some frame) => { later with frames := frame :: later.frames }
    | .ok none => later
    | .error _ => { later with errors := invalidLine :: later.errors }

def bridgeReader (rfc : Rfc3339) (stdout : Bytes) : BridgeOutput := bridgeReaderLoop rfc (bufLines stdout)

/-- What `start_bridge` sends back for the frames, when the process turns its
input into the given output. -/
def startBridge (rfc : Rfc3339) (awk : Text → Text) (frames : List (HawkFrame × OffsetDateTime)) : BridgeOutput :=
  bridgeReader rfc (encode (awk (bridgeWriter rfc frames).flatten))

end HawkTui.Awk
