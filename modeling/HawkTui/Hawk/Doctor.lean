import HawkTui.Hawk.Packs
import HawkTui.Lib.Utf8

/-! The pack doctor: structure and style of every pack, a security scan of the
scripts and a smoke run of awk. The awk process is a parameter. -/

namespace HawkTui.Doctor
open Lib Text Utf8 HawkFrame Packs

inductive SecurityMode where
  | strict
  | warn
  | off
  deriving DecidableEq, Repr

structure DoctorOptions where
  smoke : Bool
  security : SecurityMode

structure DoctorReport where
  errors : List Text := []
  warnings : List Text := []

def DoctorReport.ok (rep : DoctorReport) : Bool := rep.errors.isEmpty

def DoctorReport.error (rep : DoctorReport) (message : Text) : DoctorReport :=
  { rep with errors := rep.errors ++ [message] }

def DoctorReport.warning (rep : DoctorReport) (message : Text) : DoctorReport :=
  { rep with warnings := rep.warnings ++ [message] }

inductive FindingSeverity where
  | error
  | warning
  deriving DecidableEq, Repr

structure SecurityFinding where
  severity : FindingSeverity
  message : Text
  deriving DecidableEq

def header : Text := "▛▞//".toList

def terminator : Text := "# :: ∎".toList

def checkHeaderAndTerminator (raw : Text) : Except Text Unit :=
  if !((lines raw).take 20).any (contains header) then .error "missing ▛▞// header in first 20 lines".toList
  else
    let last := (lines raw).foldl (fun last line => if (trim line).isEmpty then last else trim line) []
    if last ≠ terminator then .error "missing terminator '# :: ∎' as last non-empty line".toList else .ok ()

def isIdentChar (b : UInt8) : Bool :=
  let n := b.toNat
  (48 ≤ n && n ≤ 57) || (65 ≤ n && n ≤ 90) || (97 ≤ n && n ≤ 122) || n == 95

/-- The scan of one line's bytes for the needle between word boundaries; `before`
is the byte just passed. -/
def findWord (needle : Bytes) : Option UInt8 → Bytes → Bool
  | _, [] => false
  | before, b :: rest =>
    if needle.isPrefixOf (b :: rest) && !before.any isIdentChar &&
        !((b :: rest).drop needle.length).head?.any isIdentChar then true
    else findWord needle (some b) rest

def isComment (t : Text) : Bool := startsWith ['#'] t

def containsWord (hay needle : Text) : Bool :=
  !needle.isEmpty && (lines hay).any fun line =>
    !isComment (trim line) && findWord (encode needle) none (encode (trim line))

/-- How the byte loop of `contains_word` can fail to answer. -/
inductive Halt where
  | outOfBounds
  | outOfFuel
  deriving DecidableEq, Repr

/-- `&bytes[i..j]`. -/
def slice (bytes : Bytes) (i j : Nat) : Except Halt Bytes :=
  if i ≤ j ∧ j ≤ bytes.length then .ok ((bytes.take j).drop i) else .error .outOfBounds

/-- `bytes[i]`. -/
def byteAt (bytes : Bytes) (i : Nat) : Except Halt UInt8 :=
  match bytes[i]? with
  | some b => .ok b
  | none => .error .outOfBounds

def leftOk (bytes : Bytes) (i : Nat) : Except Halt Bool :=
  if i = 0 then .ok true else (byteAt bytes (i - 1)).map fun b => !isIdentChar b

def rightOk (bytes : Bytes) (i : Nat) : Except Halt Bool :=
  if i = bytes.length then .ok true else (byteAt bytes i).map fun b => !isIdentChar b

/-- The loop as it is written, from the index on and with its accesses checked. -/
def wordLoop (bytes n : Bytes) : Nat → Nat → Except Halt Bool
  | 0, _ => .error .outOfFuel
  | fuel + 1, i =>
    if i + n.length ≤ bytes.length then do
      let window ← slice bytes i (i + n.length)
      if window = n then do
        let left ← leftOk bytes i
        let right ← rightOk bytes (i + n.length)
        if left && right then return true else wordLoop bytes n fuel (i + 1)
      else wordLoop bytes n fuel (i + 1)
    else return false

def wordLines (fuel : Nat) (n : Bytes) : List Text → Except Halt Bool
  | [] => return false
  | line :: rest =>
    let t := trim line
    if isComment t then wordLines fuel n rest
    else if (encode t).length < n.length then wordLines fuel n rest
    else do
      if ← wordLoop (encode t) n fuel 0 then return true else wordLines fuel n rest

/-- `contains_word`, where each line's loop may take so many turns. -/
def runContainsWord (fuel : Nat) (hay needle : Text) : Except Halt Bool :=
  if needle.isEmpty then return false else wordLines fuel (encode needle) (lines hay)

def unusedArgs (raw : Text) (args : List ArgSpec) : List Text :=
  (args.filter fun a => !containsWord raw a.name).map fun a =>
    "declared arg '".toList ++ a.name ++ "' is never referenced".toList

def systemMessage : Text := "command execution via system() is not allowed".toList

def getlinePipeMessage : Text := "command pipe into getline is not allowed".toList

def outputPipeMessage : Text := "piping output to a command is not allowed".toList

def redirectMessage : Text := "file redirection is not allowed (only stderr debug is allowed)".toList

def getlineFileMessage : Text :=
  "getline file input detected, treat as high risk unless explicitly allowed".toList

def deniedBy (t : Text) : List Text :=
  let has (needle : String) : Bool := contains needle.toList t
  (if has "system(" then [systemMessage] else []) ++
  (if has "| getline" || has "|getline" then [getlinePipeMessage] else []) ++
  (if (has "print" || has "printf") && (has "|\"" || has "| \"") then [outputPipeMessage] else []) ++
  (if (has "print" || has "printf") && (has ">>" || has ">") && !(has "/dev/stderr" || has "/dev/fd/2") then
    [redirectMessage] else [])

def readsFile (t : Text) : Bool := contains "getline <".toList t || contains "getline<".toList t

/-- The lines the scan looks at, trimmed. -/
def scannedLines (raw : Text) : List Text :=
  ((lines raw).map trim).filter fun t => !t.isEmpty && !isComment t

def fileSeverity : SecurityMode → FindingSeverity
  | .strict => .error
  | .warn => .warning
  | .off => .warning

/-- The scan of a script's text: file inputs line by line, then each denial once,
in the order of the message texts. -/
def scanText (raw : Text) (mode : SecurityMode) : List SecurityFinding :=
  let findings := ((scannedLines raw).filter readsFile).map fun _ =>
    { severity := fileSeverity mode, message := getlineFileMessage }
  let seen : BTreeMap Text Unit :=
    BTreeMap.extend ∅ (((scannedLines raw).flatMap deniedBy).map fun message => (message, ()))
  findings ++ seen.keys.map fun message => { severity := .error, message }

/-- The awk process: the messages of a failed spawn or write, or what it printed
and whether it exited with success. -/
abbrev AwkProcess := Text → List (Text × Text) → Bytes → Except Text (Bytes × Bool)

def smokeSample : List Text :=
  ["2026-02-16T00:00:00Z\tHEALTH\tsystemd\tspine.hawkd\tok\tactive\tunit=hawkd.service".toList,
    "2026-02-16T00:00:01Z\tHEALTH\tgrpc\tproto.alpha\tfail\tNOT_SERVING\tendpoint=svc:443;service=;error=x".toList,
    "2026-02-16T00:00:02Z\tRECEIPT_EVENT\thawkd\tingest\twarn\tingest parse error\terror=bad;raw=clip".toList]

/-- The loop of `smoke_test_awk` over the lines awk printed. -/
def validateOutput (rfc : Rfc3339) : List Text → Except Text Unit
  | [] => .ok ()
  | line :: rest =>
    let t := trim line
    if t.isEmpty || isComment t then validateOutput rfc rest
    else match parseTsvLine rfc t with
      | .ok _ => validateOutput rfc rest
      | .error _ => .error ("invalid output line (not HawkFrame TSV): ".toList ++ t)

def smokeTestAwk (rfc : Rfc3339) (awk : AwkProcess) (scriptPath : Text) (tvars : BTreeMap Text Text) :
    Except Text Unit := do
  let (stdout, success) ← awk scriptPath tvars.toList (smokeSample.map fun line => encode (line ++ ['\n'])).flatten
  match decode stdout with
  | none => .error "read stdout: stream did not contain valid UTF-8".toList
  | some out => if success then validateOutput rfc (lines out) else .error "awk exited nonzero".toList

section
variable (fs : FileSystem) (toml : Text → Except Text Manifest) (table : DebugTable) (rfc : Rfc3339) (awk : AwkProcess)
  (opts : DoctorOptions)

def readScript (scriptPath : Text) : Except Text Text :=
  (fs.readToString scriptPath).mapError fun e => "read ".toList ++ debugStr table scriptPath ++ ": ".toList ++ e

def scanDeclaredArgUsage (scriptPath : Text) (args : List ArgSpec) : List Text :=
  if args.isEmpty then []
  else match readScript fs table scriptPath with
    | .error e => [e]
    | .ok raw => unusedArgs raw args

def securityScanAwk (scriptPath : Text) (mode : SecurityMode) : Except Text (List SecurityFinding) :=
  if mode = .off then .ok []
  else do
    let raw ← readScript fs table scriptPath
    return scanText raw mode

def threadMessage (id : Text) (topic : String) (e : Text) : Text :=
  "thread '".toList ++ id ++ "' ".toList ++ topic.toList ++ ": ".toList ++ e

def addFinding (id : Text) (rep : DoctorReport) (f : SecurityFinding) : DoctorReport :=
  match f.severity with
  | .error => rep.error (threadMessage id "security" f.message)
  | .warning => rep.warning (threadMessage id "security" f.message)

def checkScript (rep : DoctorReport) (th : Thread) (scriptPath : Text) : DoctorReport :=
  let rep := match readScript fs table scriptPath >>= checkHeaderAndTerminator with
    | .error e => rep.warning (threadMessage th.id "style" e)
    | .ok _ => rep
  let rep := (scanDeclaredArgUsage fs table scriptPath th.args).foldl
    (fun rep w => rep.warning (threadMessage th.id "schema" w)) rep
  let rep := match securityScanAwk fs table scriptPath opts.security with
    | .ok findings => findings.foldl (addFinding th.id) rep
    | .error e => rep.error (threadMessage th.id "security scan failed" e)
  if opts.smoke then
    match smokeTestAwk rfc awk scriptPath (defaultTvars th.args) with
    | .error e => rep.error (threadMessage th.id "smoke" e)
    | .ok _ => rep
  else rep

/-- The report so far, and the thread ids seen with their manifests. -/
structure Walk where
  rep : DoctorReport
  seen : BTreeMap Text Text

def checkThread (pack : Pack) (manifest : Text) (walk : Walk) (th : Thread) : Walk :=
  let walk := match walk.seen[th.id]? with
    | some prev => { walk with rep := walk.rep.error ("thread id collision '".toList ++ th.id ++ "' between ".toList ++
        debugStr table prev ++ " and ".toList ++ debugStr table manifest) }
    | none => { walk with seen := walk.seen.insert th.id manifest }
  let scriptPath := join pack.rootDir th.file
  if !fs.pathExists scriptPath then
    { walk with rep := walk.rep.error ("thread '".toList ++ th.id ++ "' missing file ".toList ++
        debugStr table scriptPath) }
  else { walk with rep := checkScript fs table rfc awk opts walk.rep th scriptPath }

def checkPack (walk : Walk) (packDir : Text) : Walk :=
  let manifest := join packDir "pack.toml".toList
  if !fs.pathExists manifest then walk
  else match parsePackManifest fs toml table packDir manifest with
    | .error e => { walk with rep := walk.rep.error ("pack parse failed ".toList ++ debugStr table manifest ++
        ": ".toList ++ e) }
    | .ok pack =>
      let walk := if pack.threads.isEmpty then
          { walk with rep := walk.rep.warning ("pack ".toList ++ debugStr table manifest ++ " has zero threads".toList) }
        else walk
      pack.threads.foldl (checkThread fs table rfc awk opts pack manifest) walk

def runPackDoctor (packsDir : Text) : DoctorReport :=
  if !fs.pathExists packsDir then ({} : DoctorReport).warning ("packs dir missing: ".toList ++ debugStr table packsDir)
  else match fs.readDir packsDir with
    | .error e => ({} : DoctorReport).error ("cannot read packs dir ".toList ++ debugStr table packsDir ++ ": ".toList ++ e)
    | .ok entries =>
      -- entries that cannot be read are passed over
      let paths := entries.filterMap Except.toOption
      ((sortPaths (paths.filter fs.isDir)).foldl (checkPack fs toml table rfc awk opts) ⟨{}, ∅⟩).rep

end

end HawkTui.Doctor
