import HawkTui.Core.Debug
import HawkTui.Lib.Numbers
import HawkTui.Lib.Paths

/-! Thread packs: a directory with one folder for each pack, described by its
`pack.toml`. The file system and the TOML decoder are parameters. -/

namespace HawkTui.Packs
open Lib Text Numbers Paths

/-- `PathBuf::join`. -/
def join (dir file : Text) : Text :=
  if isAbsolute file then file
  else if dir.isEmpty ∨ dir.getLast? = some '/' then dir ++ file
  else dir ++ '/' :: file

/-- What the program asks of the file system, which does not change meanwhile. -/
structure FileSystem where
  pathExists : Text → Bool
  isDir : Text → Bool
  /-- The entries of a directory in no fixed order, each of which may fail. -/
  readDir : Text → Except Text (List (Except Text Text))
  readToString : Text → Except Text Text

inductive ArgType where
  | string
  | int
  | bool
  deriving DecidableEq, Repr

structure ArgSpec where
  name : Text
  ty : ArgType
  default : Text
  help : Text
  deriving DecidableEq

structure Thread where
  id : Text
  title : Text
  kind : Text
  file : Text
  description : Text
  args : List ArgSpec

structure Pack where
  id : Text
  name : Text
  version : Text
  author : Text
  description : Text
  rootDir : Text
  threads : List Thread

structure ThreadResolved where
  packId : Text
  threadId : Text
  title : Text
  kind : Text
  description : Text
  scriptPath : Text
  args : List ArgSpec

structure PackIndex where
  packs : List Pack
  threads : BTreeMap Text ThreadResolved

/-- A decoded TOML value. Floats and compound values come as their display text. -/
inductive TomlValue where
  | string (s : Text)
  | integer (n : Int)
  | float (shown : Text)
  | boolean (b : Bool)
  | other (shown : Text)

structure ManifestArg where
  name : Text
  ty : Text
  default : Option TomlValue
  help : Text

structure ManifestThread where
  id : Text
  title : Text
  kind : Text
  file : Text
  description : Text
  arg : List ManifestArg

structure ManifestPack where
  id : Text
  name : Text
  version : Text
  author : Text
  description : Text

structure Manifest where
  pack : ManifestPack
  thread : List ManifestThread

def parseArgType (s : Text) : Except Text ArgType :=
  let ty := toAsciiLowercase (trim s)
  if ty = "string".toList then .ok .string
  else if ty = "int".toList then .ok .int
  else if ty = "bool".toList then .ok .bool
  else .error ("unknown arg type: ".toList ++ s)

def isBoolText (s : Text) : Bool :=
  let vv := toAsciiLowercase s
  vv = "true".toList || vv = "false".toList || vv = "1".toList || vv = "0".toList

def validateArgDefault (spec : ArgSpec) : Except Text Unit :=
  match spec.ty with
  | .string => .ok ()
  | .int =>
    if (trim spec.default).isEmpty || (parseI64 spec.default).isSome then .ok ()
    else .error ("default expects int, got ".toList ++ spec.default)
  | .bool =>
    if spec.default.isEmpty || isBoolText spec.default then .ok ()
    else .error ("default expects bool, got ".toList ++ spec.default)

def tomlValueToString : Option TomlValue → Text
  | some (.string s) => s
  | some (.integer n) => i64ToText n
  | some (.float shown) => shown
  | some (.boolean b) => if b then "true".toList else "false".toList
  | some (.other shown) => shown
  | none => []

/-- A script path has to stay inside its pack. -/
def ensureSafeRelPath (file : Text) : Except Text Unit :=
  if isAbsolute file then .error "absolute paths are not allowed".toList
  else if .parentDir ∈ components file then .error "parent dir '..' is not allowed".toList
  else .ok ()

section
variable (fs : FileSystem) (toml : Text → Except Text Manifest) (table : DebugTable)

def parseArg (threadId : Text) (a : ManifestArg) : Except Text ArgSpec := do
  let context (e : Text) : Text := "thread ".toList ++ threadId ++ " arg ".toList ++ a.name ++ ": ".toList ++ e
  let ty ← (parseArgType a.ty).mapError context
  let spec : ArgSpec := { name := a.name, ty, default := tomlValueToString a.default, help := a.help }
  (validateArgDefault spec).mapError context
  return spec

def parseThread (packDir : Text) (t : ManifestThread) : Except Text Thread := do
  (ensureSafeRelPath t.file).mapError fun e => "thread ".toList ++ t.id ++ " file path unsafe: ".toList ++ e
  let scriptPath := join packDir t.file
  if (trim t.id).isEmpty then .error "thread id cannot be empty".toList
  else if (trim t.kind).isEmpty then .error ("thread ".toList ++ t.id ++ " kind cannot be empty".toList)
  else if !fs.pathExists scriptPath then
    .error ("thread ".toList ++ t.id ++ " references missing file ".toList ++ debugStr table scriptPath)
  else do
    let args ← t.arg.mapM (parseArg t.id)
    return { id := t.id, title := t.title, kind := t.kind, file := t.file, description := t.description, args }

def parsePackManifest (packDir manifestPath : Text) : Except Text Pack := do
  let raw ← (fs.readToString manifestPath).mapError fun _ => "read manifest ".toList ++ debugStr table manifestPath
  let man ← (toml raw).mapError fun _ => "toml deserialize".toList
  let threads ← man.thread.mapM (parseThread fs table packDir)
  return {
    id := man.pack.id
    name := man.pack.name
    version := man.pack.version
    author := man.pack.author
    description := man.pack.description
    rootDir := packDir
    threads }

def resolved (pack : Pack) (th : Thread) : ThreadResolved where
  packId := pack.id
  threadId := th.id
  title := th.title
  kind := th.kind
  description := th.description
  scriptPath := join pack.rootDir th.file
  args := th.args

def addThread (pack : Pack) (threads : BTreeMap Text ThreadResolved) (th : Thread) :
    Except Text (BTreeMap Text ThreadResolved) :=
  if th.id ∈ threads then .error ("thread id collision: ".toList ++ th.id)
  else .ok (threads.insert th.id (resolved pack th))

/-- One turn of the loop over the pack folders. -/
def loadPack (idx : PackIndex) (dir : Text) : Except Text PackIndex :=
  let manifestPath := join dir "pack.toml".toList
  if !fs.pathExists manifestPath then .ok idx
  else do
    let pack ← (parsePackManifest fs toml table dir manifestPath).mapError fun _ =>
      "parse pack ".toList ++ debugStr table manifestPath
    let threads ← pack.threads.foldlM (addThread pack) idx.threads
    return { packs := idx.packs ++ [pack], threads }

/-- Paths are ordered by their components. -/
def sortPaths (paths : List Text) : List Text :=
  paths.mergeSort fun a b => (compare (a.splitOn '/') (b.splitOn '/')).isLE

def loadPacks (packsDir : Text) : Except Text PackIndex :=
  let idx : PackIndex := { packs := [], threads := ∅ }
  if !fs.pathExists packsDir then .ok idx
  else do
    let entries ← (fs.readDir packsDir).mapError fun _ => "read packs dir ".toList ++ debugStr table packsDir
    let paths ← entries.mapM id
    (sortPaths (paths.filter fs.isDir)).foldlM (loadPack fs toml table) idx

end

def resolveThread (idx : PackIndex) (threadId : Text) : Option ThreadResolved := idx.threads[threadId]?

/-- The last spec of a name counts. -/
def allowedArgs (args : List ArgSpec) : BTreeMap Text ArgSpec :=
  BTreeMap.extend ∅ (args.map fun a => (a.name, a))

def validateTvar (args : List ArgSpec) (k v : Text) : Except Text Unit :=
  match (allowedArgs args)[k]? with
  | none => .error ("unknown tvar: ".toList ++ k)
  | some spec => match spec.ty with
    | .string => .ok ()
    | .int =>
      if (parseI64 v).isSome then .ok ()
      else .error ("tvar ".toList ++ k ++ " expects int, got ".toList ++ v)
    | .bool =>
      if isBoolText v then .ok ()
      else .error ("tvar ".toList ++ k ++ " expects bool, got ".toList ++ v)

def validateTvars (args : List ArgSpec) (tvars : BTreeMap Text Text) : Except Text Unit :=
  tvars.toList.forM fun entry => validateTvar args entry.1 entry.2

def defaultTvars (args : List ArgSpec) : BTreeMap Text Text :=
  BTreeMap.extend ∅ (args.map fun a => (a.name, a.default))

end HawkTui.Packs
