import HawkTui.Hawk.Doctor
import HawkTui.Hawk.Main

/-! The pack subcommands, which print and never open the screen. -/

namespace HawkTui.PackCmd
open Lib Text Packs Doctor

inductive PackCommand where
  | list
  /-- `show` -/
  | showThread (threadId : Text)
  | doctor (smoke : Bool) (security : Text)

inductive Command where
  | pack (cmd : PackCommand)
  | packDoctor (smoke : Bool) (security : Text)

/-- A command returns to `main`, or ends the process by itself. -/
inductive Ending where
  | returned (result : Except Text Unit)
  | exit (code : Nat)

/-- The lines on the two streams, and the end. -/
structure Printed where
  out : List Text := []
  err : List Text := []
  ending : Ending

def threadRow (row : Text × ThreadResolved) : Text :=
  row.1 ++ '\t' :: row.2.packId ++ '\t' :: row.2.kind ++ '\t' :: row.2.title

def listThreads (rows : List (Text × ThreadResolved)) : List Text :=
  (rows.mergeSort fun a b => (compare a.1 b.1).isLE).map threadRow

def argTypeText : ArgType → Text
  | .string => "string".toList
  | .int => "int".toList
  | .bool => "bool".toList

def argLine (a : ArgSpec) : Text :=
  "  - ".toList ++ a.name ++ " (".toList ++ argTypeText a.ty ++ ") default=".toList ++ a.default ++ " :: ".toList ++ a.help

def securityMode (security : Text) : Except Text SecurityMode :=
  if security = "strict".toList then .ok .strict
  else if security = "warn".toList then .ok .warn
  else if security = "off".toList then .ok .off
  else .error ("unknown security mode '".toList ++ security ++ "', expected strict|warn|off".toList)

section
variable (fs : FileSystem) (toml : Text → Except Text Manifest) (table : DebugTable) (rfc : Rfc3339) (awk : AwkProcess)
  /- The order in which a hash map yields its entries. -/
  (iter : BTreeMap Text ThreadResolved → List (Text × ThreadResolved)) (packsDir : Text)

def describe (th : ThreadResolved) : List Text :=
  ["id: ".toList ++ th.threadId, "pack: ".toList ++ th.packId, "kind: ".toList ++ th.kind, "title: ".toList ++ th.title,
    "desc: ".toList ++ th.description, "script: ".toList ++ debugStr table th.scriptPath] ++
  if th.args.isEmpty then ["args: none".toList] else "args:".toList :: th.args.map argLine

def runDoctor (smoke : Bool) (security : Text) : Printed :=
  match securityMode security with
  | .error e => { ending := .returned (.error e) }
  | .ok mode =>
    let rep := runPackDoctor fs toml table rfc awk ⟨smoke, mode⟩ packsDir
    let err := rep.warnings.map ("WARN\t".toList ++ ·) ++ rep.errors.map ("FAIL\t".toList ++ ·)
    if rep.ok then { out := ["OK\tpack doctor passed".toList], err, ending := .returned (.ok ()) }
    else { err, ending := .exit 2 }

def runPackCmd : Command → Printed
  | .pack cmd =>
    -- the packs are loaded before the command is looked at
    match loadPacks fs toml table packsDir with
    | .error e => { ending := .returned (.error e) }
    | .ok idx => match cmd with
      | .list => { out := listThreads (iter idx.threads), ending := .returned (.ok ()) }
      | .showThread threadId => match resolveThread idx threadId with
        | none => { ending := .returned (.error ("thread not found: ".toList ++ threadId)) }
        | some th => { out := describe table th, ending := .returned (.ok ()) }
      | .doctor smoke security => runDoctor fs toml table rfc awk packsDir smoke security
  | .packDoctor smoke security => runDoctor fs toml table rfc awk packsDir smoke security

end

end HawkTui.PackCmd
