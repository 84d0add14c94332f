import HawkTui.Hawk.Awk

/-! The mirror's command line: which script runs between the source and the
screen, and with which variables. -/

namespace HawkTui.Main
open Lib Text Packs

/-- The options that choose the transform. -/
structure Cli where
  packsDir : Text
  transform : Text
  /-- The `--tvar` pairs as parsed, in the order given. -/
  tvars : List (Text × Text)

inductive TransformMode where
  | thread
  | file
  deriving DecidableEq, Repr

def parseTransform (s : Text) : Except Text (TransformMode × Text) :=
  match "thread:".toList.isPrefixOf? s with
  | some rest =>
    let t := trim rest
    if t.isEmpty then .error "empty thread id".toList else .ok (.thread, t)
  | none => match "file:".toList.isPrefixOf? s with
    | some rest =>
      let p := trim rest
      if p.isEmpty then .error "empty file path".toList else .ok (.file, p)
    | none => .error "transform must be none, thread:<id>, or file:<path>".toList

def mergeTvars (args : List ArgSpec) (tvars : BTreeMap Text Text) : BTreeMap Text Text :=
  BTreeMap.extend (defaultTvars args) tvars.toList

structure Transform where
  scriptPath : Text
  tvars : BTreeMap Text Text
  deriving DecidableEq

/-- The choice of the transform in `main`; without one the source goes straight
to the screen. -/
def selectTransform (idx : PackIndex) (cli : Cli) : Except Text (Option Transform) :=
  let transform := trim cli.transform
  if transform = "none".toList then .ok none
  else do
    let tvars := BTreeMap.extend ∅ cli.tvars
    match ← parseTransform transform with
    | (.thread, target) => match resolveThread idx target with
      | none => .error ("thread not found: ".toList ++ target)
      | some th =>
        let merged := mergeTvars th.args tvars
        validateTvars th.args merged
        return some { scriptPath := th.scriptPath, tvars := merged }
    | (.file, target) => return some { scriptPath := target, tvars }

/-- `main` up to the start of awk, whose arguments it returns. -/
def main (fs : FileSystem) (toml : Text → Except Text Manifest) (table : DebugTable) (cli : Cli) :
    Except Text (Option (List Text)) := do
  let idx ← loadPacks fs toml table cli.packsDir
  match ← selectTransform idx cli with
  | none => return none
  | some transform =>
    let args ← Awk.spawn fs table transform.scriptPath transform.tvars
    return some args

end HawkTui.Main
