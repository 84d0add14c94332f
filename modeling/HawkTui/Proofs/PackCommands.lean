import HawkTui.Hawk.PackCmd
import HawkTui.Lib.StableSort
import HawkTui.Proofs.DoctorVerdict
import HawkTui.Proofs.FrameCodec
import HawkTui.Proofs.Tvars

/-! The pack subcommands against a run of the mirror: what they list, show and pass
is what a run can name. -/

namespace HawkTui.Proofs.PackCommands
open Lib Text Packs Doctor PackIndex PackCmd DoctorVerdict

variable {fs : FileSystem} {toml : Text → Except Text Manifest} {table : DebugTable} {rfc : Rfc3339} {awk : AwkProcess}
  {iter : BTreeMap Text ThreadResolved → List (Text × ThreadResolved)} {packsDir : Text} {smoke : Bool} {security : Text}

theorem runDoctor_returns_iff :
    (runDoctor fs toml table rfc awk packsDir smoke security).ending = .returned (.ok ()) ↔
      ∃ mode, securityMode security = .ok mode ∧ (runPackDoctor fs toml table rfc awk ⟨smoke, mode⟩ packsDir).ok = true := by
  unfold runDoctor
  cases securityMode security with
  | error e => simp
  | ok mode =>
    simp only [Except.ok.injEq, exists_eq_left']
    split
    next passed => simp [passed]
    next failed => simp [failed]

/-- A report that does not pass has a line for each of its errors, and there is one. -/
theorem runDoctor_fails {mode : SecurityMode} (known : securityMode security = .ok mode)
    (failed : (runPackDoctor fs toml table rfc awk ⟨smoke, mode⟩ packsDir).ok = false) :
    (runDoctor fs toml table rfc awk packsDir smoke security).ending = .exit 2 ∧
      ∃ e, "FAIL\t".toList ++ e ∈ (runDoctor fs toml table rfc awk packsDir smoke security).err := by
  have errors : (runPackDoctor fs toml table rfc awk ⟨smoke, mode⟩ packsDir).errors ≠ [] := by
    intro none
    simp [DoctorReport.ok, none] at failed
  obtain ⟨e, member⟩ := List.exists_mem_of_ne_nil _ errors
  simp only [runDoctor, known, failed, Bool.false_eq_true, if_false, true_and]
  exact ⟨e, List.mem_append_right _ (List.mem_map_of_mem member)⟩

theorem doctor_returns_iff :
    (runPackCmd fs toml table rfc awk iter packsDir (.pack (.doctor smoke security))).ending = .returned (.ok ()) ↔
      (∃ idx, loadPacks fs toml table packsDir = .ok idx) ∧
        (runDoctor fs toml table rfc awk packsDir smoke security).ending = .returned (.ok ()) := by
  unfold runPackCmd
  cases loadPacks fs toml table packsDir with
  | error e => simp
  | ok idx => simp

/-- The two ways to call the doctor succeed together. Called as `pack doctor` it has
nothing to say about packs that do not load. -/
theorem doctor_commands (fs : FileSystem) (toml : Text → Except Text Manifest) (table : DebugTable) (rfc : Rfc3339)
    (awk : AwkProcess) (iter : BTreeMap Text ThreadResolved → List (Text × ThreadResolved)) (packsDir : Text)
    (smoke : Bool) (security : Text)
    (readable : ∀ entries, fs.readDir packsDir = .ok entries → ∀ entry ∈ entries, ∃ path, entry = .ok path) :
    ((runPackCmd fs toml table rfc awk iter packsDir (.pack (.doctor smoke security))).ending = .returned (.ok ()) ↔
      (runPackCmd fs toml table rfc awk iter packsDir (.packDoctor smoke security)).ending = .returned (.ok ())) ∧
    ∀ e mode, loadPacks fs toml table packsDir = .error e → securityMode security = .ok mode →
      runPackCmd fs toml table rfc awk iter packsDir (.pack (.doctor smoke security)) = { ending := .returned (.error e) } ∧
      (runPackCmd fs toml table rfc awk iter packsDir (.packDoctor smoke security)).ending = .exit 2 ∧
      ∃ message, "FAIL\t".toList ++ message ∈
        (runPackCmd fs toml table rfc awk iter packsDir (.packDoctor smoke security)).err := by
  refine ⟨?_, fun e mode unloaded known => ?_⟩
  · rw [doctor_returns_iff]
    refine ⟨fun both => both.2, fun passed => ⟨?_, passed⟩⟩
    obtain ⟨mode, -, ok⟩ := runDoctor_returns_iff.mp passed
    exact PackAgreement.loads_of_ok readable ok
  · refine ⟨by simp only [runPackCmd, unloaded], runDoctor_fails known ?_⟩
    by_contra passed
    obtain ⟨idx, loaded⟩ := PackAgreement.loads_of_ok readable (Bool.not_eq_false _ ▸ passed)
    rw [unloaded] at loaded
    cases loaded

section Sample
open PackAgreement (sampleTree sampleManifest)

/-- The sample's manifest cannot be decoded. -/
theorem doctor_commands_undecodable :
    runPackCmd sampleTree (fun _ => .error []) (fun _ => false) ⟨fun _ => none, fun _ => none⟩ (fun _ _ _ => .ok ([], true))
        Std.ExtTreeMap.toList "packs".toList (.pack (.doctor true "warn".toList)) =
      { ending := .returned (.error "parse pack \"packs/a/pack.toml\"".toList) } ∧
    (runPackCmd sampleTree (fun _ => .error []) (fun _ => false) ⟨fun _ => none, fun _ => none⟩ (fun _ _ _ => .ok ([], true))
        Std.ExtTreeMap.toList "packs".toList (.packDoctor true "warn".toList)).ending = .exit 2 := by
  have unloaded : loadPacks sampleTree (fun _ => .error []) (fun _ => false) "packs".toList =
      .error "parse pack \"packs/a/pack.toml\"".toList := by
    rw [sampleTree_single]
    rfl
  have known : securityMode "warn".toList = .ok .warn := by decide
  obtain ⟨silent, exits, -⟩ := (doctor_commands sampleTree _ _ _ _ _ _ true _ sampleTree_readable).2 _ _ unloaded known
  exact ⟨silent, exits⟩

end Sample

/-- Sorting undoes whatever order the hash map yields its entries in. -/
theorem mergeSort_entries {threads : BTreeMap Text ThreadResolved} {rows : List (Text × ThreadResolved)}
    (perm : rows.Perm threads.toList) : (rows.mergeSort fun a b => (compare a.1 b.1).isLE) = threads.toList := by
  have sorted : (rows.mergeSort fun a b => (compare a.1 b.1).isLE).Pairwise fun a b => (compare a.1 b.1).isLE = true := by
    apply List.pairwise_mergeSort
    · intro a b c
      exact Std.TransOrd.isLE_trans
    · intro a b
      exact StableSort.isLE_total a.1 b.1
  have increasing : threads.toList.Pairwise fun a b => (compare a.1 b.1).isLE = true :=
    Std.ExtTreeMap.ordered_keys_toList.imp fun below => by simp [below]
  refine List.Perm.eq_of_pairwise ?_ sorted increasing ((List.mergeSort_perm _ _).trans perm)
  intro a b left right below above
  have key : a.1 = b.1 := Std.LawfulEqOrd.compare_eq_iff_eq.mp (Std.OrientedCmp.isLE_antisymm below above)
  have first := Std.ExtTreeMap.mem_toList_iff_getElem?_eq_some.mp (perm.mem_iff.mp (List.mem_mergeSort.mp left))
  have second := Std.ExtTreeMap.mem_toList_iff_getElem?_eq_some.mp right
  rw [key, second] at first
  exact Prod.ext key (Option.some.inj first).symm

/-- The list is the same in every run: a line for each thread that can be shown, by id. -/
theorem pack_list_names (fs : FileSystem) (toml : Text → Except Text Manifest) (table : DebugTable) (rfc : Rfc3339)
    (awk : AwkProcess) (iter : BTreeMap Text ThreadResolved → List (Text × ThreadResolved)) (packsDir : Text) (idx : PackIndex)
    (loaded : loadPacks fs toml table packsDir = .ok idx) (whole : ∀ threads, (iter threads).Perm threads.toList) :
    runPackCmd fs toml table rfc awk iter packsDir (.pack .list) =
        { out := idx.threads.toList.map threadRow, ending := .returned (.ok ()) } ∧
      idx.threads.toList.Pairwise (fun a b => compare a.1 b.1 = .lt) ∧
      ∀ id, (runPackCmd fs toml table rfc awk iter packsDir (.pack (.showThread id))).ending = .returned (.ok ()) ↔
        id ∈ idx.threads.toList.map Prod.fst := by
  refine ⟨?_, Std.ExtTreeMap.ordered_keys_toList, fun id => ?_⟩
  · simp only [runPackCmd, loaded, listThreads, mergeSort_entries (whole idx.threads)]
  · simp only [runPackCmd, loaded, resolveThread, Std.ExtTreeMap.map_fst_toList_eq_keys, Std.ExtTreeMap.mem_keys]
    cases found : idx.threads[id]? with
    | none => simp [Std.ExtTreeMap.mem_iff_isSome_getElem?, found]
    | some th => simp [Std.ExtTreeMap.mem_iff_isSome_getElem?, found]

theorem selectTransform_resolves {idx : PackIndex} {cli : Main.Cli} {id : Text} {chosen : Option Main.Transform}
    (mode : Main.parseTransform (trim cli.transform) = .ok (.thread, id)) (selected : Main.selectTransform idx cli = .ok chosen)
    (bridged : chosen ≠ none) : ∃ th, resolveThread idx id = some th := by
  by_contra missing
  have unknown : resolveThread idx id = none := by
    simpa [Option.eq_none_iff_forall_ne_some] using missing
  simp only [Main.selectTransform] at selected
  split at selected
  · cases selected
    exact bridged rfl
  · obtain ⟨parsed, same, selected⟩ := Collect.bind_eq_ok.mp selected
    rw [mode] at same
    cases same
    simp only [unknown] at selected
    cases selected

section Sample
open PackAgreement (sampleTree)

/-- The sample's folder, with a script in it. -/
def scriptTree : FileSystem := { sampleTree with readToString := fun _ => .ok "NR % every == 0 { print $0 }\n".toList }

/-- Two threads on the script. -/
def pairManifest : Manifest where
  pack := ⟨"a".toList, "A".toList, "1".toList, [], []⟩
  thread := [
    ⟨"whole".toList, "Whole".toList, "awk".toList, "run.awk".toList, [], []⟩,
    ⟨"sample".toList, "Sample".toList, "awk".toList, "run.awk".toList, [],
      [⟨"every".toList, "int".toList, some (.integer 10), "lines a sample".toList⟩]⟩]

def pairPack : Pack where
  id := "a".toList
  name := "A".toList
  version := "1".toList
  author := []
  description := []
  rootDir := "packs/a".toList
  threads := [
    ⟨"whole".toList, "Whole".toList, "awk".toList, "run.awk".toList, [], []⟩,
    ⟨"sample".toList, "Sample".toList, "awk".toList, "run.awk".toList, [],
      [⟨"every".toList, .int, "10".toList, "lines a sample".toList⟩]⟩]

def pairIndex : PackIndex where
  packs := [pairPack]
  threads := BTreeMap.extend ∅ (threadEntries [pairPack])

theorem scriptTree_loads :
    loadPacks scriptTree (fun _ => .ok pairManifest) (fun _ => false) "packs".toList = .ok pairIndex := by
  rw [loadPacks_single "packs/a".toList "packs/README".toList _ _ rfl rfl (by decide)]
  rfl

/-- The threads are listed by id, not as the manifest has them or the map yields them. -/
theorem pack_list_names_two_threads :
    runPackCmd scriptTree (fun _ => .ok pairManifest) (fun _ => false)
        ⟨fun _ => none, fun _ => none⟩ (fun _ _ _ => .ok ([], true)) (fun threads => threads.toList.reverse) "packs".toList
        (.pack .list) =
      { out := ["sample\ta\tawk\tSample".toList, "whole\ta\tawk\tWhole".toList], ending := .returned (.ok ()) } := by
  have listed := (pack_list_names _ _ _ ⟨fun _ => none, fun _ => none⟩ (fun _ _ _ => .ok ([], true))
    (fun threads => threads.toList.reverse) _ _ scriptTree_loads fun threads => List.reverse_perm _).1
  exact listed

end Sample

/-- A run of a thread starts awk on the thread's script, with the merged variables. -/
theorem main_thread {cli : Main.Cli} {id : Text} {args : List Text}
    (mode : Main.parseTransform (trim cli.transform) = .ok (.thread, id))
    (started : Main.main fs toml table cli = .ok (some args)) :
    ∃ idx th, loadPacks fs toml table cli.packsDir = .ok idx ∧ resolveThread idx id = some th ∧
      args = Awk.commandLine th.scriptPath (Main.mergeTvars th.args (BTreeMap.extend ∅ cli.tvars)) := by
  simp only [Main.main, Collect.bind_eq_ok] at started
  obtain ⟨idx, loaded, chosen, selected, started⟩ := started
  cases chosen with
  | none => cases started
  | some transform =>
    obtain ⟨th, found⟩ := selectTransform_resolves mode selected (by simp)
    obtain ⟨-, rfl⟩ := (Tvars.selectTransform_thread mode found transform).mp selected
    obtain ⟨line, spawned, result⟩ := Collect.bind_eq_ok.mp started
    cases result
    refine ⟨idx, th, loaded, found, ?_⟩
    unfold Awk.spawn at spawned
    split at spawned
    · cases spawned
    · cases spawned
      rfl

/-- A run of a thread the doctor has passed starts awk on the script that passed, and
with the variables of its smoke run unless the command line gives others. -/
theorem doctor_vouches (fs : FileSystem) (toml : Text → Except Text Manifest) (table : DebugTable) (rfc : Rfc3339)
    (awk : AwkProcess) (opts : DoctorOptions) (cli : Main.Cli) (id : Text) (args : List Text)
    (ok : (runPackDoctor fs toml table rfc awk opts cli.packsDir).ok = true)
    (mode : Main.parseTransform (trim cli.transform) = .ok (.thread, id))
    (started : Main.main fs toml table cli = .ok (some args)) :
    ∃ th, Passes fs table rfc awk opts th ∧
      args = Awk.commandLine th.scriptPath (Main.mergeTvars th.args (BTreeMap.extend ∅ cli.tvars)) ∧
      (cli.tvars = [] → args = Awk.commandLine th.scriptPath (defaultTvars th.args)) := by
  obtain ⟨idx, th, loaded, found, line⟩ := main_thread mode started
  refine ⟨th, (ok_of_load loaded).mp ok id th found, line, fun bare => ?_⟩
  rw [line, bare, Main.mergeTvars, BTreeMap.extend_nil]
  rfl

/-- An awk that prints a frame for each of its variables. -/
def echoAwk : AwkProcess := fun _ tvars _ =>
  let frame (v : Text × Text) : Text := "2026-02-16T12:34:57Z\tHEALTH\ttop\tall\tok\tseen\t".toList ++ v.1 ++ '=' :: v.2 ++ ['\n']
  .ok (Utf8.encode (tvars.flatMap frame), true)

theorem smokeTestAwk_printed {scriptPath : Text} {tvars : BTreeMap Text Text} (out : Text)
    (printed : awk scriptPath tvars.toList (smokeSample.map fun line => Utf8.encode (line ++ ['\n'])).flatten =
      .ok (Utf8.encode out, true)) (valid : validateOutput rfc (lines out) = .ok ()) :
    smokeTestAwk rfc awk scriptPath tvars = .ok () := by
  rw [smokeTestAwk, printed]
  simp only [bind, Except.bind, Utf8.decode_encode, if_true, valid]

theorem scriptTree_passes : (runPackDoctor scriptTree (fun _ => .ok pairManifest) (fun _ => false) sampleClock
    echoAwk ⟨true, .strict⟩ "packs".toList).ok = true := by
  rw [ok_of_load scriptTree_loads]
  refine (forall_resolved (loadPacks_consistent scriptTree_loads)).mp ?_
  intro pack listed th member
  obtain rfl := List.mem_singleton.mp listed
  simp only [pairPack, List.mem_cons, List.not_mem_nil, or_false] at member
  rcases member with rfl | rfl
  · exact ⟨⟨[], rfl, by simp⟩, fun _ => rfl⟩
  · refine ⟨⟨[], rfl, by simp⟩, fun _ => ?_⟩
    exact smokeTestAwk_printed "2026-02-16T12:34:57Z\tHEALTH\ttop\tall\tok\tseen\tevery=10\n".toList rfl rfl

theorem doctor_vouches_strict : ∃ th,
    Passes scriptTree (fun _ => false) sampleClock echoAwk ⟨true, .strict⟩ th ∧
      ["-v".toList, "every=10".toList, "-f".toList, "packs/a/run.awk".toList] =
        Awk.commandLine th.scriptPath (defaultTvars th.args) := by
  have started : Main.main scriptTree (fun _ => .ok pairManifest) (fun _ => false)
      ⟨"packs".toList, "thread:sample".toList, []⟩ =
        .ok (some ["-v".toList, "every=10".toList, "-f".toList, "packs/a/run.awk".toList]) := by
    rw [Main.main, scriptTree_loads]
    rfl
  obtain ⟨th, passes, -, line⟩ := doctor_vouches _ _ _ _ _ ⟨true, .strict⟩ _ "sample".toList _ scriptTree_passes (by decide) started
  exact ⟨th, passes, line rfl⟩

end HawkTui.Proofs.PackCommands
