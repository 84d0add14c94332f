import HawkTui.Proofs.DoctorReport

/-! The doctor's verdict. It passes exactly when the packs load and every thread a
run could ask for has passed the scan and the smoke test. -/

namespace HawkTui.Proofs.DoctorVerdict
open Lib Text Packs Doctor PackIndex DoctorReport

section Packs
variable (fs : FileSystem) (table : DebugTable) (rfc : Rfc3339) (awk : AwkProcess)

/-- What is wrong with a pack that loads. -/
def packIssues (pack : Pack) : List Issue :=
  (if pack.threads.isEmpty then [.noThreads (join pack.rootDir "pack.toml".toList)] else []) ++
    pack.threads.flatMap fun th => scriptIssues fs table rfc awk th (join pack.rootDir th.file)

/-- The walk has found what is wrong with the packs loaded so far, and knows their threads. -/
structure Lists (found : Found) (idx : PackIndex) : Prop where
  issues : found.issues = idx.packs.flatMap (packIssues fs table rfc awk)
  seen : ∀ id : Text, id ∈ found.seen ↔ id ∈ idx.threads

/-- The thread's script is let through by the scan, and by the smoke run on the
thread's defaults if one is asked for. -/
structure Passes (opts : DoctorOptions) (th : ThreadResolved) : Prop where
  scanned : ∃ findings, securityScanAwk fs table th.scriptPath opts.security = .ok findings ∧
    ∀ finding ∈ findings, finding.severity = .warning
  smoked : opts.smoke = true → smokeTestAwk rfc awk th.scriptPath (defaultTvars th.args) = .ok ()

end Packs

section Load
variable {fs : FileSystem} {toml : Text → Except Text Manifest} {table : DebugTable} {rfc : Rfc3339} {awk : AwkProcess}
  {found : Found} {pack : Pack} {manifest : Text}

theorem findThread_loaded {threads next : BTreeMap Text ThreadResolved} {th : Thread}
    (seen : ∀ id : Text, id ∈ found.seen ↔ id ∈ threads) (present : fs.pathExists (join pack.rootDir th.file) = true)
    (loaded : addThread pack threads th = .ok next) :
    (findThread fs table rfc awk pack manifest found th).issues =
        found.issues ++ scriptIssues fs table rfc awk th (join pack.rootDir th.file) ∧
      ∀ id : Text, id ∈ (findThread fs table rfc awk pack manifest found th).seen ↔ id ∈ next := by
  obtain ⟨fresh, rfl⟩ := addThread_ok_iff.mp loaded
  have unknown : found.seen[th.id]? = none := by
    rw [← seen] at fresh
    simpa using fresh
  simp only [findThread, threadIssues, unknown, present, if_true, Option.toList_none, List.map_nil, List.append_nil]
  refine ⟨trivial, fun id => ?_⟩
  rw [BTreeMap.mem_insert_eq, BTreeMap.mem_insert_eq, seen]

theorem findThreads_loaded (rfc : Rfc3339) (awk : AwkProcess) (manifest : Text) (found : Found)
    {threads next : BTreeMap Text ThreadResolved} {ths : List Thread}
    (seen : ∀ id : Text, id ∈ found.seen ↔ id ∈ threads)
    (present : ∀ th ∈ ths, fs.pathExists (join pack.rootDir th.file) = true)
    (loaded : ths.foldlM (addThread pack) threads = .ok next) :
    (ths.foldl (findThread fs table rfc awk pack manifest) found).issues =
        found.issues ++ ths.flatMap (fun th => scriptIssues fs table rfc awk th (join pack.rootDir th.file)) ∧
      ∀ id : Text, id ∈ (ths.foldl (findThread fs table rfc awk pack manifest) found).seen ↔ id ∈ next := by
  induction ths generalizing found threads with
  | nil =>
    cases loaded
    exact ⟨by simp, seen⟩
  | cons th ths ih =>
    rw [List.foldlM_cons, Collect.bind_eq_ok] at loaded
    obtain ⟨middle, first, rest⟩ := loaded
    obtain ⟨issues, known⟩ := findThread_loaded seen (present th (by simp)) first
    have later := ih _ known (fun other member => present other (by simp [member])) rest
    rw [issues] at later
    simpa using later

theorem findPack_lists {idx next : PackIndex} {dir : Text} (lists : Lists fs table rfc awk found idx)
    (loaded : loadPack fs toml table idx dir = .ok next) :
    Lists fs table rfc awk (findPack fs toml table rfc awk found dir) next := by
  simp only [findPack, loadPack] at loaded ⊢
  split at loaded
  next missing =>
    cases loaded
    simp only [Bool.not_eq_true'] at missing
    simp only [missing, Bool.false_eq_true, if_false]
    exact lists
  next present =>
    simp only [Collect.bind_eq_ok, Collect.mapError_eq_ok] at loaded
    obtain ⟨pack, parsed, threads, indexed, result⟩ := loaded
    cases result
    simp only [Bool.not_eq_true', Bool.not_eq_false] at present
    simp only [present, if_true, parsed]
    have root := (parsePackManifest_ok parsed).1
    obtain ⟨issues, seen⟩ := findThreads_loaded rfc awk (join dir "pack.toml".toList)
      { found with issues := found.issues ++ if pack.threads.isEmpty then [.noThreads (join dir "pack.toml".toList)] else [] }
      lists.seen (PackAgreement.parsed_scripts parsed) indexed
    refine ⟨?_, seen⟩
    rw [issues, lists.issues, List.flatMap_append, List.flatMap_singleton, packIssues, root, List.append_assoc]

theorem toOption_of_mapM {entries : List (Except Text Text)} {paths : List Text} (mapped : entries.mapM id = .ok paths) :
    entries.filterMap Except.toOption = paths := by
  induction entries generalizing paths with
  | nil =>
    cases mapped
    rfl
  | cons entry entries ih =>
    rw [List.mapM_cons] at mapped
    simp only [Collect.bind_eq_ok] at mapped
    obtain ⟨path, first, rest, others, result⟩ := mapped
    cases result
    obtain rfl : entry = .ok path := first
    rw [List.filterMap_cons, ih others]
    rfl

/-- When the packs load, their scripts are all the doctor can complain about. -/
theorem issues_of_load {packsDir : Text} {idx : PackIndex} (present : fs.pathExists packsDir = true)
    (loaded : loadPacks fs toml table packsDir = .ok idx) :
    issues fs toml table rfc awk packsDir = idx.packs.flatMap (packIssues fs table rfc awk) := by
  simp only [loadPacks, present, Bool.not_true, Bool.false_eq_true, if_false, Collect.bind_eq_ok, Collect.mapError_eq_ok] at loaded
  obtain ⟨entries, listed, paths, mapped, folded⟩ := loaded
  have start : Lists fs table rfc awk ⟨[], ∅⟩ { packs := [], threads := ∅ } := ⟨rfl, by simp⟩
  have last : Lists fs table rfc awk ((sortPaths (paths.filter fs.isDir)).foldl (findPack fs toml table rfc awk) ⟨[], ∅⟩) idx := by
    apply Collect.related_of_load _ start folded
    intro found idx next dir _ lists loaded
    exact findPack_lists lists loaded
  simp only [issues, present, if_true, listed, toOption_of_mapM mapped]
  exact last.issues

end Load

section Verdict
variable {fs : FileSystem} {toml : Text → Except Text Manifest} {table : DebugTable} {rfc : Rfc3339} {awk : AwkProcess}
  {opts : DoctorOptions}

/-- None of the issues is an error under the options. -/
def Harmless (opts : DoctorOptions) (issues : List Issue) : Prop :=
  ∀ issue ∈ issues, issue.severity opts ≠ some .error

theorem harmless_append {first second : List Issue} :
    Harmless opts (first ++ second) ↔ Harmless opts first ∧ Harmless opts second :=
  List.forall_mem_append

theorem harmless_flatMap {items : List α} {found : α → List Issue} :
    Harmless opts (items.flatMap found) ↔ ∀ item ∈ items, Harmless opts (found item) := by
  simp only [Harmless, List.mem_flatMap]
  constructor
  · intro all item member issue inside
    exact all issue ⟨item, member, inside⟩
  · rintro all issue ⟨item, member, inside⟩
    exact all item member issue inside

theorem ok_report_iff {found : List Issue} : (report table opts found).ok = true ↔ Harmless opts found := by
  simp [DoctorReport.ok, report, shown, Harmless]

theorem harmless_failures {issue : Text → Issue} {result : Except Text Unit} :
    Harmless opts (failures issue result) ↔ ∀ e, result = .error e → (issue e).severity opts ≠ some .error := by
  cases result <;> simp [failures, Harmless]

theorem scanIssues_harmless (id raw : Text) (on : opts.security ≠ .off) :
    Harmless opts (scanIssues id raw) ↔ ∀ finding ∈ scanText raw opts.security, finding.severity = .warning := by
  have files : ∀ severity : FindingSeverity, severity ≠ .error ↔ severity = .warning := by
    intro severity
    cases severity <;> simp
  simp only [scanIssues, scanText, List.forall_mem_append, Harmless, List.forall_mem_map, Issue.severity,
    on, if_false, ne_eq, Option.some.injEq, deniedMessages, files, not_true_eq_false, reduceCtorEq]

theorem securityIssues_harmless (th : Thread) (scriptPath : Text) :
    Harmless opts (securityIssues fs table th scriptPath) ↔
      ∃ findings, securityScanAwk fs table scriptPath opts.security = .ok findings ∧
        ∀ finding ∈ findings, finding.severity = .warning := by
  by_cases off : opts.security = .off
  · have quiet : Harmless opts (securityIssues fs table th scriptPath) := by
      intro issue member
      simp [security_quiet off th scriptPath issue member]
    have skipped : securityScanAwk fs table scriptPath opts.security = .ok [] := by simp [securityScanAwk, off]
    exact iff_of_true quiet ⟨[], skipped, by simp⟩
  · simp only [securityScanAwk, securityIssues, if_neg off]
    cases readScript fs table scriptPath with
    | error e => simp [Harmless, Issue.severity, off, bind, Except.bind]
    | ok raw =>
      refine (scanIssues_harmless th.id raw off).trans ?_
      simp [bind, Except.bind, pure, Except.pure]

theorem smokeIssues_harmless (th : Thread) (scriptPath : Text) :
    Harmless opts (smokeIssues rfc awk th scriptPath) ↔
      (opts.smoke = true → smokeTestAwk rfc awk scriptPath (defaultTvars th.args) = .ok ()) := by
  unfold smokeIssues
  rw [harmless_failures]
  cases smokeTestAwk rfc awk scriptPath (defaultTvars th.args) with
  | error e => simp [Issue.severity]
  | ok _ => simp

/-- Style and schema are never worth more than a warning. -/
theorem scriptIssues_harmless (pack : Pack) (th : Thread) :
    Harmless opts (scriptIssues fs table rfc awk th (join pack.rootDir th.file)) ↔
      Passes fs table rfc awk opts (resolved pack th) := by
  have style : Harmless opts (styleIssues fs table th (join pack.rootDir th.file)) := by
    rw [styleIssues, harmless_failures]
    simp [Issue.severity]
  have schema : Harmless opts (schemaIssues fs table th (join pack.rootDir th.file)) := by
    simp [schemaIssues, Harmless, Issue.severity]
  rw [scriptIssues, harmless_append, harmless_append, harmless_append, securityIssues_harmless, smokeIssues_harmless]
  constructor
  · rintro ⟨⟨-, scanned⟩, smoked⟩
    exact ⟨scanned, smoked⟩
  · intro passes
    exact ⟨⟨⟨style, schema⟩, passes.scanned⟩, passes.smoked⟩

theorem packIssues_harmless (pack : Pack) :
    Harmless opts (packIssues fs table rfc awk pack) ↔
      ∀ th ∈ pack.threads, Passes fs table rfc awk opts (resolved pack th) := by
  have noted : Harmless opts (if pack.threads.isEmpty then [.noThreads (join pack.rootDir "pack.toml".toList)] else []) := by
    split <;> simp [Harmless, Issue.severity]
  simp only [packIssues, harmless_append, noted, true_and, harmless_flatMap, scriptIssues_harmless]

/-- The threads of the loaded packs are those a run can name. -/
theorem forall_resolved {idx : PackIndex} (consistent : Consistent idx) {holds : ThreadResolved → Prop} :
    (∀ pack ∈ idx.packs, ∀ th ∈ pack.threads, holds (resolved pack th)) ↔
      ∀ id th, resolveThread idx id = some th → holds th := by
  obtain ⟨map, distinct⟩ := consistent
  have listed : ∀ id th, resolveThread idx id = some th ↔ (id, th) ∈ threadEntries idx.packs := by
    intro id th
    rw [resolveThread, map, BTreeMap.getElem?_extend_eq_some_iff distinct]
  simp only [listed, threadEntries, List.mem_flatMap, List.mem_map, Prod.mk.injEq]
  constructor
  · rintro all id found ⟨pack, member, th, listed, rfl, rfl⟩
    exact all pack member th listed
  · intro all pack member th listed
    exact all th.id _ ⟨pack, member, th, listed, rfl, rfl⟩

theorem ok_of_load {packsDir : Text} {idx : PackIndex} (loaded : loadPacks fs toml table packsDir = .ok idx) :
    (runPackDoctor fs toml table rfc awk opts packsDir).ok = true ↔
      ∀ id th, resolveThread idx id = some th → Passes fs table rfc awk opts th := by
  rw [runPackDoctor_report, ok_report_iff, ← forall_resolved (loadPacks_consistent loaded)]
  cases present : fs.pathExists packsDir with
  | false =>
    simp only [loadPacks, present, Bool.not_false, if_true] at loaded
    cases loaded
    simp [issues, present, Harmless, Issue.severity]
  | true =>
    rw [issues_of_load present loaded]
    simp only [harmless_flatMap, packIssues_harmless]

end Verdict

/-- The doctor passes a readable tree exactly when the packs load and each of their
threads passes what was asked for. -/
theorem doctor_passes_iff (fs : FileSystem) (toml : Text → Except Text Manifest) (table : DebugTable) (rfc : Rfc3339)
    (awk : AwkProcess) (opts : DoctorOptions) (packsDir : Text)
    (readable : ∀ entries, fs.readDir packsDir = .ok entries → ∀ entry ∈ entries, ∃ path, entry = .ok path) :
    (runPackDoctor fs toml table rfc awk opts packsDir).ok = true ↔
      ∃ idx, loadPacks fs toml table packsDir = .ok idx ∧
        ∀ id th, resolveThread idx id = some th → Passes fs table rfc awk opts th := by
  constructor
  · intro ok
    obtain ⟨idx, loaded⟩ := PackAgreement.loads_of_ok readable ok
    exact ⟨idx, loaded, (ok_of_load loaded).mp ok⟩
  · rintro ⟨idx, loaded, passes⟩
    exact (ok_of_load loaded).mpr passes

section Sample
open PackAgreement (sampleTree sampleManifest)

theorem sampleTree_readable : ∀ entries, sampleTree.readDir "packs".toList = .ok entries →
    ∀ entry ∈ entries, ∃ path, entry = .ok path := by
  intro entries listed entry member
  cases listed
  simp only [List.mem_cons, List.not_mem_nil, or_false] at member
  rcases member with rfl | rfl
  · exact ⟨_, rfl⟩
  · exact ⟨_, rfl⟩

/-- One of the two entries is a folder. -/
theorem loadPacks_single {fs : FileSystem} {packsDir : Text} (dir file : Text) (toml : Text → Except Text Manifest)
    (table : DebugTable) (present : fs.pathExists packsDir = true) (listed : fs.readDir packsDir = .ok [.ok dir, .ok file])
    (folder : [dir, file].filter fs.isDir = [dir]) :
    loadPacks fs toml table packsDir = loadPack fs toml table { packs := [], threads := ∅ } dir := by
  have mapped : [Except.ok dir, Except.ok file].mapM id = Except.ok (ε := Text) [dir, file] := rfl
  have sorted : sortPaths [dir] = [dir] := by simp [sortPaths]
  rw [loadPacks_eq present listed mapped, folder, sorted]
  simp

theorem sampleTree_single (toml : Text → Except Text Manifest) :
    loadPacks sampleTree toml (fun _ => false) "packs".toList =
      loadPack sampleTree toml (fun _ => false) { packs := [], threads := ∅ } "packs/a".toList :=
  loadPacks_single "packs/a".toList "packs/README".toList toml _ rfl rfl (by decide)

def samplePack : Pack where
  id := "a".toList
  name := "A".toList
  version := "1".toList
  author := "me".toList
  description := []
  rootDir := "packs/a".toList
  threads := [⟨"t".toList, "T".toList, "awk".toList, "run.awk".toList, [], []⟩]

def sampleIndex : PackIndex where
  packs := [samplePack]
  threads := BTreeMap.extend ∅ (threadEntries [samplePack])

theorem sampleTree_loads :
    loadPacks sampleTree (fun _ => .ok sampleManifest) (fun _ => false) "packs".toList = .ok sampleIndex := by
  rw [sampleTree_single]
  rfl

/-- A script that awk runs without printing anything passes. -/
theorem doctor_passes_iff_one_pack :
    (runPackDoctor sampleTree (fun _ => .ok sampleManifest) (fun _ => false) ⟨fun _ => none, fun _ => none⟩
      (fun _ _ _ => .ok ([], true)) ⟨true, .strict⟩ "packs".toList).ok = true := by
  apply (doctor_passes_iff _ _ _ _ _ _ _ sampleTree_readable).mpr
  refine ⟨sampleIndex, sampleTree_loads, (forall_resolved (loadPacks_consistent sampleTree_loads)).mp ?_⟩
  intro pack listed th member
  obtain rfl := List.mem_singleton.mp listed
  obtain rfl := List.mem_singleton.mp member
  exact ⟨⟨[], rfl, by simp⟩, fun _ => rfl⟩

end Sample

end HawkTui.Proofs.DoctorVerdict
