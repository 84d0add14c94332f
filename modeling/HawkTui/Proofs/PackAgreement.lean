import HawkTui.Hawk.Doctor
import HawkTui.Proofs.PackIndex

/-! The doctor against the loader. One collects errors and goes on, the other
bails at the first, and both keep the set of thread ids seen so far. -/

namespace HawkTui.Proofs.PackAgreement
open Lib Text Packs Doctor PackIndex

variable {fs : FileSystem} {toml : Text → Except Text Manifest} {table : DebugTable} {rfc : Rfc3339} {awk : AwkProcess}
  {opts : DoctorOptions}

/-- Structure alone: no smoke run and no security scan. -/
def structureOnly : DoctorOptions := ⟨false, .off⟩

def NoErrors (rep : DoctorReport) : Prop := rep.errors = []

def Faultless (walk : Walk) : Prop := NoErrors walk.rep

/-- The doctor has no complaint and knows the ids the loader has indexed. -/
structure Tracks (walk : Walk) (threads : BTreeMap Text ThreadResolved) : Prop where
  clean : Faultless walk
  seen : ∀ id : Text, id ∈ walk.seen ↔ id ∈ threads

def TracksIndex (walk : Walk) (idx : PackIndex) : Prop := Tracks walk idx.threads

section Report
variable {rep : DoctorReport}

private theorem not_noErrors_error (message : Text) : ¬ NoErrors (rep.error message) := by
  simp [NoErrors, DoctorReport.error]

private theorem foldl_warnings (f : Text → Text) (ws : List Text) :
    NoErrors (ws.foldl (fun rep w => rep.warning (f w)) rep) ↔ NoErrors rep := by
  induction ws generalizing rep with
  | nil => exact Iff.rfl
  | cons w ws ih => exact ih

private theorem addFinding_keeps (id : Text) (rep : DoctorReport) (f : SecurityFinding)
    (clean : NoErrors (addFinding id rep f)) : NoErrors rep := by
  unfold addFinding at clean
  split at clean
  · exact absurd clean (not_noErrors_error _)
  · exact clean

private theorem smoke_keeps (th : Thread) (scriptPath : Text)
    (clean : NoErrors (if opts.smoke then
      match smokeTestAwk rfc awk scriptPath (defaultTvars th.args) with
      | .error e => rep.error (threadMessage th.id "smoke" e)
      | .ok _ => rep
      else rep)) : NoErrors rep := by
  split at clean
  · split at clean
    · exact absurd clean (not_noErrors_error _)
    · exact clean
  · exact clean

private theorem scan_keeps (th : Thread) (scriptPath : Text)
    (clean : NoErrors (match securityScanAwk fs table scriptPath opts.security with
      | .ok findings => findings.foldl (addFinding th.id) rep
      | .error e => rep.error (threadMessage th.id "security scan failed" e))) : NoErrors rep := by
  split at clean
  · exact Collect.clean_of_foldl (addFinding_keeps th.id) clean
  · exact absurd clean (not_noErrors_error _)

private theorem checkScript_keeps (th : Thread) (scriptPath : Text)
    (clean : NoErrors (checkScript fs table rfc awk opts rep th scriptPath)) : NoErrors rep := by
  have styled := (foldl_warnings _ _).mp (scan_keeps th scriptPath (smoke_keeps th scriptPath clean))
  split at styled
  · exact styled
  · exact styled

private theorem checkScript_structureOnly (th : Thread) (scriptPath : Text) (clean : NoErrors rep) :
    NoErrors (checkScript fs table rfc awk structureOnly rep th scriptPath) := by
  simp only [checkScript, structureOnly, securityScanAwk, ↓reduceIte, List.foldl_nil, Bool.false_eq_true]
  rw [foldl_warnings]
  split
  · exact clean
  · exact clean

end Report

section Thread
variable {pack : Pack} {manifest : Text} {walk : Walk} {threads : BTreeMap Text ThreadResolved} {th : Thread}

private theorem seen_checkThread (id : Text) :
    id ∈ (checkThread fs table rfc awk opts pack manifest walk th).seen ↔ id = th.id ∨ id ∈ walk.seen := by
  cases found : walk.seen[th.id]? with
  | some prev =>
    have noted : (checkThread fs table rfc awk opts pack manifest walk th).seen = walk.seen := by
      simp only [checkThread, found]
      split <;> rfl
    rw [noted]
    have member : th.id ∈ walk.seen := by rw [Std.ExtTreeMap.mem_iff_isSome_getElem?, found]; rfl
    constructor
    · exact Or.inr
    · intro either
      rcases either with rfl | before
      · exact member
      · exact before
  | none =>
    have noted : (checkThread fs table rfc awk opts pack manifest walk th).seen = walk.seen.insert th.id manifest := by
      simp only [checkThread, found]
      split <;> rfl
    rw [noted]
    exact BTreeMap.mem_insert_eq _ _ _ _

private theorem checkThread_clean (clean : Faultless (checkThread fs table rfc awk opts pack manifest walk th)) :
    Faultless walk ∧ th.id ∉ walk.seen := by
  simp only [Faultless, checkThread] at clean
  split at clean
  · exact absurd clean (not_noErrors_error _)
  · have before := checkScript_keeps _ _ clean
    cases found : walk.seen[th.id]? with
    | some prev =>
      rw [found] at before
      exact absurd before (not_noErrors_error _)
    | none =>
      rw [found] at before
      refine ⟨before, fun member => ?_⟩
      rw [Std.ExtTreeMap.mem_iff_isSome_getElem?, found] at member
      cases member

private theorem checkThread_structureOnly (clean : Faultless walk) (fresh : th.id ∉ walk.seen)
    (present : fs.pathExists (join pack.rootDir th.file) = true) :
    Faultless (checkThread fs table rfc awk structureOnly pack manifest walk th) := by
  have found : walk.seen[th.id]? = none := by
    rw [← Option.not_isSome_iff_eq_none, ← Std.ExtTreeMap.mem_iff_isSome_getElem?]
    exact fresh
  simp only [Faultless, checkThread, found, present, Bool.not_true, Bool.false_eq_true, ↓reduceIte]
  exact checkScript_structureOnly _ _ clean

private theorem Tracks.insert {next : Walk} (tracks : Tracks walk threads) (clean : Faultless next)
    (seen : ∀ id : Text, id ∈ next.seen ↔ id = th.id ∨ id ∈ walk.seen) :
    Tracks next (threads.insert th.id (resolved pack th)) := by
  refine ⟨clean, fun id => ?_⟩
  rw [seen, tracks.seen, BTreeMap.mem_insert_eq]

theorem load_thread (tracks : Tracks walk threads)
    (clean : Faultless (checkThread fs table rfc awk opts pack manifest walk th)) :
    ∃ next, addThread pack threads th = .ok next ∧
      Tracks (checkThread fs table rfc awk opts pack manifest walk th) next := by
  have fresh := (checkThread_clean clean).2
  rw [tracks.seen] at fresh
  exact ⟨_, addThread_ok_iff.mpr ⟨fresh, rfl⟩, tracks.insert clean seen_checkThread⟩

theorem check_thread {next : BTreeMap Text ThreadResolved} (tracks : Tracks walk threads)
    (present : fs.pathExists (join pack.rootDir th.file) = true) (loaded : addThread pack threads th = .ok next) :
    Tracks (checkThread fs table rfc awk structureOnly pack manifest walk th) next := by
  obtain ⟨fresh, rfl⟩ := addThread_ok_iff.mp loaded
  rw [← tracks.seen] at fresh
  exact tracks.insert (checkThread_structureOnly tracks.clean fresh present) seen_checkThread

end Thread

theorem parsed_scripts {packDir manifestPath : Text} {pack : Pack}
    (parsed : parsePackManifest fs toml table packDir manifestPath = .ok pack) :
    ∀ th ∈ pack.threads, fs.pathExists (join pack.rootDir th.file) = true := by
  obtain ⟨root, threads⟩ := parsePackManifest_ok parsed
  intro th member
  obtain ⟨t, thread⟩ := threads th member
  obtain ⟨-, -, -, found, args, -, rfl⟩ := parseThread_ok thread
  rw [root]
  exact found

section Pack
variable {walk : Walk} {idx : PackIndex} {dir : Text}

private theorem checkThread_keeps (pack : Pack) (manifest : Text) (walk : Walk) (th : Thread)
    (clean : Faultless (checkThread fs table rfc awk opts pack manifest walk th)) : Faultless walk :=
  (checkThread_clean clean).1

/-- The note on a pack without threads is no error. -/
private theorem Tracks.noted {threads : BTreeMap Text ThreadResolved} (tracks : Tracks walk threads) (pack : Pack)
    (message : Text) :
    Tracks (if pack.threads.isEmpty then { walk with rep := walk.rep.warning message } else walk) threads := by
  split
  · exact ⟨tracks.clean, tracks.seen⟩
  · exact tracks

theorem load_pack (tracks : TracksIndex walk idx)
    (clean : Faultless (checkPack fs toml table rfc awk opts walk dir)) :
    ∃ next, loadPack fs toml table idx dir = .ok next ∧
      TracksIndex (checkPack fs toml table rfc awk opts walk dir) next := by
  simp only [Faultless, checkPack, loadPack] at clean ⊢
  split at clean
  next missing =>
    simp only [missing, ↓reduceIte]
    exact ⟨idx, rfl, tracks⟩
  next found =>
    simp only [found, Bool.false_eq_true, ↓reduceIte]
    cases parsed : parsePackManifest fs toml table dir (join dir "pack.toml".toList) with
    | error e =>
      rw [parsed] at clean
      exact absurd clean (not_noErrors_error _)
    | ok pack =>
      rw [parsed] at clean
      have finish : Faultless (pack.threads.foldl (checkThread fs table rfc awk opts pack (join dir "pack.toml".toList)) _) :=
        clean
      obtain ⟨threads, loaded, last⟩ := Collect.load_of_clean (checkThread_keeps pack _)
        (fun walk threads th _ tracks clean => load_thread tracks clean) (Tracks.noted tracks pack _) finish
      refine ⟨{ packs := idx.packs ++ [pack], threads }, ?_, last⟩
      rw [Collect.bind_eq_ok]
      refine ⟨pack, rfl, ?_⟩
      rw [Collect.bind_eq_ok]
      exact ⟨threads, loaded, rfl⟩

theorem check_pack {next : PackIndex} (tracks : TracksIndex walk idx)
    (loaded : loadPack fs toml table idx dir = .ok next) :
    TracksIndex (checkPack fs toml table rfc awk structureOnly walk dir) next := by
  simp only [checkPack, loadPack] at loaded ⊢
  split at loaded
  next missing =>
    cases loaded
    simp only [missing, ↓reduceIte]
    exact tracks
  next found =>
    obtain ⟨pack, parsed, loaded⟩ := Collect.bind_eq_ok.mp loaded
    obtain ⟨threads, indexed, result⟩ := Collect.bind_eq_ok.mp loaded
    rw [Collect.mapError_eq_ok] at parsed
    cases result
    simp only [found, Bool.false_eq_true, ↓reduceIte, parsed]
    have scripts := parsed_scripts parsed
    apply Collect.related_of_load _ (Tracks.noted tracks pack _) indexed
    intro walk threads next th member tracks loaded
    exact check_thread tracks (scripts th member) loaded

end Pack

private theorem checkPack_keeps (walk : Walk) (dir : Text)
    (clean : Faultless (checkPack fs toml table rfc awk opts walk dir)) : Faultless walk := by
  simp only [Faultless, checkPack] at clean
  split at clean
  · exact clean
  split at clean
  · exact absurd clean (not_noErrors_error _)
  next pack parsed =>
    have finish : Faultless (pack.threads.foldl (checkThread fs table rfc awk opts pack (join dir "pack.toml".toList)) _) :=
      clean
    have noted := Collect.clean_of_foldl (checkThread_keeps pack _) finish
    split at noted
    · exact noted
    · exact noted

private theorem readable_entries {entries : List (Except Text Text)} (readable : ∀ entry ∈ entries, ∃ path, entry = .ok path) :
    ∃ paths, entries.mapM id = .ok paths ∧ entries.filterMap Except.toOption = paths := by
  induction entries with
  | nil => exact ⟨[], rfl, rfl⟩
  | cons entry entries ih =>
    obtain ⟨path, rfl⟩ := readable entry (by simp)
    obtain ⟨paths, mapped, kept⟩ := ih fun other member => readable other (by simp [member])
    refine ⟨path :: paths, ?_, ?_⟩
    · rw [List.mapM_cons, mapped]
      rfl
    · rw [List.filterMap_cons, kept]
      rfl

private theorem start_tracks : TracksIndex ⟨{}, ∅⟩ { packs := [], threads := ∅ } := ⟨rfl, by simp⟩

/-- A clean report, whatever was checked, means that the packs load. -/
theorem loads_of_ok {packsDir : Text}
    (readable : ∀ entries, fs.readDir packsDir = .ok entries → ∀ entry ∈ entries, ∃ path, entry = .ok path)
    (ok : (runPackDoctor fs toml table rfc awk opts packsDir).ok = true) :
    ∃ idx, loadPacks fs toml table packsDir = .ok idx := by
  have clean : NoErrors (runPackDoctor fs toml table rfc awk opts packsDir) := by
    simpa only [NoErrors, DoctorReport.ok, List.isEmpty_iff] using ok
  cases present : fs.pathExists packsDir with
  | false =>
    simp only [loadPacks, present, Bool.not_false, ↓reduceIte]
    exact ⟨_, rfl⟩
  | true =>
    simp only [runPackDoctor, present, Bool.not_true, Bool.false_eq_true, ↓reduceIte] at clean
    cases listed : fs.readDir packsDir with
    | error e =>
      rw [listed] at clean
      exact absurd clean (not_noErrors_error _)
    | ok entries =>
      obtain ⟨paths, mapped, kept⟩ := readable_entries (readable entries listed)
      rw [listed] at clean
      simp only [kept] at clean
      have finish : Faultless ((sortPaths (paths.filter fs.isDir)).foldl (checkPack fs toml table rfc awk opts) ⟨{}, ∅⟩) :=
        clean
      obtain ⟨idx, loaded, -⟩ := Collect.load_of_clean checkPack_keeps
        (fun walk idx dir _ tracks clean => load_pack tracks clean) start_tracks finish
      exact ⟨idx, by rw [loadPacks_eq present listed mapped]; exact loaded⟩

theorem ok_of_loads {packsDir : Text} {idx : PackIndex}
    (readable : ∀ entries, fs.readDir packsDir = .ok entries → ∀ entry ∈ entries, ∃ path, entry = .ok path)
    (loaded : loadPacks fs toml table packsDir = .ok idx) :
    (runPackDoctor fs toml table rfc awk structureOnly packsDir).ok = true := by
  suffices clean : NoErrors (runPackDoctor fs toml table rfc awk structureOnly packsDir) by
    simpa only [NoErrors, DoctorReport.ok, List.isEmpty_iff] using clean
  cases present : fs.pathExists packsDir with
  | false =>
    simp only [runPackDoctor, present, Bool.not_false, ↓reduceIte]
    rfl
  | true =>
    simp only [runPackDoctor, present, Bool.not_true, Bool.false_eq_true, ↓reduceIte]
    cases listed : fs.readDir packsDir with
    | error e =>
      simp only [loadPacks, present, listed, Bool.not_true, Bool.false_eq_true, ↓reduceIte] at loaded
      cases loaded
    | ok entries =>
      obtain ⟨paths, mapped, kept⟩ := readable_entries (readable entries listed)
      rw [loadPacks_eq present listed mapped] at loaded
      simp only [kept]
      have last : TracksIndex ((sortPaths (paths.filter fs.isDir)).foldl
          (checkPack fs toml table rfc awk structureOnly) ⟨{}, ∅⟩) idx := by
        apply Collect.related_of_load _ start_tracks loaded
        intro walk idx next dir _ tracks loaded
        exact check_pack tracks loaded
      exact last.clean

/-- On any readable tree the structural check passes exactly when the packs
load, and no further check passes packs that do not load. -/
theorem doctor_agrees (fs : FileSystem) (toml : Text → Except Text Manifest) (table : DebugTable) (rfc : Rfc3339)
    (awk : AwkProcess) (packsDir : Text)
    (readable : ∀ entries, fs.readDir packsDir = .ok entries → ∀ entry ∈ entries, ∃ path, entry = .ok path) :
    ((runPackDoctor fs toml table rfc awk ⟨false, .off⟩ packsDir).ok = true ↔
      ∃ idx, loadPacks fs toml table packsDir = .ok idx) ∧
    ∀ opts, (runPackDoctor fs toml table rfc awk opts packsDir).ok = true →
      ∃ idx, loadPacks fs toml table packsDir = .ok idx := by
  refine ⟨⟨loads_of_ok readable, fun loads => ?_⟩, fun opts => loads_of_ok readable⟩
  obtain ⟨idx, loaded⟩ := loads
  exact ok_of_loads readable loaded

def sampleTree : FileSystem where
  pathExists path := path ∈ ["packs".toList, "packs/a/pack.toml".toList, "packs/a/run.awk".toList]
  isDir path := path = "packs/a".toList
  readDir _ := .ok [.ok "packs/a".toList, .ok "packs/README".toList]
  readToString _ := .ok []

def sampleManifest : Manifest where
  pack := ⟨"a".toList, "A".toList, "1".toList, "me".toList, []⟩
  thread := [⟨"t".toList, "T".toList, "awk".toList, "run.awk".toList, [], []⟩]

theorem doctor_agrees_one_pack :
    (runPackDoctor sampleTree (fun _ => .ok sampleManifest) (fun _ => false) ⟨fun _ => none, fun _ => none⟩
        (fun _ _ _ => .error []) ⟨false, .off⟩ "packs".toList).ok = true ↔
      ∃ idx, loadPacks sampleTree (fun _ => .ok sampleManifest) (fun _ => false) "packs".toList = .ok idx := by
  apply (doctor_agrees sampleTree _ _ _ _ _ ?_).1
  intro entries listed entry member
  cases listed
  simp only [List.mem_cons, List.not_mem_nil, or_false] at member
  rcases member with rfl | rfl
  · exact ⟨_, rfl⟩
  · exact ⟨_, rfl⟩

end HawkTui.Proofs.PackAgreement
