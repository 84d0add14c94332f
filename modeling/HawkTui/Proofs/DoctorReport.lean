import HawkTui.Proofs.PackAgreement

/-! The doctor's report as a view. The walk over the packs finds one list of issues,
and the options decide which of them are shown, and how gravely. -/

namespace HawkTui.Proofs.DoctorReport
open Lib Text Packs Doctor

/-- Everything the doctor can have to say, whatever it was asked to look for. -/
inductive Issue where
  | noPacksDir (dir : Text)
  | unreadableDir (dir e : Text)
  | packFailed (manifest e : Text)
  | noThreads (manifest : Text)
  | collision (id prev manifest : Text)
  | missingFile (id path : Text)
  | style (id e : Text)
  | schema (id e : Text)
  | unscanned (id e : Text)
  | fileInput (id : Text)
  | denied (id message : Text)
  | smoke (id e : Text)

def Issue.severity (opts : DoctorOptions) : Issue → Option FindingSeverity
  | .unreadableDir .. | .packFailed .. | .collision .. | .missingFile .. => some .error
  | .noPacksDir _ | .noThreads _ | .style .. | .schema .. => some .warning
  | .unscanned .. | .denied .. => if opts.security = .off then none else some .error
  | .fileInput _ => if opts.security = .off then none else some (fileSeverity opts.security)
  | .smoke .. => if opts.smoke then some .error else none

def Issue.text (table : DebugTable) : Issue → Text
  | .noPacksDir dir => "packs dir missing: ".toList ++ debugStr table dir
  | .unreadableDir dir e => "cannot read packs dir ".toList ++ debugStr table dir ++ ": ".toList ++ e
  | .packFailed manifest e => "pack parse failed ".toList ++ debugStr table manifest ++ ": ".toList ++ e
  | .noThreads manifest => "pack ".toList ++ debugStr table manifest ++ " has zero threads".toList
  | .collision id prev manifest => "thread id collision '".toList ++ id ++ "' between ".toList ++ debugStr table prev ++
      " and ".toList ++ debugStr table manifest
  | .missingFile id path => "thread '".toList ++ id ++ "' missing file ".toList ++ debugStr table path
  | .style id e => threadMessage id "style" e
  | .schema id e => threadMessage id "schema" e
  | .unscanned id e => threadMessage id "security scan failed" e
  | .fileInput id => threadMessage id "security" getlineFileMessage
  | .denied id message => threadMessage id "security" message
  | .smoke id e => threadMessage id "smoke" e

/-- The texts of the issues that are shown with the given severity. -/
def shown (table : DebugTable) (opts : DoctorOptions) (severity : FindingSeverity) (issues : List Issue) : List Text :=
  (issues.filter fun issue => issue.severity opts = some severity).map (Issue.text table)

def report (table : DebugTable) (opts : DoctorOptions) (issues : List Issue) : DoctorReport where
  errors := shown table opts .error issues
  warnings := shown table opts .warning issues

/-- What has been found so far, and the thread ids seen with their manifests. -/
structure Found where
  issues : List Issue
  seen : BTreeMap Text Text

section Issues
variable (fs : FileSystem) (toml : Text → Except Text Manifest) (table : DebugTable) (rfc : Rfc3339) (awk : AwkProcess)

def deniedMessages (raw : Text) : List Text :=
  (BTreeMap.extend (∅ : BTreeMap Text Unit) (((scannedLines raw).flatMap deniedBy).map fun message => (message, ()))).keys

def scanIssues (id : Text) (raw : Text) : List Issue :=
  ((scannedLines raw).filter readsFile).map (fun _ => .fileInput id) ++ (deniedMessages raw).map (.denied id)

def failures (issue : Text → Issue) : Except Text α → List Issue
  | .error e => [issue e]
  | .ok _ => []

def styleIssues (th : Thread) (scriptPath : Text) : List Issue :=
  failures (.style th.id) (readScript fs table scriptPath >>= checkHeaderAndTerminator)

def schemaIssues (th : Thread) (scriptPath : Text) : List Issue :=
  (scanDeclaredArgUsage fs table scriptPath th.args).map (.schema th.id)

def securityIssues (th : Thread) (scriptPath : Text) : List Issue :=
  match readScript fs table scriptPath with
  | .error e => [.unscanned th.id e]
  | .ok raw => scanIssues th.id raw

def smokeIssues (th : Thread) (scriptPath : Text) : List Issue :=
  failures (.smoke th.id) (smokeTestAwk rfc awk scriptPath (defaultTvars th.args))

def scriptIssues (th : Thread) (scriptPath : Text) : List Issue :=
  styleIssues fs table th scriptPath ++ schemaIssues fs table th scriptPath ++ securityIssues fs table th scriptPath ++
    smokeIssues rfc awk th scriptPath

def threadIssues (pack : Pack) (th : Thread) : List Issue :=
  let scriptPath := join pack.rootDir th.file
  if fs.pathExists scriptPath then scriptIssues fs table rfc awk th scriptPath else [.missingFile th.id scriptPath]

def findThread (pack : Pack) (manifest : Text) (found : Found) (th : Thread) : Found where
  issues := found.issues ++ (found.seen[th.id]?.toList.map fun prev => .collision th.id prev manifest) ++
    threadIssues fs table rfc awk pack th
  seen := match found.seen[th.id]? with
    | some _ => found.seen
    | none => found.seen.insert th.id manifest

def findPack (found : Found) (packDir : Text) : Found :=
  let manifest := join packDir "pack.toml".toList
  if fs.pathExists manifest then
    match parsePackManifest fs toml table packDir manifest with
    | .error e => { found with issues := found.issues ++ [.packFailed manifest e] }
    | .ok pack => pack.threads.foldl (findThread fs table rfc awk pack manifest)
        { found with issues := found.issues ++ if pack.threads.isEmpty then [.noThreads manifest] else [] }
  else found

/-- All that is wrong with the packs. -/
def issues (packsDir : Text) : List Issue :=
  if fs.pathExists packsDir then
    match fs.readDir packsDir with
    | .error e => [.unreadableDir packsDir e]
    | .ok entries =>
      ((sortPaths ((entries.filterMap Except.toOption).filter fs.isDir)).foldl (findPack fs toml table rfc awk) ⟨[], ∅⟩).issues
  else [.noPacksDir packsDir]

end Issues

section View
variable {table : DebugTable} {opts : DoctorOptions} {found : List Issue}

theorem shown_append (severity : FindingSeverity) (first second : List Issue) :
    shown table opts severity (first ++ second) = shown table opts severity first ++ shown table opts severity second := by
  simp [shown]

theorem shown_singleton (issue : Issue) (severity : FindingSeverity) :
    shown table opts severity [issue] = if issue.severity opts = some severity then [issue.text table] else [] := by
  by_cases same : issue.severity opts = some severity <;> simp [shown, same]

theorem report_error (issue : Issue) (grave : issue.severity opts = some .error) :
    (report table opts found).error (issue.text table) = report table opts (found ++ [issue]) := by
  simp [report, shown_append, shown_singleton, grave, DoctorReport.error]

theorem report_warning (issue : Issue) (mild : issue.severity opts = some .warning) :
    (report table opts found).warning (issue.text table) = report table opts (found ++ [issue]) := by
  simp [report, shown_append, shown_singleton, mild, DoctorReport.warning]

theorem report_silent {silent : List Issue} (quiet : ∀ issue ∈ silent, issue.severity opts = none) :
    report table opts (found ++ silent) = report table opts found := by
  have nothing : ∀ severity, shown table opts severity silent = [] := by
    intro severity
    simp only [shown, List.map_eq_nil_iff, List.filter_eq_nil_iff]
    intro issue member
    simp [quiet issue member]
  simp [report, shown_append, nothing]

end View

section Walk
variable {fs : FileSystem} {toml : Text → Except Text Manifest} {table : DebugTable} {rfc : Rfc3339} {awk : AwkProcess}
  {opts : DoctorOptions} {found : List Issue}

theorem foldl_report {add : DoctorReport → α → DoctorReport} {issue : α → Issue}
    (adds : ∀ found item, add (report table opts found) item = report table opts (found ++ [issue item])) (items : List α) :
    items.foldl add (report table opts found) = report table opts (found ++ items.map issue) := by
  induction items generalizing found with
  | nil => simp
  | cons item items ih => rw [List.foldl_cons, adds, ih, List.map_cons, List.append_assoc, List.singleton_append]

theorem addFinding_fileInput (id : Text) (on : opts.security ≠ .off) (found : List Issue) :
    addFinding id (report table opts found) ⟨fileSeverity opts.security, getlineFileMessage⟩ =
      report table opts (found ++ [.fileInput id]) := by
  cases mode : opts.security with
  | strict =>
    have grave : (Issue.fileInput id).severity opts = some .error := by simp [Issue.severity, mode, fileSeverity]
    exact report_error _ grave
  | warn =>
    have mild : (Issue.fileInput id).severity opts = some .warning := by simp [Issue.severity, mode, fileSeverity]
    exact report_warning _ mild
  | off => exact absurd mode on

theorem scan_report (id : Text) (on : opts.security ≠ .off) (raw : Text) :
    (scanText raw opts.security).foldl (addFinding id) (report table opts found) =
      report table opts (found ++ scanIssues id raw) := by
  have files : ((scannedLines raw).filter readsFile).foldl
      (fun rep _ => addFinding id rep ⟨fileSeverity opts.security, getlineFileMessage⟩) (report table opts found) =
        report table opts (found ++ ((scannedLines raw).filter readsFile).map fun _ => .fileInput id) :=
    foldl_report (fun found _ => addFinding_fileInput id on found) _
  have denials : ∀ found message, addFinding id (report table opts found) ⟨.error, message⟩ =
      report table opts (found ++ [.denied id message]) := by
    intro found message
    have grave : (Issue.denied id message).severity opts = some .error := by simp [Issue.severity, on]
    exact report_error _ grave
  rw [scanText, List.foldl_append, List.foldl_map, List.foldl_map, files, scanIssues, ← List.append_assoc]
  exact foldl_report denials _

theorem style_report (id : Text) (result : Except Text Unit) :
    (match result with
      | .error e => (report table opts found).warning (threadMessage id "style" e)
      | .ok _ => report table opts found) = report table opts (found ++ failures (.style id) result) := by
  cases result with
  | error e =>
    have mild : (Issue.style id e).severity opts = some .warning := rfl
    exact report_warning _ mild
  | ok _ => simp [failures]

theorem security_quiet (off : opts.security = .off) (th : Thread) (scriptPath : Text) :
    ∀ issue ∈ securityIssues fs table th scriptPath, issue.severity opts = none := by
  unfold securityIssues
  cases readScript fs table scriptPath with
  | error e => simp [Issue.severity, off]
  | ok raw =>
    intro issue member
    simp only [scanIssues, List.mem_append, List.mem_map] at member
    rcases member with ⟨_, -, rfl⟩ | ⟨_, -, rfl⟩ <;> simp [Issue.severity, off]

theorem security_report (th : Thread) (scriptPath : Text) :
    (match securityScanAwk fs table scriptPath opts.security with
      | .ok findings => findings.foldl (addFinding th.id) (report table opts found)
      | .error e => (report table opts found).error (threadMessage th.id "security scan failed" e)) =
      report table opts (found ++ securityIssues fs table th scriptPath) := by
  by_cases off : opts.security = .off
  · rw [report_silent (security_quiet off th scriptPath)]
    simp [securityScanAwk, off]
  · unfold securityIssues
    rw [securityScanAwk, if_neg off]
    cases readScript fs table scriptPath with
    | error e =>
      have grave : (Issue.unscanned th.id e).severity opts = some .error := by simp [Issue.severity, off]
      exact report_error _ grave
    | ok raw => exact scan_report th.id off raw

theorem smoke_report (id : Text) (result : Except Text Unit) :
    (if opts.smoke then
      match result with
      | .error e => (report table opts found).error (threadMessage id "smoke" e)
      | .ok _ => report table opts found
      else report table opts found) = report table opts (found ++ failures (.smoke id) result) := by
  cases result with
  | ok _ => simp [failures]
  | error e =>
    cases on : opts.smoke with
    | true =>
      have grave : (Issue.smoke id e).severity opts = some .error := by simp [Issue.severity, on]
      exact report_error _ grave
    | false => exact (report_silent (by simp [failures, Issue.severity, on])).symm

theorem checkScript_report (th : Thread) (scriptPath : Text) :
    checkScript fs table rfc awk opts (report table opts found) th scriptPath =
      report table opts (found ++ scriptIssues fs table rfc awk th scriptPath) := by
  have schema : ∀ found w, (report table opts found).warning (threadMessage th.id "schema" w) =
      report table opts (found ++ [.schema th.id w]) := by
    intro found w
    have mild : (Issue.schema th.id w).severity opts = some .warning := rfl
    exact report_warning _ mild
  unfold checkScript
  extract_lets styled argued scanned
  have first : styled = report table opts (found ++ styleIssues fs table th scriptPath) := style_report th.id _
  have second : argued = report table opts (found ++ styleIssues fs table th scriptPath ++ schemaIssues fs table th scriptPath) := by
    simp only [argued, first]
    exact foldl_report schema _
  have third : scanned = report table opts (found ++ styleIssues fs table th scriptPath ++ schemaIssues fs table th scriptPath ++
      securityIssues fs table th scriptPath) := by
    simp only [scanned, second]
    exact security_report th scriptPath
  rw [third]
  refine (smoke_report th.id _).trans ?_
  simp only [scriptIssues, smokeIssues, List.append_assoc]

/-- The doctor's walk, told by what it has found. -/
def Tells (table : DebugTable) (opts : DoctorOptions) (walk : Walk) (found : Found) : Prop :=
  walk.rep = report table opts found.issues ∧ walk.seen = found.seen

theorem Tells.of_eq {walk : Walk} {seen : BTreeMap Text Text} (same : walk = ⟨report table opts found, seen⟩) :
    Tells table opts walk ⟨found, seen⟩ := by
  subst same
  exact ⟨rfl, rfl⟩

theorem thread_report {rep : DoctorReport} (same : rep = report table opts found) (pack : Pack) (th : Thread)
    (seen : BTreeMap Text Text) :
    (if !fs.pathExists (join pack.rootDir th.file) then
      { rep := rep.error ("thread '".toList ++ th.id ++ "' missing file ".toList ++ debugStr table (join pack.rootDir th.file)),
        seen := seen : Walk }
    else ⟨checkScript fs table rfc awk opts rep th (join pack.rootDir th.file), seen⟩) =
      ⟨report table opts (found ++ threadIssues fs table rfc awk pack th), seen⟩ := by
  subst same
  simp only [threadIssues]
  cases fs.pathExists (join pack.rootDir th.file) with
  | true => exact congrArg (Walk.mk · _) (checkScript_report th _)
  | false => exact congrArg (Walk.mk · _) (report_error (.missingFile th.id _) rfl)

theorem checkThread_tells {walk : Walk} {found : Found} (tells : Tells table opts walk found) (pack : Pack) (manifest : Text)
    (th : Thread) :
    Tells table opts (checkThread fs table rfc awk opts pack manifest walk th)
      (findThread fs table rfc awk pack manifest found th) := by
  obtain ⟨rep, seen⟩ := walk
  obtain ⟨issues, ids⟩ := found
  obtain ⟨same, known⟩ := tells
  simp only at same known
  subst same known
  unfold checkThread findThread
  cases seen[th.id]? with
  | none =>
    have fresh : report table opts issues = report table opts (issues ++ []) := by rw [List.append_nil]
    exact Tells.of_eq (thread_report fresh pack th _)
  | some prev =>
    have collides : (report table opts issues).error ((Issue.collision th.id prev manifest).text table) =
        report table opts (issues ++ [.collision th.id prev manifest]) := report_error _ rfl
    exact Tells.of_eq (thread_report collides pack th _)

theorem checkPack_tells {walk : Walk} {found : Found} (tells : Tells table opts walk found) (packDir : Text) :
    Tells table opts (checkPack fs toml table rfc awk opts walk packDir) (findPack fs toml table rfc awk found packDir) := by
  obtain ⟨rep, seen⟩ := walk
  obtain ⟨issues, ids⟩ := found
  obtain ⟨same, known⟩ := tells
  simp only at same known
  subst same known
  unfold checkPack findPack
  extract_lets manifest
  cases fs.pathExists manifest with
  | false => exact ⟨rfl, rfl⟩
  | true =>
    simp only [Bool.not_true, Bool.false_eq_true, if_false, if_true]
    cases parsePackManifest fs toml table packDir manifest with
    | error e => exact ⟨report_error (.packFailed manifest e) rfl, rfl⟩
    | ok pack =>
      refine List.foldl_rel ?_ fun th _ walk found tells => checkThread_tells tells pack manifest th
      cases pack.threads.isEmpty with
      | false => exact ⟨by simp, rfl⟩
      | true => exact ⟨report_warning (.noThreads manifest) rfl, rfl⟩

/-- Whatever it is asked for, the doctor finds the same issues, and its report is a view of them. -/
theorem runPackDoctor_report (packsDir : Text) :
    runPackDoctor fs toml table rfc awk opts packsDir = report table opts (issues fs toml table rfc awk packsDir) := by
  unfold runPackDoctor issues
  have start : ({} : DoctorReport) = report table opts [] := rfl
  cases fs.pathExists packsDir with
  | false =>
    rw [start]
    exact report_warning (.noPacksDir packsDir) rfl
  | true =>
    simp only [Bool.not_true, Bool.false_eq_true, if_false, if_true]
    cases fs.readDir packsDir with
    | error e =>
      rw [start]
      exact report_error (.unreadableDir packsDir e) rfl
    | ok entries =>
      have start : Tells table opts ⟨{}, ∅⟩ ⟨[], ∅⟩ := ⟨rfl, rfl⟩
      exact (List.foldl_rel start fun dir _ walk found tells => checkPack_tells tells dir).1

end Walk

def strictness : SecurityMode → Nat
  | .off => 0
  | .warn => 1
  | .strict => 2

/-- What the first options ask for, the second ask for as well. -/
def Within (opts stricter : DoctorOptions) : Prop :=
  (opts.smoke → stricter.smoke) ∧ strictness opts.security ≤ strictness stricter.security

section Options
variable {table : DebugTable} {opts stricter : DoctorOptions}

theorem Within.security_on (within : Within opts stricter) (on : opts.security ≠ .off) : stricter.security ≠ .off := by
  intro off
  have none : strictness opts.security = 0 := by simpa [off, strictness] using within.2
  cases mode : opts.security with
  | off => exact on mode
  | warn => simp [mode, strictness] at none
  | strict => simp [mode, strictness] at none

theorem Within.fileSeverity_error (within : Within opts stricter) (grave : fileSeverity opts.security = .error) :
    fileSeverity stricter.security = .error := by
  have strict : 2 ≤ strictness stricter.security := by
    refine le_trans ?_ within.2
    cases mode : opts.security <;> simp_all [fileSeverity, strictness]
  cases mode : stricter.security <;> simp_all [fileSeverity, strictness]

theorem Within.error (within : Within opts stricter) {issue : Issue} (grave : issue.severity opts = some .error) :
    issue.severity stricter = some .error := by
  cases issue with
  | unscanned id e | denied id e =>
    have on : opts.security ≠ .off := by
      intro off
      simp [Issue.severity, off] at grave
    simp [Issue.severity, within.security_on on]
  | fileInput id =>
    have on : opts.security ≠ .off := by
      intro off
      simp [Issue.severity, off] at grave
    simp only [Issue.severity, on, if_false, Option.some.injEq] at grave
    simp [Issue.severity, within.security_on on, within.fileSeverity_error grave]
  | smoke id e =>
    have asked : opts.smoke = true := by
      by_contra silent
      simp [Issue.severity, silent] at grave
    simp [Issue.severity, within.1 asked]
  | _ => exact grave

theorem Within.told (within : Within opts stricter) {issue : Issue} (severe : issue.severity opts ≠ none) :
    issue.severity stricter ≠ none := by
  cases issue with
  | unscanned id e | denied id e | fileInput id =>
    have on : opts.security ≠ .off := by
      intro off
      simp [Issue.severity, off] at severe
    simp [Issue.severity, within.security_on on]
  | smoke id e =>
    have asked : opts.smoke = true := by
      by_contra silent
      simp [Issue.severity, silent] at severe
    simp [Issue.severity, within.1 asked]
  | _ => exact severe

theorem mem_report {found : List Issue} {message : Text} :
    message ∈ (report table opts found).errors ++ (report table opts found).warnings ↔
      ∃ issue ∈ found, issue.severity opts ≠ none ∧ issue.text table = message := by
  simp only [report, shown, List.mem_append, List.mem_map, List.mem_filter, decide_eq_true_eq]
  constructor
  · rintro (⟨issue, ⟨member, severity⟩, same⟩ | ⟨issue, ⟨member, severity⟩, same⟩)
    · exact ⟨issue, member, by simp [severity], same⟩
    · exact ⟨issue, member, by simp [severity], same⟩
  · rintro ⟨issue, member, told, same⟩
    cases severity : issue.severity opts with
    | none => exact absurd severity told
    | some gravity => cases gravity with
      | error => exact Or.inl ⟨issue, ⟨member, severity⟩, same⟩
      | warning => exact Or.inr ⟨issue, ⟨member, severity⟩, same⟩

end Options

/-- Asking for less never finds more: the errors are some of the stricter run's, in
its order, and nothing is said that the stricter run keeps to itself. -/
theorem doctor_laxer (fs : FileSystem) (toml : Text → Except Text Manifest) (table : DebugTable) (rfc : Rfc3339)
    (awk : AwkProcess) (packsDir : Text) (opts stricter : DoctorOptions) (within : Within opts stricter) :
    (runPackDoctor fs toml table rfc awk opts packsDir).errors.Sublist
        (runPackDoctor fs toml table rfc awk stricter packsDir).errors ∧
      (∀ message, message ∈ (runPackDoctor fs toml table rfc awk opts packsDir).errors ++
          (runPackDoctor fs toml table rfc awk opts packsDir).warnings →
        message ∈ (runPackDoctor fs toml table rfc awk stricter packsDir).errors ++
          (runPackDoctor fs toml table rfc awk stricter packsDir).warnings) ∧
      ((runPackDoctor fs toml table rfc awk stricter packsDir).ok = true →
        (runPackDoctor fs toml table rfc awk opts packsDir).ok = true) := by
  have errors : (runPackDoctor fs toml table rfc awk opts packsDir).errors.Sublist
      (runPackDoctor fs toml table rfc awk stricter packsDir).errors := by
    simp only [runPackDoctor_report, report, shown]
    refine List.Sublist.map _ (List.monotone_filter_right _ ?_)
    intro issue
    simpa using within.error
  refine ⟨errors, fun message told => ?_, fun ok => ?_⟩
  · rw [runPackDoctor_report, mem_report] at told ⊢
    obtain ⟨issue, member, severity, same⟩ := told
    exact ⟨issue, member, within.told severity, same⟩
  · simp only [DoctorReport.ok, List.isEmpty_iff] at ok ⊢
    rw [ok] at errors
    exact List.sublist_nil.mp errors

theorem doctor_laxer_unsmoked :
    (runPackDoctor PackAgreement.sampleTree (fun _ => .ok PackAgreement.sampleManifest) (fun _ => false)
        ⟨fun _ => none, fun _ => none⟩ (fun _ _ _ => .error []) ⟨false, .warn⟩ "packs".toList).errors.Sublist
      (runPackDoctor PackAgreement.sampleTree (fun _ => .ok PackAgreement.sampleManifest) (fun _ => false)
        ⟨fun _ => none, fun _ => none⟩ (fun _ _ _ => .error []) ⟨true, .strict⟩ "packs".toList).errors :=
  (doctor_laxer _ _ _ _ _ _ ⟨false, .warn⟩ ⟨true, .strict⟩ ⟨fun _ => rfl, by decide⟩).1

end HawkTui.Proofs.DoctorReport
