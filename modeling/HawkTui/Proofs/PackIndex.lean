import HawkTui.Hawk.Packs
import HawkTui.Lib.Collect

/-! The index of loaded threads. It is built beside the list of packs, and
stays the map from each thread's id to that thread: no id is lost, taken over or
listed twice, and the order in which the folders are found does not matter. -/

namespace HawkTui.Proofs.PackIndex
open Lib Text Packs

variable {fs : FileSystem} {toml : Text → Except Text Manifest} {table : DebugTable}

theorem parseThread_ok {packDir : Text} {t : ManifestThread} {th : Thread}
    (parsed : parseThread fs table packDir t = .ok th) :
    ensureSafeRelPath t.file = .ok () ∧ trim t.id ≠ [] ∧ trim t.kind ≠ [] ∧
      fs.pathExists (join packDir t.file) = true ∧
      ∃ args, t.arg.mapM (parseArg t.id) = .ok args ∧ th = ⟨t.id, t.title, t.kind, t.file, t.description, args⟩ := by
  simp only [parseThread, Collect.bind_eq_ok, Collect.mapError_eq_ok] at parsed
  obtain ⟨⟨⟩, safe, parsed⟩ := parsed
  split at parsed
  · cases parsed
  next named =>
  split at parsed
  · cases parsed
  next kind =>
  split at parsed
  · cases parsed
  next found =>
    obtain ⟨args, mapped, result⟩ := Collect.bind_eq_ok.mp parsed
    cases result
    exact ⟨safe, by simpa using named, by simpa using kind, by simpa using found, args, mapped, rfl⟩

theorem parsePackManifest_ok {packDir manifestPath : Text} {pack : Pack}
    (parsed : parsePackManifest fs toml table packDir manifestPath = .ok pack) :
    pack.rootDir = packDir ∧ ∀ th ∈ pack.threads, ∃ t, parseThread fs table packDir t = .ok th := by
  simp only [parsePackManifest, Collect.bind_eq_ok] at parsed
  obtain ⟨raw, -, man, -, threads, mapped, result⟩ := parsed
  cases result
  refine ⟨rfl, fun th member => ?_⟩
  obtain ⟨t, -, same⟩ := Collect.exists_of_mapM mapped member
  exact ⟨t, same⟩

theorem addThread_ok_iff {pack : Pack} {threads next : BTreeMap Text ThreadResolved} {th : Thread} :
    addThread pack threads th = .ok next ↔ th.id ∉ threads ∧ next = threads.insert th.id (resolved pack th) := by
  unfold addThread
  split
  next taken => simp [taken]
  next fresh => simp [fresh, eq_comm]

theorem loadPacks_eq {packsDir : Text} {entries : List (Except Text Text)} {paths : List Text}
    (present : fs.pathExists packsDir = true) (listed : fs.readDir packsDir = .ok entries)
    (mapped : entries.mapM id = .ok paths) :
    loadPacks fs toml table packsDir =
      (sortPaths (paths.filter fs.isDir)).foldlM (loadPack fs toml table) { packs := [], threads := ∅ } := by
  simp only [loadPacks, present, Bool.not_true, Bool.false_eq_true, ↓reduceIte, listed]
  simp only [Except.mapError, bind, Except.bind, mapped]

theorem mapM_ok (paths : List Text) : (paths.map (Except.ok (ε := Text))).mapM id = .ok paths := by
  induction paths with
  | nil => rfl
  | cons path paths ih =>
    rw [List.map_cons, List.mapM_cons, ih]
    rfl

/-- Two folders that compare equal are the same folder, so sorting forgets the order. -/
theorem sortPaths_perm {paths paths' : List Text} (perm : paths.Perm paths') : sortPaths paths = sortPaths paths' := by
  have sorted : ∀ paths : List Text,
      (sortPaths paths).Pairwise fun a b => (compare (a.splitOn '/') (b.splitOn '/')).isLE = true := by
    intro paths
    apply List.pairwise_mergeSort
    · intro a b c
      exact Std.TransOrd.isLE_trans
    · intro a b
      rw [Bool.or_eq_true, ← Std.OrientedCmp.isGE_iff_isLE (a := a.splitOn '/')]
      cases compare (a.splitOn '/') (b.splitOn '/') <;> simp
  apply List.Perm.eq_of_pairwise _ (sorted paths) (sorted paths')
  · exact (List.mergeSort_perm _ _).trans (perm.trans (List.mergeSort_perm _ _).symm)
  · intro a b _ _ below above
    have same := Std.LawfulEqOrd.compare_eq_iff_eq.mp (Std.OrientedCmp.isLE_antisymm below above)
    have joined := congrArg (['/'].intercalate ·) same
    simpa only [List.intercalate_splitOn] using joined

/-- The file system lists the packs folder in another order. -/
structure Reordered (fs fs' : FileSystem) (packsDir : Text) : Prop where
  pathExists : fs'.pathExists = fs.pathExists
  isDir : fs'.isDir = fs.isDir
  readToString : fs'.readToString = fs.readToString
  entries : ∃ paths paths' : List Text, fs.readDir packsDir = .ok (paths.map .ok) ∧
    fs'.readDir packsDir = .ok (paths'.map .ok) ∧ paths'.Perm paths

theorem Reordered.loadPacks {fs' : FileSystem} {packsDir : Text} (reordered : Reordered fs fs' packsDir) :
    loadPacks fs' toml table packsDir = loadPacks fs toml table packsDir := by
  obtain ⟨samePaths, sameDirs, sameTexts, paths, paths', listed, listed', perm⟩ := reordered
  cases present : fs.pathExists packsDir with
  | false => simp only [Packs.loadPacks, samePaths, present, Bool.not_false, ↓reduceIte]
  | true =>
    have present' : fs'.pathExists packsDir = true := by rw [samePaths, present]
    have parsed : ∀ dir, parseThread fs' table dir = parseThread fs table dir := by
      intro dir
      funext th
      simp only [parseThread, samePaths]
    have turn : loadPack fs' toml table = loadPack fs toml table := by
      funext idx dir
      simp only [loadPack, parsePackManifest, parsed, samePaths, sameTexts]
    rw [loadPacks_eq present listed (mapM_ok paths), loadPacks_eq present' listed' (mapM_ok paths'), turn, sameDirs,
      sortPaths_perm (perm.filter fs.isDir)]

/-- The threads of the packs, each under its id. -/
def threadEntries (packs : List Pack) : List (Text × ThreadResolved) :=
  packs.flatMap fun pack => pack.threads.map fun th => (th.id, resolved pack th)

def threadIds (packs : List Pack) : List Text := packs.flatMap fun pack => pack.threads.map Thread.id

theorem threadEntries_ids (packs : List Pack) : (threadEntries packs).map Prod.fst = threadIds packs := by
  simp [threadEntries, threadIds, List.map_flatMap, Function.comp_def]

/-- The map holds the listed entries, whose keys differ. -/
structure Holds (entries : List (Text × ThreadResolved)) (threads : BTreeMap Text ThreadResolved) : Prop where
  map : threads = BTreeMap.extend ∅ entries
  distinct : (entries.map Prod.fst).Nodup

theorem addThread_holds {pack : Pack} {entries : List (Text × ThreadResolved)}
    {threads next : BTreeMap Text ThreadResolved} {th : Thread} (holds : Holds entries threads)
    (added : addThread pack threads th = .ok next) :
    Holds (entries ++ [(th.id, resolved pack th)]) next := by
  obtain ⟨fresh, rfl⟩ := addThread_ok_iff.mp added
  have absent : th.id ∉ entries.map Prod.fst := by
    intro member
    apply fresh
    rw [holds.map, BTreeMap.mem_extend]
    exact Or.inl member
  refine ⟨?_, ?_⟩
  · rw [BTreeMap.extend_append, ← holds.map]
    rfl
  · rw [List.map_append, List.nodup_append]
    refine ⟨holds.distinct, List.nodup_singleton _, ?_⟩
    intro id member other single same
    obtain rfl : other = th.id := by simpa using single
    exact absent (same ▸ member)

theorem addThreads_holds {pack : Pack} {entries : List (Text × ThreadResolved)}
    {threads next : BTreeMap Text ThreadResolved} {ths : List Thread} (holds : Holds entries threads)
    (added : ths.foldlM (addThread pack) threads = .ok next) :
    Holds (entries ++ ths.map fun th => (th.id, resolved pack th)) next := by
  induction ths generalizing entries threads with
  | nil =>
    cases added
    simpa using holds
  | cons th ths ih =>
    rw [List.foldlM_cons, Collect.bind_eq_ok] at added
    obtain ⟨middle, first, rest⟩ := added
    simpa using ih (addThread_holds holds first) rest

def Consistent (idx : PackIndex) : Prop := Holds (threadEntries idx.packs) idx.threads

theorem loadPack_consistent {idx next : PackIndex} {dir : Text} (consistent : Consistent idx)
    (loaded : loadPack fs toml table idx dir = .ok next) : Consistent next := by
  simp only [loadPack] at loaded
  split at loaded
  · cases loaded
    exact consistent
  · simp only [Collect.bind_eq_ok] at loaded
    obtain ⟨pack, -, threads, added, result⟩ := loaded
    cases result
    have grown := addThreads_holds consistent added
    simpa only [Consistent, threadEntries, List.flatMap_append, List.flatMap_singleton] using grown

theorem loadPacks_consistent {packsDir : Text} {idx : PackIndex} (loaded : loadPacks fs toml table packsDir = .ok idx) :
    Consistent idx := by
  have start : Consistent { packs := [], threads := ∅ } := ⟨rfl, List.nodup_nil⟩
  simp only [loadPacks] at loaded
  split at loaded
  · cases loaded
    exact start
  · simp only [Collect.bind_eq_ok] at loaded
    obtain ⟨entries, -, paths, -, folded⟩ := loaded
    apply Collect.invariant_of_load _ start folded
    intro idx next dir consistent loaded
    exact loadPack_consistent consistent loaded

/-- Every thread of the loaded packs is found under its own id. -/
structure Indexed (idx : PackIndex) : Prop where
  distinct : (threadIds idx.packs).Nodup
  keys : ∀ id : Text, id ∈ idx.threads ↔ id ∈ threadIds idx.packs
  resolves : ∀ pack ∈ idx.packs, ∀ th ∈ pack.threads, ∃ found, resolveThread idx th.id = some found ∧
    found.threadId = th.id ∧ found.title = th.title ∧ found.kind = th.kind ∧ found.description = th.description ∧
    found.args = th.args ∧ found.packId = pack.id ∧ found.scriptPath = join pack.rootDir th.file

theorem Consistent.indexed {idx : PackIndex} (consistent : Consistent idx) : Indexed idx := by
  obtain ⟨map, distinct⟩ := consistent
  refine ⟨?_, fun id => ?_, fun pack loaded th listed => ?_⟩
  · rw [← threadEntries_ids]
    exact distinct
  · rw [map, BTreeMap.mem_extend, threadEntries_ids]
    simp
  · refine ⟨resolved pack th, ?_, rfl, rfl, rfl, rfl, rfl, rfl, rfl⟩
    rw [resolveThread, map, BTreeMap.getElem?_extend_eq_some_iff distinct]
    exact List.mem_flatMap.mpr ⟨pack, loaded, List.mem_map.mpr ⟨th, listed, rfl⟩⟩

/-- Loading does not depend on the order of the folders, and what it returns
indexes every thread once. -/
theorem load_packs_index (fs : FileSystem) (toml : Text → Except Text Manifest) (table : DebugTable) (packsDir : Text) :
    (∀ fs', Reordered fs fs' packsDir → loadPacks fs' toml table packsDir = loadPacks fs toml table packsDir) ∧
      ∀ idx, loadPacks fs toml table packsDir = .ok idx → Indexed idx := by
  refine ⟨fun fs' reordered => reordered.loadPacks, fun idx loaded => ?_⟩
  exact (loadPacks_consistent loaded).indexed

section Sample

/-- Two packs, found in the order given. -/
def twoPacks (listing : List Text) : FileSystem where
  pathExists path := path ∈ ["packs".toList, "packs/a/pack.toml".toList, "packs/a/run.awk".toList, "packs/b/pack.toml".toList,
    "packs/b/top.awk".toList]
  isDir path := path ∈ ["packs/a".toList, "packs/b".toList]
  readDir _ := .ok (listing.map .ok)
  readToString path := .ok path

/-- A pack of one thread. -/
def onePack (id thread file : Text) : Manifest :=
  ⟨⟨id, id, "1".toList, [], []⟩, [⟨thread, thread, "awk".toList, file, [], []⟩]⟩

/-- The path of a manifest stands for its text. -/
def twoManifests (raw : Text) : Except Text Manifest :=
  if raw = "packs/a/pack.toml".toList then .ok (onePack "a".toList "t".toList "run.awk".toList)
  else .ok (onePack "b".toList "u".toList "top.awk".toList)

def twoIndex : PackIndex :=
  let packs : List Pack :=
    [⟨"a".toList, "a".toList, "1".toList, [], [], "packs/a".toList,
        [⟨"t".toList, "t".toList, "awk".toList, "run.awk".toList, [], []⟩]⟩,
      ⟨"b".toList, "b".toList, "1".toList, [], [], "packs/b".toList,
        [⟨"u".toList, "u".toList, "awk".toList, "top.awk".toList, [], []⟩]⟩]
  { packs, threads := BTreeMap.extend ∅ (threadEntries packs) }

theorem twoPacks_load :
    loadPacks (twoPacks ["packs/a".toList, "packs/b".toList]) twoManifests (fun _ => false) "packs".toList = .ok twoIndex := by
  have present : (twoPacks ["packs/a".toList, "packs/b".toList]).pathExists "packs".toList = true := rfl
  have folders : ["packs/a".toList, "packs/b".toList].filter (twoPacks ["packs/a".toList, "packs/b".toList]).isDir =
      ["packs/a".toList, "packs/b".toList] := by decide
  have sorted : sortPaths ["packs/a".toList, "packs/b".toList] = ["packs/a".toList, "packs/b".toList] :=
    List.mergeSort_of_pairwise (by decide)
  rw [loadPacks_eq present rfl (mapM_ok _), folders, sorted]
  rfl

theorem twoPacks_reordered {listing other : List Text} (perm : other.Perm listing) (packsDir : Text) :
    Reordered (twoPacks listing) (twoPacks other) packsDir :=
  ⟨rfl, rfl, rfl, listing, other, rfl, rfl, perm⟩

/-- Found in either order, the packs give one index. -/
theorem load_packs_index_swapped :
    loadPacks (twoPacks ["packs/b".toList, "packs/a".toList]) twoManifests (fun _ => false) "packs".toList = .ok twoIndex ∧
      Indexed twoIndex := by
  obtain ⟨same, indexed⟩ := load_packs_index (twoPacks ["packs/a".toList, "packs/b".toList]) twoManifests (fun _ => false)
    "packs".toList
  have swapped := same _ (twoPacks_reordered (List.Perm.swap _ _ _) _)
  exact ⟨swapped.trans twoPacks_load, indexed twoIndex twoPacks_load⟩

end Sample

end HawkTui.Proofs.PackIndex
