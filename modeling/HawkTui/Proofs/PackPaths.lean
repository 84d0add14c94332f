import HawkTui.Proofs.PackIndex

/-! Pack scripts stay in their pack's folder. The check is made once, on the text
of the manifest; what it lets through adds plain names to the folder's components
wherever that text is joined to the folder later. -/

namespace HawkTui.Proofs.PackPaths
open Lib Text Paths Packs PackIndex

variable {packDir file : Text}

theorem ensureSafeRelPath_ok_iff (file : Text) :
    ensureSafeRelPath file = .ok () ↔ isAbsolute file = false ∧ "..".toList ∉ file.splitOn '/' := by
  rw [show "..".toList = ['.', '.'] from rfl, ← parentDir_mem_components_iff]
  unfold ensureSafeRelPath
  split
  next absolute => simp [absolute]
  next relative =>
    split
    next climbs => simp [climbs]
    next safe => simp [relative, safe]

/-- A relative path goes on where the folder's components end, also when the
folder is written with a slash at its end. -/
theorem components_join (present : packDir ≠ []) (relative : isAbsolute file = false) :
    components (join packDir file) = components packDir ++ (file.splitOn '/').filterMap segment := by
  unfold join
  rw [if_neg (by simp [relative])]
  split
  next slash =>
    obtain empty | ends := slash
    · exact absurd (by simpa using empty) present
    · obtain ⟨parent, rfl⟩ := List.getLast?_eq_some_iff.mp ends
      rw [List.append_assoc, List.singleton_append, components_append_slash]
  next => rw [components_append_slash, components_trailing_slash present]

theorem join_below (present : packDir ≠ []) (safe : ensureSafeRelPath file = .ok ()) :
    Below (components packDir) (components (join packDir file)) := by
  obtain ⟨relative, inside⟩ := (ensureSafeRelPath_ok_iff file).mp safe
  rw [components_join present relative, filterMap_segment inside]
  exact below_of_normal _ _

/-- The guard lets through exactly the relative paths without a `..`, and joined
to a folder none of them leads out of it. -/
theorem guard_confines_script (packDir file : Text) (present : packDir ≠ []) :
    (ensureSafeRelPath file = .ok () ↔ ¬ ['/'] <+: file ∧ "..".toList ∉ file.splitOn '/') ∧
      (ensureSafeRelPath file = .ok () → Below (components packDir) (components (join packDir file))) := by
  refine ⟨?_, join_below present⟩
  rw [ensureSafeRelPath_ok_iff, isAbsolute, startsWith, ← List.isPrefixOf_iff_prefix, Bool.not_eq_true]

theorem guard_confines_dotted_script :
    Below (components "packs/hawk.core/".toList)
      (components (join "packs/hawk.core/".toList ".//lib/./..counts.awk".toList)) :=
  (guard_confines_script "packs/hawk.core/".toList ".//lib/./..counts.awk".toList (by decide)).2 (by decide)

def Guarded (idx : PackIndex) : Prop :=
  ∀ pack ∈ idx.packs, ∀ th ∈ pack.threads, ensureSafeRelPath th.file = .ok ()

variable {fs : FileSystem} {toml : Text → Except Text Manifest} {table : DebugTable}

theorem loadPack_guarded {idx next : PackIndex} {dir : Text} (guarded : Guarded idx)
    (loaded : loadPack fs toml table idx dir = .ok next) : Guarded next := by
  simp only [loadPack] at loaded
  split at loaded
  · cases loaded
    exact guarded
  · simp only [Collect.bind_eq_ok, Collect.mapError_eq_ok] at loaded
    obtain ⟨pack, parsed, threads, -, result⟩ := loaded
    cases result
    intro other member th listed
    rcases List.mem_append.mp member with earlier | last
    · exact guarded other earlier th listed
    · obtain rfl := List.mem_singleton.mp last
      obtain ⟨t, thread⟩ := (parsePackManifest_ok parsed).2 th listed
      obtain ⟨safe, -, -, -, args, -, rfl⟩ := parseThread_ok thread
      exact safe

theorem loadPacks_guarded {packsDir : Text} {idx : PackIndex} (loaded : loadPacks fs toml table packsDir = .ok idx) :
    Guarded idx := by
  have start : Guarded { packs := [], threads := ∅ } := by simp [Guarded]
  simp only [loadPacks] at loaded
  split at loaded
  · cases loaded
    exact start
  · simp only [Collect.bind_eq_ok] at loaded
    obtain ⟨entries, -, paths, -, folded⟩ := loaded
    apply Collect.invariant_of_load _ start folded
    intro idx next dir guarded loaded
    exact loadPack_guarded guarded loaded

/-- The script of a thread found in the index lies in the folder of its pack. -/
theorem resolved_script_below {packsDir id : Text} {idx : PackIndex} {found : ThreadResolved}
    (loaded : loadPacks fs toml table packsDir = .ok idx) (resolves : resolveThread idx id = some found) :
    ∃ pack ∈ idx.packs, found.packId = pack.id ∧
      (pack.rootDir ≠ [] → Below (components pack.rootDir) (components found.scriptPath)) := by
  obtain ⟨map, distinct⟩ := loadPacks_consistent loaded
  rw [resolveThread, map, BTreeMap.getElem?_extend_eq_some_iff distinct] at resolves
  obtain ⟨pack, member, entry⟩ := List.mem_flatMap.mp resolves
  obtain ⟨th, listed, same⟩ := List.mem_map.mp entry
  obtain ⟨-, rfl⟩ := Prod.mk.inj same
  exact ⟨pack, member, rfl, fun present => join_below present (loadPacks_guarded loaded pack member th listed)⟩

end HawkTui.Proofs.PackPaths
