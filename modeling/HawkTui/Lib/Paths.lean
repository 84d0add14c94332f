import HawkTui.Lib.Text

/-! Unix paths: their components and the way `.` and `..` resolve without a look
at the disk. A path is read segment by segment; empty segments and dots inside it
say nothing, and only a leading dot or slash is kept. -/

namespace HawkTui.Lib.Paths
open Text

inductive Component where
  | rootDir
  | curDir
  | parentDir
  | normal (name : Text)
  deriving DecidableEq, Repr

def isAbsolute (path : Text) : Bool := startsWith ['/'] path

/-- What a segment behind the first stands for. -/
def segment (name : Text) : Option Component :=
  if name = [] then none
  else if name = ['.'] then none
  else if name = ['.', '.'] then some .parentDir
  else some (.normal name)

/-- The component that only the start of a path can have. -/
def leading (path : Text) : List Component :=
  if isAbsolute path then [.rootDir]
  else if (path.splitOn '/').head? = some ['.'] then [.curDir]
  else []

def components (path : Text) : List Component := leading path ++ (path.splitOn '/').filterMap segment

/-- One step down a path, or up from a directory below the start. -/
def walk (resolved : List Component) : Component → List Component
  | .rootDir => [.rootDir]
  | .curDir => resolved
  | .parentDir => match resolved.getLast? with
    | some (.normal _) => resolved.dropLast
    | some .rootDir => resolved
    | _ => resolved ++ [.parentDir]
  | .normal name => resolved ++ [.normal name]

/-- Where a path leads when no symbolic links are on the way. -/
def resolve (path : List Component) : List Component := path.foldl walk []

/-- Every step of the path behind the components of `dir` stays at or below `dir`. -/
structure Below (dir path : List Component) : Prop where
  names : ∃ names : List Text, path = dir ++ names.map .normal
  never_above : ∀ steps, dir <+: steps → steps <+: path → resolve dir <+: resolve steps

theorem resolve_append_normal (dir : List Component) (names : List Text) :
    resolve (dir ++ names.map .normal) = resolve dir ++ names.map .normal := by
  induction names using List.reverseRecOn with
  | nil => simp
  | append_singleton names name ih =>
    rw [List.map_append, ← List.append_assoc, resolve, List.foldl_append, ← resolve, ih]
    simp [walk]

theorem below_of_normal (dir : List Component) (names : List Text) : Below dir (dir ++ names.map .normal) := by
  refine ⟨⟨names, rfl⟩, ?_⟩
  rintro steps ⟨front, rfl⟩ inside
  rw [List.prefix_append_right_inj] at inside
  obtain ⟨rest, split⟩ := inside
  obtain ⟨taken, -, -, same, -⟩ := List.map_eq_append_iff.mp split.symm
  rw [← same, resolve_append_normal]
  exact List.prefix_append _ _

/-- What stands behind a slash does not change how a path starts. -/
theorem leading_append_slash {dir : Text} (present : dir ≠ []) (file : Text) :
    leading (dir ++ '/' :: file) = leading dir := by
  obtain ⟨c, rest, rfl⟩ := List.exists_cons_of_ne_nil present
  obtain ⟨first, others, segments⟩ := List.exists_cons_of_ne_nil (List.splitOn_ne_nil '/' (c :: rest))
  unfold leading
  rw [List.splitOn_append_cons_self, segments]
  simp [isAbsolute, startsWith]

theorem components_trailing_slash {dir : Text} (present : dir ≠ []) : components (dir ++ ['/']) = components dir := by
  rw [components, leading_append_slash present, List.splitOn_append_cons_self, components]
  simp [segment]

theorem components_append_slash (dir file : Text) :
    components (dir ++ '/' :: file) = components (dir ++ ['/']) ++ (file.splitOn '/').filterMap segment := by
  cases dir with
  | nil => simp [components, leading, isAbsolute, startsWith, segment, List.splitOn_cons_eq_if_modifyHead]
  | cons c rest =>
    rw [components_trailing_slash (List.cons_ne_nil c rest), components, leading_append_slash (List.cons_ne_nil c rest),
      List.splitOn_append_cons_self, List.filterMap_append, ← List.append_assoc, ← components]

theorem parentDir_mem_components_iff (path : Text) : .parentDir ∈ components path ↔ ['.', '.'] ∈ path.splitOn '/' := by
  have lead : Component.parentDir ∉ leading path := by
    unfold leading
    split
    · simp
    · split <;> simp
  have back : ∀ name, segment name = some .parentDir ↔ name = ['.', '.'] := by
    intro name
    unfold segment
    split
    next empty => simp [empty]
    · split
      next dot => simp [dot]
      · split <;> simp_all
  simp only [components, List.mem_append, lead, false_or, List.mem_filterMap, back, exists_eq_right]

/-- Segments that do not go up are plain names or say nothing. -/
theorem filterMap_segment {segments : List Text} (inside : ['.', '.'] ∉ segments) :
    segments.filterMap segment = (segments.filter fun name => name ≠ [] ∧ name ≠ ['.']).map .normal := by
  induction segments with
  | nil => rfl
  | cons name rest ih =>
    rw [List.mem_cons, not_or] at inside
    rw [List.filterMap_cons, ih inside.2]
    by_cases empty : name = []
    · simp [segment, empty]
    · by_cases dot : name = ['.']
      · simp [segment, dot]
      · simp [segment, empty, dot, Ne.symm inside.1]

end HawkTui.Lib.Paths
