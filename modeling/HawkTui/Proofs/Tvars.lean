import HawkTui.Hawk.Main
import HawkTui.Proofs.PackIndex

/-! The variables of a thread. What reaches awk is what the thread declares,
each with the value last given for it or else its default, and only values that
fit the declared type. -/

namespace HawkTui.Proofs.Tvars
open Lib Text Numbers Packs Main PackIndex

def OfType : ArgType → Text → Prop
  | .string, _ => True
  | .int, v => ∃ n, parseI64 v = some n
  | .bool, v =>
    toAsciiLowercase v = "true".toList ∨ toAsciiLowercase v = "false".toList ∨ v = "1".toList ∨ v = "0".toList

/-- The last declaration of a name counts. -/
def declared (args : List ArgSpec) (k : Text) : Option ArgSpec := (args.filter (·.name = k)).getLast?

def given (tvars : List (Text × Text)) (k : Text) : Option Text := (tvars.filter (·.1 = k)).getLast?.map Prod.snd

variable {args : List ArgSpec} {k v : Text}

theorem mem_of_declared {spec : ArgSpec} (found : declared args k = some spec) : spec ∈ args ∧ spec.name = k := by
  simpa using mem_of_last found

theorem declared_iff (args : List ArgSpec) (k : Text) :
    (∃ spec, declared args k = some spec) ↔ ∃ a ∈ args, a.name = k := by
  constructor
  · intro found
    obtain ⟨spec, found⟩ := found
    exact ⟨spec, mem_of_declared found⟩
  · intro listed
    obtain ⟨a, member, rfl⟩ := listed
    exact exists_last member (by simp)

theorem given_iff (tvars : List (Text × Text)) (k : Text) :
    (∃ v, given tvars k = some v) ↔ ∃ pair ∈ tvars, pair.1 = k := by
  constructor
  · intro found
    obtain ⟨v, found⟩ := found
    obtain ⟨pair, last, -⟩ := Option.map_eq_some_iff.mp found
    exact ⟨pair, by simpa using mem_of_last last⟩
  · intro listed
    obtain ⟨pair, member, rfl⟩ := listed
    obtain ⟨last, found⟩ : ∃ last, (tvars.filter (·.1 = pair.1)).getLast? = some last := exists_last member (by simp)
    exact ⟨last.2, by rw [given, found, Option.map_some]⟩

theorem allowedArgs_lookup (args : List ArgSpec) (k : Text) : (allowedArgs args)[k]? = declared args k := by
  rw [allowedArgs, BTreeMap.getElem?_extend, List.filter_map, List.getLast?_map, declared]
  simp [Function.comp_def]

theorem defaultTvars_lookup (args : List ArgSpec) (k : Text) :
    (defaultTvars args)[k]? = (declared args k).map ArgSpec.default := by
  rw [defaultTvars, BTreeMap.getElem?_extend, List.filter_map, List.getLast?_map, declared]
  simp [Function.comp_def]

theorem given_lookup (tvars : List (Text × Text)) (k : Text) :
    (BTreeMap.extend ∅ tvars : BTreeMap Text Text)[k]? = given tvars k := by
  rw [BTreeMap.getElem?_extend, given]
  simp

theorem mergeTvars_lookup (args : List ArgSpec) (tvars : BTreeMap Text Text) (k : Text) :
    (mergeTvars args tvars)[k]? = tvars[k]?.or ((declared args k).map ArgSpec.default) := by
  rw [mergeTvars, BTreeMap.getElem?_extend_toList, defaultTvars_lookup]

theorem isBoolText_iff (v : Text) : isBoolText v = true ↔ OfType .bool v := by
  have one : toAsciiLowercase v = "1".toList ↔ v = "1".toList := lowercase_digit (by decide) v
  have zero : toAsciiLowercase v = "0".toList ↔ v = "0".toList := lowercase_digit (by decide) v
  simp only [isBoolText, Bool.or_eq_true, decide_eq_true_eq, one, zero, or_assoc, OfType]

theorem validateTvar_ok_iff : validateTvar args k v = .ok () ↔ ∃ spec, declared args k = some spec ∧ OfType spec.ty v := by
  simp only [validateTvar, allowedArgs_lookup]
  cases found : declared args k with
  | none => simp
  | some spec =>
    cases ty : spec.ty with
    | string => simp [OfType, ty]
    | int => cases parsed : parseI64 v <;> simp [OfType, ty, parsed]
    | bool => simp [ty, ← isBoolText_iff]

theorem validateTvars_ok_iff {tvars : BTreeMap Text Text} :
    validateTvars args tvars = .ok () ↔
      ∀ k v, tvars[k]? = some v → ∃ spec, declared args k = some spec ∧ OfType spec.ty v := by
  simp only [validateTvars, Collect.forM_eq_ok, validateTvar_ok_iff, Prod.forall,
    Std.ExtTreeMap.mem_toList_iff_getElem?_eq_some]

/-- A merged map passes when the user's variables do, and so do the defaults
that none of them replaces. -/
theorem merge_ok_iff {user : BTreeMap Text Text} :
    validateTvars args (mergeTvars args user) = .ok () ↔
      validateTvars args user = .ok () ∧
        ∀ k spec, declared args k = some spec → user[k]? = none → OfType spec.ty spec.default := by
  simp only [validateTvars_ok_iff, mergeTvars_lookup]
  constructor
  · intro passes
    refine ⟨fun k v own => passes k v (by rw [own, Option.some_or]), fun k spec found absent => ?_⟩
    obtain ⟨same, again, fits⟩ := passes k spec.default (by rw [absent, found]; rfl)
    rw [found, Option.some.injEq] at again
    exact again ▸ fits
  · intro passes k v merged
    obtain ⟨own, others⟩ := passes
    cases chosen : user[k]? with
    | some w =>
      rw [chosen, Option.some_or, Option.some.injEq] at merged
      exact own k v (merged ▸ chosen)
    | none =>
      rw [chosen, Option.none_or, Option.map_eq_some_iff] at merged
      obtain ⟨spec, found, rfl⟩ := merged
      exact ⟨spec, found, others k spec found chosen⟩

section Given
variable (args : List ArgSpec) (tvars : List (Text × Text))

theorem merge_given {k : Text} {spec : ArgSpec} (named : declared args k = some spec) :
    (mergeTvars args (BTreeMap.extend ∅ tvars))[k]? = some ((given tvars k).getD spec.default) := by
  rw [mergeTvars_lookup, given_lookup, named]
  cases given tvars k <;> rfl

theorem merge_given_ok_iff :
    validateTvars args (mergeTvars args (BTreeMap.extend ∅ tvars)) = .ok () ↔
      (∀ pair ∈ tvars, ∃ a ∈ args, a.name = pair.1) ∧
        ∀ k spec, declared args k = some spec → OfType spec.ty ((given tvars k).getD spec.default) := by
  rw [merge_ok_iff, validateTvars_ok_iff]
  simp only [given_lookup, ← declared_iff]
  constructor
  · intro passes
    obtain ⟨own, others⟩ := passes
    refine ⟨fun pair member => ?_, fun k spec named => ?_⟩
    · obtain ⟨v, last⟩ := (given_iff tvars pair.1).mpr ⟨pair, member, rfl⟩
      obtain ⟨spec, named, -⟩ := own pair.1 v last
      exact ⟨spec, named⟩
    · cases last : given tvars k with
      | none => exact others k spec named last
      | some v =>
        obtain ⟨same, again, fits⟩ := own k v last
        rw [named, Option.some.injEq] at again
        exact again ▸ fits
  · intro condition
    obtain ⟨known, fits⟩ := condition
    refine ⟨fun k v last => ?_, fun k spec named absent => ?_⟩
    · obtain ⟨pair, member, rfl⟩ := (given_iff tvars k).mp ⟨v, last⟩
      obtain ⟨spec, named⟩ := known pair member
      have fit := fits pair.1 spec named
      rw [last] at fit
      exact ⟨spec, named, fit⟩
    · have fit := fits k spec named
      rw [absent] at fit
      exact fit

theorem merge_given_keys (passes : validateTvars args (mergeTvars args (BTreeMap.extend ∅ tvars)) = .ok ()) (k : Text) :
    k ∈ mergeTvars args (BTreeMap.extend ∅ tvars) ↔ ∃ a ∈ args, a.name = k := by
  rw [← declared_iff, Std.ExtTreeMap.mem_iff_isSome_getElem?, Option.isSome_iff_exists]
  constructor
  · intro present
    obtain ⟨v, merged⟩ := present
    obtain ⟨spec, named, -⟩ := validateTvars_ok_iff.mp passes k v merged
    exact ⟨spec, named⟩
  · intro present
    obtain ⟨spec, named⟩ := present
    exact ⟨_, merge_given args tvars named⟩

end Given

/-- Choosing a thread comes down to validating its merged variables. -/
theorem selectTransform_thread {idx : PackIndex} {cli : Cli} {target : Text} {th : ThreadResolved}
    (mode : parseTransform (trim cli.transform) = .ok (.thread, target)) (found : resolveThread idx target = some th)
    (transform : Transform) :
    selectTransform idx cli = .ok (some transform) ↔
      validateTvars th.args (mergeTvars th.args (BTreeMap.extend ∅ cli.tvars)) = .ok () ∧
        transform = ⟨th.scriptPath, mergeTvars th.args (BTreeMap.extend ∅ cli.tvars)⟩ := by
  have chosen : trim cli.transform ≠ "none".toList := by
    intro none
    rw [none, show parseTransform "none".toList = .error _ from rfl] at mode
    cases mode
  simp only [selectTransform, chosen, ↓reduceIte, Collect.bind_eq_ok, mode, Except.ok.injEq, exists_eq_left', found]
  constructor
  · intro reached
    obtain ⟨⟨⟩, passes, result⟩ := reached
    cases result
    exact ⟨passes, rfl⟩
  · intro reached
    obtain ⟨passes, rfl⟩ := reached
    exact ⟨(), passes, rfl⟩

/-- Awk is started with exactly the declared variables, and only when each of
them fits its type and the user gave no other. -/
theorem thread_variables (idx : PackIndex) (cli : Cli) (target : Text) (th : ThreadResolved)
    (mode : parseTransform (trim cli.transform) = .ok (.thread, target)) (found : resolveThread idx target = some th) :
    ((∃ transform, selectTransform idx cli = .ok (some transform)) ↔
      (∀ pair ∈ cli.tvars, ∃ a ∈ th.args, a.name = pair.1) ∧
        ∀ k spec, declared th.args k = some spec → OfType spec.ty ((given cli.tvars k).getD spec.default)) ∧
    ∀ transform, selectTransform idx cli = .ok (some transform) →
      transform.scriptPath = th.scriptPath ∧ (∀ k, k ∈ transform.tvars ↔ ∃ a ∈ th.args, a.name = k) ∧
        ∀ k spec, declared th.args k = some spec →
          transform.tvars[k]? = some ((given cli.tvars k).getD spec.default) := by
  refine ⟨?_, fun transform reached => ?_⟩
  · rw [← merge_given_ok_iff]
    constructor
    · intro reached
      obtain ⟨transform, reached⟩ := reached
      exact ((selectTransform_thread mode found transform).mp reached).1
    · intro passes
      exact ⟨_, (selectTransform_thread mode found _).mpr ⟨passes, rfl⟩⟩
  · obtain ⟨passes, rfl⟩ := (selectTransform_thread mode found transform).mp reached
    exact ⟨rfl, merge_given_keys th.args cli.tvars passes, fun k spec => merge_given th.args cli.tvars⟩

def sampleThread : ThreadResolved where
  packId := "a".toList
  threadId := "t".toList
  title := []
  kind := "aggregate".toList
  description := []
  scriptPath := "packs/a/run.awk".toList
  args := [⟨"window_s".toList, .string, "soon".toList, []⟩, ⟨"window_s".toList, .int, "10".toList, []⟩]

def sampleIndex : PackIndex := { packs := [], threads := BTreeMap.extend ∅ [("t".toList, sampleThread)] }

def sampleCli : Cli where
  packsDir := "packs".toList
  transform := " thread: t".toList
  tvars := [("window_s".toList, "5".toList), ("window_s".toList, "7".toList)]

theorem thread_variables_last_given :
    ∃ transform, selectTransform sampleIndex sampleCli = .ok (some transform) ∧
      transform.tvars["window_s".toList]? = some "7".toList := by
  have found : resolveThread sampleIndex "t".toList = some sampleThread := by
    simp [resolveThread, sampleIndex]
  obtain ⟨reaches, passed⟩ := thread_variables sampleIndex sampleCli "t".toList sampleThread (by decide) found
  have named : declared sampleThread.args "window_s".toList = some ⟨"window_s".toList, .int, "10".toList, []⟩ := by decide
  obtain ⟨transform, reached⟩ : ∃ transform, selectTransform sampleIndex sampleCli = .ok (some transform) := by
    apply reaches.mpr
    refine ⟨by decide, fun k spec other => ?_⟩
    obtain ⟨a, member, rfl⟩ := (declared_iff sampleThread.args k).mp ⟨spec, other⟩
    have name : a.name = "window_s".toList := by
      simp only [sampleThread, List.mem_cons, List.not_mem_nil, or_false] at member
      rcases member with rfl | rfl <;> rfl
    rw [name, named] at other
    cases other
    exact ⟨7, by rw [name]; decide⟩
  exact ⟨transform, reached, (passed transform reached).2.2 _ _ named⟩

section Defaults
variable {fs : FileSystem} {toml : Text → Except Text Manifest} {table : DebugTable}

/-- Every default of an accepted thread went through the check. -/
theorem accepted_default {packDir manifestPath : Text} {pack : Pack} {th : Thread} {a : ArgSpec}
    (accepted : parsePackManifest fs toml table packDir manifestPath = .ok pack) (member : th ∈ pack.threads)
    (declares : a ∈ th.args) : validateArgDefault a = .ok () := by
  obtain ⟨t, thread⟩ := (parsePackManifest_ok accepted).2 th member
  obtain ⟨-, -, -, -, args, mapped, rfl⟩ := parseThread_ok thread
  obtain ⟨m, -, arg⟩ := Collect.exists_of_mapM mapped declares
  simp only [parseArg, Collect.bind_eq_ok, Collect.mapError_eq_ok] at arg
  obtain ⟨ty, -, ⟨⟩, checked, result⟩ := arg
  cases result
  exact checked

/-- The defaults that the first check lets through and the second does not. -/
def Unusable (a : ArgSpec) : Prop := (a.ty = .int ∧ Blank a.default) ∨ (a.ty = .bool ∧ a.default = [])

theorem default_fits_iff {a : ArgSpec} (checked : validateArgDefault a = .ok ()) :
    OfType a.ty a.default ↔ ¬ Unusable a := by
  cases ty : a.ty with
  | string => simp [OfType, Unusable, ty]
  | int =>
    simp only [OfType, Unusable, ty, true_and, reduceCtorEq, false_and, or_false]
    constructor
    · intro fits blank
      obtain ⟨n, parsed⟩ := fits
      rw [parseI64_blank blank] at parsed
      cases parsed
    · intro visible
      simp only [validateArgDefault, ty] at checked
      split at checked
      next passes =>
        rcases Bool.or_eq_true_iff.mp passes with empty | parsed
        · exact absurd ((trim_eq_nil_iff _).mp (List.isEmpty_iff.mp empty)) visible
        · exact Option.isSome_iff_exists.mp parsed
      next => cases checked
  | bool =>
    simp only [Unusable, ty, reduceCtorEq, false_and, true_and, false_or, ← isBoolText_iff]
    constructor
    · intro spelled empty
      rw [empty] at spelled
      exact absurd spelled (by decide)
    · intro present
      simp only [validateArgDefault, ty] at checked
      split at checked
      next passes =>
        rcases Bool.or_eq_true_iff.mp passes with empty | spelled
        · exact absurd (List.isEmpty_iff.mp empty) present
        · exact spelled
      next => cases checked

theorem declared_eq_some_iff {args : List ArgSpec} (distinct : (args.map ArgSpec.name).Nodup) {k : Text} {a : ArgSpec} :
    declared args k = some a ↔ a ∈ args ∧ a.name = k := by
  constructor
  · exact mem_of_declared
  · intro listed
    obtain ⟨member, rfl⟩ := listed
    obtain ⟨spec, found⟩ := (declared_iff args a.name).mpr ⟨a, member, rfl⟩
    have last := mem_of_declared found
    rw [found, List.inj_on_of_nodup_map distinct last.1 member last.2]

/-- When merging in the defaults leaves the verdict on the user's variables as it
was: they fail anyway, or they replace every unusable default. -/
theorem merge_agrees_iff {packDir manifestPath : Text} {pack : Pack} {th : Thread}
    (accepted : parsePackManifest fs toml table packDir manifestPath = .ok pack) (member : th ∈ pack.threads)
    (distinct : (th.args.map ArgSpec.name).Nodup) (user : BTreeMap Text Text) :
    (validateTvars th.args (mergeTvars th.args user) = .ok () ↔ validateTvars th.args user = .ok ()) ↔
      (∃ k v, user[k]? = some v ∧ ∀ a ∈ th.args, a.name = k → ¬ OfType a.ty v) ∨
        ∀ a ∈ th.args, (a.ty = .int ∧ Blank a.default) ∨ (a.ty = .bool ∧ a.default = []) → a.name ∈ user := by
  have refused : ¬ validateTvars th.args user = .ok () ↔
      ∃ k v, user[k]? = some v ∧ ∀ a ∈ th.args, a.name = k → ¬ OfType a.ty v := by
    simp only [validateTvars_ok_iff, declared_eq_some_iff distinct, not_forall, not_exists, not_and, exists_prop, and_imp]
  have replaced : (∀ k spec, declared th.args k = some spec → user[k]? = none → OfType spec.ty spec.default) ↔
      ∀ a ∈ th.args, Unusable a → a.name ∈ user := by
    constructor
    · intro fits a inside unusable
      by_contra absent
      have fit := fits a.name a ((declared_eq_some_iff distinct).mpr ⟨inside, rfl⟩) (by simpa using absent)
      exact (default_fits_iff (accepted_default accepted member inside)).mp fit unusable
    · intro covered k spec found absent
      obtain ⟨inside, rfl⟩ := (declared_eq_some_iff distinct).mp found
      apply (default_fits_iff (accepted_default accepted member inside)).mpr
      intro unusable
      have present := covered spec inside unusable
      simp [Std.ExtTreeMap.mem_iff_isSome_getElem?, absent] at present
  have usable : (∀ a ∈ th.args, (a.ty = .int ∧ Blank a.default) ∨ (a.ty = .bool ∧ a.default = []) → a.name ∈ user) ↔
      ∀ a ∈ th.args, Unusable a → a.name ∈ user := Iff.rfl
  rw [merge_ok_iff, ← refused, usable, ← replaced]
  tauto

end Defaults

def sampleFiles : FileSystem where
  pathExists path := path = "packs/a/run.awk".toList
  isDir _ := false
  readDir _ := .ok []
  readToString _ := .ok []

def openManifest : Manifest where
  pack := ⟨"a".toList, "A".toList, "1".toList, "me".toList, []⟩
  thread := [⟨"t".toList, "T".toList, "aggregate".toList, "run.awk".toList, [],
    [⟨"window_s".toList, "int".toList, none, []⟩]⟩]

def openArgs : List ArgSpec := [⟨"window_s".toList, .int, [], []⟩]

def openThread : Thread where
  id := "t".toList
  title := "T".toList
  kind := "aggregate".toList
  file := "run.awk".toList
  description := []
  args := openArgs

def openPack : Pack where
  id := "a".toList
  name := "A".toList
  version := "1".toList
  author := "me".toList
  description := []
  rootDir := "packs/a".toList
  threads := [openThread]

theorem openPack_accepted :
    parsePackManifest sampleFiles (fun _ => .ok openManifest) (fun _ => false) "packs/a".toList
      "packs/a/pack.toml".toList = .ok openPack := by
  rfl

private theorem openThread_listed : openThread ∈ openPack.threads := List.mem_singleton_self _

theorem merge_agrees_iff_replaced :
    (validateTvars openArgs (mergeTvars openArgs (BTreeMap.extend ∅ [("window_s".toList, "5".toList)])) = .ok () ↔
      validateTvars openArgs (BTreeMap.extend ∅ [("window_s".toList, "5".toList)]) = .ok ()) := by
  apply (merge_agrees_iff openPack_accepted openThread_listed (by decide) _).mpr
  apply Or.inr
  intro a member _
  obtain rfl : a = ⟨"window_s".toList, .int, [], []⟩ := by simpa [openThread, openArgs] using member
  simp

theorem open_thread_cannot_run :
    parsePackManifest sampleFiles (fun _ => .ok openManifest) (fun _ => false) "packs/a".toList
        "packs/a/pack.toml".toList = .ok openPack ∧
      openThread ∈ openPack.threads ∧ (openThread.args.map ArgSpec.name).Nodup ∧
      validateTvars openThread.args ∅ = .ok () ∧
      validateTvars openThread.args (mergeTvars openThread.args ∅) =
        .error "tvar window_s expects int, got ".toList := by
  refine ⟨openPack_accepted, openThread_listed, by decide, rfl, ?_⟩
  decide

end HawkTui.Proofs.Tvars
