import HawkTui.Hawk.App
import HawkTui.Hawkd.GrpcHealth
import HawkTui.Lib.Replace

/-! The ids that watches get by default. An id keeps neither the scheme, nor which
of `/`, `:` and `_` stood where, nor where the endpoint ends and the service
begins, so two targets can come to one id and fight for one row of the mirror. -/

namespace HawkTui.Proofs.WatchIds
open Lib Text App GrpcHealth

/-- The spec has no id of its own. -/
def Unnamed (s : Text) : Prop := ∀ part, (s.splitOn ',')[2]? = some part → trim part = []

/-- What a watch connects to and asks for. -/
def target (mode : GrpcTlsMode) (spec : WatchSpec) : Text × Text := (normalizeEndpointUri spec.endpoint mode, spec.service)

def rowOf (f : HawkFrame) : Text := entityKey f.scope f.id

/-- Watches on different targets have different ids, and none of their frames
meet in a row. -/
structure Separates (mode : GrpcTlsMode) (a b : WatchSpec) : Prop where
  ids : target mode a ≠ target mode b → a.id ≠ b.id
  rows : target mode a ≠ target mode b → ∀ cfg now now' st st',
    rowOf (statusFrame a cfg now st) ≠ rowOf (statusFrame b cfg now' st')

/-- The endpoint without its schemes. -/
def Bare (endpoint bare : Text) : Prop :=
  ∃ rest, Without "http://".toList endpoint rest ∧ Without "https://".toList rest bare

def label (bare service : Text) : Text := if service = [] then bare else bare ++ '.' :: service

/-- The characters that an id does not tell apart. -/
def Joint (c : Char) : Prop := c = '/' ∨ c = ':' ∨ c = '_'

def Alike (c d : Char) : Prop := c = d ∨ Joint c ∧ Joint d

/-- The labels of the specs are alike at every place. -/
def LookAlike (a b : WatchSpec) : Prop := ∃ bare bare', Bare a.endpoint bare ∧ Bare b.endpoint bare' ∧
  List.Forall₂ Alike (label bare a.service) (label bare' b.service)

def flat (c : Char) : Char := if c = '/' ∨ c = ':' then '_' else c

theorem replace_flat (s : Text) : replace [':'] ['_'] (replace ['/'] ['_'] s) = s.map flat := by
  rw [replace_char, replace_char, List.map_map]
  apply List.map_congr_left
  intro c _
  unfold flat
  by_cases slash : c = '/'
  · simp [slash]
  · simp [slash]

theorem flat_eq_joint_iff (c : Char) : flat c = '_' ↔ Joint c := by
  unfold flat Joint
  split
  next changed => simp [← or_assoc, changed]
  next kept => simp [← or_assoc, kept]

theorem flat_of_not_joint {c : Char} (apart : ¬ Joint c) : flat c = c := by
  rw [flat, if_neg]
  exact fun changed => apart (changed.imp id Or.inl)

theorem flat_eq_iff (c d : Char) : flat c = flat d ↔ Alike c d := by
  unfold Alike
  by_cases left : Joint c
  · rw [(flat_eq_joint_iff c).mpr left, eq_comm, flat_eq_joint_iff]
    constructor
    · intro right
      exact Or.inr ⟨left, right⟩
    · rintro (rfl | both)
      · exact left
      · exact both.2
  · rw [flat_of_not_joint left]
    by_cases right : Joint d
    · rw [(flat_eq_joint_iff d).mpr right]
      constructor
      · rintro rfl
        exact absurd (Or.inr (Or.inr rfl)) left
      · rintro (rfl | both)
        · exact absurd right left
        · exact absurd both.1 left
    · rw [flat_of_not_joint right]
      simp [left]

theorem bare_iff (endpoint bare : Text) :
    Bare endpoint bare ↔ replace "https://".toList [] (replace "http://".toList [] endpoint) = bare := by
  simp only [Bare, ← replace_nil_iff (by decide : "http://".toList ≠ []), ← replace_nil_iff (by decide : "https://".toList ≠ [])]
  simp

/-- The id is the label, with the three characters made one. -/
theorem defaultId_eq {endpoint bare : Text} (clear : Bare endpoint bare) (service : Text) :
    defaultId endpoint service = "grpc.".toList ++ (label bare service).map flat := by
  rw [bare_iff] at clear
  simp only [defaultId, replace_flat, clear]
  cases service with
  | nil => rfl
  | cons c rest =>
    rw [label, if_neg (List.cons_ne_nil _ _), List.map_append, List.append_assoc]
    rfl

theorem defaultId_eq_iff (a b : WatchSpec) :
    defaultId a.endpoint a.service = defaultId b.endpoint b.service ↔ LookAlike a b := by
  obtain ⟨left, clearLeft⟩ : ∃ bare, Bare a.endpoint bare := ⟨_, (bare_iff _ _).mpr rfl⟩
  obtain ⟨right, clearRight⟩ : ∃ bare, Bare b.endpoint bare := ⟨_, (bare_iff _ _).mpr rfl⟩
  have alike : (label left a.service).map flat = (label right b.service).map flat ↔
      List.Forall₂ Alike (label left a.service) (label right b.service) := by
    rw [← List.forall₂_eq_eq_eq, List.forall₂_map_left_iff, List.forall₂_map_right_iff]
    simp only [flat_eq_iff]
  rw [defaultId_eq clearLeft, defaultId_eq clearRight, List.append_cancel_left_eq, alike]
  constructor
  · intro same
    exact ⟨left, right, clearLeft, clearRight, same⟩
  · rintro ⟨left', right', first, second, same⟩
    rw [bare_iff] at clearLeft clearRight first second
    rwa [← clearLeft, ← clearRight, first, second]

theorem id_of_unnamed {s : Text} {spec : WatchSpec} (unnamed : Unnamed s) (parsed : parseWatchSpec s = .ok spec) :
    spec.id = defaultId spec.endpoint spec.service := by
  simp only [parseWatchSpec] at parsed
  split at parsed
  · cases parsed
  · cases parsed
    cases third : (s.splitOn ',')[2]? with
    | none => simp
    | some part => simp [unnamed part third]

theorem rowOf_eq_iff (a b : WatchSpec) (cfg : GrpcWatchConfig) (now now' : OffsetDateTime) (st st' : ServingStatus) :
    rowOf (statusFrame a cfg now st) = rowOf (statusFrame b cfg now' st') ↔ a.id = b.id := by
  have row : ∀ (spec : WatchSpec) now st, rowOf (statusFrame spec cfg now st) = "grpc".toList ++ ':' :: spec.id :=
    fun _ _ _ => rfl
  rw [row, row, List.append_cancel_left_eq, List.cons.injEq, and_iff_right rfl]

/-- Default ids keep two watches apart exactly when their targets are the same
anyway or their labels can be told apart. -/
theorem default_ids_separate_iff (mode : GrpcTlsMode) (s t : Text) (a b : WatchSpec) (left : parseWatchSpec s = .ok a)
    (right : parseWatchSpec t = .ok b) (unnamed : Unnamed s) (unnamed' : Unnamed t) :
    Separates mode a b ↔ target mode a = target mode b ∨ ¬ LookAlike a b := by
  have same : a.id = b.id ↔ LookAlike a b := by
    rw [id_of_unnamed unnamed left, id_of_unnamed unnamed' right]
    exact defaultId_eq_iff a b
  constructor
  · intro separates
    by_cases one : target mode a = target mode b
    · exact Or.inl one
    · exact Or.inr fun alike => separates.ids one (same.mpr alike)
  · intro apart
    have different : target mode a ≠ target mode b → a.id ≠ b.id := by
      intro two
      rcases apart with one | unlike
      · exact absurd one two
      · exact fun equal => unlike (same.mp equal)
    refine ⟨different, ?_⟩
    intro two cfg now now' st st' meet
    exact different two ((rowOf_eq_iff a b cfg now now' st st').mp meet)

theorem unnamed_of_short {s : Text} (short : (s.splitOn ',')[2]? = none) : Unnamed s := by
  intro part found
  rw [short] at found
  cases found

theorem ports_separate :
    Separates .off ⟨"web:80".toList, [], "grpc.web_80".toList⟩ ⟨"web:81".toList, [], "grpc.web_81".toList⟩ := by
  apply (default_ids_separate_iff .off "web:80".toList "web:81".toList _ _ (by decide) (by decide)
    (unnamed_of_short (by decide)) (unnamed_of_short (by decide))).mpr
  right
  rw [← defaultId_eq_iff]
  decide

/-- The service `api` at `web`. -/
def webApi : WatchSpec := ⟨"web".toList, "api".toList, "grpc.web.api".toList⟩

/-- The whole server at `web.api`. -/
def webDotApi : WatchSpec := ⟨"web.api".toList, [], "grpc.web.api".toList⟩

theorem dotted_targets_share_row :
    parseWatchSpec "web,api".toList = .ok webApi ∧ parseWatchSpec "web.api".toList = .ok webDotApi ∧
      Unnamed "web,api".toList ∧ Unnamed "web.api".toList ∧
      target .off webApi ≠ target .off webDotApi ∧ webApi.id = webDotApi.id ∧ ¬ Separates .off webApi webDotApi := by
  have different : target .off webApi ≠ target .off webDotApi := by decide
  refine ⟨by decide, by decide, unnamed_of_short (by decide), unnamed_of_short (by decide), different, rfl, ?_⟩
  intro separates
  exact separates.ids different rfl

end HawkTui.Proofs.WatchIds
