import Mathlib.Data.List.TakeWhile
import Mathlib.Tactic.Common

/-! The maximal runs of a list: the stretches of elements with a property that
nothing with it stands next to. -/

namespace HawkTui.Lib.Runs

variable {α : Type u} {p : α → Bool} {items run before after : List α}

def runs (p : α → Bool) (items : List α) : List (List α) :=
  (items.splitOnP fun a => !p a).filter fun run => !run.isEmpty

/-- All of the run has the property, and neither neighbour does. -/
structure Stands (p : α → Bool) (before run after : List α) : Prop where
  inside : ∀ a ∈ run, p a = true
  left : ∀ a, before.getLast? = some a → p a = false
  right : ∀ a, after.head? = some a → p a = false

theorem Stands.mem_splitOnP (stands : Stands p before run after) :
    run ∈ (before ++ run ++ after).splitOnP fun a => !p a := by
  have kept : ∀ a ∈ run, (!p a) = false := fun a member => by rw [stands.inside a member]; rfl
  have first : run ∈ (run ++ after).splitOnP fun a => !p a := by
    cases after with
    | nil =>
      rw [List.append_nil, List.splitOnP_eq_singleton kept]
      exact List.mem_singleton_self run
    | cons sep rest =>
      rw [List.splitOnP_append_cons_of_forall_mem kept sep (by simp [stands.right sep rfl])]
      exact List.mem_cons_self
  rcases List.eq_nil_or_concat before with rfl | ⟨front, sep, rfl⟩
  · exact first
  · have parts : front.concat sep ++ run ++ after = front ++ sep :: (run ++ after) := by simp
    rw [parts, List.splitOnP_append_cons _ _ (by simp [stands.left sep (by simp)])]
    exact List.mem_append_right _ first

/-- Where the property is lost for the first time. -/
theorem forall_or_cut (p : α → Bool) (items : List α) : (∀ a ∈ items, p a = true) ∨
    ∃ front sep rest, items = front ++ sep :: rest ∧ (∀ a ∈ front, p a = true) ∧ p sep = false := by
  have whole := List.takeWhile_append_dropWhile (p := p) (l := items)
  have inside : ∀ a ∈ items.takeWhile p, p a = true := fun a member => List.mem_takeWhile_imp member
  cases rest : items.dropWhile p with
  | nil =>
    rw [rest, List.append_nil] at whole
    rw [whole] at inside
    exact Or.inl inside
  | cons sep others =>
    have outside := List.head_dropWhile_not p (l := items) (by simp [rest])
    rw [rest] at whole
    exact Or.inr ⟨_, sep, others, whole.symm, inside, by simpa [rest] using outside⟩

theorem exists_stands (member : run ∈ items.splitOnP fun a => !p a) :
    ∃ before after, items = before ++ run ++ after ∧ Stands p before run after := by
  -- by length: the first piece is cut off, and any other is one of the rest
  induction size : items.length using Nat.strongRecOn generalizing items with
  | ind n ih =>
    rcases forall_or_cut p items with all | ⟨front, sep, rest, rfl, inside, outside⟩
    · rw [List.splitOnP_eq_singleton (by simpa using all), List.mem_singleton] at member
      subst member
      exact ⟨[], [], by simp, all, by simp, by simp⟩
    · rw [List.splitOnP_append_cons_of_forall_mem (by simpa using inside) sep (by simp [outside])] at member
      rcases List.mem_cons.mp member with rfl | later
      · refine ⟨[], sep :: rest, rfl, inside, by simp, ?_⟩
        intro a first
        cases first
        exact outside
      · have shorter : rest.length < n := by
          rw [List.length_append, List.length_cons] at size
          omega
        obtain ⟨before, after, rfl, stands⟩ := ih _ shorter later rfl
        refine ⟨front ++ sep :: before, after, by simp, stands.inside, ?_, stands.right⟩
        intro a last
        rcases List.eq_nil_or_concat before with rfl | ⟨others, other, rfl⟩
        · obtain rfl : sep = a := by simpa using last
          exact outside
        · have ends : front ++ sep :: others.concat other = (front ++ sep :: others) ++ [other] := by simp
          rw [ends, List.getLast?_concat] at last
          exact stands.left a (by simpa using last)

/-- The runs are the non-empty stretches that stand alone. -/
theorem mem_runs_iff : run ∈ runs p items ↔
    run ≠ [] ∧ ∃ before after, items = before ++ run ++ after ∧ Stands p before run after := by
  rw [runs, List.mem_filter, and_comm]
  constructor
  · rintro ⟨present, member⟩
    exact ⟨by simpa using present, exists_stands member⟩
  · rintro ⟨present, before, after, rfl, stands⟩
    exact ⟨by simpa using present, stands.mem_splitOnP⟩

theorem runs_append_of_outside (outside : ∀ a ∈ before, p a = false) (items : List α) :
    runs p (before ++ items) = runs p items := by
  induction before with
  | nil => rfl
  | cons a rest ih =>
    obtain ⟨first, others⟩ := List.forall_mem_cons.mp outside
    have apart : (a :: (rest ++ items)).splitOnP (fun a => !p a) = [] :: (rest ++ items).splitOnP fun a => !p a :=
      List.splitOnP_append_cons [] (rest ++ items) (by simp [first])
    rw [List.cons_append, ← ih others, runs, apart]
    simp [runs]

theorem runs_of_append_outside (outside : ∀ a ∈ after, p a = false) (items : List α) :
    runs p (items ++ after) = runs p items := by
  cases after with
  | nil => rw [List.append_nil]
  | cons a rest =>
    obtain ⟨first, others⟩ := List.forall_mem_cons.mp outside
    have none : runs p rest = [] := by
      have alone := runs_append_of_outside others []
      rw [List.append_nil] at alone
      rw [alone]
      rfl
    rw [runs, List.splitOnP_append_cons _ _ (by simp [first]), List.filter_append, ← runs, ← runs, none, List.append_nil]

end HawkTui.Lib.Runs
