import Mathlib.Data.List.Induction
import Mathlib.Order.WellFounded
import Mathlib.Tactic.Common

/-! Systems that move by named steps. A step may be disabled in a state, and a run
takes a list of steps one after another. -/

namespace HawkTui.Lib.Machine

variable {σ : Type u} {α : Type v} {step : σ → α → Option σ} {start finish : σ}

def run (step : σ → α → Option σ) (start : σ) (actions : List α) : Option σ := actions.foldlM step start

theorem run_cons {action : α} {rest : List α} :
    run step start (action :: rest) = some finish ↔
      ∃ middle, step start action = some middle ∧ run step middle rest = some finish := by
  rw [run, List.foldlM_cons]
  exact Option.bind_eq_some_iff

theorem run_append {first last : List α} :
    run step start (first ++ last) = some finish ↔
      ∃ middle, run step start first = some middle ∧ run step middle last = some finish := by
  rw [run, List.foldlM_append]
  exact Option.bind_eq_some_iff

/-- What holds at the start and is kept by the steps that are taken holds after the run. -/
theorem invariant_of (holds : σ → Prop) (allowed : α → Prop)
    (keeps : ∀ state action next, allowed action → holds state → step state action = some next → holds next)
    (initial : holds start) {actions : List α} (fits : ∀ action ∈ actions, allowed action)
    (ran : run step start actions = some finish) : holds finish := by
  induction actions generalizing start with
  | nil =>
    cases ran
    exact initial
  | cons action rest ih =>
    obtain ⟨middle, first, later⟩ := run_cons.mp ran
    exact ih (keeps start action middle (fits action (by simp)) initial first) (fun other member => fits other (by simp [member]))
      later

/-- What every step keeps holds after every run. -/
theorem invariant (holds : σ → Prop) (keeps : ∀ state action next, holds state → step state action = some next → holds next)
    (initial : holds start) {actions : List α} (ran : run step start actions = some finish) : holds finish :=
  invariant_of holds (fun _ => True) (fun state action next _ => keeps state action next) initial (fun _ _ => trivial) ran

/-- Steps that each lower a rank are no more than the rank. -/
theorem length_le_rank {rank : σ → Nat} {actions : List α}
    (drops : ∀ state, ∀ action ∈ actions, ∀ next, step state action = some next → rank next < rank state)
    (ran : run step start actions = some finish) : actions.length + rank finish ≤ rank start := by
  induction actions generalizing start with
  | nil =>
    cases ran
    simp
  | cons action rest ih =>
    obtain ⟨middle, first, later⟩ := run_cons.mp ran
    have lower := drops start action (by simp) middle first
    have bound := ih (fun state other member => drops state other (by simp [member])) later
    rw [List.length_cons]
    omega

/-- With steps that each lower a rank, a system can always be brought to where none of
them is possible. The rank may be of any well-founded order. -/
theorem exists_rest {β : Type w} [LT β] [WellFoundedLT β] (rank : σ → β) (allowed : α → Prop)
    (drops : ∀ state action next, allowed action → step state action = some next → rank next < rank state) (start : σ) :
    ∃ actions finish, (∀ action ∈ actions, allowed action) ∧ run step start actions = some finish ∧
      ∀ action, allowed action → step finish action = none := by
  induction start using (InvImage.wf rank wellFounded_lt).induction with
  | _ start ih =>
    by_cases moves : ∃ action next, allowed action ∧ step start action = some next
    · obtain ⟨action, next, fits, moved⟩ := moves
      obtain ⟨actions, finish, all, ran, rest⟩ := ih next (drops start action next fits moved)
      exact ⟨action :: actions, finish, by simpa using ⟨fits, all⟩, run_cons.mpr ⟨next, moved, ran⟩, rest⟩
    · refine ⟨[], start, by simp, rfl, fun action fits => ?_⟩
      rw [Option.eq_none_iff_forall_ne_some]
      exact fun next moved => moves ⟨action, next, fits, moved⟩

end HawkTui.Lib.Machine
