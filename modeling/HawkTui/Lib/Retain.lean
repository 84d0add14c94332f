import Mathlib.Data.List.Basic
import Mathlib.Tactic.Common

/-! A loop that walks a vector by index and removes some of the items it
visits. It visits every item once, in order, and keeps the others in place. -/

namespace HawkTui.Lib

variable {α : Type u} {σ : Type v}

/-- `while i < items.len()`: visit the item at `i`, then move on or remove it. -/
def retainLoop (visit : α → σ → Bool × σ) (i : Nat) (items : List α) (state : σ) : List α × σ :=
  if inside : i < items.length then
    let visited := visit items[i] state
    if visited.1 then retainLoop visit (i + 1) items visited.2
    else retainLoop visit i (items.eraseIdx i) visited.2
  else (items, state)
termination_by items.length - i
decreasing_by
  · omega
  · rw [List.length_eraseIdx_of_lt inside]; omega

def sweep (visit : α → σ → Bool × σ) : List α → σ → List α × σ
  | [], state => ([], state)
  | item :: rest, state =>
    let visited := visit item state
    let later := sweep visit rest visited.2
    (if visited.1 then item :: later.1 else later.1, later.2)

private theorem retainLoop_append (visit : α → σ → Bool × σ) (kept items : List α) (state : σ) :
    retainLoop visit kept.length (kept ++ items) state =
      (kept ++ (sweep visit items state).1, (sweep visit items state).2) := by
  induction items generalizing kept state with
  | nil =>
    rw [retainLoop]
    simp [sweep]
  | cons item rest ih =>
    rw [retainLoop, dif_pos (by simp)]
    simp only [List.getElem_append_right (Nat.le_refl _), Nat.sub_self, List.getElem_cons_zero]
    cases keep : (visit item state).1 with
    | true =>
      -- the index moves past the item, which joins the part already walked
      have moved := ih (kept ++ [item]) (visit item state).2
      simp only [List.length_append, List.length_singleton, List.append_assoc, List.singleton_append] at moved
      simp [sweep, keep, moved]
    | false =>
      have shrunk : (kept ++ item :: rest).eraseIdx kept.length = kept ++ rest := by
        simp [List.eraseIdx_append_of_length_le]
      simp [sweep, keep, shrunk, ih]

/-- Removal under the index skips nothing and visits nothing twice. -/
theorem retainLoop_eq_sweep (visit : α → σ → Bool × σ) (items : List α) (state : σ) :
    retainLoop visit 0 items state = sweep visit items state := by
  simpa using retainLoop_append visit [] items state

end HawkTui.Lib
