import Mathlib.Logic.Function.Basic
import Mathlib.Data.List.Basic

/-! Interleavings of a family of lists. A merge takes one head at a time, so
each source keeps its order and nothing is lost or repeated. -/

namespace HawkTui.Lib

variable {ι : Type u} {α : Type v} {β : Type w} [DecidableEq ι]

inductive Merge : (ι → List α) → List α → Prop where
  | done {sources : ι → List α} (empty : ∀ i, sources i = []) : Merge sources []
  | take {sources : ι → List α} {merged : List α} (i : ι) (item : α) (rest : List α)
      (head : sources i = item :: rest) (later : Merge (Function.update sources i rest) merged) :
      Merge sources (item :: merged)

namespace Merge

theorem map (f : α → β) {sources : ι → List α} {merged : List α} (merge : Merge sources merged) :
    Merge (fun i => (sources i).map f) (merged.map f) := by
  induction merge with
  | done empty => exact .done fun i => by simp [empty i]
  | @take sources merged i item rest head later ih =>
    refine .take i (f item) (rest.map f) (by simp [head]) ?_
    have same : (fun j => (Function.update sources i rest j).map f) =
        Function.update (fun j => (sources j).map f) i (rest.map f) := by
      funext j
      by_cases here : j = i
      · subst here
        simp
      · simp [here]
    rwa [same] at ih

/-- A merge of images comes from a merge of the originals. -/
theorem lift (f : α → β) {sources : ι → List α} {images : ι → List β} {merged : List β}
    (merge : Merge images merged) (imaged : ∀ i, images i = (sources i).map f) :
    ∃ originals, Merge sources originals ∧ merged = originals.map f := by
  induction merge generalizing sources with
  | done empty =>
    refine ⟨[], .done fun i => ?_, rfl⟩
    simpa [imaged i] using empty i
  | @take images merged i image rest head later ih =>
    rw [imaged i] at head
    obtain ⟨item, items, found, rfl, rfl⟩ := List.map_eq_cons_iff.mp head
    have updated : ∀ j, Function.update images i (items.map f) j = (Function.update sources i items j).map f := by
      intro j
      by_cases here : j = i
      · subst here
        simp
      · simp [here, imaged j]
    obtain ⟨originals, merge, rfl⟩ := ih updated
    exact ⟨item :: originals, .take i item items found merge, rfl⟩

theorem mem_source {sources : ι → List α} {merged : List α} (merge : Merge sources merged) {item : α}
    (member : item ∈ merged) : ∃ i, item ∈ sources i := by
  induction merge with
  | done empty => cases member
  | @take sources merged i head rest found later ih =>
    rcases List.mem_cons.mp member with rfl | tail
    · exact ⟨i, by simp [found]⟩
    · obtain ⟨j, inside⟩ := ih tail
      by_cases here : j = i
      · subst here
        simp only [Function.update_self] at inside
        exact ⟨j, by simp [found, inside]⟩
      · exact ⟨j, by simpa [here] using inside⟩

end Merge

end HawkTui.Lib
