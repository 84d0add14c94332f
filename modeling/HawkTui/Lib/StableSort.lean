import Mathlib.Data.List.Pairwise
import Mathlib.Order.Compare

/-! Sorting by a comparator. A stable sort of a list whose elements stand in a
strict order already is a sort by the comparator with that order as the last
resort, and no other list is. -/

namespace HawkTui.Lib.StableSort

variable {α : Type u} {cmp tie : α → α → Ordering}

section
variable [Std.TransCmp cmp]

theorem isLE_total (a b : α) : ((cmp a b).isLE || (cmp b a).isLE) = true := by
  have swapped : cmp b a = (cmp a b).swap := Std.OrientedCmp.eq_swap
  rw [swapped]
  cases cmp a b <;> rfl

theorem pairwise_isLE_mergeSort (items : List α) :
    (items.mergeSort fun a b => (cmp a b).isLE).Pairwise fun a b => (cmp a b).isLE = true :=
  List.pairwise_mergeSort (fun _ _ _ => Std.TransCmp.isLE_trans) isLE_total items

/-- Elements that compare equal stay in the order they came in. -/
theorem pairwise_mergeSort_compareLex {items : List α} (strict : items.Pairwise fun a b => tie a b = .lt) :
    (items.mergeSort fun a b => (cmp a b).isLE).Pairwise fun a b => compareLex cmp tie a b = .lt := by
  induction items with
  | nil => simp
  | cons first rest ih =>
    obtain ⟨above, later⟩ := List.pairwise_cons.mp strict
    have ordered : ((first :: rest).mergeSort fun a b => (cmp a b).isLE).Pairwise fun a b => (cmp a b).isLE = true :=
      pairwise_isLE_mergeSort (first :: rest)
    obtain ⟨front, back, whole, parts, smaller⟩ : ∃ front back,
        ((first :: rest).mergeSort fun a b => (cmp a b).isLE) = front ++ first :: back ∧
        (rest.mergeSort fun a b => (cmp a b).isLE) = front ++ back ∧ ∀ b ∈ front, (!(cmp first b).isLE) = true :=
      List.mergeSort_cons (fun _ _ _ => Std.TransCmp.isLE_trans) isLE_total first rest
    have members : ∀ b, b ∈ front ++ back → b ∈ rest := by
      intro b member
      rw [← parts] at member
      exact List.mem_mergeSort.mp member
    -- `first` is put in front of all that it does not exceed, the rest stays as it was
    have kept := ih later
    rw [parts] at kept
    obtain ⟨keptFront, keptBack, across⟩ := List.pairwise_append.mp kept
    rw [whole] at ordered ⊢
    apply List.pairwise_append.mpr
    refine ⟨keptFront, List.pairwise_cons.mpr ⟨?_, keptBack⟩, ?_⟩
    · intro b member
      have below := (List.pairwise_cons.mp (List.pairwise_append.mp ordered).2.1).1 b member
      have tied := above b (members b (List.mem_append_right _ member))
      rw [compareLex, Ordering.then_eq_lt]
      cases order : cmp first b with
      | lt => exact Or.inl rfl
      | eq => exact Or.inr ⟨rfl, tied⟩
      | gt => simp [order] at below
    · intro a member b behind
      rcases List.mem_cons.mp behind with rfl | behind
      · have larger := smaller a member
        have swapped : cmp a b = (cmp b a).swap := Std.OrientedCmp.eq_swap
        rw [compareLex, Ordering.then_eq_lt, swapped]
        left
        cases order : cmp b a <;> simp [order] at larger ⊢
      · exact across a member b behind

end

theorem either_of_pairwise {R : α → α → Prop} {items : List α} (related : items.Pairwise R) {a b : α} (left : a ∈ items)
    (right : b ∈ items) (different : a ≠ b) : R a b ∨ R b a := by
  have symmetric : Std.Symm fun x y => R x y ∨ R y x := ⟨fun _ _ => Or.symm⟩
  have either : items.Pairwise fun x y => R x y ∨ R y x := related.imp fun first => Or.inl first
  exact either.forall left right different

theorem eq_of_perm_of_increasing [Std.OrientedCmp cmp] {items others : List α} (perm : items.Perm others)
    (increasing : items.Pairwise fun a b => cmp a b = .lt) (otherIncreasing : others.Pairwise fun a b => cmp a b = .lt) :
    items = others := by
  apply List.Perm.eq_of_pairwise _ increasing otherIncreasing perm
  intro a b _ _ below above
  have swapped : cmp a b = (cmp b a).swap := Std.OrientedCmp.eq_swap
  rw [swapped, above] at below
  cases below

/-- The first elements of an increasing list are those with few below them. -/
theorem mem_take_iff [Std.OrientedCmp cmp] {items : List α} (increasing : items.Pairwise fun a b => cmp a b = .lt)
    (limit : Nat) (a : α) :
    a ∈ items.take limit ↔ a ∈ items ∧ items.countP (fun b => cmp b a = .lt) < limit := by
  induction items generalizing limit with
  | nil => simp
  | cons first rest ih =>
    obtain ⟨above, later⟩ := List.pairwise_cons.mp increasing
    cases limit with
    | zero => simp
    | succ limit =>
      rw [List.take_succ_cons, List.mem_cons, List.mem_cons, ih later]
      by_cases same : a = first
      · subst same
        have alone : (a :: rest).countP (fun b => cmp b a = .lt) = 0 := by
          rw [List.countP_eq_zero]
          intro b member
          rcases List.mem_cons.mp member with rfl | behind
          · simp [Std.ReflCmp.compare_self]
          · have swapped : cmp b a = (cmp a b).swap := Std.OrientedCmp.eq_swap
            simp [swapped, above b behind]
        simp [alone]
      · simp only [same, false_or]
        apply and_congr_right
        intro member
        rw [List.countP_cons_of_pos (by simp [above a member])]
        omega

end HawkTui.Lib.StableSort
