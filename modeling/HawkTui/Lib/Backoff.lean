import Mathlib.Tactic.Common

/-! Loops that pause between two tries. The pause doubles up to a limit, and a try
can put it back to the shortest one before it is taken. -/

namespace HawkTui.Lib.Backoff

variable {α : Type u}

def pauses (low high : Nat) (resets : α → Bool) : Nat → List α → List Nat
  | _, [] => []
  | pause, item :: rest =>
    let ms := if resets item then low else pause
    ms :: pauses low high resets (min (2 * ms) high) rest

/-- The pauses taken start over after every good try, and double after every bad one. -/
structure Paced (low high : Nat) (good bad : α → Prop) (items : List α) (taken : List Nat) : Prop where
  bounded : ∀ ms ∈ taken, low ≤ ms ∧ ms ≤ high
  first : ∀ ms, taken[0]? = some ms → ms = low
  reset : ∀ (i : Nat) item ms, items[i]? = some item → taken[i]? = some ms → good item → ms = low
  doubled : ∀ (i : Nat) item before ms, items[i + 1]? = some item → taken[i]? = some before →
    taken[i + 1]? = some ms → bad item → ms = min (2 * before) high

variable {low high : Nat} {resets : α → Bool}

theorem length_pauses (pause : Nat) (items : List α) : (pauses low high resets pause items).length = items.length := by
  induction items generalizing pause with
  | nil => rfl
  | cons item rest ih => rw [pauses, List.length_cons, List.length_cons, ih]

theorem pauses_bounded {pause : Nat} (above : low ≤ pause) (below : pause ≤ high) (items : List α) :
    ∀ ms ∈ pauses low high resets pause items, low ≤ ms ∧ ms ≤ high := by
  induction items generalizing pause with
  | nil => simp [pauses]
  | cons item rest ih =>
    rw [pauses, List.forall_mem_cons]
    refine ⟨?_, ?_⟩
    · split <;> omega
    · apply ih
      · split <;> omega
      · omega

/-- A try that resets is followed by the shortest pause. -/
theorem pauses_reset {pause i : Nat} {items : List α} {item : α} (found : items[i]? = some item)
    (back : resets item = true) : (pauses low high resets pause items)[i]? = some low := by
  induction items generalizing pause i with
  | nil => simp at found
  | cons first rest ih =>
    rw [pauses]
    cases i with
    | zero =>
      obtain rfl : first = item := by simpa using found
      simp [back]
    | succ i => exact ih (by simpa using found)

/-- Any other is followed by twice the pause before it. -/
theorem pauses_doubled {pause i before : Nat} {items : List α} {item : α} (found : items[i + 1]? = some item)
    (kept : resets item = false) (previous : (pauses low high resets pause items)[i]? = some before) :
    (pauses low high resets pause items)[i + 1]? = some (min (2 * before) high) := by
  induction items generalizing pause i with
  | nil => simp at found
  | cons first rest ih =>
    rw [pauses] at previous ⊢
    cases i with
    | zero =>
      obtain ⟨others, rfl⟩ : ∃ others, rest = item :: others := by
        cases rest with
        | nil => simp at found
        | cons second others =>
          obtain rfl : second = item := by simpa using found
          exact ⟨others, rfl⟩
      obtain rfl := Option.some_inj.mp previous
      rw [pauses]
      simp [kept]
    | succ i => exact ih (by simpa using found) (by simpa using previous)

theorem pauses_zero {items : List α} {ms : Nat} (found : (pauses low high resets low items)[0]? = some ms) : ms = low := by
  cases items with
  | nil => simp [pauses] at found
  | cons item rest => simpa [pauses] using found.symm

/-- A try behind the first has a pause before it. -/
theorem exists_pause_before (room : low ≤ high) {items : List α} {item : α} (member : item ∈ items.tail) :
    ∃ i before, items[i + 1]? = some item ∧ (pauses low high resets low items)[i]? = some before ∧ low ≤ before := by
  obtain ⟨i, found⟩ := List.mem_iff_getElem?.mp member
  rw [List.getElem?_tail] at found
  have later := (List.getElem?_eq_some_iff.mp found).1
  have inside : i < (pauses low high resets low items).length := by
    rw [length_pauses]
    omega
  have above := pauses_bounded (Nat.le_refl low) room items _ (List.getElem_mem inside)
  exact ⟨i, _, found, List.getElem?_eq_getElem inside, above.1⟩

/-- The pauses are as they should be exactly when, after the first try, all good
tries reset them and no bad one does. -/
theorem paced_iff (positive : 0 < low) (room : low < high) {good bad : α → Prop} {items : List α} :
    Paced low high good bad items (pauses low high resets low items) ↔
      (∀ item ∈ items.tail, good item → resets item = true) ∧ ∀ item ∈ items.tail, bad item → resets item = false := by
  constructor
  · intro paced
    -- twice a pause is never the shortest one, so a pause tells whether it was reset
    refine ⟨?_, ?_⟩
    · intro item member fine
      obtain ⟨i, before, found, previous, above⟩ := exists_pause_before (Nat.le_of_lt room) member
      by_contra kept
      have twice := paced.reset (i + 1) item _ found (pauses_doubled found (by simpa using kept) previous) fine
      omega
    · intro item member failed
      obtain ⟨i, before, found, previous, above⟩ := exists_pause_before (Nat.le_of_lt room) member
      by_contra back
      have twice := paced.doubled i item before low found previous (pauses_reset found (by simpa using back)) failed
      omega
  · rintro ⟨restarts, escalates⟩
    have tail : ∀ {i : Nat} {item : α}, items[i + 1]? = some item → item ∈ items.tail := by
      intro i item found
      exact List.mem_iff_getElem?.mpr ⟨i, by rw [List.getElem?_tail, found]⟩
    refine ⟨pauses_bounded (Nat.le_refl low) (Nat.le_of_lt room) items, fun _ => pauses_zero, ?_, ?_⟩
    · intro i item ms found paused fine
      cases i with
      | zero => exact pauses_zero paused
      | succ i =>
        rw [pauses_reset found (restarts item (tail found) fine)] at paused
        exact (Option.some_inj.mp paused).symm
    · intro i item before ms found previous paused failed
      rw [pauses_doubled found (escalates item (tail found) failed) previous] at paused
      exact (Option.some_inj.mp paused).symm

end HawkTui.Lib.Backoff
