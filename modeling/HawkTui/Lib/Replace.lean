import HawkTui.Lib.Text

/-! What replacing leaves of a text. Taking a word out removes it wherever it stands
as the text is read, and replacing single characters renames them. -/

namespace HawkTui.Lib.Text

/-- The second text is the first without the word, read from left to right. -/
inductive Without (word : Text) : Text → Text → Prop
  | nil : Without word [] []
  | drop {s t : Text} : Without word s t → Without word (word ++ s) t
  | keep {c : Char} {s t : Text} : ¬ word <+: c :: s → Without word s t → Without word (c :: s) (c :: t)

theorem replaceFrom_append (old new passed rest : Text) :
    replaceFrom old new passed.length (passed ++ rest) = replace old new rest := by
  induction passed with
  | nil => rfl
  | cons c passed ih => exact ih

theorem replace_append {old : Text} (present : old ≠ []) (new rest : Text) :
    replace old new (old ++ rest) = new ++ replace old new rest := by
  obtain ⟨c, others, rfl⟩ := List.exists_cons_of_ne_nil present
  have found : (c :: others).isPrefixOf (c :: (others ++ rest)) = true := by simp
  rw [replace, List.cons_append, replaceFrom, if_pos found, List.length_cons, Nat.add_sub_cancel, replaceFrom_append]

theorem replace_cons {old s : Text} {c : Char} (absent : ¬ old <+: c :: s) (new : Text) :
    replace old new (c :: s) = c :: replace old new s := by
  rw [← List.isPrefixOf_iff_prefix] at absent
  rw [replace, replaceFrom, if_neg absent]
  rfl

theorem replace_without {word s t : Text} (present : word ≠ []) (without : Without word s t) : replace word [] s = t := by
  induction without with
  | nil => rfl
  | drop _ ih => rw [replace_append present, ih, List.nil_append]
  | keep absent _ ih => rw [replace_cons absent, ih]

theorem without_replace {word : Text} (present : word ≠ []) (s : Text) : Without word s (replace word [] s) := by
  -- by length, since a removed word goes at once
  induction size : s.length using Nat.strongRecOn generalizing s with
  | ind n ih =>
    cases s with
    | nil => exact .nil
    | cons c rest =>
      by_cases found : word <+: c :: rest
      · obtain ⟨after, whole⟩ := found
        have shorter : after.length < n := by
          have parts := congrArg List.length whole
          have word := List.length_pos_iff.mpr present
          rw [List.length_append] at parts
          omega
        rw [← whole, replace_append present, List.nil_append]
        exact .drop (ih _ shorter after rfl)
      · rw [replace_cons found]
        exact .keep found (ih _ (by rw [← size]; exact Nat.lt_succ_self _) rest rfl)

/-- Removing the word leaves exactly what is left without it. -/
theorem replace_nil_iff {word : Text} (present : word ≠ []) (s t : Text) : replace word [] s = t ↔ Without word s t := by
  constructor
  · rintro rfl
    exact without_replace present s
  · exact replace_without present

theorem replace_char (old new : Char) (s : Text) : replace [old] [new] s = s.map fun c => if c = old then new else c := by
  induction s with
  | nil => rfl
  | cons c rest ih =>
    rw [List.map_cons, ← ih]
    by_cases same : c = old
    · subst same
      rw [if_pos rfl]
      exact replace_append (List.cons_ne_nil _ _) [new] rest
    · rw [if_neg same]
      apply replace_cons
      rw [List.cons_prefix_cons, not_and]
      exact fun other => absurd other.symm same

end HawkTui.Lib.Text
