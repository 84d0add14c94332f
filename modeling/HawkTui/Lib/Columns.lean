import HawkTui.Lib.Text

/-! Columns of a line, read without the whitespace around them. When the
separator is itself whitespace, trimming the line drops its blank columns at
both ends. -/

namespace HawkTui.Lib.Text

variable {sep : Char}

def cells (sep : Char) (s : Text) : List Text := (s.splitOn sep).map trim

/-- A row without the empty cells at its two ends. -/
def core (row : List Text) : List Text := (row.dropWhile List.isEmpty).rdropWhile List.isEmpty

theorem blank_cons {c : Char} {s : Text} : Blank (c :: s) ↔ isWhitespace c = true ∧ Blank s := List.forall_mem_cons

theorem blank_append {a b : Text} : Blank (a ++ b) ↔ Blank a ∧ Blank b := List.forall_mem_append

theorem trimStart_cons {c : Char} (space : isWhitespace c = true) (s : Text) : trimStart (c :: s) = trimStart s := by
  simp [trimStart, space]

theorem trim_cons {c : Char} (space : isWhitespace c = true) (s : Text) : trim (c :: s) = trim s := by
  rw [trim, trimStart_cons space, trim]

theorem trimEnd_concat {c : Char} (space : isWhitespace c = true) (s : Text) : trimEnd (s ++ [c]) = trimEnd s :=
  List.rdropWhile_concat_pos _ _ _ space

theorem trimStart_append {a : Text} (visible : ¬ Blank a) (b : Text) : trimStart (a ++ b) = trimStart a ++ b := by
  induction a with
  | nil => exact absurd (fun _ member => by cases member) visible
  | cons c a ih =>
    cases space : isWhitespace c with
    | true =>
      rw [List.cons_append, trimStart_cons space, trimStart_cons space]
      exact ih fun blank => visible (blank_cons.mpr ⟨space, blank⟩)
    | false => simp [trimStart, space]

theorem trim_concat {c : Char} (space : isWhitespace c = true) (s : Text) : trim (s ++ [c]) = trim s := by
  by_cases blank : Blank s
  · have all : Blank (s ++ [c]) := blank_append.mpr ⟨blank, by simpa [Blank] using space⟩
    rw [(trim_eq_nil_iff _).mpr blank, (trim_eq_nil_iff _).mpr all]
  · rw [trim, trimStart_append blank, trimEnd_concat space, trim]

private theorem cells_cons_sep (s : Text) : cells sep (sep :: s) = [] :: cells sep s := by
  simp only [cells, List.splitOn_cons_eq_if_modifyHead, beq_self_eq_true, ↓reduceIte, List.map_cons]
  rfl

/-- The first cell and the others, with what a character in front does to them. -/
private theorem cells_cons {c : Char} (other : c ≠ sep) (s : Text) :
    ∃ first rest, s.splitOn sep = first :: rest ∧ cells sep (c :: s) = trim (c :: first) :: rest.map trim := by
  cases pieces : s.splitOn sep with
  | nil => exact absurd pieces (List.splitOn_ne_nil sep s)
  | cons first rest =>
    refine ⟨first, rest, rfl, ?_⟩
    simp only [cells, List.splitOn_cons_eq_if_modifyHead, beq_iff_eq, other, ↓reduceIte, pieces, List.modifyHead_cons,
      List.map_cons]

theorem cells_trimStart (space : isWhitespace sep = true) {s : Text} (visible : ¬ Blank s) :
    cells sep (trimStart s) = (cells sep s).dropWhile List.isEmpty := by
  induction s with
  | nil => exact absurd (fun _ member => by cases member) visible
  | cons c s ih =>
    by_cases same : c = sep
    · subst same
      rw [trimStart_cons space, ih fun blank => visible (blank_cons.mpr ⟨space, blank⟩), cells_cons_sep]
      rfl
    · obtain ⟨first, rest, pieces, row⟩ := cells_cons same s
      cases white : isWhitespace c with
      | true =>
        have before : cells sep s = trim first :: rest.map trim := by simp only [cells, pieces, List.map_cons]
        rw [trimStart_cons white, ih fun blank => visible (blank_cons.mpr ⟨white, blank⟩), row, trim_cons white, before]
      | false =>
        have start : trimStart (c :: s) = c :: s := by simp [trimStart, white]
        have present : (trim (c :: first)).isEmpty = false := by
          rw [List.isEmpty_eq_false_iff, ne_eq, trim_eq_nil_iff, blank_cons, white]
          simp
        rw [start, row, List.dropWhile_cons_of_neg (by simp [present])]

/-- The last cell and the others, with what a character behind does to them. -/
private theorem cells_concat {c : Char} (other : c ≠ sep) (s : Text) :
    ∃ front last, s.splitOn sep = front ++ [last] ∧ (s ++ [c]).splitOn sep = front ++ [last ++ [c]] := by
  induction s with
  | nil => exact ⟨[], [], rfl, by simp [List.splitOn_cons_eq_if_modifyHead, other]⟩
  | cons d s ih =>
    obtain ⟨front, last, before, after⟩ := ih
    by_cases same : d = sep
    · refine ⟨[] :: front, last, ?_, ?_⟩
      · simp only [List.splitOn_cons_eq_if_modifyHead, same, beq_self_eq_true, ↓reduceIte, before, List.cons_append]
      · simp only [List.cons_append, List.splitOn_cons_eq_if_modifyHead, same, beq_self_eq_true, ↓reduceIte, after]
    · cases front with
      | nil =>
        refine ⟨[], d :: last, ?_, ?_⟩
        · simp [List.splitOn_cons_eq_if_modifyHead, same, before]
        · simp [List.splitOn_cons_eq_if_modifyHead, same, after]
      | cons first front =>
        refine ⟨(d :: first) :: front, last, ?_, ?_⟩
        · simp [List.splitOn_cons_eq_if_modifyHead, same, before]
        · simp [List.splitOn_cons_eq_if_modifyHead, same, after]

theorem cells_trimEnd (space : isWhitespace sep = true) {s : Text} (visible : ¬ Blank s) :
    cells sep (trimEnd s) = (cells sep s).rdropWhile List.isEmpty := by
  induction s using List.reverseRecOn with
  | nil => exact absurd (fun _ member => by cases member) visible
  | append_singleton s c ih =>
    by_cases same : c = sep
    · subst same
      have row : cells c (s ++ [c]) = cells c s ++ [[]] := by
        simp only [cells, List.splitOn_append_cons_self, List.splitOn_nil, List.map_append, List.map_cons, List.map_nil]
        rfl
      have rest : ¬ Blank s := fun blank => visible (blank_append.mpr ⟨blank, by simpa [Blank] using space⟩)
      rw [trimEnd_concat space, ih rest, row, List.rdropWhile_concat_pos _ _ _ rfl]
    · obtain ⟨front, last, before, after⟩ := cells_concat same s
      cases white : isWhitespace c with
      | true =>
        have row : cells sep (s ++ [c]) = cells sep s := by
          simp only [cells, before, after, List.map_append, List.map_cons, List.map_nil, trim_concat white]
        have rest : ¬ Blank s := fun blank => visible (blank_append.mpr ⟨blank, by simpa [Blank] using white⟩)
        rw [trimEnd_concat white, ih rest, row]
      | false =>
        have finish : trimEnd (s ++ [c]) = s ++ [c] := List.rdropWhile_concat_neg _ _ _ (by simp [white])
        have present : ¬ (trim (last ++ [c])).isEmpty = true := by
          rw [List.isEmpty_iff, trim_eq_nil_iff, blank_append]
          intro blank
          have := blank.2 c (by simp)
          simp [white] at this
        have row : cells sep (s ++ [c]) = front.map trim ++ [trim (last ++ [c])] := by
          simp only [cells, after, List.map_append, List.map_cons, List.map_nil]
        rw [finish, row, List.rdropWhile_concat_neg _ _ _ present]

theorem cells_trim (space : isWhitespace sep = true) {s : Text} (visible : ¬ Blank s) :
    cells sep (trim s) = core (cells sep s) := by
  have kept : ¬ Blank (trimStart s) := by
    intro blank
    apply visible
    rw [← trim_eq_nil_iff, trim]
    exact List.rdropWhile_eq_nil_iff.mpr blank
  rw [trim, cells_trimEnd space kept, cells_trimStart space visible, core]

theorem trim_trimEndMatches {p : Char → Bool} (blank : ∀ c, p c = true → isWhitespace c = true) (s : Text) :
    trim (trimEndMatches p s) = trim s := by
  induction s using List.reverseRecOn with
  | nil => rfl
  | append_singleton s c ih =>
    cases dropped : p c with
    | true =>
      rw [trimEndMatches, List.rdropWhile_concat_pos _ _ _ dropped, trim_concat (blank c dropped)]
      exact ih
    | false => rw [trimEndMatches, List.rdropWhile_concat_neg _ _ _ (by simp [dropped])]

theorem trim_append_cons {a : Text} {c : Char} (first : Trimmed a) (visible : isWhitespace c = false) (b : Text) :
    trim (a ++ c :: b) = a ++ c :: trimEnd b := by
  have start : trimStart (a ++ c :: b) = a ++ c :: b := by
    cases a with
    | nil => simp [trimStart, visible]
    | cons d a => simp [trimStart, ((trimmed_iff _).mp first).1 d rfl]
  rw [trim, start]
  exact trimEndMatches_append_cons visible a b

/-- Around a visible separator, trimming the line is trimming its outer cells. -/
theorem cells_trim_of_visible (visible : isWhitespace sep = false) (s : Text) : cells sep (trim s) = cells sep s := by
  have other : ∀ c, isWhitespace c = true → c ≠ sep := by
    rintro c space rfl
    exact absurd (space.symm.trans visible) (by simp)
  have front : ∀ s, cells sep (trimStart s) = cells sep s := by
    intro s
    induction s with
    | nil => rfl
    | cons c s ih =>
      cases space : isWhitespace c with
      | true =>
        obtain ⟨first, rest, pieces, row⟩ := cells_cons (other c space) s
        rw [trimStart_cons space, ih, row, trim_cons space, cells, pieces, List.map_cons]
      | false => simp [trimStart, space]
  have back : ∀ s, cells sep (trimEnd s) = cells sep s := by
    intro s
    induction s using List.reverseRecOn with
    | nil => rfl
    | append_singleton s c ih =>
      cases space : isWhitespace c with
      | true =>
        obtain ⟨front, last, before, after⟩ := cells_concat (other c space) s
        rw [trimEnd_concat space, ih, cells, cells, before, after, List.map_append, List.map_append, List.map_singleton,
          List.map_singleton, trim_concat space]
      | false => rw [trimEnd, List.rdropWhile_concat_neg _ _ _ (by simp [space])]
  rw [trim, back, front]

end HawkTui.Lib.Text
