import HawkTui.Proofs.SmokeBridge

/-! The parser against the written format. The format has exactly seven columns;
the parser asks for at least seven and drops the rest, so a tab inside a message
moves the columns behind it and costs the line its bag. -/

namespace HawkTui.Proofs.Grammar
open Lib Text HawkFrame FrameCodec SmokeBridge

variable {rfc : Rfc3339}

def body (line : Text) : Text := trimEndMatches isLineEnd line

/-- All whitespace, or a comment after whitespace. -/
def Ignorable (s : Text) : Prop := Blank s ∨ ∃ blanks rest, s = blanks ++ '#' :: rest ∧ Blank blanks

/-- No time, or one the `time` crate reads. -/
def Stamped (rfc : Rfc3339) (s : Text) : Prop :=
  ∀ first, (s.splitOn '\t').head? = some first → trim first = [] ∨ (rfc.parse (trim first)).isSome = true

/-- The written format of a frame. -/
def Grammatical (rfc : Rfc3339) (s : Text) : Prop := (s.splitOn '\t').length = 7 ∧ Stamped rfc s

/-- The parser treats the line as the format says. -/
structure Conforms (rfc : Rfc3339) (line : Text) : Prop where
  ignored : parseTsvLine rfc line = .ok none ↔ Ignorable (body line)
  accepted : ¬ Ignorable (body line) →
    ((∃ f, parseTsvLine rfc line = .ok (some f)) ↔ Grammatical rfc (body line))
  rejected : ¬ Ignorable (body line) → ¬ Grammatical rfc (body line) → ∃ e, parseTsvLine rfc line = .error e

theorem startsWith_comment_iff (s : Text) :
    startsWith ['#'] (trimStart s) = true ↔ ∃ blanks rest, s = blanks ++ '#' :: rest ∧ Blank blanks := by
  constructor
  · intro comment
    cases visible : trimStart s with
    | nil => simp [visible, startsWith] at comment
    | cons c rest =>
      obtain rfl : '#' = c := by simpa [visible, startsWith, List.isPrefixOf] using comment
      refine ⟨s.takeWhile isWhitespace, rest, ?_, fun c member => List.mem_takeWhile_imp member⟩
      rw [← visible]
      exact List.takeWhile_append_dropWhile.symm
  · intro comment
    obtain ⟨blanks, rest, whole, blank⟩ := comment
    have front : trimStart s = '#' :: rest := by
      rw [whole, trimStart, List.dropWhile_append_of_pos blank]
      rfl
    simp [front, startsWith, List.isPrefixOf]

theorem ignorable_iff (line : Text) : Ignorable (body line) ↔ Ignored line := by
  rw [Ignorable, Ignored, startsWith_comment_iff]
  rfl

theorem readable_iff (line : Text) :
    Readable rfc (row line) ↔ 7 ≤ ((body line).splitOn '\t').length ∧ Stamped rfc (body line) := by
  simp only [Readable, row, cells, List.length_map, List.head?_map, Option.map_eq_some_iff, Stamped, body]
  constructor
  · intro readable
    obtain ⟨long, stamped⟩ := readable
    exact ⟨long, fun first head => stamped _ ⟨first, head, rfl⟩⟩
  · intro columns
    obtain ⟨long, stamped⟩ := columns
    refine ⟨long, ?_⟩
    rintro c ⟨first, head, rfl⟩
    exact stamped first head

theorem parse_kept (rfc : Rfc3339) {line : Text} (kept : ¬ Ignorable (body line)) :
    ((∃ f, parseTsvLine rfc line = .ok (some f)) ↔
        7 ≤ ((body line).splitOn '\t').length ∧ Stamped rfc (body line)) ∧
      parseTsvLine rfc line ≠ .ok none := by
  have kept' : ¬ Ignored line := fun ignored => kept ((ignorable_iff line).mpr ignored)
  have present : parseTsvLine rfc line ≠ .ok none := fun none => kept' (ignored_of_parse_none none)
  refine ⟨?_, present⟩
  rw [← readable_iff, ← not_iff_not, ← rejected_iff kept', Rejected]
  cases found : parseTsvLine rfc line with
  | error e => simp
  | ok parsed =>
    cases parsed with
    | none => exact absurd found present
    | some f => simp

/-- The parser follows the format on exactly the lines that are ignored, have
at most seven columns or carry a bad time. -/
theorem conforms_iff (rfc : Rfc3339) (line : Text) :
    Conforms rfc line ↔
      Ignorable (body line) ∨ ((body line).splitOn '\t').length ≤ 7 ∨ ¬ Stamped rfc (body line) := by
  by_cases ignorable : Ignorable (body line)
  · have parsed : parseTsvLine rfc line = .ok none := parse_ignored ((ignorable_iff line).mp ignorable)
    refine ⟨fun _ => Or.inl ignorable, fun _ => ⟨?_, ?_, ?_⟩⟩
    · exact ⟨fun _ => ignorable, fun _ => parsed⟩
    · exact fun kept => absurd ignorable kept
    · exact fun kept => absurd ignorable kept
  · obtain ⟨accepts, present⟩ := parse_kept rfc ignorable
    constructor
    · intro conforms
      by_contra other
      simp only [ignorable, false_or, not_or, not_le, not_not] at other
      have accepted := accepts.mpr ⟨by omega, other.2⟩
      have seven := ((conforms.accepted ignorable).mp accepted).1
      omega
    · intro other
      simp only [ignorable, false_or] at other
      have agree : (∃ f, parseTsvLine rfc line = .ok (some f)) ↔ Grammatical rfc (body line) := by
        rw [accepts, Grammatical]
        constructor
        · intro columns
          obtain ⟨long, stamped⟩ := columns
          refine ⟨?_, stamped⟩
          rcases other with short | unstamped
          · omega
          · exact absurd stamped unstamped
        · intro grammatical
          obtain ⟨seven, stamped⟩ := grammatical
          exact ⟨by omega, stamped⟩
      refine ⟨⟨fun none => absurd none present, fun ignored => absurd ignored ignorable⟩, fun _ => agree, fun _ ill => ?_⟩
      cases found : parseTsvLine rfc line with
      | error e => exact ⟨e, rfl⟩
      | ok parsed =>
        cases parsed with
        | none => exact absurd found present
        | some f => exact absurd (agree.mp ⟨f, found⟩) ill

def tabbedLine : Text := "2026-02-16T12:34:56Z\tHEALTH\tservice\talpha\tok\tdisk\tfull\tpid=1".toList

theorem tabbed_line_accepted :
    (∃ f, parseTsvLine sampleClock tabbedLine = .ok (some f) ∧ f.msg = "disk".toList ∧
      f.kv = BTreeMap.extend ∅ [("full".toList, trueText)]) ∧ ¬ Conforms sampleClock tabbedLine := by
  have parsed : parseTsvLine sampleClock tabbedLine = .ok (some {
      ts := some ⟨1771245296000000000, 0⟩
      kind := "HEALTH".toList
      scope := "service".toList
      id := "alpha".toList
      level := .ok
      msg := "disk".toList
      kv := BTreeMap.extend ∅ [("full".toList, trueText)] }) := by decide
  have kept : ¬ Ignorable (body tabbedLine) := by
    rw [ignorable_iff]
    decide
  refine ⟨⟨_, parsed, rfl, rfl⟩, fun conforms => ?_⟩
  have seven := ((conforms.accepted kept).mp ⟨_, parsed⟩).1
  exact absurd seven (by decide)

end HawkTui.Proofs.Grammar
