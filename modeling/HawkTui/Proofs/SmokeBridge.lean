import HawkTui.Hawk.Awk
import HawkTui.Hawk.Doctor
import HawkTui.Lib.Columns
import HawkTui.Proofs.FrameCodec

/-! The doctor's smoke test against the live bridge. Both read awk's output
line by line, but the doctor trims the line first, and since the separator is
whitespace that takes blank columns away. -/

namespace HawkTui.Proofs.SmokeBridge
open Lib Text Utf8 HawkFrame Awk Doctor FrameCodec

variable {rfc : Rfc3339}

def row (line : Text) : List Text := cells '\t' (trimEndMatches isLineEnd line)

/-- Seven cells, the first of them empty or a timestamp. -/
def Readable (rfc : Rfc3339) (row : List Text) : Prop :=
  7 ≤ row.length ∧ ∀ c, row.head? = some c → c = [] ∨ (rfc.parse c).isSome = true

theorem rejected_iff {line : Text} (kept : ¬ Ignored line) : Rejected rfc line ↔ ¬ Readable rfc (row line) := by
  have length : (row line).length = ((trimEndMatches isLineEnd line).splitOn '\t').length := by simp [row, cells]
  unfold Rejected
  rw [parse_not_ignored kept]
  unfold parseColumns
  split
  next c0 c1 c2 c3 c4 c5 c6 rest split =>
    have long : 7 ≤ (row line).length := by
      rw [length, split]
      simp
    have head : (row line).head? = some (trim c0) := by simp [row, cells, split]
    have stamp : (∃ e, parseTs rfc (trim c0) = .error e) ↔ ¬ (trim c0 = [] ∨ (rfc.parse (trim c0)).isSome = true) := by
      unfold parseTs
      split
      next empty => simp [List.isEmpty_iff.mp empty]
      next present =>
        rw [List.isEmpty_iff] at present
        cases rfc.parse (trim c0) <;> simp [present]
    have errors : (∃ e, (parseTs rfc (trim c0) >>= fun ts => (pure (some ⟨ts, trim c1, trim c2, trim c3, Level.parse c4,
        trim c5, parseKvBag (trim c6)⟩) : Except HawkFrameParseError (Option HawkFrame))) = .error e) ↔
        ∃ e, parseTs rfc (trim c0) = .error e := by
      cases parseTs rfc (trim c0) <;> simp [bind, Except.bind, pure, Except.pure]
    simp only [Readable, long, head, Option.some.injEq, forall_eq', true_and]
    rw [← stamp]
    exact errors
  next short =>
    have few : ¬ 7 ≤ (row line).length := by
      rw [length]
      intro long
      generalize (trimEndMatches isLineEnd line).splitOn '\t' = cols at short long
      rcases cols with _ | ⟨c0, _ | ⟨c1, _ | ⟨c2, _ | ⟨c3, _ | ⟨c4, _ | ⟨c5, _ | ⟨c6, rest⟩⟩⟩⟩⟩⟩⟩
      case cons.cons.cons.cons.cons.cons.cons => exact short _ _ _ _ _ _ _ _ rfl
      all_goals simp at long
    simp [Readable, few]

private theorem trimmed_no_line_end {t : Text} (trimmed : Trimmed t) : trimEndMatches isLineEnd t = t := by
  apply List.rdropWhile_eq_self_iff.mpr
  intro present terminator
  have visible := ((trimmed_iff t).mp trimmed).2 _ (List.getLast?_eq_some_getLast present)
  simp only [isLineEnd, Bool.or_eq_true, beq_iff_eq] at terminator
  rcases terminator with same | same <;> rw [same] at visible <;> exact absurd visible (by decide)

theorem ignored_iff (line : Text) : Ignored line ↔ trim line = [] ∨ startsWith ['#'] (trim line) = true := by
  unfold Ignored
  rw [← trim_eq_nil_iff, trim_line_end]
  by_cases blank : trim line = []
  · simp [blank]
  · -- trimming at the end leaves the first character
    obtain ⟨c, more, whole⟩ := List.exists_cons_of_ne_nil blank
    have kept : trim (trimEndMatches isLineEnd line) <+: trimStart (trimEndMatches isLineEnd line) :=
      List.rdropWhile_prefix _ _
    obtain ⟨rest, start⟩ := kept
    rw [trim_line_end, whole] at start
    rw [whole, ← start]
    simp [startsWith]

/-- The doctor parses the row without its blank ends. -/
theorem rejected_trim_iff {line : Text} (kept : ¬ Ignored line) :
    Rejected rfc (trim line) ↔ ¬ Readable rfc (core (row line)) := by
  have still : ¬ Ignored (trim line) := by
    rw [ignored_iff, trim_trim, ← ignored_iff]
    exact kept
  have visible : ¬ Blank (trimEndMatches isLineEnd line) := fun blank => kept (Or.inl blank)
  have cut : row (trim line) = core (row line) := by
    rw [row, trimmed_no_line_end (trim_trimmed line), ← trim_line_end, cells_trim (by decide) visible, row]
  rw [rejected_iff still, cut]

theorem Readable.of_core {row : List Text} (readable : Readable rfc (core row)) : Readable rfc row := by
  obtain ⟨long, stamp⟩ := readable
  have shorter : (core row).length ≤ row.length :=
    (List.rdropWhile_prefix _ _).length_le.trans (List.dropWhile_suffix _).length_le
  refine ⟨by omega, fun c head => ?_⟩
  cases empty : c.isEmpty with
  | true => exact Or.inl (List.isEmpty_iff.mp empty)
  | false =>
    obtain ⟨rest, rfl⟩ : ∃ rest, row = c :: rest := by
      cases row with
      | nil => cases head
      | cons d rest => exact ⟨rest, by rw [Option.some.inj head]⟩
    have front : core (c :: rest) <+: c :: rest := by
      rw [core, List.dropWhile_cons_of_neg (by simp [empty])]
      exact List.rdropWhile_prefix _ _
    apply stamp
    obtain ⟨tail, whole⟩ := front
    cases kept : core (c :: rest) with
    | nil => simp [kept] at long
    | cons d more =>
      rw [kept, List.cons_append, List.cons.injEq] at whole
      rw [List.head?_cons, whole.1]

theorem validateOutput_ok_iff (printed : List Text) :
    validateOutput rfc printed = .ok () ↔ ∀ line ∈ printed, ¬ Ignored line → Readable rfc (core (row line)) := by
  induction printed with
  | nil => simp [validateOutput]
  | cons line printed ih =>
    rw [List.forall_mem_cons, ← ih, validateOutput]
    by_cases ignored : Ignored line
    · have skipped : ((trim line).isEmpty || isComment (trim line)) = true := by
        simpa [isComment] using (ignored_iff line).mp ignored
      simp [skipped, ignored]
    · have looked : ((trim line).isEmpty || isComment (trim line)) = false := by
        rw [ignored_iff, not_or] at ignored
        simpa [isComment] using ignored
      have verdict := @rejected_trim_iff rfc line ignored
      simp only [looked, Bool.false_eq_true, ↓reduceIte, ignored, not_false_eq_true, forall_const]
      cases parsed : parseTsvLine rfc (trim line) with
      | ok found =>
        have good : Readable rfc (core (row line)) := by
          by_contra bad
          obtain ⟨e, wrong⟩ := verdict.mpr bad
          rw [parsed] at wrong
          cases wrong
        simp [good]
      | error e =>
        have bad := verdict.mp ⟨e, parsed⟩
        simp [bad]

theorem bridge_ok_iff (printed : List Text) :
    invalidLine ∉ (bridgeReaderLoop rfc (printed.map some)).errors ↔
      ∀ line ∈ printed, ¬ Ignored line → Readable rfc (row line) := by
  induction printed with
  | nil => simp [bridgeReaderLoop]
  | cons line printed ih =>
    rw [List.forall_mem_cons, ← ih, List.map_cons, bridgeReaderLoop]
    cases parsed : parseTsvLine rfc line with
    | ok found =>
      have good : ¬ Ignored line → Readable rfc (row line) := by
        intro kept
        by_contra bad
        obtain ⟨e, wrong⟩ := (rejected_iff kept).mpr bad
        rw [parsed] at wrong
        cases wrong
      cases found <;> exact (and_iff_right good).symm
    | error e =>
      have kept : ¬ Ignored line := by
        intro ignored
        rw [parse_ignored ignored] at parsed
        cases parsed
      have bad := (rejected_iff kept).mp ⟨e, parsed⟩
      simp [kept, bad]

/-- The doctor and the bridge agree on an output exactly when the bridge finds a
bad line in it too, or no line with a frame depends on its blank end columns:
without them it still has seven, the first of them a timestamp. -/
theorem smoke_agrees_iff (rfc : Rfc3339) (out : Text) :
    (validateOutput rfc (lines out) = .ok () ↔ invalidLine ∉ (bridgeReader rfc (encode out)).errors) ↔
      (∃ line ∈ lines out, ¬ Ignored line ∧ ¬ Readable rfc (row line)) ∨
        ∀ line ∈ lines out, ¬ Ignored line → Readable rfc (core (row line)) := by
  have bridge : invalidLine ∉ (bridgeReader rfc (encode out)).errors ↔
      ∀ line ∈ lines out, ¬ Ignored line → Readable rfc (row line) := by
    rw [bridgeReader, bufLines_text]
    exact bridge_ok_iff (lines out)
  have stricter : (∀ line ∈ lines out, ¬ Ignored line → Readable rfc (core (row line))) →
      ∀ line ∈ lines out, ¬ Ignored line → Readable rfc (row line) :=
    fun all line member kept => (all line member kept).of_core
  have rejects : (∃ line ∈ lines out, ¬ Ignored line ∧ ¬ Readable rfc (row line)) ↔
      ¬ ∀ line ∈ lines out, ¬ Ignored line → Readable rfc (row line) := by
    simp only [not_forall, exists_prop]
  rw [validateOutput_ok_iff, bridge, rejects]
  tauto

def undatedOutput : Text := "\tHEALTH\tservice\talpha\tok\talive\tpid=1\n".toList

theorem undated_frame_fails_smoke :
    ¬ (validateOutput sampleClock (lines undatedOutput) = .ok () ↔
      invalidLine ∉ (bridgeReader sampleClock (encode undatedOutput)).errors) := by
  rw [bridgeReader, bufLines_text]
  have smoke : validateOutput sampleClock (lines undatedOutput) ≠ .ok () := by decide
  have bridge : invalidLine ∉ (bridgeReaderLoop sampleClock ((lines undatedOutput).map some)).errors := by decide
  exact fun same => smoke (same.mpr bridge)

end HawkTui.Proofs.SmokeBridge
