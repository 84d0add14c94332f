import HawkTui.Proofs.FrameCodec
import HawkTui.Hawkd.UnixIngest

/-! The ingest loop over a whole connection. A rejected line is answered with an
error frame, and cutting its text at a byte offset is what can bring the thread
down. -/

namespace HawkTui.Proofs.Ingest
open Lib Text Utf8 HawkFrame UnixIngest FrameCodec

variable {rfc : Rfc3339} {table : DebugTable} {ingestPath : Text}

/-- The lines a connection's loop gets to, each with its position. -/
def reached (rfc : Rfc3339) (strict : Bool) : Nat → List Text → List (Nat × Text)
  | _, [] => []
  | k, line :: rest =>
    if strict ∧ Rejected rfc line then [(k, line)] else (k, line) :: reached rfc strict (k + 1) rest

/-- What the error frame may quote: the line, or its first 240 bytes and dots. -/
def Quotes (line raw : Text) : Prop :=
  (byteLen line ≤ 240 ∧ raw = line) ∨
    (240 < byteLen line ∧ ∃ front, front <+: line ∧ byteLen front ≤ 240 ∧ raw = front ++ "...".toList)

structure ErrorFrame (line : Text) (now : OffsetDateTime) (frame : HawkFrame) : Prop where
  ts : frame.ts = some now
  kind : frame.kind = "RECEIPT_EVENT".toList
  scope : frame.scope = "hawkd".toList
  id : frame.id = "ingest".toList
  level : frame.level = .warn
  msg : frame.msg = "ingest parse error".toList
  raw : ∃ raw, frame.kv["raw".toList]? = some raw ∧ Quotes line raw

/-- The right message for one line: its frame again, or an error frame. -/
def Answers (rfc : Rfc3339) (clock : Nat → OffsetDateTime) (item : Nat × Text) (message : Bytes) : Prop :=
  match parseTsvLine rfc item.2 with
  | .ok (some frame) => message = lineBytes rfc frame (clock item.1)
  | .ok none => False
  | .error _ => ∃ frame, ErrorFrame item.2 (clock item.1) frame ∧ message = lineBytes rfc frame (clock item.1)

/-- The loop gets to its end, with one message for each line that is not
ignored among those it should get to. -/
def Serves (rfc : Rfc3339) (strict : Bool) (clock : Nat → OffsetDateTime) (lines : List Text) (sent : Sent) : Prop :=
  sent.panicked = false ∧
    List.Forall₂ (Answers rfc clock) ((reached rfc strict 0 lines).filter (¬ Ignored ·.2)) sent.messages

/-- Cutting the line at 240 bytes does not fall inside a character. -/
def Cuttable (line : Text) : Prop := byteLen line ≤ 240 ∨ IsCharBoundary line 240

instance (line : Text) : Decidable (Cuttable line) := inferInstanceAs (Decidable (_ ∨ _))

private theorem clipRaw_eq_none_iff (line : Text) : clipRaw line = none ↔ ¬ Cuttable line := by
  unfold clipRaw Cuttable
  split
  next long =>
    have cut := truncate_isSome_iff line 240
    rw [Option.map_eq_none_iff, ← Option.not_isSome_iff_eq_none, cut]
    have short : ¬ byteLen line < 240 := by omega
    have fits : ¬ byteLen line ≤ 240 := by omega
    simp [short, fits]
  next short => simp [Nat.not_lt.mp short]

private theorem clipRaw_quotes {line raw : Text} (clipped : clipRaw line = some raw) : Quotes line raw := by
  unfold clipRaw at clipped
  split at clipped
  next long =>
    obtain ⟨front, cut, rfl⟩ := Option.map_eq_some_iff.mp clipped
    obtain ⟨start, length⟩ := truncate_spec cut (by omega)
    exact Or.inr ⟨long, front, start, by omega, rfl⟩
  next short =>
    cases clipped
    exact Or.inl ⟨by omega, rfl⟩

theorem parseErrorFrame_eq_none_iff (now : OffsetDateTime) (line err : Text) :
    parseErrorFrame now ingestPath line err = none ↔ ¬ Cuttable line := by
  rw [← clipRaw_eq_none_iff]
  cases clipped : clipRaw line with
  | none => simp [parseErrorFrame, clipped]
  | some raw => simp [parseErrorFrame, clipped]

theorem parseErrorFrame_spec {now : OffsetDateTime} {line err : Text} {frame : HawkFrame}
    (built : parseErrorFrame now ingestPath line err = some frame) : ErrorFrame line now frame := by
  cases clipped : clipRaw line with
  | none => simp [parseErrorFrame, clipped] at built
  | some raw =>
    simp only [parseErrorFrame, clipped, Option.bind_eq_bind, Option.bind_some, Option.pure_def,
      Option.some.injEq] at built
    subst built
    exact ⟨rfl, rfl, rfl, rfl, rfl, rfl, raw, by simp, clipRaw_quotes clipped⟩

section Loop
variable {strict : Bool} {clock : Nat → OffsetDateTime}

/-- The loop panics on the first line it cannot cut. -/
theorem loop_panicked_iff (k : Nat) (lines : List Text) :
    (handleIngestLines rfc table ingestPath strict clock k (lines.map some)).panicked = false ↔
      ∀ item ∈ reached rfc strict k lines, Rejected rfc item.2 → Cuttable item.2 := by
  induction lines generalizing k with
  | nil => simp [handleIngestLines, reached]
  | cons line rest ih =>
    simp only [List.map_cons, handleIngestLines, reached]
    cases parsed : parseTsvLine rfc line with
    | ok found =>
      have kept : ¬ Rejected rfc line := by simp [Rejected, parsed]
      cases found with
      | none => simp [kept, ih]
      | some frame => simp [kept, Sent.after, ih]
    | error e =>
      have rejected : Rejected rfc line := ⟨e, parsed⟩
      cases built : parseErrorFrame (clock k) ingestPath line (e.debug table) with
      | none =>
        have stuck := (parseErrorFrame_eq_none_iff _ _ _).mp built
        cases strict <;> simp [rejected, stuck, built]
      | some frame =>
        have cuttable : Cuttable line := by
          by_contra stuck
          rw [(parseErrorFrame_eq_none_iff _ _ _).mpr stuck] at built
          cases built
        cases strict <;> simp [rejected, cuttable, built, Sent.after, ih]

/-- Until it panics, the loop answers line by line. -/
theorem loop_answers (k : Nat) (lines : List Text)
    (alive : (handleIngestLines rfc table ingestPath strict clock k (lines.map some)).panicked = false) :
    List.Forall₂ (Answers rfc clock) ((reached rfc strict k lines).filter (¬ Ignored ·.2))
      (handleIngestLines rfc table ingestPath strict clock k (lines.map some)).messages := by
  induction lines generalizing k with
  | nil => exact .nil
  | cons line rest ih =>
    simp only [List.map_cons, handleIngestLines, reached] at alive ⊢
    cases parsed : parseTsvLine rfc line with
    | ok found =>
      have passed : ¬ Rejected rfc line := by simp [Rejected, parsed]
      simp only [parsed, passed, and_false, ↓reduceIte] at alive ⊢
      cases found with
      | none =>
        rw [List.filter_cons_of_neg (by simpa using ignored_of_parse_none parsed)]
        exact ih _ alive
      | some frame =>
        rw [List.filter_cons_of_pos (by simpa using (accepted_columns parsed).1)]
        exact .cons (by simp [Answers, parsed]) (ih _ alive)
    | error e =>
      have rejected : Rejected rfc line := ⟨e, parsed⟩
      have kept : ¬ Ignored line := by
        intro ignored
        rw [parse_ignored ignored] at parsed
        cases parsed
      simp only [parsed] at alive ⊢
      cases built : parseErrorFrame (clock k) ingestPath line (e.debug table) with
      | none => simp [built] at alive
      | some frame =>
        have answer : Answers rfc clock (k, line) (lineBytes rfc frame (clock k)) := by
          simp only [Answers, parsed]
          exact ⟨frame, parseErrorFrame_spec built, rfl⟩
        simp only [built, rejected, and_true] at alive ⊢
        cases strict with
        | true =>
          rw [if_pos rfl, List.filter_cons_of_pos (by simpa using kept)]
          exact .cons answer .nil
        | false =>
          rw [if_neg (by simp), List.filter_cons_of_pos (by simpa using kept)]
          exact .cons answer (ih _ alive)

end Loop

/-- A connection is served to its end exactly when every rejected line it gets
to is short or has a character boundary at byte 240. -/
theorem serves_iff (rfc : Rfc3339) (table : DebugTable) (ingestPath : Text) (strict : Bool)
    (clock : Nat → OffsetDateTime) (stream : Bytes) (lines : List Text) (read : bufLines stream = lines.map some) :
    Serves rfc strict clock lines (handleIngestClient rfc table ingestPath strict clock stream) ↔
      ∀ item ∈ reached rfc strict 0 lines, Rejected rfc item.2 → Cuttable item.2 := by
  unfold Serves handleIngestClient
  rw [read, loop_panicked_iff]
  constructor
  · intro served
    exact served.1
  · intro cuttable
    exact ⟨cuttable, loop_answers 0 lines ((loop_panicked_iff 0 lines).mpr cuttable)⟩

def sampleLines : List Text :=
  ["hello".toList, "# note".toList, "2026-02-16T12:34:56Z\tHEALTH\tservice\talpha\tok\talive\tpid=1".toList]

def sampleStream (lines : List Text) : Bytes := (lines.map fun line => encode (line ++ ['\n'])).flatten

theorem serves_iff_short_lines :
    bufLines (sampleStream sampleLines) = sampleLines.map some ∧
      Serves sampleClock false (fun _ => sampleNow) sampleLines
        (handleIngestClient sampleClock (fun _ => false) "/run/hawk.sock".toList false (fun _ => sampleNow)
          (sampleStream sampleLines)) := by
  have read : bufLines (sampleStream sampleLines) = sampleLines.map some := bufLines_encode sampleLines (by decide)
  exact ⟨read, (serves_iff _ _ _ _ _ _ _ read).mpr (by decide)⟩

def splitLine : Text := List.replicate 239 'a' ++ ['é']

theorem split_line_stops_client :
    bufLines (sampleStream [splitLine]) = [some splitLine] ∧
      ¬ Serves sampleClock false (fun _ => sampleNow) [splitLine]
        (handleIngestClient sampleClock (fun _ => false) "/run/hawk.sock".toList false (fun _ => sampleNow)
          (sampleStream [splitLine])) := by
  have read : bufLines (sampleStream [splitLine]) = [some splitLine] :=
    (bufLines_encode [splitLine] (by decide +kernel)).trans (by decide +kernel)
  refine ⟨read, fun served => ?_⟩
  have alive := served.1
  rw [handleIngestClient, read] at alive
  have rejected : Rejected sampleClock splitLine := ⟨.tooFewColumns 1, by decide +kernel⟩
  have cuttable := (loop_panicked_iff 0 [splitLine]).mp alive (0, splitLine) (by simp [reached]) rejected
  exact absurd cuttable (by decide +kernel)

end HawkTui.Proofs.Ingest
