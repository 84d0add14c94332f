import HawkTui.Hawk.Io
import HawkTui.Proofs.FrameCodec

/-! The mirror's two sources on one byte stream. They hand the parser different
texts for a line, with its terminator and without, and still say the same. -/

namespace HawkTui.Proofs.Sources
open Lib Text Utf8 HawkFrame Io FrameCodec

variable (rfc : Rfc3339) (strict : Bool)

/-- What a source sends read by read, up to the read it stops at. -/
def readerTrace : List (Option Text) → List (List IngestMsg)
  | [] => []
  | none :: _ => [[.ioError invalidUtf8]]
  | some line :: rest =>
    match parseTsvLine rfc line with
    | .ok (some f) => [.frame f] :: readerTrace rest
    | .ok none => [] :: readerTrace rest
    | .error e => [.parseError e] :: if strict then [] else readerTrace rest

theorem readerTrace_flatten (reads : List (Option Text)) :
    (readerTrace rfc strict reads).flatten = readerLoop rfc strict reads := by
  induction reads with
  | nil => rfl
  | cons read rest ih =>
    cases read with
    | none => rfl
    | some line =>
      simp only [readerTrace, readerLoop]
      cases parseTsvLine rfc line with
      | error e =>
        cases strict with
        | true => rfl
        | false => simpa using ih
      | ok found =>
        cases found with
        | none => simpa using ih
        | some f => simpa using ih

/-- Stripping the terminators changes nothing at any read. -/
theorem readerTrace_chomp (reads : List (Option Text)) :
    readerTrace rfc strict (reads.map (·.map chomp)) = readerTrace rfc strict reads := by
  induction reads with
  | nil => rfl
  | cons read rest ih =>
    cases read with
    | none => rfl
    | some line => simp only [List.map_cons, Option.map_some, readerTrace, parse_chomp, ih]

/-- On any byte stream both sources send the same messages, and at the same
line each: a source stops after as many reads as it has entries. -/
theorem sources_agree (stream : Bytes) :
    spawnStdinReader rfc strict stream = spawnUnixReader rfc strict stream ∧
      readerTrace rfc strict (readLines stream) = readerTrace rfc strict (bufLines stream) := by
  have same : readerTrace rfc strict (readLines stream) = readerTrace rfc strict (bufLines stream) :=
    (readerTrace_chomp rfc strict (readLines stream)).symm
  refine ⟨?_, same⟩
  rw [spawnStdinReader, spawnUnixReader, ← readerTrace_flatten, ← readerTrace_flatten, same]

end HawkTui.Proofs.Sources
