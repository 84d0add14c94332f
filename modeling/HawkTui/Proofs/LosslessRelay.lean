import HawkTui.Proofs.FrameCodec

/-! One relay hop on one line. Every hop decodes a line and emits the frame
again, so the encoder and the decoder have to agree on all accepted texts. -/

namespace HawkTui.Proofs.LosslessRelay
open Lib Text HawkFrame KvBag FrameCodec

variable {rfc : Rfc3339}

/-- The emitted line is one line of seven columns and carries the same frame. -/
def Lossless (rfc : Rfc3339) (f : HawkFrame) (now : OffsetDateTime) : Prop :=
  '\n' ∉ toTsvLine rfc f now ∧ (toTsvLine rfc f now).count '\t' = 6 ∧
    ∃ g, parseTsvLine rfc (toTsvLine rfc f now ++ ['\n']) = .ok (some g) ∧
      g.kind = f.kind ∧ g.scope = f.scope ∧ g.id = f.id ∧ g.level = f.level ∧ g.msg = f.msg ∧
      g.kv = f.kv ∧ g.ts = some (f.ts.getD now)

def bagColumn (line : Text) : Text := trim (((trimEndMatches isLineEnd line).splitOn '\t')[6]?.getD [])

theorem parse_emitted {f : HawkFrame} {now : OffsetDateTime} (decoded : Decoded f)
    (stamp : rfc.RoundTrips (f.ts.getD now)) :
    parseTsvLine rfc (toTsvLine rfc f now ++ ['\n']) = .ok (some (relayed f now)) := by
  rw [parse_append_newline]
  exact parse_toTsvLine decoded stamp

theorem bagColumn_lookup {line : Text} {f : HawkFrame} (accepted : parseTsvLine rfc line = .ok (some f)) :
    f.kv[([] : Text)]? = emptyKeyValue (bagColumn line) := by
  obtain ⟨-, ⟨cols⟩⟩ := accepted_columns accepted
  have column : bagColumn line = trim cols.c6 := by simp [bagColumn, cols.split]
  rw [column, cols.kv]
  exact lookup_empty_key _

/-- A hop is lossless for exactly the lines whose bag does not end up mapping
the empty key to `true`: that entry is written as an empty flag and skipped. -/
theorem lossless_iff (lawful : rfc.Lawful) (now : OffsetDateTime) (stamp : rfc.RoundTrips now) (line : Text)
    (single : '\n' ∉ trimEndMatches isLineEnd line) (f : HawkFrame)
    (accepted : parseTsvLine rfc line = .ok (some f)) :
    Lossless rfc f now ↔ emptyKeyValue (bagColumn line) ≠ some trueText := by
  have decoded := parse_decoded accepted
  have stamped := accepted_stamp lawful stamp accepted
  have emitted := parse_emitted decoded stamped
  rw [← bagColumn_lookup accepted, ← withoutEmptyFlag_eq_self_iff]
  constructor
  · intro lossless
    obtain ⟨_, _, g, parsed, _, _, _, _, _, bag, _⟩ := lossless
    rw [emitted] at parsed
    cases parsed
    exact bag
  · intro kept
    refine ⟨(newline_toTsvLine_iff stamped).mpr (accepted_oneLine accepted single), tabs_toTsvLine decoded.tabless stamped,
      relayed f now, emitted, rfl, rfl, rfl, rfl, rfl, kept, rfl⟩

def sampleFrame (kv : KvBag) : HawkFrame where
  ts := some ⟨1771245296000000000, 0⟩
  kind := "HEALTH".toList
  scope := "service".toList
  id := "alpha".toList
  level := .ok
  msg := "alive".toList
  kv

theorem lossless_iff_two_entries :
    Lossless sampleClock (sampleFrame (BTreeMap.extend ∅ [("pid".toList, "123".toList), ("up".toList, trueText)]))
      sampleNow :=
  (lossless_iff sampleTimes_proper.lawful sampleNow sampleNow_roundTrips
    "2026-02-16T12:34:56Z\tHEALTH\tservice\talpha\tOK\talive\tpid=123;up\n".toList (by decide) _ (by decide)).mpr
    (by decide)

theorem empty_flag_lost :
    parseTsvLine sampleClock "2026-02-16T12:34:56Z\tHEALTH\tservice\talpha\tok\talive\t=true".toList =
        .ok (some (sampleFrame (BTreeMap.extend ∅ [([], trueText)]))) ∧
      ¬ Lossless sampleClock (sampleFrame (BTreeMap.extend ∅ [([], trueText)])) sampleNow := by
  refine ⟨by decide, ?_⟩
  intro lossless
  obtain ⟨_, _, g, parsed, _, _, _, _, _, bag, _⟩ := lossless
  have gone : parseTsvLine sampleClock (toTsvLine sampleClock (sampleFrame (BTreeMap.extend ∅ [([], trueText)]))
      sampleNow ++ ['\n']) = .ok (some (sampleFrame ∅)) := by decide
  rw [gone] at parsed
  cases parsed
  exact absurd bag (by decide)

end HawkTui.Proofs.LosslessRelay
