import HawkTui.Hawk.Awk
import HawkTui.Hawk.Threads
import HawkTui.Proofs.FrameCodec
import Mathlib.Data.List.Forall2

/-! The filter threads, from the frames that go into the bridge to those that come
out. The encoder writes a level in its canonical spelling and a column as it was
decoded, so the scripts' comparisons on columns decide about frames. -/

namespace HawkTui.Proofs.Filters
open Lib Text Utf8 AwkRuntime HawkFrame Awk Threads FrameCodec KvBag

/-- The frame was decoded from one line. -/
def Sourced (rfc : Rfc3339) (f : HawkFrame) : Prop :=
  ∃ line, '\n' ∉ trimEndMatches isLineEnd line ∧ parseTsvLine rfc line = .ok (some f)

/-- What arrives for a frame that the bridge took at the given instant. -/
structure Carried (item : HawkFrame × OffsetDateTime) (g : HawkFrame) : Prop where
  ts : g.ts = some (item.1.ts.getD item.2)
  kind : g.kind = item.1.kind
  scope : g.scope = item.1.scope
  id : g.id = item.1.id
  level : g.level = item.1.level
  msg : g.msg = item.1.msg
  kv : ∀ k : Text, k ≠ [] → g.kv[k]? = item.1.kv[k]?

theorem carried_relayed (item : HawkFrame × OffsetDateTime) : Carried item (relayed item.1 item.2) :=
  ⟨rfl, rfl, rfl, rfl, rfl, rfl, fun _ named => withoutEmptyFlag_lookup_of_ne item.1.kv named⟩

/-- A frame on its way into a script, with its line in hand. -/
structure Framed (rfc : Rfc3339) (item : HawkFrame × OffsetDateTime) : Prop where
  decoded : Decoded item.1
  stamp : rfc.RoundTrips (item.1.ts.getD item.2)
  single : '\n' ∉ toTsvLine rfc item.1 item.2

variable {rfc : Rfc3339} {ν : Type} {dialect : Dialect ν} {item : HawkFrame × OffsetDateTime}

theorem Sourced.framed (lawful : rfc.Lawful) (sourced : Sourced rfc item.1) (clock : rfc.RoundTrips item.2) :
    Framed rfc item := by
  obtain ⟨line, single, accepted⟩ := sourced
  have stamp := accepted_stamp lawful clock accepted
  exact ⟨parse_decoded accepted, stamp, (newline_toTsvLine_iff stamp).mpr (accepted_oneLine accepted single)⟩

namespace Framed

theorem fields (framed : Framed rfc item) :
    AwkRuntime.fields '\t' (toTsvLine rfc item.1 item.2) = tsvColumns rfc item.1 item.2 := by
  have split := split_toTsvLine framed.decoded.tabless framed.stamp
  have present : (toTsvLine rfc item.1 item.2).isEmpty = false := by
    rw [List.isEmpty_eq_false_iff]
    intro empty
    rw [empty] at split
    exact absurd (congrArg List.length split) (by simp [tsvColumns])
  rw [AwkRuntime.fields, present, if_neg (by decide), split]

theorem scope (framed : Framed rfc item) :
    dialect.field '\t' (toTsvLine rfc item.1 item.2) 3 = dialect.input item.1.scope := by
  simp only [Dialect.field, framed.fields]
  rfl

theorem id (framed : Framed rfc item) :
    dialect.field '\t' (toTsvLine rfc item.1 item.2) 4 = dialect.input item.1.id := by
  simp only [Dialect.field, framed.fields]
  rfl

theorem level (framed : Framed rfc item) :
    dialect.field '\t' (toTsvLine rfc item.1 item.2) 5 = dialect.input item.1.level.asStr := by
  simp only [Dialect.field, framed.fields]
  rfl

end Framed

theorem lines_single {items : List (HawkFrame × OffsetDateTime)} (framed : ∀ item ∈ items, Framed rfc item) :
    ∀ body ∈ items.map fun item => toTsvLine rfc item.1 item.2, '\n' ∉ body := by
  intro body member
  obtain ⟨item, inside, rfl⟩ := List.mem_map.mp member
  exact (framed item inside).single

theorem bridgeReader_lines {items : List (HawkFrame × OffsetDateTime)} (framed : ∀ item ∈ items, Framed rfc item) :
    (bridgeReader rfc (encode (output (items.map fun item => toTsvLine rfc item.1 item.2)))).frames =
      items.map fun item => relayed item.1 item.2 := by
  rw [bridgeReader, output, encode_lines, bufLines_encode _ (lines_single framed), List.map_map]
  induction items with
  | nil => rfl
  | cons item items ih =>
    have head := framed item (by simp)
    have parsed : parseTsvLine rfc (chomp (toTsvLine rfc item.1 item.2 ++ ['\n'])) =
        .ok (some (relayed item.1 item.2)) := by
      rw [parse_chomp, parse_append_newline, parse_toTsvLine head.decoded head.stamp]
    rw [List.map_cons, Function.comp_apply, bridgeReaderLoop, parsed]
    simp only [List.map_cons, ih fun other member => framed other (by simp [member])]

/-- A rule that prints the lines of the selected frames passes on those frames. -/
theorem bridge_selects {items : List (HawkFrame × OffsetDateTime)} {rule : Text → List Text}
    {selected : HawkFrame × OffsetDateTime → Bool} (framed : ∀ item ∈ items, Framed rfc item)
    (prints : ∀ item ∈ items, rule (toTsvLine rfc item.1 item.2) =
      if selected item then [toTsvLine rfc item.1 item.2] else []) :
    List.Forall₂ Carried (items.filter selected) (startBridge rfc (runFilter rule) items).frames := by
  have input : (bridgeWriter rfc items).flatten = output (items.map fun item => toTsvLine rfc item.1 item.2) := by
    rw [bridgeWriter, output, List.map_map]
    rfl
  have printed : (items.map fun item => toTsvLine rfc item.1 item.2).flatMap rule =
      (items.filter selected).map fun item => toTsvLine rfc item.1 item.2 := by
    clear input framed
    induction items with
    | nil => rfl
    | cons item items ih =>
      have rest := ih fun other member => prints other (by simp [member])
      rw [List.map_cons, List.flatMap_cons, prints item (by simp), rest, List.filter_cons]
      cases selected item <;> rfl
  rw [startBridge, input, runFilter, run, records_output (lines_single framed), mainLoop_stateless, printed, bridgeReader_lines]
  · rw [List.forall₂_map_right_iff, List.forall₂_same]
    exact fun item _ => carried_relayed item
  · exact fun item member => framed item (List.mem_of_mem_filter member)

section Scripts
variable [DecidableEq ν] {args : List Text} {v : Text}

def failing (v : Text) (item : HawkFrame × OffsetDateTime) : Bool :=
  (item.1.level = .fail ∨ item.1.level = .warn) ∧ (v = [] ∨ item.1.scope = v)

def focused (v : Text) (item : HawkFrame × OffsetDateTime) : Bool := item.1.scope = "systemd".toList ∧ v <+: item.1.id

theorem failOnly_line (framed : Framed rfc item) (scope : dialect.assigned args "scope".toList = dialect.input v)
    (words : dialect.number v = none) :
    failOnly dialect args (toTsvLine rfc item.1 item.2) =
      if failing v item then [toTsvLine rfc item.1 item.2] else [] := by
  have fail : ∀ level : Level, toAsciiLowercase level.asStr = "fail".toList ↔ level = .fail := by
    intro level
    cases level <;> decide
  have warn : ∀ level : Level, toAsciiLowercase level.asStr = "warn".toList ↔ level = .warn := by
    intro level
    cases level <;> decide
  have textual : (dialect.input item.1.scope).eq (dialect.input v) = decide (item.1.scope = v) := Value.eq_text words _
  simp only [failOnly, framed.level, framed.scope, scope, textual, Value.eq_string, tolower_text, Dialect.input_text,
    fail, warn, failing]
  by_cases level : item.1.level = .fail ∨ item.1.level = .warn
  · by_cases all : v = []
    · rcases level with level | level <;> simp [level, all]
    · by_cases own : item.1.scope = v <;> rcases level with level | level <;> simp [level, all, own]
  · rw [not_or] at level
    simp [level]

theorem systemdFocus_line (framed : Framed rfc item)
    (idPrefix : dialect.assigned args "id_prefix".toList = dialect.input v) :
    systemdFocus dialect args (toTsvLine rfc item.1 item.2) =
      if focused v item then [toTsvLine rfc item.1 item.2] else [] := by
  simp only [systemdFocus, framed.scope, framed.id, idPrefix, Value.eq_string, Dialect.input_text, ne_eq,
    index_eq_one_iff, focused]
  by_cases scope : item.1.scope = "systemd".toList
  · by_cases all : v = []
    · simp [scope, all]
    · by_cases starts : v <+: item.1.id <;> simp [scope, all, starts]
  · simp only [scope, decide_false, Bool.not_false, ↓reduceIte, false_and, Bool.false_eq_true]

end Scripts

theorem commandLine_single (script name v : Text) :
    commandLine script (BTreeMap.extend ∅ [(name, v)]) = ["-v".toList, name ++ '=' :: v, "-f".toList, script] := rfl

/-- The filter threads pass on exactly the frames their descriptions promise, in
order and unharmed. -/
theorem filters_select {ν : Type} [DecidableEq ν] (rfc : Rfc3339) (lawful : rfc.Lawful) (dialect : Dialect ν)
    (script : Text) (frames : List (HawkFrame × OffsetDateTime)) (sourced : ∀ item ∈ frames, Sourced rfc item.1)
    (clock : ∀ item ∈ frames, rfc.RoundTrips item.2) (v : Text) (words : dialect.number v = none) (plain : '\\' ∉ v) :
    List.Forall₂ Carried
        (frames.filter fun item => (item.1.level = .fail ∨ item.1.level = .warn) ∧ (v = [] ∨ item.1.scope = v))
        (startBridge rfc
          (runFilter (failOnly dialect (commandLine script (BTreeMap.extend ∅ [("scope".toList, v)]))))
          frames).frames ∧
      List.Forall₂ Carried
        (frames.filter fun item => item.1.scope = "systemd".toList ∧ v <+: item.1.id)
        (startBridge rfc
          (runFilter (systemdFocus dialect (commandLine script (BTreeMap.extend ∅ [("id_prefix".toList, v)]))))
          frames).frames := by
  have framed : ∀ item ∈ frames, Framed rfc item :=
    fun item member => (sourced item member).framed lawful (clock item member)
  refine ⟨bridge_selects framed fun item member => ?_, bridge_selects framed fun item member => ?_⟩
  · rw [commandLine_single]
    exact failOnly_line (framed item member) (dialect.assigned_single (by decide) plain script) words
  · rw [commandLine_single]
    exact systemdFocus_line (framed item member) (dialect.assigned_single (by decide) plain script)

/-- A dialect whose numbers are integers and which has no escapes. -/
def sampleDialect : Dialect Int where
  zero := 0
  number := Numbers.parseI64
  unescape s := s
  unescape_plain _ _ := rfl

def unitFrame (id : Text) (level : Level) : HawkFrame where
  ts := none
  kind := "HEALTH".toList
  scope := "systemd".toList
  id
  level
  msg := []
  kv := ∅

def unitFrames : List (HawkFrame × OffsetDateTime) :=
  [(unitFrame "web.service".toList .warn, sampleNow), (unitFrame "db.service".toList .ok, sampleNow)]

theorem filters_select_unit :
    List.Forall₂ Carried [(unitFrame "web.service".toList .warn, sampleNow)]
        (startBridge sampleClock
          (runFilter (failOnly sampleDialect (commandLine [] (BTreeMap.extend ∅ [("scope".toList, "systemd".toList)]))))
          unitFrames).frames ∧
      List.Forall₂ Carried [(unitFrame "db.service".toList .ok, sampleNow)]
        (startBridge sampleClock
          (runFilter (systemdFocus sampleDialect (commandLine [] (BTreeMap.extend ∅ [("id_prefix".toList, "db".toList)]))))
          unitFrames).frames := by
  have sourced : ∀ item ∈ unitFrames, Sourced sampleClock item.1 := by
    intro item member
    simp only [unitFrames, List.mem_cons, List.not_mem_nil, or_false] at member
    rcases member with rfl | rfl
    · exact ⟨"\tHEALTH\tsystemd\tweb.service\tWarning\t\t".toList, by decide, by decide⟩
    · exact ⟨"\tHEALTH\tsystemd\tdb.service\tOK\t\t".toList, by decide, by decide⟩
  have clock : ∀ item ∈ unitFrames, sampleClock.RoundTrips item.2 := by
    intro item member
    simp only [unitFrames, List.mem_cons, List.not_mem_nil, or_false] at member
    rcases member with rfl | rfl <;> exact sampleNow_roundTrips
  exact ⟨(filters_select sampleClock sampleTimes_proper.lawful sampleDialect [] unitFrames sourced clock "systemd".toList
      (by decide) (by decide)).1,
    (filters_select sampleClock sampleTimes_proper.lawful sampleDialect [] unitFrames sourced clock "db".toList
      (by decide) (by decide)).2⟩

end HawkTui.Proofs.Filters
