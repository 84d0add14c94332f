import HawkTui.Hawkd.GrpcHealth
import HawkTui.Hawkd.Systemd
import HawkTui.Proofs.FrameCodec

/-! The frames the daemon builds itself. Foreign text goes into them as it is,
so a frame arrives as built exactly when no such text holds a delimiter of the
place it stands in. -/

namespace HawkTui.Proofs.Emitters
open Lib Text Utf8 Numbers HawkFrame UnixIngest FrameCodec KvBag

/-- Text that stands in a column of one line unchanged. -/
structure Cell (s : Text) : Prop where
  trimmed : Trimmed s
  tab : '\t' ∉ s
  newline : '\n' ∉ s

/-- Text that can be the value of a bag entry. -/
structure Plain (s : Text) : Prop extends Cell s where
  semicolon : ';' ∉ s

theorem cell_iff (s : Text) : Cell s ↔ Trimmed s ∧ '\t' ∉ s ∧ '\n' ∉ s :=
  ⟨fun cell => ⟨cell.trimmed, cell.tab, cell.newline⟩, fun parts => ⟨parts.1, parts.2.1, parts.2.2⟩⟩

theorem plain_iff (s : Text) : Plain s ↔ Cell s ∧ ';' ∉ s :=
  ⟨fun plain => ⟨plain.toCell, plain.semicolon⟩, fun parts => ⟨parts.1, parts.2⟩⟩

instance (s : Text) : Decidable (Cell s) := decidable_of_iff _ (cell_iff s).symm

instance (s : Text) : Decidable (Plain s) := decidable_of_iff _ (plain_iff s).symm

/-- The message is one line, and the mirror decodes that line to the frame. -/
def Arrives (rfc : Rfc3339) (f : HawkFrame) (message : Bytes) : Prop :=
  ∃ line, message = encode (line ++ ['\n']) ∧ '\n' ∉ line ∧ parseTsvLine rfc line = .ok (some f)

variable {rfc : Rfc3339} {f : HawkFrame} {t now : OffsetDateTime}

theorem arrives_lineBytes_iff :
    Arrives rfc f (lineBytes rfc f now) ↔
      '\n' ∉ toTsvLine rfc f now ∧ parseTsvLine rfc (toTsvLine rfc f now) = .ok (some f) := by
  constructor
  · intro arrives
    obtain ⟨line, message, single, parsed⟩ := arrives
    have same := congrArg decode message
    simp only [lineBytes, decode_encode, Option.some.injEq, List.append_cancel_right_eq] at same
    rw [same]
    exact ⟨single, parsed⟩
  · intro good
    exact ⟨_, rfl, good⟩

theorem arrives_iff (dated : f.ts = some t) (stamp : rfc.RoundTrips t) :
    Arrives rfc f (lineBytes rfc f now) ↔ Decoded f ∧ OneLine f ∧ withoutEmptyFlag f.kv = f.kv := by
  have round : rfc.RoundTrips (f.ts.getD now) := by
    rw [dated]
    exact stamp
  have same : relayed f now = f ↔ withoutEmptyFlag f.kv = f.kv := by
    obtain ⟨ts, kind, scope, id, level, msg, kv⟩ := f
    obtain rfl : ts = some t := dated
    simp [relayed]
  rw [arrives_lineBytes_iff, newline_toTsvLine_iff round]
  constructor
  · intro arrived
    have decoded := parse_decoded arrived.2
    have parsed := arrived.2
    rw [parse_toTsvLine decoded round, Except.ok.injEq, Option.some.injEq, same] at parsed
    exact ⟨decoded, arrived.1, parsed⟩
  · intro good
    obtain ⟨decoded, single, flagless⟩ := good
    refine ⟨single, ?_⟩
    rw [parse_toTsvLine decoded round, same.mpr flagless]

/-- Keys as the daemon writes them. -/
structure Key (k : Text) : Prop extends Plain k where
  equals : '=' ∉ k
  present : k ≠ []

theorem key_iff (k : Text) : Key k ↔ Plain k ∧ '=' ∉ k ∧ k ≠ [] :=
  ⟨fun key => ⟨key.toPlain, key.equals, key.present⟩, fun parts => ⟨parts.1, parts.2.1, parts.2.2⟩⟩

instance (k : Text) : Decidable (Key k) := decidable_of_iff _ (key_iff k).symm

theorem arrives_built_iff (keys values : List Text) (dated : f.ts = some t) (stamp : rfc.RoundTrips t)
    (bag : f.kv = BTreeMap.extend ∅ (keys.zip values)) (lengths : keys.length = values.length) (distinct : keys.Nodup)
    (good : ∀ k ∈ keys, Key k) :
    Arrives rfc f (lineBytes rfc f now) ↔
      (Cell f.kind ∧ Cell f.scope ∧ Cell f.id ∧ Cell f.msg) ∧ ∀ v ∈ values, Plain v := by
  have names : (keys.zip values).map Prod.fst = keys := List.map_fst_zip (by omega)
  have texts : (keys.zip values).map Prod.snd = values := List.map_snd_zip (by omega)
  have all : ∀ P : Text → Text → Prop,
      (∀ k v, f.kv[k]? = some v → P k v) ↔ ∀ entry ∈ keys.zip values, P entry.1 entry.2 := by
    intro P
    rw [bag]
    apply BTreeMap.forall_extend
    rw [names]
    exact distinct
  have onValues : (∀ v ∈ values, Plain v) ↔ ∀ entry ∈ keys.zip values, Plain entry.2 := by
    conv => lhs; rw [← texts]
    exact List.forall_mem_map
  rw [arrives_iff dated stamp, onValues]
  constructor
  · intro arrived
    obtain ⟨decoded, single, -⟩ := arrived
    refine ⟨⟨⟨decoded.kind.trimmed, decoded.kind.tab, single.kind⟩, ⟨decoded.scope.trimmed, decoded.scope.tab, single.scope⟩,
      ⟨decoded.id.trimmed, decoded.id.tab, single.id⟩, ⟨decoded.msg.trimmed, decoded.msg.tab, single.msg⟩⟩, ?_⟩
    rw [← all fun _ v => Plain v]
    intro k v found
    have clean := decoded.kv k v found
    exact ⟨⟨clean.value, (decoded.kvTab k v found).2, (single.kv k v found).2⟩, clean.valueSemicolon⟩
  · intro parts
    obtain ⟨⟨kind, scope, id, msg⟩, plain⟩ := parts
    have entry : ∀ k v, f.kv[k]? = some v → Key k ∧ Plain v := by
      rw [all fun k v => Key k ∧ Plain v]
      intro entry member
      exact ⟨good entry.1 (List.of_mem_zip member).1, plain entry member⟩
    refine ⟨⟨⟨kind.trimmed, kind.tab⟩, ⟨scope.trimmed, scope.tab⟩, ⟨id.trimmed, id.tab⟩, ⟨msg.trimmed, msg.tab⟩, ?_, ?_⟩,
      ⟨kind.newline, scope.newline, id.newline, msg.newline, ?_⟩, ?_⟩
    · intro k v found
      obtain ⟨key, value⟩ := entry k v found
      exact ⟨key.trimmed, value.trimmed, key.semicolon, key.equals, value.semicolon⟩
    · intro k v found
      exact ⟨(entry k v found).1.tab, (entry k v found).2.tab⟩
    · intro k v found
      exact ⟨(entry k v found).1.newline, (entry k v found).2.newline⟩
    · rw [withoutEmptyFlag_eq_self_iff]
      intro found
      exact (entry _ _ found).1.present rfl

/-- No character that would end a column, a line or a bag entry. -/
def Undelimited (s : Text) : Prop := '\t' ∉ s ∧ '\n' ∉ s ∧ ';' ∉ s

instance (s : Text) : Decidable (Undelimited s) := inferInstanceAs (Decidable (_ ∧ _))

theorem undelimited_append (a b : Text) : Undelimited (a ++ b) ↔ Undelimited a ∧ Undelimited b := by
  simp only [Undelimited, List.mem_append, not_or]
  tauto

theorem plain_iff_undelimited (s : Text) : Plain s ↔ Trimmed s ∧ Undelimited s := by
  rw [plain_iff, cell_iff, Undelimited, and_assoc, and_assoc]

private theorem trimmed_between {c d : Char} (first : isWhitespace c = false) (last : isWhitespace d = false)
    (middle : Text) : Trimmed (c :: (middle ++ [d])) := by
  rw [trimmed_iff]
  refine ⟨fun e head => ?_, fun e tail => ?_⟩
  · obtain rfl : c = e := by simpa using head
    exact first
  · have same : (c :: (middle ++ [d])).getLast? = some d := by simp [List.getLast?_cons, List.getLast?_append]
    rw [same, Option.some.injEq] at tail
    rw [← tail]
    exact last

section Debug
variable {table : DebugTable}

private theorem digit_foreign {b n : Nat} {d : Char} (base : 1 < b) (small : b ≤ 16) (member : d ∈ Nat.toDigits b n) :
    d ≠ '\t' ∧ d ≠ '\n' ∧ d ≠ ';' := by
  obtain ⟨k, bound, rfl⟩ := mem_toDigits base member
  have all : ∀ k < 16, Nat.digitChar k ≠ '\t' ∧ Nat.digitChar k ≠ '\n' ∧ Nat.digitChar k ≠ ';' := by decide
  exact all k (by omega)

private theorem escapeUnicode_foreign {c d : Char} (member : d ∈ escapeUnicode c) : d ≠ '\t' ∧ d ≠ '\n' ∧ d ≠ ';' := by
  simp only [escapeUnicode, List.mem_append] at member
  rcases member with (start | digit) | finish
  · simp at start
    rcases start with rfl | rfl | rfl <;> decide
  · exact digit_foreign (by decide) (by decide) digit
  · simp at finish
    subst finish
    decide

/-- Escaping takes tabs and newlines away, and leaves semicolons. -/
theorem mem_escapeDebug {c d : Char} (member : d ∈ escapeDebug table c) : d ≠ '\t' ∧ d ≠ '\n' ∧ (d = ';' → c = ';') := by
  have foreign : d ≠ '\t' ∧ d ≠ '\n' ∧ d ≠ ';' → d ≠ '\t' ∧ d ≠ '\n' ∧ (d = ';' → c = ';') :=
    fun parts => ⟨parts.1, parts.2.1, fun same => absurd same parts.2.2⟩
  have escaped : ∀ e : Char, e ≠ '\t' ∧ e ≠ '\n' ∧ e ≠ ';' → d ∈ ['\\', e] → d ≠ '\t' ∧ d ≠ '\n' ∧ (d = ';' → c = ';') := by
    intro e other listed
    rcases List.mem_cons.mp listed with rfl | last
    · exact foreign (by decide)
    · obtain rfl := List.mem_singleton.mp last
      exact foreign other
  unfold escapeDebug at member
  split at member
  · exact escaped '0' (by decide) member
  split at member
  · exact escaped 't' (by decide) member
  next tab =>
  split at member
  · exact escaped 'r' (by decide) member
  split at member
  · exact escaped 'n' (by decide) member
  next newline =>
  have itself : d = c → d ≠ '\t' ∧ d ≠ '\n' ∧ (d = ';' → c = ';') := by
    intro same
    subst same
    exact ⟨tab, newline, id⟩
  split at member
  · rcases List.mem_cons.mp member with rfl | last
    · exact foreign (by decide)
    · exact itself (by simpa using last)
  split at member
  · exact foreign (escapeUnicode_foreign member)
  split at member
  · exact itself (by simpa using member)
  split at member
  · exact foreign (escapeUnicode_foreign member)
  · exact itself (by simpa using member)

/-- Quoting a text leaves its semicolons and nothing else that delimits. -/
theorem undelimited_debugStr_iff (s : Text) : Undelimited (debugStr table s) ↔ ';' ∉ s := by
  have inside : ∀ d, d ≠ '"' → (d ∈ debugStr table s ↔ ∃ c ∈ s, d ∈ escapeDebug table c) := by
    intro d other
    simp [debugStr, other]
  have kept : ';' ∈ debugStr table s ↔ ';' ∈ s := by
    rw [inside ';' (by decide)]
    constructor
    · intro found
      obtain ⟨c, member, here⟩ := found
      rw [← (mem_escapeDebug here).2.2 rfl]
      exact member
    · intro member
      exact ⟨';', member, by simp [escapeDebug]⟩
  have tab : '\t' ∉ debugStr table s := by
    rw [inside '\t' (by decide)]
    rintro ⟨c, -, here⟩
    exact (mem_escapeDebug here).1 rfl
  have newline : '\n' ∉ debugStr table s := by
    rw [inside '\n' (by decide)]
    rintro ⟨c, -, here⟩
    exact (mem_escapeDebug here).2.1 rfl
  rw [Undelimited, kept]
  exact ⟨fun parts => parts.2.2, fun absent => ⟨tab, newline, absent⟩⟩

private theorem plain_framed_iff {c d : Char} {before after : Text} (first : isWhitespace c = false)
    (last : isWhitespace d = false) (opening : Undelimited (c :: before)) (closing : Undelimited (after ++ [d]))
    (middle : Text) : Plain (c :: before ++ middle ++ (after ++ [d])) ↔ Undelimited middle := by
  have trimmed : Trimmed (c :: before ++ middle ++ (after ++ [d])) := by
    simpa using trimmed_between first last (before ++ middle ++ after)
  rw [plain_iff_undelimited, undelimited_append, undelimited_append]
  exact ⟨fun parts => parts.2.1.2, fun inner => ⟨trimmed, ⟨opening, inner⟩, closing⟩⟩

theorem plain_debug_iff (e : HawkFrameParseError) : Plain (e.debug table) ↔ ∀ raw, e = .badTimestamp raw → ';' ∉ raw := by
  cases e with
  | empty =>
    have plain : Plain (HawkFrameParseError.empty.debug table) := by
      change Plain "Empty".toList
      decide
    simp [plain]
  | tooFewColumns found =>
    have digits : Undelimited (Nat.toDigits 10 found) := by
      refine ⟨fun member => ?_, fun member => ?_, fun member => ?_⟩
      · exact (digit_foreign (by decide) (by decide) member).1 rfl
      · exact (digit_foreign (by decide) (by decide) member).2.1 rfl
      · exact (digit_foreign (by decide) (by decide) member).2.2 rfl
    have plain := (plain_framed_iff (by decide : isWhitespace 'T' = false) (by decide : isWhitespace '\x7d' = false)
      (by decide : Undelimited ('T' :: "ooFewColumns \x7b found: ".toList))
      (by decide : Undelimited ([' '] ++ ['\x7d']))
      _).mpr digits
    simpa [HawkFrameParseError.debug_tooFewColumns] using plain
  | badTimestamp raw =>
    have framed := plain_framed_iff (by decide : isWhitespace 'B' = false) (by decide : isWhitespace '\x7d' = false)
      (by decide : Undelimited ('B' :: "adTimestamp \x7b raw: ".toList)) (by decide : Undelimited ([' '] ++ ['\x7d']))
      (debugStr table raw)
    rw [undelimited_debugStr_iff] at framed
    simpa [HawkFrameParseError.debug_badTimestamp] using framed

end Debug

/-- The part of a line that an error frame quotes: its first 240 bytes. -/
def quotedPart (line : Text) : Text := (takeBytes line 240).getD line

/-- Lines whose quote can be the value of a bag entry. -/
structure Quotable (line : Text) : Prop where
  tab : '\t' ∉ quotedPart line
  newline : '\n' ∉ quotedPart line
  semicolon : ';' ∉ quotedPart line
  start : ∀ c, line.head? = some c → isWhitespace c = false
  /-- A cut line ends in dots. -/
  finish : byteLen line ≤ 240 → ∀ c, line.getLast? = some c → isWhitespace c = false

private theorem byteLen_eq_zero {s : Text} (zero : byteLen s = 0) : s = [] := by
  cases s with
  | nil => rfl
  | cons c rest =>
    have := Char.utf8Size_pos c
    simp only [byteLen_cons] at zero
    omega

private theorem quotedPart_short {line : Text} (short : byteLen line ≤ 240) : quotedPart line = line := by
  unfold quotedPart
  cases found : takeBytes line 240 with
  | none => rfl
  | some front =>
    obtain ⟨back, whole, length⟩ := (takeBytes_eq_some_iff _ _ _).mp found
    have rest : byteLen back = 0 := by
      rw [whole, byteLen_append] at short
      omega
    rw [Option.getD_some, whole, byteLen_eq_zero rest, List.append_nil]

private theorem Quotable.iff (line : Text) : Quotable line ↔ Undelimited (quotedPart line) ∧
    (∀ c, line.head? = some c → isWhitespace c = false) ∧
    (byteLen line ≤ 240 → ∀ c, line.getLast? = some c → isWhitespace c = false) :=
  ⟨fun good => ⟨⟨good.tab, good.newline, good.semicolon⟩, good.start, good.finish⟩,
    fun parts => ⟨parts.1.1, parts.1.2.1, parts.1.2.2, parts.2.1, parts.2.2⟩⟩

private theorem plain_dotted_iff (c : Char) (rest : Text) :
    Plain (c :: rest ++ "...".toList) ↔ Undelimited (c :: rest) ∧ isWhitespace c = false := by
  have trimmed : Trimmed (c :: rest ++ "...".toList) ↔ isWhitespace c = false := by
    have shape : c :: rest ++ "...".toList = c :: ((rest ++ ['.', '.']) ++ ['.']) := by simp
    rw [shape]
    constructor
    · intro trimmed
      exact ((trimmed_iff _).mp trimmed).1 c rfl
    · intro first
      exact trimmed_between first (by decide) _
  have dots : Undelimited "...".toList := by decide
  rw [plain_iff_undelimited, undelimited_append, trimmed]
  tauto

theorem plain_clipRaw_iff {line raw : Text} (clipped : clipRaw line = some raw) : Plain raw ↔ Quotable line := by
  unfold clipRaw at clipped
  rw [Quotable.iff]
  split at clipped
  next long =>
    obtain ⟨front, cut, rfl⟩ := Option.map_eq_some_iff.mp clipped
    rw [truncate, if_pos (by omega)] at cut
    have quoted : quotedPart line = front := by rw [quotedPart, cut, Option.getD_some]
    obtain ⟨back, whole, length⟩ := (takeBytes_eq_some_iff _ _ _).mp cut
    obtain ⟨c, rest, rfl⟩ : ∃ c rest, front = c :: rest := by
      apply List.exists_cons_of_ne_nil
      intro empty
      rw [empty] at length
      cases length
    have head : line.head? = some c := by rw [whole]; rfl
    rw [plain_dotted_iff, quoted, head]
    simp only [Option.some.injEq, forall_eq', show ¬ byteLen line ≤ 240 by omega, false_implies, and_true]
  next short =>
    cases clipped
    have fits : byteLen line ≤ 240 := Nat.not_lt.mp short
    rw [plain_iff_undelimited, trimmed_iff, quotedPart_short fits]
    tauto

theorem i64ToText_plain (n : Int) : Plain (i64ToText n) :=
  ⟨⟨i64ToText_trimmed n, i64ToText_not_mem (by decide) (by decide), i64ToText_not_mem (by decide) (by decide)⟩,
    i64ToText_not_mem (by decide) (by decide)⟩

inductive Emission where
  | grpcStatus (spec : GrpcHealth.WatchSpec) (cfg : GrpcHealth.GrpcWatchConfig) (now later : OffsetDateTime)
      (st : GrpcHealth.ServingStatus)
  | grpcError (spec : GrpcHealth.WatchSpec) (cfg : GrpcHealth.GrpcWatchConfig) (now later : OffsetDateTime)
      (failure : GrpcHealth.WatchFailure) (err : Text)
  | systemdSnapshot (spec : Systemd.UnitSpec) (cfg : Systemd.SystemdWatchConfig) (now : OffsetDateTime)
      (unit : Systemd.UnitState)
  | systemdError (spec : Systemd.UnitSpec) (cfg : Systemd.SystemdWatchConfig) (now : OffsetDateTime) (err : Text)
  /-- `frame` is what `parse_error_frame` returns for the rejected line. -/
  | ingestError (ingestPath line : Text) (e : HawkFrameParseError) (now : OffsetDateTime) (frame : HawkFrame)

namespace Emission

/-- The specs are accepted ones, and the ingest line is a rejected one on which
`parse_error_frame` returns. -/
def Possible (rfc : Rfc3339) (table : DebugTable) : Emission → Prop
  | grpcStatus spec .. | grpcError spec .. => ∃ raw, GrpcHealth.parseWatchSpec raw = .ok spec
  | systemdSnapshot spec .. | systemdError spec .. => ∃ raw, Systemd.parseUnitSpec raw = .ok spec
  | ingestError ingestPath line e now frame =>
    parseTsvLine rfc line = .error e ∧ parseErrorFrame now ingestPath line (e.debug table) = some frame

def time : Emission → OffsetDateTime
  | grpcStatus _ _ now .. | grpcError _ _ now .. | systemdSnapshot _ _ now _ | systemdError _ _ now _
  | ingestError _ _ _ now _ => now

def frame : Emission → HawkFrame
  | grpcStatus spec cfg now _ st => GrpcHealth.statusFrame spec cfg now st
  | grpcError spec cfg now _ failure err => GrpcHealth.errorFrame spec cfg now failure.msg err
  | systemdSnapshot spec cfg now unit => Systemd.snapshotFrame spec cfg now unit
  | systemdError spec cfg now err => Systemd.errorFrame spec cfg now Systemd.watchFailed err
  | ingestError _ _ _ _ frame => frame

def message (rfc : Rfc3339) : Emission → Bytes
  | grpcStatus spec cfg now later st => GrpcHealth.emitStatusFrame rfc spec cfg now later st
  | grpcError spec cfg now later failure err => GrpcHealth.emitErrorFrame rfc spec cfg now later failure.msg err
  | systemdSnapshot spec cfg now unit => Systemd.emitSnapshotFrame rfc spec cfg now unit
  | systemdError spec cfg now err => Systemd.emitErrorFrame rfc spec cfg now Systemd.watchFailed err
  | ingestError _ _ _ now frame => lineBytes rfc frame now

/-- No foreign text holds a delimiter of its place. -/
def Fits : Emission → Prop
  | grpcStatus spec .. => Plain spec.endpoint ∧ Plain spec.service ∧ Cell spec.id
  | grpcError spec _ _ _ _ err => Plain spec.endpoint ∧ Plain spec.service ∧ Cell spec.id ∧ Plain err
  | systemdSnapshot spec _ _ unit =>
    Plain spec.unit ∧ Cell spec.id ∧ Plain unit.active ∧ Plain unit.sub ∧ Plain unit.load ∧ Plain unit.desc
  | systemdError spec _ _ err => Plain spec.unit ∧ Cell spec.id ∧ Plain err
  | ingestError ingestPath line e _ _ =>
    Plain ingestPath ∧ (∀ raw, e = .badTimestamp raw → ';' ∉ raw) ∧ Quotable line

end Emission

section Builders
variable {later : OffsetDateTime} {err : Text}

private theorem health_cell : Cell "HEALTH".toList := by decide

theorem grpcStatus_arrives_iff (spec : GrpcHealth.WatchSpec) (cfg : GrpcHealth.GrpcWatchConfig)
    (st : GrpcHealth.ServingStatus) (stamp : rfc.RoundTrips now) :
    Arrives rfc (GrpcHealth.statusFrame spec cfg now st) (GrpcHealth.emitStatusFrame rfc spec cfg now later st) ↔
      Plain spec.endpoint ∧ Plain spec.service ∧ Cell spec.id := by
  have scope : Cell "grpc".toList := by decide
  have status : Plain st.debug := by cases st <;> decide
  have msg : Cell (GrpcHealth.statusLevel st).2 := by cases st <;> decide
  refine (arrives_built_iff
    ["endpoint".toList, "service".toList, "grpc_status".toList, "ttl_stale_s".toList, "ttl_dead_s".toList]
    [spec.endpoint, spec.service, st.debug, i64ToText cfg.ttlStaleS, i64ToText cfg.ttlDeadS]
    rfl stamp rfl rfl (by decide) (by decide)).trans ?_
  simp only [List.forall_mem_cons, i64ToText_plain, status, List.not_mem_nil, false_implies, implies_true, and_true]
  simp only [GrpcHealth.statusFrame, health_cell, scope, msg, and_true, true_and]
  tauto

theorem grpcError_arrives_iff (spec : GrpcHealth.WatchSpec) (cfg : GrpcHealth.GrpcWatchConfig)
    (failure : GrpcHealth.WatchFailure) (stamp : rfc.RoundTrips now) :
    Arrives rfc (GrpcHealth.errorFrame spec cfg now failure.msg err)
        (GrpcHealth.emitErrorFrame rfc spec cfg now later failure.msg err) ↔
      Plain spec.endpoint ∧ Plain spec.service ∧ Cell spec.id ∧ Plain err := by
  have scope : Cell "grpc".toList := by decide
  have msg : Cell failure.msg := by cases failure <;> decide
  refine (arrives_built_iff
    ["endpoint".toList, "service".toList, "error".toList, "ttl_stale_s".toList, "ttl_dead_s".toList]
    [spec.endpoint, spec.service, err, i64ToText cfg.ttlStaleS, i64ToText cfg.ttlDeadS]
    rfl stamp rfl rfl (by decide) (by decide)).trans ?_
  simp only [List.forall_mem_cons, i64ToText_plain, List.not_mem_nil, false_implies, implies_true, and_true]
  simp only [GrpcHealth.errorFrame, health_cell, scope, msg, and_true, true_and]
  tauto

theorem systemdError_arrives_iff (spec : Systemd.UnitSpec) (cfg : Systemd.SystemdWatchConfig)
    (stamp : rfc.RoundTrips now) :
    Arrives rfc (Systemd.errorFrame spec cfg now Systemd.watchFailed err)
        (Systemd.emitErrorFrame rfc spec cfg now Systemd.watchFailed err) ↔
      Plain spec.unit ∧ Cell spec.id ∧ Plain err := by
  have scope : Cell "systemd".toList := by decide
  have msg : Cell Systemd.watchFailed := by decide
  refine (arrives_built_iff
    ["unit".toList, "error".toList, "ttl_stale_s".toList, "ttl_dead_s".toList]
    [spec.unit, err, i64ToText cfg.ttlStaleS, i64ToText cfg.ttlDeadS]
    rfl stamp rfl rfl (by decide) (by decide)).trans ?_
  simp only [List.forall_mem_cons, i64ToText_plain, List.not_mem_nil, false_implies, implies_true, and_true]
  simp only [Systemd.errorFrame, health_cell, scope, msg, and_true, true_and]
  tauto

private theorem state_cell {active sub : Text} (first : Plain active) (last : Plain sub) : Cell (active ++ ':' :: sub) := by
  refine ⟨first.trimmed.append_cons last.trimmed (by decide), ?_, ?_⟩
  · simp [first.tab, last.tab]
  · simp [first.newline, last.newline]

theorem systemdSnapshot_arrives_iff (spec : Systemd.UnitSpec) (cfg : Systemd.SystemdWatchConfig)
    (unit : Systemd.UnitState) (stamp : rfc.RoundTrips now) :
    Arrives rfc (Systemd.snapshotFrame spec cfg now unit) (Systemd.emitSnapshotFrame rfc spec cfg now unit) ↔
      Plain spec.unit ∧ Cell spec.id ∧ Plain unit.active ∧ Plain unit.sub ∧ Plain unit.load ∧ Plain unit.desc := by
  have scope : Cell "systemd".toList := by decide
  have msg : Plain unit.active → Plain unit.sub → Cell (Systemd.snapshotFrame spec cfg now unit).msg := state_cell
  cases described : unit.desc with
  | nil =>
    have empty : Plain [] := by decide
    refine (arrives_built_iff
      ["unit".toList, "active".toList, "sub".toList, "load".toList, "ttl_stale_s".toList, "ttl_dead_s".toList]
      [spec.unit, unit.active, unit.sub, unit.load, i64ToText cfg.ttlStaleS, i64ToText cfg.ttlDeadS]
      rfl stamp (by simp only [Systemd.snapshotFrame, described]; rfl) rfl (by decide) (by decide)).trans ?_
    simp only [List.forall_mem_cons, i64ToText_plain, List.not_mem_nil, false_implies, implies_true, and_true, empty]
    simp only [Systemd.snapshotFrame, health_cell, scope, true_and] at msg ⊢
    tauto
  | cons c rest =>
    refine (arrives_built_iff
      ["unit".toList, "active".toList, "sub".toList, "load".toList, "desc".toList, "ttl_stale_s".toList,
        "ttl_dead_s".toList]
      [spec.unit, unit.active, unit.sub, unit.load, c :: rest, i64ToText cfg.ttlStaleS, i64ToText cfg.ttlDeadS]
      rfl stamp (by simp only [Systemd.snapshotFrame, described]; rfl) rfl (by decide) (by decide)).trans ?_
    simp only [List.forall_mem_cons, i64ToText_plain, List.not_mem_nil, false_implies, implies_true, and_true]
    simp only [Systemd.snapshotFrame, health_cell, scope, true_and] at msg ⊢
    tauto

theorem ingestError_arrives_iff {table : DebugTable} {ingestPath line : Text} {e : HawkFrameParseError}
    (built : parseErrorFrame now ingestPath line (e.debug table) = some f) (stamp : rfc.RoundTrips now) :
    Arrives rfc f (lineBytes rfc f now) ↔
      Plain ingestPath ∧ (∀ raw, e = .badTimestamp raw → ';' ∉ raw) ∧ Quotable line := by
  cases clipped : clipRaw line with
  | none => simp [parseErrorFrame, clipped] at built
  | some raw =>
    simp only [parseErrorFrame, clipped, Option.bind_eq_bind, Option.bind_some, Option.pure_def,
      Option.some.injEq] at built
    subst built
    have kind : Cell "RECEIPT_EVENT".toList := by decide
    have scope : Cell "hawkd".toList := by decide
    have id : Cell "ingest".toList := by decide
    have msg : Cell "ingest parse error".toList := by decide
    refine (arrives_built_iff ["ingest_path".toList, "error".toList, "raw".toList] [ingestPath, e.debug table, raw]
      rfl stamp rfl rfl (by decide) (by decide)).trans ?_
    rw [← plain_clipRaw_iff clipped, ← @plain_debug_iff table]
    simp only [List.forall_mem_cons, List.not_mem_nil, false_implies, implies_true, and_true, kind, scope, id, msg,
      true_and]

end Builders

/-- A frame of the daemon's own arrives as built exactly when its foreign texts
fit: column text is trimmed and on one line without tabs, and bag values have
no semicolon either. -/
theorem emission_arrives_iff (rfc : Rfc3339) (table : DebugTable) (emission : Emission)
    (possible : emission.Possible rfc table) (stamp : rfc.RoundTrips emission.time) :
    Arrives rfc emission.frame (emission.message rfc) ↔ emission.Fits := by
  cases emission with
  | grpcStatus spec cfg now later st => exact grpcStatus_arrives_iff spec cfg st stamp
  | grpcError spec cfg now later failure err => exact grpcError_arrives_iff spec cfg failure stamp
  | systemdSnapshot spec cfg now unit => exact systemdSnapshot_arrives_iff spec cfg unit stamp
  | systemdError spec cfg now err => exact systemdError_arrives_iff spec cfg stamp
  | ingestError ingestPath line e now frame => exact ingestError_arrives_iff possible.2 stamp

def sampleEmission : Emission :=
  .systemdSnapshot ⟨"hawkd.service".toList, "spine.hawkd".toList⟩ ⟨3600, 21600⟩ sampleNow
    ⟨"active".toList, "running".toList, "loaded".toList, "Hawk daemon".toList⟩

theorem emission_arrives_iff_snapshot :
    sampleEmission.Possible sampleClock (fun _ => false) ∧
      Arrives sampleClock sampleEmission.frame (sampleEmission.message sampleClock) := by
  have possible : sampleEmission.Possible sampleClock (fun _ => false) := ⟨"hawkd.service,spine.hawkd".toList, rfl⟩
  have fits : sampleEmission.Fits := ⟨by decide, by decide, by decide, by decide, by decide, by decide⟩
  exact ⟨possible, (emission_arrives_iff _ _ _ possible sampleNow_roundTrips).mpr fits⟩

def shortLine : Text := "HEALTH\tservice".toList

theorem quoted_tab_breaks_frame :
    parseTsvLine sampleClock shortLine = .error (.tooFewColumns 2) ∧
      ∃ frame, parseErrorFrame sampleNow "/run/hawk.sock".toList shortLine
          ((HawkFrameParseError.tooFewColumns 2).debug fun _ => false) = some frame ∧
        ¬ Arrives sampleClock frame (lineBytes sampleClock frame sampleNow) := by
  have returns : (parseErrorFrame sampleNow "/run/hawk.sock".toList shortLine
      ((HawkFrameParseError.tooFewColumns 2).debug fun _ => false)).isSome = true := rfl
  obtain ⟨frame, built⟩ := Option.isSome_iff_exists.mp returns
  refine ⟨by decide, frame, built, fun arrives => ?_⟩
  have fits := (ingestError_arrives_iff built sampleNow_roundTrips).mp arrives
  exact fits.2.2.tab (by decide)

end HawkTui.Proofs.Emitters
