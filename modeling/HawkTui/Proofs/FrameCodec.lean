import HawkTui.Proofs.KvBag

/-! Encoding and decoding whole frames. Everything the decoder accepts has
trimmed, tab-free columns, and such a frame is read back from its own line up
to the stamped time and the bag's empty flag. -/

namespace HawkTui

/-- What is relied on of the `time` crate for one timestamp: it formats, to
visible text that no comment starts with, and reads back as itself. -/
def Rfc3339.RoundTrips (rfc : Rfc3339) (t : OffsetDateTime) : Prop :=
  ∃ text, rfc.format t = some text ∧ text ≠ [] ∧
    (∀ c ∈ text, Lib.Text.isWhitespace c = false ∧ c ≠ '#') ∧ rfc.parse text = some t

/-- Every timestamp the parser returns round trips. -/
def Rfc3339.Lawful (rfc : Rfc3339) : Prop := ∀ raw t, rfc.parse raw = some t → rfc.RoundTrips t

/-- A reader and writer that know the listed timestamps only. -/
def Rfc3339.ofTable (table : List (Lib.Text × OffsetDateTime)) : Rfc3339 where
  parse raw := (table.find? (·.1 = raw)).map Prod.snd
  format t := (table.find? (·.2 = t)).map Prod.fst

/-- Each listed timestamp has one visible spelling. -/
def Rfc3339.Proper (table : List (Lib.Text × OffsetDateTime)) : Prop :=
  ∀ entry ∈ table, entry.1 ≠ [] ∧ (entry.1.all fun c => !Lib.Text.isWhitespace c && c != '#') = true ∧
    table.find? (·.1 = entry.1) = some entry ∧ table.find? (·.2 = entry.2) = some entry

instance (table : List (Lib.Text × OffsetDateTime)) : Decidable (Rfc3339.Proper table) :=
  inferInstanceAs (Decidable (∀ entry ∈ table, _))

theorem Rfc3339.Proper.roundTrips {table : List (Lib.Text × OffsetDateTime)} (proper : Rfc3339.Proper table)
    {entry : Lib.Text × OffsetDateTime} (member : entry ∈ table) : (Rfc3339.ofTable table).RoundTrips entry.2 := by
  obtain ⟨present, visible, read, written⟩ := proper entry member
  exact ⟨entry.1, by simp [Rfc3339.ofTable, written], present, by simpa using visible, by simp [Rfc3339.ofTable, read]⟩

theorem Rfc3339.Proper.lawful {table : List (Lib.Text × OffsetDateTime)} (proper : Rfc3339.Proper table) :
    (Rfc3339.ofTable table).Lawful := by
  intro raw t parsed
  simp only [Rfc3339.ofTable, Option.map_eq_some_iff] at parsed
  obtain ⟨entry, found, rfl⟩ := parsed
  exact proper.roundTrips (List.mem_of_find?_eq_some found)

/-- Two seconds of one day, as the `time` crate reads and writes them. -/
def sampleTimes : List (Lib.Text × OffsetDateTime) :=
  [("2026-02-16T12:34:56Z".toList, ⟨1771245296000000000, 0⟩),
    ("2026-02-16T12:34:57Z".toList, ⟨1771245297000000000, 0⟩)]

def sampleClock : Rfc3339 := Rfc3339.ofTable sampleTimes

theorem sampleTimes_proper : Rfc3339.Proper sampleTimes := by decide

def sampleNow : OffsetDateTime := ⟨1771245297000000000, 0⟩

theorem sampleNow_roundTrips : sampleClock.RoundTrips sampleNow := by
  have listed : ("2026-02-16T12:34:57Z".toList, sampleNow) ∈ sampleTimes := by decide
  exact sampleTimes_proper.roundTrips listed

end HawkTui

namespace HawkTui.Proofs.FrameCodec
open Lib Text HawkFrame KvBag

variable {rfc : Rfc3339}

/-- Text that stands in one column unchanged. -/
structure Column (s : Text) : Prop where
  trimmed : Trimmed s
  tab : '\t' ∉ s

structure Decoded (f : HawkFrame) : Prop where
  kind : Column f.kind
  scope : Column f.scope
  id : Column f.id
  msg : Column f.msg
  kv : Clean f.kv
  kvTab : ∀ k v : Text, f.kv[k]? = some v → '\t' ∉ k ∧ '\t' ∉ v

def Ignored (line : Text) : Prop :=
  Blank (trimEndMatches isLineEnd line) ∨
    startsWith ['#'] (trimStart (trimEndMatches isLineEnd line)) = true

def Rejected (rfc : Rfc3339) (line : Text) : Prop := ∃ e, parseTsvLine rfc line = .error e

instance (line : Text) : Decidable (Rejected rfc line) :=
  match found : parseTsvLine rfc line with
  | .error e => isTrue ⟨e, found⟩
  | .ok _ => isFalse fun ⟨_, rejected⟩ => by rw [found] at rejected; cases rejected

instance (line : Text) : Decidable (Ignored line) := inferInstanceAs (Decidable (_ ∨ _))

/-- A frame's columns, as the decoder reads them from the line. -/
structure Columns (rfc : Rfc3339) (line : Text) (f : HawkFrame) where
  {c0 c1 c2 c3 c4 c5 c6 : Text}
  {rest : List Text}
  split : (trimEndMatches isLineEnd line).splitOn '\t' = c0 :: c1 :: c2 :: c3 :: c4 :: c5 :: c6 :: rest
  ts : parseTs rfc (trim c0) = .ok f.ts
  kind : f.kind = trim c1
  scope : f.scope = trim c2
  id : f.id = trim c3
  level : f.level = Level.parse c4
  msg : f.msg = trim c5
  kv : f.kv = parseKvBag (trim c6)

theorem parse_ignored {line : Text} (ignored : Ignored line) : parseTsvLine rfc line = .ok none := by
  unfold parseTsvLine
  rcases ignored with blank | comment
  · simp [(trim_eq_nil_iff _).mpr blank]
  · simp [comment]

theorem parse_not_ignored {line : Text} (kept : ¬ Ignored line) :
    parseTsvLine rfc line = parseColumns rfc ((trimEndMatches isLineEnd line).splitOn '\t') := by
  rw [Ignored, not_or] at kept
  have visible : trim (trimEndMatches isLineEnd line) ≠ [] := fun empty => kept.1 ((trim_eq_nil_iff _).mp empty)
  simp only [parseTsvLine, List.isEmpty_iff, visible, ↓reduceIte, kept.2, Bool.false_eq_true]

theorem ignored_of_parse_none {line : Text} (none : parseTsvLine rfc line = .ok none) : Ignored line := by
  by_contra kept
  rw [parse_not_ignored kept] at none
  unfold parseColumns at none
  split at none
  next c0 _ _ _ _ _ _ _ _ =>
    cases stamp : parseTs rfc (trim c0) <;> simp [stamp, bind, Except.bind, pure, Except.pure] at none
  next => cases none

/-- Everything an accepted line tells about its frame. -/
theorem accepted_columns {line : Text} {f : HawkFrame} (accepted : parseTsvLine rfc line = .ok (some f)) :
    ¬ Ignored line ∧ Nonempty (Columns rfc line f) := by
  by_cases ignored : Ignored line
  · rw [parse_ignored ignored] at accepted
    cases accepted
  · refine ⟨ignored, ?_⟩
    rw [parse_not_ignored ignored] at accepted
    unfold parseColumns at accepted
    split at accepted
    next c0 c1 c2 c3 c4 c5 c6 rest split =>
      cases stamp : parseTs rfc (trim c0) with
      | error e =>
        rw [stamp] at accepted
        cases accepted
      | ok ts =>
        rw [stamp] at accepted
        cases accepted
        exact ⟨⟨split, stamp, rfl, rfl, rfl, rfl, rfl, rfl⟩⟩
    next => cases accepted

/-- A line terminator never changes what a line decodes to. -/
theorem parse_append_line_end (line terminator : Text) (only : ∀ c ∈ terminator, isLineEnd c = true) :
    parseTsvLine rfc (line ++ terminator) = parseTsvLine rfc line := by
  have same : trimEndMatches isLineEnd (line ++ terminator) = trimEndMatches isLineEnd line := by
    unfold trimEndMatches List.rdropWhile
    rw [List.reverse_append, List.dropWhile_append_of_pos (by simpa using only)]
  unfold parseTsvLine
  rw [same]

theorem parse_append_newline (line : Text) : parseTsvLine rfc (line ++ ['\n']) = parseTsvLine rfc line :=
  parse_append_line_end line ['\n'] (by simp [isLineEnd])

theorem parse_chomp (line : Text) : parseTsvLine rfc (chomp line) = parseTsvLine rfc line := by
  have ends : ∀ (s : Text) c, s.getLast? = some c → s = s.dropLast ++ [c] := by
    intro s c last
    obtain ⟨front, rfl⟩ := List.getLast?_eq_some_iff.mp last
    simp
  unfold chomp
  split
  next newline =>
    simp only
    split
    next carriage =>
      conv => rhs; rw [ends line _ newline, ends line.dropLast _ carriage, List.append_assoc]
      exact (parse_append_line_end _ _ (by simp [isLineEnd])).symm
    next =>
      conv => rhs; rw [ends line _ newline]
      exact (parse_append_newline _).symm
  next => rfl

private theorem column_trim {s line : Text} (inside : s ∈ line.splitOn '\t') : Column (trim s) :=
  ⟨trim_trimmed s, fun member => sep_not_mem_of_mem_splitOn inside (mem_of_mem_trim member)⟩

theorem parse_decoded {line : Text} {f : HawkFrame} (accepted : parseTsvLine rfc line = .ok (some f)) :
    Decoded f := by
  obtain ⟨-, ⟨cols⟩⟩ := accepted_columns accepted
  have column : ∀ col ∈ (trimEndMatches isLineEnd line).splitOn '\t', Column (trim col) :=
    fun col inside => column_trim inside
  rw [cols.split] at column
  have bagTab : '\t' ∉ trim cols.c6 := (column cols.c6 (by simp)).tab
  refine ⟨?_, ?_, ?_, ?_, ?_, ?_⟩
  · rw [cols.kind]; exact column _ (by simp)
  · rw [cols.scope]; exact column _ (by simp)
  · rw [cols.id]; exact column _ (by simp)
  · rw [cols.msg]; exact column _ (by simp)
  · rw [cols.kv]; exact parseKvBag_clean _
  · intro k v found
    rw [cols.kv] at found
    have foreign : '\t' ∉ trueText := by decide
    refine ⟨fun member => ?_, fun member => ?_⟩
    · exact (mem_of_lookup found (Or.inl member)).elim bagTab foreign
    · exact (mem_of_lookup found (Or.inr member)).elim bagTab foreign

/-- The frame one hop further on. -/
def relayed (f : HawkFrame) (now : OffsetDateTime) : HawkFrame :=
  { f with ts := some (f.ts.getD now), kv := withoutEmptyFlag f.kv }

private theorem stamped_text {t : OffsetDateTime} (stamp : rfc.RoundTrips t) :
    ∃ c rest, formatTs rfc t = c :: rest ∧ (∀ d ∈ c :: rest, isWhitespace d = false ∧ d ≠ '#') ∧
      rfc.parse (c :: rest) = some t := by
  obtain ⟨text, formatted, present, visible, parsed⟩ := stamp
  obtain ⟨c, rest, rfl⟩ := List.exists_cons_of_ne_nil present
  exact ⟨c, rest, by simp [formatTs, formatted], visible, parsed⟩

/-- No text of the frame breaks its columns. -/
structure Tabless (f : HawkFrame) : Prop where
  kind : '\t' ∉ f.kind
  scope : '\t' ∉ f.scope
  id : '\t' ∉ f.id
  msg : '\t' ∉ f.msg
  kv : ∀ k v : Text, f.kv[k]? = some v → '\t' ∉ k ∧ '\t' ∉ v

theorem Decoded.tabless {f : HawkFrame} (decoded : Decoded f) : Tabless f :=
  ⟨decoded.kind.tab, decoded.scope.tab, decoded.id.tab, decoded.msg.tab, decoded.kvTab⟩

theorem serialize_tab {f : HawkFrame} (tabless : Tabless f) : '\t' ∉ serializeKvBag f.kv := by
  intro member
  rcases mem_serialize member with same | same | ⟨k, v, found, here⟩
  · exact absurd same (by decide)
  · exact absurd same (by decide)
  · exact here.elim (tabless.kv k v found).1 (tabless.kv k v found).2

def tsvColumns (rfc : Rfc3339) (f : HawkFrame) (now : OffsetDateTime) : List Text :=
  [formatTs rfc (f.ts.getD now), f.kind, f.scope, f.id, f.level.asStr, f.msg, serializeKvBag f.kv]

/-- The first six columns, which no line terminator reaches. -/
private def head (rfc : Rfc3339) (f : HawkFrame) (now : OffsetDateTime) : List Text :=
  [formatTs rfc (f.ts.getD now), f.kind, f.scope, f.id, f.level.asStr, f.msg]

private theorem head_tab {f : HawkFrame} {now : OffsetDateTime} (tabless : Tabless f)
    (stamp : rfc.RoundTrips (f.ts.getD now)) : ∀ col ∈ head rfc f now, '\t' ∉ col := by
  obtain ⟨c, rest, formatted, visible, -⟩ := stamped_text stamp
  have time : '\t' ∉ formatTs rfc (f.ts.getD now) := by
    rw [formatted]
    exact fun member => absurd (visible '\t' member).1 (by decide)
  have level : '\t' ∉ f.level.asStr := by cases f.level <;> decide
  simp only [head, List.forall_mem_cons]
  exact ⟨time, tabless.kind, tabless.scope, tabless.id, level, tabless.msg, by simp⟩

private theorem split_head {f : HawkFrame} {now : OffsetDateTime} {bag : Text} (tabless : Tabless f)
    (stamp : rfc.RoundTrips (f.ts.getD now)) (tab : '\t' ∉ bag) :
    (['\t'].intercalate (head rfc f now ++ [bag])).splitOn '\t' = head rfc f now ++ [bag] := by
  apply List.splitOn_intercalate
  · intro col member
    rcases List.mem_append.mp member with first | last
    · exact head_tab tabless stamp col first
    · rw [List.mem_singleton.mp last]
      exact tab
  · simp

theorem split_toTsvLine {f : HawkFrame} {now : OffsetDateTime} (tabless : Tabless f)
    (stamp : rfc.RoundTrips (f.ts.getD now)) : (toTsvLine rfc f now).splitOn '\t' = tsvColumns rfc f now :=
  split_head tabless stamp (serialize_tab tabless)

/-- Only the bag can lose a line terminator. -/
private theorem toTsvLine_end (f : HawkFrame) (now : OffsetDateTime) :
    trimEndMatches isLineEnd (toTsvLine rfc f now) =
      ['\t'].intercalate (head rfc f now ++ [trimEndMatches isLineEnd (serializeKvBag f.kv)]) := by
  have ends : ∀ bag : Text,
      ['\t'].intercalate (head rfc f now ++ [bag]) = ['\t'].intercalate (head rfc f now) ++ '\t' :: bag := by
    intro bag
    simp [head, List.intercalate]
  have line : toTsvLine rfc f now = ['\t'].intercalate (head rfc f now ++ [serializeKvBag f.kv]) := rfl
  rw [line, ends, ends, trimEndMatches_append_cons (by decide)]

private theorem toTsvLine_kept {f : HawkFrame} {now : OffsetDateTime} (stamp : rfc.RoundTrips (f.ts.getD now)) :
    ¬ Ignored (toTsvLine rfc f now) := by
  obtain ⟨c, rest, formatted, visible, -⟩ := stamped_text stamp
  have starts : ∃ tail, trimEndMatches isLineEnd (toTsvLine rfc f now) = c :: tail := by
    rw [toTsvLine_end]
    simp [head, List.intercalate, formatted]
  obtain ⟨tail, whole⟩ := starts
  have shown := visible c (by simp)
  rw [Ignored, whole, not_or]
  refine ⟨fun blank => ?_, ?_⟩
  · exact absurd ((blank c (by simp)).symm.trans shown.1) (by simp)
  · simp [trimStart, shown.1, startsWith, Ne.symm shown.2]

theorem tabs_toTsvLine {f : HawkFrame} {now : OffsetDateTime} (tabless : Tabless f)
    (stamp : rfc.RoundTrips (f.ts.getD now)) : (toTsvLine rfc f now).count '\t' = 6 := by
  have columns := length_splitOn '\t' (toTsvLine rfc f now)
  rw [split_toTsvLine tabless stamp] at columns
  simpa [tsvColumns] using columns.symm

theorem trim_line_end (line : Text) : trim (trimEndMatches isLineEnd line) = trim line := by
  apply trim_trimEndMatches
  intro c terminator
  simp only [isLineEnd, Bool.or_eq_true, beq_iff_eq] at terminator
  rcases terminator with rfl | rfl <;> decide

theorem parse_tabless {f : HawkFrame} {now : OffsetDateTime} (tabless : Tabless f)
    (stamp : rfc.RoundTrips (f.ts.getD now)) :
    parseTsvLine rfc (toTsvLine rfc f now) = .ok (some {
      ts := some (f.ts.getD now)
      kind := trim f.kind
      scope := trim f.scope
      id := trim f.id
      level := f.level
      msg := trim f.msg
      kv := parseKvBag (serializeKvBag f.kv) }) := by
  have bag : '\t' ∉ trimEndMatches isLineEnd (serializeKvBag f.kv) :=
    fun member => serialize_tab tabless ((List.rdropWhile_prefix _ _).subset member)
  obtain ⟨c, rest, formatted, visible, parsed⟩ := stamped_text stamp
  have first : trim (c :: rest) = c :: rest := by
    apply (trimmed_iff _).mpr
    exact ⟨fun d head => (visible d (List.mem_of_head? head)).1, fun d last => (visible d (List.mem_of_getLast? last)).1⟩
  rw [parse_not_ignored (toTsvLine_kept stamp), toTsvLine_end, split_head tabless stamp bag]
  simp only [head, List.cons_append, List.nil_append, parseColumns, formatted, first, trim_line_end, parseKvBag_trim,
    Level.parse_asStr, parseTs, parsed, List.isEmpty_cons, Bool.false_eq_true, ↓reduceIte]
  rfl

/-- No text of the frame breaks its line. -/
structure OneLine (f : HawkFrame) : Prop where
  kind : '\n' ∉ f.kind
  scope : '\n' ∉ f.scope
  id : '\n' ∉ f.id
  msg : '\n' ∉ f.msg
  kv : ∀ k v : Text, f.kv[k]? = some v → '\n' ∉ k ∧ '\n' ∉ v

theorem newline_toTsvLine_iff {f : HawkFrame} {now : OffsetDateTime} (stamp : rfc.RoundTrips (f.ts.getD now)) :
    '\n' ∉ toTsvLine rfc f now ↔ OneLine f := by
  constructor
  · intro absent
    have column : ∀ col ∈ tsvColumns rfc f now, '\n' ∉ col :=
      fun col inside member => absent (mem_intercalate_of_mem inside member)
    have bag : '\n' ∉ serializeKvBag f.kv := column _ (by simp [tsvColumns])
    refine ⟨column _ (by simp [tsvColumns]), column _ (by simp [tsvColumns]), column _ (by simp [tsvColumns]),
      column _ (by simp [tsvColumns]), fun k v found => ⟨fun member => ?_, fun member => ?_⟩⟩
    · exact bag (mem_serialize_of_lookup found (Or.inl member) (by decide))
    · exact bag (mem_serialize_of_lookup found (Or.inr member) (by decide))
  · intro single member
    obtain ⟨c, rest, formatted, visible, -⟩ := stamped_text stamp
    have level : '\n' ∉ f.level.asStr := by cases f.level <;> decide
    have time : '\n' ∉ formatTs rfc (f.ts.getD now) := by
      rw [formatted]
      exact fun here => absurd (visible '\n' here).1 (by decide)
    have bag : '\n' ∉ serializeKvBag f.kv := by
      intro here
      rcases mem_serialize here with same | same | ⟨k, v, found, inside⟩
      · exact absurd same (by decide)
      · exact absurd same (by decide)
      · exact inside.elim (single.kv k v found).1 (single.kv k v found).2
    rcases mem_of_mem_intercalate member with same | ⟨col, inside, here⟩
    · exact absurd same (by decide)
    · simp only [List.mem_cons, List.not_mem_nil, or_false] at inside
      rcases inside with rfl | rfl | rfl | rfl | rfl | rfl | rfl
      · exact time here
      · exact single.kind here
      · exact single.scope here
      · exact single.id here
      · exact level here
      · exact single.msg here
      · exact bag here

theorem accepted_oneLine {line : Text} {f : HawkFrame} (accepted : parseTsvLine rfc line = .ok (some f))
    (single : '\n' ∉ trimEndMatches isLineEnd line) : OneLine f := by
  obtain ⟨-, ⟨cols⟩⟩ := accepted_columns accepted
  have column : ∀ col ∈ (trimEndMatches isLineEnd line).splitOn '\t', '\n' ∉ trim col :=
    fun col inside member => single (mem_of_mem_splitOn inside (mem_of_mem_trim member))
  rw [cols.split] at column
  refine ⟨?_, ?_, ?_, ?_, fun k v found => ?_⟩
  · rw [cols.kind]; exact column _ (by simp)
  · rw [cols.scope]; exact column _ (by simp)
  · rw [cols.id]; exact column _ (by simp)
  · rw [cols.msg]; exact column _ (by simp)
  · rw [cols.kv] at found
    have bag := column cols.c6 (by simp)
    exact ⟨fun member => (mem_of_lookup found (Or.inl member)).elim bag (by decide),
      fun member => (mem_of_lookup found (Or.inr member)).elim bag (by decide)⟩

theorem accepted_dated {line : Text} {f : HawkFrame} {t : OffsetDateTime} (lawful : rfc.Lawful)
    (accepted : parseTsvLine rfc line = .ok (some f)) (dated : f.ts = some t) : rfc.RoundTrips t := by
  obtain ⟨-, ⟨cols⟩⟩ := accepted_columns accepted
  have ts := cols.ts
  rw [dated, parseTs] at ts
  split at ts
  · cases ts
  · split at ts
    next v parsed =>
      obtain rfl : v = t := by simpa using ts
      exact lawful _ _ parsed
    next => cases ts

theorem accepted_stamp {line : Text} {f : HawkFrame} {now : OffsetDateTime} (lawful : rfc.Lawful)
    (stamp : rfc.RoundTrips now) (accepted : parseTsvLine rfc line = .ok (some f)) :
    rfc.RoundTrips (f.ts.getD now) := by
  cases given : f.ts with
  | none => exact stamp
  | some t => exact accepted_dated lawful accepted given

theorem parse_toTsvLine {f : HawkFrame} {now : OffsetDateTime} (decoded : Decoded f)
    (stamp : rfc.RoundTrips (f.ts.getD now)) :
    parseTsvLine rfc (toTsvLine rfc f now) = .ok (some (relayed f now)) := by
  have kind : trim f.kind = f.kind := decoded.kind.trimmed
  have scope : trim f.scope = f.scope := decoded.scope.trimmed
  have id : trim f.id = f.id := decoded.id.trimmed
  have msg : trim f.msg = f.msg := decoded.msg.trimmed
  rw [parse_tabless decoded.tabless stamp, kind, scope, id, msg, parse_serialize decoded.kv]
  rfl

/-- The columns of a line whose texts may hold anything: each of them is split further. -/
theorem parse_stamped {f : HawkFrame} {now : OffsetDateTime} (stamp : rfc.RoundTrips (f.ts.getD now)) :
    ∃ c1 c2 c3 c4 c5 c6 rest,
      [f.kind, f.scope, f.id, f.level.asStr, f.msg, trimEndMatches isLineEnd (serializeKvBag f.kv)].flatMap (·.splitOn '\t') =
        c1 :: c2 :: c3 :: c4 :: c5 :: c6 :: rest ∧
      parseTsvLine rfc (toTsvLine rfc f now) = .ok (some {
        ts := some (f.ts.getD now)
        kind := trim c1
        scope := trim c2
        id := trim c3
        level := Level.parse c4
        msg := trim c5
        kv := parseKvBag (trim c6) }) := by
  let columns := [f.kind, f.scope, f.id, f.level.asStr, f.msg, trimEndMatches isLineEnd (serializeKvBag f.kv)]
  obtain ⟨c, others, formatted, visible, parsed⟩ := stamped_text stamp
  have first : trim (c :: others) = c :: others := by
    apply (trimmed_iff _).mpr
    exact ⟨fun d head => (visible d (List.mem_of_head? head)).1, fun d last => (visible d (List.mem_of_getLast? last)).1⟩
  have time : (c :: others).splitOn '\t' = [c :: others] :=
    splitOn_of_absent fun member => absurd (visible '\t' member).1 (by decide)
  have enough : 6 ≤ (columns.flatMap (·.splitOn '\t')).length := by
    simp only [columns, List.flatMap_cons, List.flatMap_nil, List.length_append, length_splitOn]
    omega
  have split : (['\t'].intercalate (head rfc f now ++ [trimEndMatches isLineEnd (serializeKvBag f.kv)])).splitOn '\t' =
      (c :: others) :: columns.flatMap (·.splitOn '\t') := by
    rw [splitOn_intercalate_flatMap (by simp)]
    simp only [head, formatted, List.cons_append, List.nil_append, List.flatMap_cons, time, columns]
  rcases shape : columns.flatMap (·.splitOn '\t') with
    _ | ⟨c1, _ | ⟨c2, _ | ⟨c3, _ | ⟨c4, _ | ⟨c5, _ | ⟨c6, rest⟩⟩⟩⟩⟩⟩
  case cons.cons.cons.cons.cons.cons =>
    refine ⟨c1, c2, c3, c4, c5, c6, rest, shape, ?_⟩
    rw [parse_not_ignored (toTsvLine_kept stamp), toTsvLine_end, split, shape]
    simp only [parseColumns, first, parseTs, parsed, List.isEmpty_cons, Bool.false_eq_true, ↓reduceIte]
    rfl
  all_goals simp [shape] at enough

/-- Columns that come back as they were written. -/
structure Headed (f : HawkFrame) : Prop where
  kind : Column f.kind
  scope : Column f.scope
  id : Column f.id
  msg : Column f.msg

/-- Whatever the bag holds, it does not reach the columns before it. -/
theorem parse_headed {f : HawkFrame} {now : OffsetDateTime} (headed : Headed f) (stamp : rfc.RoundTrips (f.ts.getD now)) :
    ∃ kv, parseTsvLine rfc (toTsvLine rfc f now) = .ok (some { f with ts := some (f.ts.getD now), kv }) := by
  obtain ⟨c1, c2, c3, c4, c5, c6, rest, split, parsed⟩ := parse_stamped stamp
  have level : '\t' ∉ f.level.asStr := by cases f.level <;> decide
  simp only [List.flatMap_cons, splitOn_of_absent headed.kind.tab, splitOn_of_absent headed.scope.tab,
    splitOn_of_absent headed.id.tab, splitOn_of_absent level, splitOn_of_absent headed.msg.tab, List.cons_append,
    List.nil_append, List.cons.injEq] at split
  obtain ⟨rfl, rfl, rfl, rfl, rfl, -⟩ := split
  have kind : trim f.kind = f.kind := headed.kind.trimmed
  have scope : trim f.scope = f.scope := headed.scope.trimmed
  have id : trim f.id = f.id := headed.id.trimmed
  have msg : trim f.msg = f.msg := headed.msg.trimmed
  rw [kind, scope, id, msg, Level.parse_asStr] at parsed
  exact ⟨_, parsed⟩

end HawkTui.Proofs.FrameCodec
