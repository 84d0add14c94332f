import HawkTui.Proofs.Emitters
import HawkTui.Proofs.Segments

/-! What the daemon's threads say. As long as no text from outside holds a newline,
every message is one line that a mirror takes, whatever else the texts hold: a bad
line of a publisher, the word of a strict source, an error of the bus or of the
transport. -/

namespace HawkTui.Proofs.Spoken
open Lib Text Utf8 Numbers HawkFrame UnixIngest Spine Channel FrameCodec Emitters Segments
open Daemon (Thread Cli Outside)

/-- Texts that stand in one line. -/
def Unbroken (texts : List Text) : Prop := ∀ text ∈ texts, '\n' ∉ text

variable {rfc : Rfc3339} {table : DebugTable}

/-- A line of the daemon is sound when its frame breaks no line. -/
theorem sound_lineBytes {f : HawkFrame} {now : OffsetDateTime} (stamp : rfc.RoundTrips (f.ts.getD now)) (single : OneLine f) :
    Sound rfc (lineBytes rfc f now) := by
  refine ⟨toTsvLine rfc f now, rfl, (newline_toTsvLine_iff stamp).mpr single, ?_⟩
  obtain ⟨_, _, _, _, _, _, _, -, parsed⟩ := parse_stamped stamp
  rintro ⟨e, rejected⟩
  rw [parsed] at rejected
  cases rejected

theorem newline_not_mem_debug (e : HawkFrameParseError) : '\n' ∉ e.debug table := by
  cases e with
  | empty => exact (by decide : '\n' ∉ "Empty".toList)
  | tooFewColumns found =>
    rw [HawkFrameParseError.debug_tooFewColumns]
    simp only [List.mem_append, not_or]
    exact ⟨⟨by decide, toDigits_not_mem (by decide) found⟩, by decide⟩
  | badTimestamp raw =>
    have quoted : '\n' ∉ debugStr table raw := by
      intro member
      simp only [debugStr, List.cons_append, List.mem_cons, List.mem_append, List.mem_flatMap] at member
      rcases member with first | ⟨c, -, inside⟩ | last
      · exact absurd first (by decide)
      · exact (mem_escapeDebug inside).2.1 rfl
      · exact absurd last (by decide)
    rw [HawkFrameParseError.debug_badTimestamp]
    simp only [List.mem_append, not_or]
    exact ⟨⟨by decide, quoted⟩, by decide⟩

theorem ignored_comment (rest : Text) : Ignored ('#' :: rest) := by
  have kept := trimEndMatches_append_cons (by decide : isLineEnd '#' = false) [] rest
  rw [List.nil_append, List.nil_append] at kept
  have visible : isWhitespace '#' = false := by decide
  refine Or.inr ?_
  simp [kept, trimStart, startsWith, visible]

/-- The last word of a strict source is a comment. -/
theorem strict_notice (e : HawkFrameParseError) :
    Sound rfc (encode ("# hawkd strict parse error: ".toList ++ e.debug table ++ ['\n'])) ∧
      told rfc (encode ("# hawkd strict parse error: ".toList ++ e.debug table ++ ['\n'])) = none := by
  have start : "# hawkd strict parse error: ".toList = '#' :: " hawkd strict parse error: ".toList := by decide
  have parsed : parseTsvLine rfc ("# hawkd strict parse error: ".toList ++ e.debug table) = .ok none := by
    rw [start, List.cons_append]
    exact parse_ignored (ignored_comment _)
  have absent : '\n' ∉ "# hawkd strict parse error: ".toList ++ e.debug table := by
    rw [List.mem_append, not_or]
    exact ⟨by decide, newline_not_mem_debug e⟩
  have kept : ¬ Rejected rfc ("# hawkd strict parse error: ".toList ++ e.debug table) := by
    rintro ⟨error, rejected⟩
    rw [parsed] at rejected
    cases rejected
  exact ⟨⟨_, rfl, absent, kept⟩, told_encode parsed⟩

/-- An accepted line goes out as a sound one. -/
theorem sound_accepted {line : Text} {f : HawkFrame} {now : OffsetDateTime} (lawful : rfc.Lawful) (clock : rfc.RoundTrips now)
    (single : '\n' ∉ trimEndMatches isLineEnd line) (accepted : parseTsvLine rfc line = .ok (some f)) :
    Sound rfc (lineBytes rfc f now) :=
  sound_lineBytes (accepted_stamp lawful clock accepted) (accepted_oneLine accepted single)

section Sources
variable {strict : Bool} {clock : Nat → OffsetDateTime} (lawful : rfc.Lawful) (stamps : ∀ k, rfc.RoundTrips (clock k))
include lawful stamps

theorem stdinSourceLines_sound {reads : List (Option Text)}
    (single : ∀ line, some line ∈ reads → '\n' ∉ trimEndMatches isLineEnd line) (k : Nat) :
    ∀ message ∈ stdinSourceLines rfc table strict clock k reads, Sound rfc message := by
  induction reads generalizing k with
  | nil => simp [stdinSourceLines]
  | cons read reads ih =>
    have later := ih (fun line member => single line (by simp [member])) (k + 1)
    cases read with
    | none => simp [stdinSourceLines]
    | some line =>
      simp only [stdinSourceLines]
      cases parsed : parseTsvLine rfc line with
      | ok out =>
        cases out with
        | none => exact later
        | some frame => exact List.forall_mem_cons.mpr ⟨sound_accepted lawful (stamps k) (single line (by simp)) parsed, later⟩
      | error e =>
        cases strict with
        | true => simpa using (strict_notice e).1
        | false => exact later

end Sources

section Frames

/-- A bag whose entries break no line. -/
def LineSafe (kv : KvBag) : Prop := ∀ k v : Text, kv[k]? = some v → '\n' ∉ k ∧ '\n' ∉ v

theorem LineSafe.empty : LineSafe ∅ := by simp [LineSafe]

theorem LineSafe.insert {kv : KvBag} {k v : Text} (safe : LineSafe kv) (key : '\n' ∉ k) (value : '\n' ∉ v) :
    LineSafe (kv.insert k v) := by
  intro other text found
  rw [BTreeMap.getElem?_insert_eq] at found
  split at found
  next same =>
    cases found
    exact ⟨same ▸ key, value⟩
  next => exact safe other text found

theorem newline_not_mem_number (n : Int) : '\n' ∉ i64ToText n := i64ToText_not_mem (by decide) (by decide)

theorem newline_not_mem_clipRaw {line raw : Text} (clipped : clipRaw line = some raw) (absent : '\n' ∉ line) : '\n' ∉ raw := by
  unfold clipRaw at clipped
  split at clipped
  next long =>
    obtain ⟨front, cut, rfl⟩ := Option.map_eq_some_iff.mp clipped
    have start := (truncate_spec cut (by omega)).1
    rw [List.mem_append, not_or]
    exact ⟨fun member => absent (start.subset member), by decide⟩
  next => exact Option.some.inj clipped ▸ absent

theorem parseErrorFrame_oneLine {now : OffsetDateTime} {path line err : Text} {f : HawkFrame}
    (built : parseErrorFrame now path line err = some f) (inPath : '\n' ∉ path) (inLine : '\n' ∉ line) (inErr : '\n' ∉ err) :
    f.ts = some now ∧ OneLine f := by
  cases clipped : clipRaw line with
  | none => simp [parseErrorFrame, clipped] at built
  | some raw =>
    simp only [parseErrorFrame, clipped, Option.bind_eq_bind, Option.bind_some, Option.pure_def, Option.some.injEq] at built
    subst built
    have kind : '\n' ∉ "RECEIPT_EVENT".toList := by decide
    have scope : '\n' ∉ "hawkd".toList := by decide
    have id : '\n' ∉ "ingest".toList := by decide
    have msg : '\n' ∉ "ingest parse error".toList := by decide
    refine ⟨rfl, kind, scope, id, msg, ?_⟩
    exact ((LineSafe.empty.insert (by decide) inPath).insert (by decide) inErr).insert (by decide)
      (newline_not_mem_clipRaw clipped inLine)

/-- A watcher's frame is on one line if what it fills in is. -/
theorem watched_oneLine {f : HawkFrame} (kind : f.kind = "HEALTH".toList)
    (scope : f.scope = "grpc".toList ∨ f.scope = "systemd".toList) (id : '\n' ∉ f.id) (msg : '\n' ∉ f.msg) (kv : LineSafe f.kv) :
    OneLine f := by
  refine ⟨?_, ?_, id, msg, kv⟩
  · rw [kind]
    decide
  · rcases scope with scope | scope <;> rw [scope] <;> decide

theorem statusFrame_oneLine {spec : GrpcHealth.WatchSpec} (texts : Unbroken [spec.endpoint, spec.service, spec.id])
    (cfg : GrpcHealth.GrpcWatchConfig) (now : OffsetDateTime) (st : GrpcHealth.ServingStatus) :
    OneLine (GrpcHealth.statusFrame spec cfg now st) := by
  simp only [Unbroken, List.forall_mem_cons] at texts
  obtain ⟨endpoint, service, id, -⟩ := texts
  have status : '\n' ∉ st.debug := by cases st <;> decide
  have msg : '\n' ∉ (GrpcHealth.statusLevel st).2 := by cases st <;> decide
  refine watched_oneLine rfl (Or.inl rfl) id msg ?_
  exact ((((LineSafe.empty.insert (by decide) endpoint).insert (by decide) service).insert (by decide)
    status).insert (by decide) (newline_not_mem_number _)).insert (by decide) (newline_not_mem_number _)

theorem grpcError_oneLine {spec : GrpcHealth.WatchSpec} {err : Text} (texts : Unbroken [spec.endpoint, spec.service, spec.id])
    (inErr : '\n' ∉ err) (cfg : GrpcHealth.GrpcWatchConfig) (now : OffsetDateTime) (stage : GrpcHealth.WatchFailure) :
    OneLine (GrpcHealth.errorFrame spec cfg now stage.msg err) := by
  simp only [Unbroken, List.forall_mem_cons] at texts
  obtain ⟨endpoint, service, id, -⟩ := texts
  have msg : '\n' ∉ stage.msg := by cases stage <;> decide
  refine watched_oneLine rfl (Or.inl rfl) id msg ?_
  exact ((((LineSafe.empty.insert (by decide) endpoint).insert (by decide) service).insert (by decide) inErr).insert
    (by decide) (newline_not_mem_number _)).insert (by decide) (newline_not_mem_number _)

theorem snapshotFrame_oneLine {spec : Systemd.UnitSpec} {unit : Systemd.UnitState} (texts : Unbroken [spec.unit, spec.id])
    (read : Unbroken [unit.active, unit.sub, unit.load, unit.desc]) (cfg : Systemd.SystemdWatchConfig) (now : OffsetDateTime) :
    OneLine (Systemd.snapshotFrame spec cfg now unit) := by
  simp only [Unbroken, List.forall_mem_cons] at texts read
  obtain ⟨name, id, -⟩ := texts
  obtain ⟨active, sub, load, desc, -⟩ := read
  have msg : '\n' ∉ unit.active ++ ':' :: unit.sub := by simp [active, sub]
  have states := (((LineSafe.empty.insert (by decide : '\n' ∉ "unit".toList) name).insert
    (by decide : '\n' ∉ "active".toList) active).insert (by decide : '\n' ∉ "sub".toList) sub).insert
    (by decide : '\n' ∉ "load".toList) load
  refine watched_oneLine rfl (Or.inr rfl) id msg ?_
  refine LineSafe.insert (LineSafe.insert ?_ (by decide) (newline_not_mem_number _)) (by decide) (newline_not_mem_number _)
  split
  · exact states
  · exact states.insert (by decide) desc

theorem unitError_oneLine {spec : Systemd.UnitSpec} {err : Text} (texts : Unbroken [spec.unit, spec.id]) (inErr : '\n' ∉ err)
    (cfg : Systemd.SystemdWatchConfig) (now : OffsetDateTime) :
    OneLine (Systemd.errorFrame spec cfg now Systemd.watchFailed err) := by
  simp only [Unbroken, List.forall_mem_cons] at texts
  obtain ⟨name, id, -⟩ := texts
  have msg : '\n' ∉ Systemd.watchFailed := by decide
  refine watched_oneLine rfl (Or.inr rfl) id msg ?_
  exact (((LineSafe.empty.insert (by decide) name).insert (by decide) inErr).insert (by decide)
    (newline_not_mem_number _)).insert (by decide) (newline_not_mem_number _)

end Frames

theorem handleIngestLines_sound {path : Text} {strict : Bool} {clock : Nat → OffsetDateTime} (lawful : rfc.Lawful)
    (stamps : ∀ k, rfc.RoundTrips (clock k)) (inPath : '\n' ∉ path) {reads : List (Option Text)}
    (single : ∀ line, some line ∈ reads → '\n' ∉ line) (k : Nat) :
    ∀ message ∈ (handleIngestLines rfc table path strict clock k reads).messages, Sound rfc message := by
  induction reads generalizing k with
  | nil => simp [handleIngestLines]
  | cons read reads ih =>
    have later := ih (fun line member => single line (by simp [member])) (k + 1)
    cases read with
    | none => simp [handleIngestLines]
    | some line =>
      have absent := single line (by simp)
      simp only [handleIngestLines]
      cases parsed : parseTsvLine rfc line with
      | ok out =>
        cases out with
        | none => exact later
        | some frame =>
          have kept : '\n' ∉ trimEndMatches isLineEnd line :=
            fun member => absent ((List.rdropWhile_prefix _ _).subset member)
          exact List.forall_mem_cons.mpr ⟨sound_accepted lawful (stamps k) kept parsed, later⟩
      | error e =>
        cases built : parseErrorFrame (clock k) path line (e.debug table) with
        | none => simp [built]
        | some frame =>
          obtain ⟨dated, oneLine⟩ := parseErrorFrame_oneLine built inPath absent (newline_not_mem_debug e)
          have first : Sound rfc (lineBytes rfc frame (clock k)) :=
            sound_lineBytes (by rw [dated]; exact stamps k) oneLine
          simp only [built, Sent.after, List.forall_mem_cons]
          cases strict with
          | true => exact ⟨first, by simp⟩
          | false => exact ⟨first, later⟩

section Bus
open Systemd

def errorText : Except Text α → List Text
  | .error e => [e]
  | .ok _ => []

def readText : Except Text Text → List Text
  | .error e => [e]
  | .ok text => [text]

/-- The texts that one reading of a unit brings in. -/
def unitTexts (unit : UnitReading) : List Text :=
  readText unit.activeState ++ readText unit.subState ++ readText unit.loadState ++ readText unit.description

/-- The texts that a whole session brings in. -/
def sessionTexts (session : Session) : List Text :=
  errorText session.system ++ errorText session.managerProxy ++ errorText session.getUnit ++ errorText session.unitPath ++
    errorText session.unitBuild ++ errorText session.propsDestination ++ errorText session.propsPath ++
    errorText session.propsBuild ++ errorText session.receive ++ unitTexts session.first ++ session.signals.flatMap unitTexts

/-- A computation whose error breaks no line. -/
def Safe (m : Except Text α) : Prop := ∀ e, m = .error e → '\n' ∉ e

theorem Safe.bind {m : Except Text α} {next : α → Except Text β} (safe : Safe m) (later : ∀ a, m = .ok a → Safe (next a)) :
    Safe (m >>= next) := by
  cases m with
  | error e =>
    intro e' failed
    cases failed
    exact safe e rfl
  | ok a => exact later a rfl

theorem safe_mapError {m : Except Text α} {wrap : Text → Text} (keeps : ∀ e, '\n' ∉ e → '\n' ∉ wrap e)
    (texts : Unbroken (errorText m)) : Safe (m.mapError wrap) := by
  cases m with
  | error e =>
    intro e' failed
    cases failed
    exact keeps e (texts e (by simp [errorText]))
  | ok a =>
    intro e failed
    cases failed

theorem context_keeps {what : String} (absent : '\n' ∉ what.toList) (e : Text) (inside : '\n' ∉ e) : '\n' ∉ context what e := by
  simp [context, absent, inside]

theorem errorText_readText {m : Except Text Text} (texts : Unbroken (readText m)) : Unbroken (errorText m) := by
  cases m with
  | error e => exact texts
  | ok text => simp [errorText, Unbroken]

variable {spec : UnitSpec} (cfg : SystemdWatchConfig) {session : Session} {unit : UnitReading}

theorem openUnit_safe (name : '\n' ∉ spec.unit) (texts : Unbroken (sessionTexts session)) : Safe (openUnit spec session) := by
  have part : ∀ {some : List Text}, (∀ text ∈ some, text ∈ sessionTexts session) → Unbroken some :=
    fun within text member => texts text (within text member)
  have wrapped : ∀ e, '\n' ∉ e → '\n' ∉ "GetUnit ".toList ++ spec.unit ++ ": ".toList ++ e := by
    intro e absent
    simp only [List.mem_append, not_or]
    exact ⟨⟨⟨by decide, name⟩, by decide⟩, absent⟩
  unfold openUnit
  refine (safe_mapError (context_keeps (by decide)) (part ?_)).bind fun _ _ => ?_
  · simp +contextual [sessionTexts]
  refine (safe_mapError (context_keeps (by decide)) (part ?_)).bind fun _ _ => ?_
  · simp +contextual [sessionTexts]
  refine (safe_mapError wrapped (part ?_)).bind fun _ _ => ?_
  · simp +contextual [sessionTexts]
  refine (safe_mapError (context_keeps (by decide)) (part ?_)).bind fun _ _ => ?_
  · simp +contextual [sessionTexts]
  refine (safe_mapError (context_keeps (by decide)) (part ?_)).bind fun _ _ => ?_
  · simp +contextual [sessionTexts]
  refine (safe_mapError (context_keeps (by decide)) (part ?_)).bind fun _ _ => ?_
  · simp +contextual [sessionTexts]
  refine (safe_mapError (context_keeps (by decide)) (part ?_)).bind fun _ _ => ?_
  · simp +contextual [sessionTexts]
  refine safe_mapError (context_keeps (by decide)) (part ?_)
  simp +contextual [sessionTexts]

theorem readUnit_safe (texts : Unbroken (unitTexts unit)) :
    Safe (readUnit unit) ∧ ∀ state, readUnit unit = .ok state → Unbroken [state.active, state.sub, state.load, state.desc] := by
  obtain ⟨now, active, sub, load, desc⟩ := unit
  simp only [Unbroken, unitTexts, List.mem_append, or_imp, forall_and] at texts
  obtain ⟨⟨⟨inActive, inSub⟩, inLoad⟩, inDesc⟩ := texts
  constructor
  · refine (safe_mapError (context_keeps (by decide)) (errorText_readText inActive)).bind fun _ _ => ?_
    refine (safe_mapError (context_keeps (by decide)) (errorText_readText inSub)).bind fun _ _ => ?_
    refine (safe_mapError (context_keeps (by decide)) (errorText_readText inLoad)).bind fun _ _ => ?_
    rintro e ⟨⟩
  · intro state read
    cases active with
    | error e => cases read
    | ok active => cases sub with
      | error e => cases read
      | ok sub => cases load with
        | error e => cases read
        | ok load =>
          cases read
          have shown : '\n' ∉ desc.toOption.getD [] := by
            cases desc with
            | error e => simp [Except.toOption]
            | ok text => exact inDesc text (by simp [readText])
          simp only [Unbroken, List.forall_mem_cons]
          exact ⟨inActive active (by simp [readText]), inSub sub (by simp [readText]), inLoad load (by simp [readText]), shown,
            by simp⟩

theorem snapshot_safe (texts : Unbroken (unitTexts unit)) : Safe (snapshot rfc spec cfg unit) :=
  (readUnit_safe texts).1.bind fun _ _ => by rintro e ⟨⟩

theorem followSignals_safe {signals : List UnitReading} (texts : Unbroken (signals.flatMap unitTexts)) :
    Safe (followSignals rfc spec cfg signals).2 := by
  induction signals with
  | nil =>
    rintro e ⟨⟩
    decide
  | cons unit signals ih =>
    have here : Unbroken (unitTexts unit) := fun text member => texts text (by simp [member])
    have later := ih fun text member => texts text (by simp only [List.flatMap_cons, List.mem_append, member, or_true])
    rw [followSignals]
    cases read : snapshot rfc spec cfg unit with
    | error e =>
      rintro e' ⟨⟩
      exact snapshot_safe cfg here e read
    | ok message => exact later

theorem watchOneUnitOnce_safe (name : '\n' ∉ spec.unit) (texts : Unbroken (sessionTexts session)) :
    Safe (watchOneUnitOnce rfc spec cfg session).2 := by
  have part : ∀ {some : List Text}, (∀ text ∈ some, text ∈ sessionTexts session) → Unbroken some :=
    fun within text member => texts text (within text member)
  have opened := openUnit_safe name texts
  have first : Safe (snapshot rfc spec cfg session.first) := snapshot_safe cfg (part (by simp +contextual [sessionTexts]))
  have subscribed : Safe (session.receive.mapError (context "receive PropertiesChanged")) :=
    safe_mapError (context_keeps (by decide)) (part (by simp +contextual [sessionTexts]))
  unfold watchOneUnitOnce
  cases ready : openUnit spec session with
  | error e =>
    rintro e' ⟨⟩
    exact opened e ready
  | ok _ =>
    cases begun : snapshot rfc spec cfg session.first with
    | error e =>
      rintro e' ⟨⟩
      exact first e begun
    | ok message =>
      cases listening : session.receive.mapError (context "receive PropertiesChanged") with
      | error e =>
        rintro e' ⟨⟩
        exact subscribed e listening
      | ok _ => exact followSignals_safe cfg (part fun text member => List.mem_append_right _ member)

end Bus

section Units
open Systemd
variable {spec : UnitSpec} {cfg : SystemdWatchConfig} {sessions : List Session} {session : Session}

/-- The frames of a unit: a reading that went well, or the error that ended a session. -/
inductive UnitSaid (rfc : Rfc3339) (spec : UnitSpec) (cfg : SystemdWatchConfig) (sessions : List Session) : HawkFrame → Prop
  | reading {session : Session} {unit : UnitReading} {state : UnitState} (here : session ∈ sessions)
      (inside : unit ∈ session.first :: session.signals) (read : readUnit unit = .ok state) :
      UnitSaid rfc spec cfg sessions (snapshotFrame spec cfg unit.now state)
  | failure {session : Session} {err : Text} (here : session ∈ sessions)
      (ended : (watchOneUnitOnce rfc spec cfg session).2 = .error err) :
      UnitSaid rfc spec cfg sessions (errorFrame spec cfg session.failedAt watchFailed err)

/-- A message with the frame it was made of. -/
def SaidBy (rfc : Rfc3339) (spec : UnitSpec) (cfg : SystemdWatchConfig) (sessions : List Session) (message : Bytes) : Prop :=
  ∃ f now, UnitSaid rfc spec cfg sessions f ∧ message = lineBytes rfc f now

theorem snapshot_said {unit : UnitReading} {message : Bytes} (here : session ∈ sessions)
    (inside : unit ∈ session.first :: session.signals) (sent : snapshot rfc spec cfg unit = .ok message) :
    SaidBy rfc spec cfg sessions message := by
  unfold snapshot at sent
  cases read : readUnit unit with
  | error e =>
    rw [read] at sent
    cases sent
  | ok state =>
    rw [read] at sent
    cases sent
    exact ⟨_, _, .reading here inside read, rfl⟩

theorem followSignals_said (here : session ∈ sessions) {signals : List UnitReading} (inside : signals ⊆ session.signals) :
    ∀ message ∈ (followSignals rfc spec cfg signals).1, SaidBy rfc spec cfg sessions message := by
  induction signals with
  | nil => simp [followSignals]
  | cons unit signals ih =>
    rw [List.cons_subset] at inside
    rw [followSignals]
    cases read : snapshot rfc spec cfg unit with
    | error e => simp
    | ok message => exact List.forall_mem_cons.mpr ⟨snapshot_said here (by simp [inside.1]) read, ih inside.2⟩

theorem watchOneUnitOnce_said (here : session ∈ sessions) :
    ∀ message ∈ (watchOneUnitOnce rfc spec cfg session).1, SaidBy rfc spec cfg sessions message := by
  unfold watchOneUnitOnce
  cases openUnit spec session with
  | error e => simp
  | ok _ =>
    cases first : snapshot rfc spec cfg session.first with
    | error e => simp
    | ok message =>
      have begun := snapshot_said here (by simp) first
      cases session.receive.mapError (context "receive PropertiesChanged") with
      | error e => simpa using begun
      | ok _ => exact List.forall_mem_cons.mpr ⟨begun, followSignals_said here (List.Subset.refl _)⟩

theorem watchUnitFrom_said {rest : List Session} (inside : rest ⊆ sessions) (backoffMs : Nat) :
    ∀ turn ∈ watchUnitFrom rfc spec cfg backoffMs rest, ∀ message ∈ turn.messages, SaidBy rfc spec cfg sessions message := by
  induction rest generalizing backoffMs with
  | nil => simp [watchUnitFrom]
  | cons session rest ih =>
    rw [List.cons_subset] at inside
    have sent : ∀ message ∈ (watchOneUnitOnce rfc spec cfg session).1, SaidBy rfc spec cfg sessions message :=
      watchOneUnitOnce_said inside.1
    have turn : ∀ message ∈ (watchUnitTurn rfc spec cfg backoffMs session).1.messages, SaidBy rfc spec cfg sessions message := by
      unfold watchUnitTurn
      cases ended : (watchOneUnitOnce rfc spec cfg session).2 with
      | ok _ => exact sent
      | error e =>
        intro message member
        rcases List.mem_append.mp member with early | last
        · exact sent message early
        · exact ⟨_, _, .failure inside.1 ended, List.mem_singleton.mp last⟩
    exact List.forall_mem_cons.mpr ⟨turn, ih inside.2 _⟩

/-- What a session meets breaks no line, and its clock can be written down. -/
structure UnitCalm (rfc : Rfc3339) (session : Session) : Prop where
  texts : Unbroken (sessionTexts session)
  failedAt : rfc.RoundTrips session.failedAt
  readings : ∀ unit ∈ session.first :: session.signals, rfc.RoundTrips unit.now

theorem unitTexts_subset {unit : UnitReading} (inside : unit ∈ session.first :: session.signals) :
    unitTexts unit ⊆ sessionTexts session := by
  intro text member
  rcases List.mem_cons.mp inside with rfl | later
  · exact List.mem_append_left _ (List.mem_append_right _ member)
  · exact List.mem_append_right _ (List.mem_flatMap.mpr ⟨unit, later, member⟩)

theorem UnitSaid.dated {f : HawkFrame} (said : UnitSaid rfc spec cfg sessions f)
    (calm : ∀ session ∈ sessions, UnitCalm rfc session) : ∃ ts, f.ts = some ts ∧ rfc.RoundTrips ts := by
  cases said with
  | reading here inside => exact ⟨_, rfl, (calm _ here).readings _ inside⟩
  | failure here => exact ⟨_, rfl, (calm _ here).failedAt⟩

theorem UnitSaid.oneLine {f : HawkFrame} (said : UnitSaid rfc spec cfg sessions f) (names : Unbroken [spec.unit, spec.id])
    (calm : ∀ session ∈ sessions, UnitCalm rfc session) : OneLine f := by
  cases said with
  | reading here inside read =>
    have texts := fun text member => (calm _ here).texts text (unitTexts_subset inside member)
    exact snapshotFrame_oneLine names ((readUnit_safe texts).2 _ read) _ _
  | failure here ended =>
    exact unitError_oneLine names (watchOneUnitOnce_safe cfg (names _ (by simp)) (calm _ here).texts _ ended) _ _

theorem SaidBy.sound {message : Bytes} (said : SaidBy rfc spec cfg sessions message) (names : Unbroken [spec.unit, spec.id])
    (calm : ∀ session ∈ sessions, UnitCalm rfc session) : Sound rfc message := by
  obtain ⟨f, now, said, rfl⟩ := said
  obtain ⟨ts, dated, stamp⟩ := said.dated calm
  exact sound_lineBytes (by simpa [dated] using stamp) (said.oneLine names calm)

end Units

/-- The daemon's clocks can be written down, and no text from outside breaks a line. -/
structure Calm (rfc : Rfc3339) (cli : Cli) (outside : Outside) : Prop where
  lawful : rfc.Lawful
  stdinClock : ∀ k, rfc.RoundTrips (outside.stdinClock k)
  publisherClock : ∀ n k, rfc.RoundTrips (outside.publisherClock n k)
  watcherClock : ∀ n k, rfc.RoundTrips (outside.watcherClock n k).1
  ingestPath : ∀ path ∈ cli.ingestPath, '\n' ∉ path
  watches : ∀ spec ∈ cli.watches, Unbroken [spec.endpoint, spec.service, spec.id]
  failures : ∀ n stage err, .failure stage err ∈ Daemon.watchEvents (outside.attempts n) → '\n' ∉ err
  units : ∀ spec ∈ cli.units, Unbroken [spec.unit, spec.id]
  sessions : ∀ n, ∀ session ∈ outside.sessions n, UnitCalm rfc session

section
variable {cli : Cli} {outside : Outside}

theorem emit_sound {spec : GrpcHealth.WatchSpec} {event : GrpcHealth.Event} {now later : OffsetDateTime}
    (names : Unbroken [spec.endpoint, spec.service, spec.id]) (clock : rfc.RoundTrips now)
    (failure : ∀ stage err, event = .failure stage err → '\n' ∉ err) (cfg : GrpcHealth.GrpcWatchConfig) :
    Sound rfc (GrpcHealth.emit rfc spec cfg now later event) := by
  cases event with
  | status st => exact sound_lineBytes clock (statusFrame_oneLine names cfg now st)
  | failure stage err => exact sound_lineBytes clock (grpcError_oneLine names (failure stage err rfl) cfg now stage)

theorem sends_sound (calm : Calm rfc cli outside) (thread : Thread) :
    ∀ message ∈ Daemon.sends rfc table cli outside thread, Sound rfc message := by
  cases thread with
  | stdin =>
    simp only [Daemon.sends]
    split
    · refine stdinSourceLines_sound calm.lawful calm.stdinClock (fun line member => ?_) 0
      obtain ⟨front, absent, same | same⟩ := mem_readLines member
      · exact fun here => absent (same ▸ (List.rdropWhile_prefix _ _).subset here)
      · rw [same, trimEndMatches, List.rdropWhile_concat_pos _ _ _ (by decide)]
        exact fun here => absent ((List.rdropWhile_prefix _ _).subset here)
    · simp
  | publisher n =>
    simp only [Daemon.sends]
    split
    next path given =>
      exact handleIngestLines_sound calm.lawful (calm.publisherClock n) (calm.ingestPath path given)
        (fun line member => mem_bufLines member) 0
    next => simp
  | watcher n =>
    simp only [Daemon.sends]
    split
    next spec given =>
      intro message member
      obtain ⟨k, inside, rfl⟩ := List.mem_mapIdx.mp member
      refine emit_sound (calm.watches spec (List.mem_of_getElem? given)) (calm.watcherClock n k) ?_ cli.grpc
      intro stage err same
      exact calm.failures n stage err (same ▸ List.getElem_mem inside)
    next => simp
  | unit n =>
    simp only [Daemon.sends]
    split
    next spec given =>
      intro message member
      obtain ⟨turn, inside, sent⟩ := List.mem_flatMap.mp member
      have said := watchUnitFrom_said (List.Subset.refl _) _ turn inside message sent
      exact said.sound (calm.units spec (List.mem_of_getElem? given)) (calm.sessions n)
    next => simp

theorem heard_sound (calm : Calm rfc cli outside) {bannerOn : Bool} {steps : List Step} {state : Daemon.State} {client : Nat}
    {heard : List (Thread × Bytes)} (relays : Relays (Daemon.sends rfc table cli outside) bannerOn steps state)
    (hears : Heard state bannerOn client heard) : ∀ item ∈ heard, Sound rfc item.2 := by
  rintro ⟨thread, message⟩ member
  exact sends_sound calm thread message ((heard_of relays hears thread).subset ((mem_of thread).mpr member))

end

/-- A mirror on the daemon's stream reads the messages as the threads wrote them, and
no error among them. Where the connection breaks, one message may be misread. -/
theorem mirror_hears (rfc : Rfc3339) (table : DebugTable) (cli : Cli) (outside : Outside) (calm : Calm rfc cli outside)
    (actions : List Daemon.Action) (state : Daemon.State) (client : Nat) (strict : Bool)
    (ran : Daemon.run rfc table cli outside actions = some state) (accepted : client < state.hub.accepted) :
    ∃ heard whole tail, Heard state cli.clientBanner client heard ∧ whole <+: heard ∧
      Io.spawnUnixReader rfc strict (state.hub.sockets client).received =
        ((whole.map Prod.snd).filterMap (told rfc)).map .frame ++ tail ∧
      tail.length ≤ 1 ∧ ((state.hub.sockets client).broken = false → whole = heard ∧ tail = []) := by
  obtain ⟨steps, relays⟩ := run_relays ran
  obtain ⟨heard, hears⟩ := exists_heard relays accepted
  obtain ⟨whole, tail, read⟩ := hears_sound strict (heard_sound calm relays hears) hears
  exact ⟨heard, whole, tail, hears, read⟩

theorem watchOutside_calm : Calm sampleClock watchCli watchOutside where
  lawful := sampleTimes_proper.lawful
  stdinClock := fun _ => sampleNow_roundTrips
  publisherClock := fun _ _ => sampleNow_roundTrips
  watcherClock := fun _ _ => sampleNow_roundTrips
  ingestPath := by simp [watchCli]
  watches := by
    intro spec member
    rw [List.mem_singleton.mp member]
    exact (by decide : ∀ text ∈ ["http://svc:50051".toList, [], "svc".toList], '\n' ∉ text)
  failures := by
    intro n stage err member
    by_cases first : n = 0
    · subst first
      have listed : Daemon.watchEvents (watchOutside.attempts 0) =
          [.status .serving, .status .notServing, .failure .stream "reset".toList] := rfl
      simp only [listed, List.mem_cons, reduceCtorEq, List.not_mem_nil, or_false, false_or,
        GrpcHealth.Event.failure.injEq] at member
      exact member.2 ▸ by decide
    · simp [watchOutside, first, Daemon.watchEvents, GrpcHealth.watchOne, GrpcHealth.watchFrom] at member
  units := by simp [watchCli]
  sessions := by simp [watchOutside]

theorem mirror_hears_watch :
    ∃ (state : Daemon.State) (heard : List (Thread × Bytes)), Heard state true 0 heard ∧
      Io.spawnUnixReader sampleClock true (state.hub.sockets 0).received =
        ((heard.map Prod.snd).filterMap (told sampleClock)).map .frame := by
  obtain ⟨state, ran, accepted, socket, -⟩ :=
    joinActions_run (rfl : Daemon.sends sampleClock (fun _ => false) watchCli watchOutside (.watcher 0) = _ :: _ :: _)
  obtain ⟨heard, whole, tail, hears, -, read, -, all⟩ := mirror_hears sampleClock (fun _ => false) watchCli watchOutside
    watchOutside_calm (joinActions (.watcher 0)) state 0 true ran accepted
  obtain ⟨rfl, rfl⟩ := all (by rw [socket])
  exact ⟨state, whole, hears, by rw [read, List.append_nil]⟩

end HawkTui.Proofs.Spoken
