import HawkTui.Hawk.Io
import HawkTui.Lib.Merge
import HawkTui.Proofs.Broadcast
import HawkTui.Proofs.FrameCodec
import Mathlib.Data.List.Forall2

/-! From the publishers to one mirror. Every message on the spine is one
self-delimiting line, so whatever order the sends arrive in, the client's byte
stream decodes to a merge of the publishers' frames. -/

namespace HawkTui.Proofs.FanIn
open Lib Text Utf8 HawkFrame UnixIngest Spine Io FrameCodec Broadcast

inductive Source where
  | stdin
  | ingest (path : Text)

/-- A publisher of accepted lines. Its last line may lack the newline, and
`clock k` is what the daemon reads while handling line `k`. -/
structure Producer (rfc : Rfc3339) where
  source : Source
  lines : List Text
  closed : Bool
  clock : Nat → OffsetDateTime
  frames : List HawkFrame
  single : ∀ line ∈ lines, '\n' ∉ line
  accepted : List.Forall₂ (fun line f => parseTsvLine rfc line = .ok (some f)) lines frames
  stamps : ∀ k, rfc.RoundTrips (clock k)

variable {rfc : Rfc3339} {table : DebugTable}

namespace Producer

def input (p : Producer rfc) : Bytes :=
  let text := (p.lines.map (· ++ ['\n'])).flatten
  encode (if p.closed then text else text.dropLast)

def sends (table : DebugTable) (p : Producer rfc) : List Bytes :=
  match p.source with
  | .stdin => spawnStdinSource rfc table false p.clock p.input
  | .ingest path => (handleIngestClient rfc table path false p.clock p.input).messages

def handled (p : Producer rfc) : List (HawkFrame × OffsetDateTime) := p.frames.mapIdx fun k f => (f, p.clock k)

end Producer

/-- A sequence of reads that each decode to the frame at their place. -/
def Reads (rfc : Rfc3339) (reads : List (Option Text)) (frames : List HawkFrame) : Prop :=
  List.Forall₂ (fun read f => ∃ text, read = some text ∧ parseTsvLine rfc text = .ok (some f)) reads frames

theorem stdinSourceLines_eq {strict : Bool} {clock : Nat → OffsetDateTime} {reads : List (Option Text)}
    {frames : List HawkFrame} (good : Reads rfc reads frames) (k : Nat) :
    stdinSourceLines rfc table strict clock k reads = frames.mapIdx fun j f => lineBytes rfc f (clock (k + j)) := by
  induction good generalizing k with
  | nil => rfl
  | cons head tail ih =>
    obtain ⟨text, rfl, parsed⟩ := head
    simp only [stdinSourceLines, parsed, ih, List.mapIdx_cons, Nat.add_zero]
    simp only [Nat.add_assoc, Nat.add_comm 1]

theorem handleIngestLines_eq {path : Text} {strict : Bool} {clock : Nat → OffsetDateTime}
    {reads : List (Option Text)} {frames : List HawkFrame} (good : Reads rfc reads frames) (k : Nat) :
    (handleIngestLines rfc table path strict clock k reads).messages =
      frames.mapIdx fun j f => lineBytes rfc f (clock (k + j)) := by
  induction good generalizing k with
  | nil => rfl
  | cons head tail ih =>
    obtain ⟨text, rfl, parsed⟩ := head
    simp only [handleIngestLines, parsed, Sent.after, ih, List.mapIdx_cons, Nat.add_zero]
    simp only [Nat.add_assoc, Nat.add_comm 1]

theorem readerLoop_eq {strict : Bool} {reads : List (Option Text)} {frames : List HawkFrame}
    (good : Reads rfc reads frames) : readerLoop rfc strict reads = frames.map .frame := by
  induction good with
  | nil => rfl
  | cons head tail ih =>
    obtain ⟨text, rfl, parsed⟩ := head
    simp only [readerLoop, parsed, ih, List.map_cons]

theorem Reads.chomp {reads : List (Option Text)} {frames : List HawkFrame} (good : Reads rfc reads frames) :
    Reads rfc (reads.map (·.map chomp)) frames := by
  unfold Reads
  rw [List.forall₂_map_left_iff]
  apply good.imp
  intro read f found
  obtain ⟨text, rfl, parsed⟩ := found
  exact ⟨Text.chomp text, rfl, by rw [parse_chomp]; exact parsed⟩

private theorem reads_of_lines {reads : List (Option Text)} {lines : List Text} {frames : List HawkFrame}
    (same : List.Forall₂ (fun read line => ∃ terminator, read = some (line ++ terminator) ∧
      ∀ c ∈ terminator, isLineEnd c = true) reads lines)
    (accepted : List.Forall₂ (fun line f => parseTsvLine rfc line = .ok (some f)) lines frames) :
    Reads rfc reads frames := by
  induction same generalizing frames with
  | nil =>
    cases accepted
    exact .nil
  | cons head tail ih =>
    obtain ⟨terminator, rfl, ends⟩ := head
    cases accepted with
    | cons parsed later => exact .cons ⟨_, rfl, by rw [parse_append_line_end _ _ ends]; exact parsed⟩ (ih later)

namespace Producer

theorem line_accepted (p : Producer rfc) {line : Text} (member : line ∈ p.lines) :
    ∃ f, parseTsvLine rfc line = .ok (some f) := by
  obtain ⟨source, lines, closed, clock, frames, single, accepted, stamps⟩ := p
  induction accepted with
  | nil => cases member
  | cons parsed later ih =>
    rcases List.mem_cons.mp member with rfl | tail
    · exact ⟨_, parsed⟩
    · exact ih (fun line inside => single line (by simp [inside])) tail

theorem line_present (p : Producer rfc) {line : Text} (member : line ∈ p.lines) : line ≠ [] := by
  intro empty
  obtain ⟨f, parsed⟩ := p.line_accepted member
  rw [empty] at parsed
  cases parsed

theorem reads_input (p : Producer rfc) : Reads rfc (readLines p.input) p.frames := by
  have terminated : ∀ lines : List Text, List.Forall₂ (fun read line => ∃ terminator, read = some (line ++ terminator) ∧
      ∀ c ∈ terminator, isLineEnd c = true) (lines.map fun line => some (line ++ ['\n'])) lines := by
    intro lines
    rw [List.forall₂_map_left_iff, List.forall₂_same]
    intro line _
    exact ⟨['\n'], rfl, by simp [isLineEnd]⟩
  apply reads_of_lines _ p.accepted
  simp only [input]
  rcases List.eq_nil_or_concat p.lines with none | ⟨front, last, whole⟩
  · simp [none, readLines, splitInclusive]
  rw [List.concat_eq_append] at whole
  have single := p.single
  have present : last ≠ [] := p.line_present (by simp [whole])
  simp only [whole, List.mem_append, List.mem_singleton] at single
  cases p.closed with
  | true =>
    rw [if_pos rfl, encode_lines, readLines_encode _ p.single]
    exact terminated p.lines
  | false =>
    have bytes : ((p.lines.map (· ++ ['\n'])).flatten).dropLast = (front.map (· ++ ['\n'])).flatten ++ last := by
      simp [whole]
    rw [if_neg (by simp), bytes, encode_append, encode_lines,
      readLines_append front fun line inside => single line (Or.inl inside),
      readLines_last (single last (Or.inr rfl)) present, whole]
    apply List.rel_append (terminated front)
    exact .cons ⟨[], by simp, by simp⟩ .nil

theorem sends_eq (p : Producer rfc) :
    p.sends table = p.handled.map fun item => lineBytes rfc item.1 item.2 := by
  have good := p.reads_input
  have shape : (p.handled.map fun item => lineBytes rfc item.1 item.2) =
      p.frames.mapIdx fun k f => lineBytes rfc f (p.clock (0 + k)) := by
    apply List.ext_getElem?
    intro k
    simp [handled, Function.comp_def]
  rw [shape]
  unfold sends
  cases p.source with
  | stdin => exact stdinSourceLines_eq good 0
  | ingest path => exact handleIngestLines_eq good.chomp 0

end Producer

/-- Everything of a frame but its bag. -/
structure Header where
  ts : Option OffsetDateTime
  kind : Text
  scope : Text
  id : Text
  level : Level
  msg : Text
  deriving DecidableEq

def header (f : HawkFrame) : Header := ⟨f.ts, f.kind, f.scope, f.id, f.level, f.msg⟩

/-- The frame with the daemon's time where it had none. -/
def stamped (f : HawkFrame) (now : OffsetDateTime) : HawkFrame := { f with ts := some (f.ts.getD now) }

private theorem messagesAfter_early {client : Nat} {before after : List Step} (silent : messages before = [])
    (pushed : client < pushes before) : messagesAfter client (before ++ after) = messages (before ++ after) := by
  induction before generalizing client with
  | nil => cases pushed
  | cons first rest ih =>
    cases first with
    | connect bannerOn => exact ih silent pushed
    | broadcast bytes => cases silent
    | push =>
      cases client with
      | zero => rfl
      | succ client =>
        have fewer : client < pushes rest := by
          simp only [pushes, List.count_cons_self] at pushed ⊢
          omega
        exact ih silent fewer

theorem owed_early {client : Nat} {before after : List Step} (silent : messages before = [])
    (pushed : client < pushes before) :
    owed client (before ++ after) = bannerOf client (before ++ after) ++ (messages (before ++ after)).flatten := by
  rw [owed, messagesAfter_early silent pushed]

theorem Producer.handled_accepted (p : Producer rfc) {item : HawkFrame × OffsetDateTime} (member : item ∈ p.handled) :
    (∃ line, '\n' ∉ line ∧ parseTsvLine rfc line = .ok (some item.1)) ∧ rfc.RoundTrips item.2 := by
  obtain ⟨k, inside, rfl⟩ := List.mem_mapIdx.mp member
  have lengths := p.accepted.length_eq
  have parsed := p.accepted.get (i := k) (by omega) inside
  exact ⟨⟨_, p.single _ (List.get_mem _ _), parsed⟩, p.stamps k⟩

/-- The mirror decodes a stream of emitted lines, the banner in front of it
being a comment. -/
theorem spawnUnixReader_lines {strict : Bool} {start : Bytes} (banner : start = [] ∨ start = Spine.banner)
    (items : List (HawkFrame × OffsetDateTime))
    (good : ∀ item ∈ items, Decoded item.1 ∧ OneLine item.1 ∧ rfc.RoundTrips (item.1.ts.getD item.2)) :
    spawnUnixReader rfc strict (start ++ (items.map fun item => lineBytes rfc item.1 item.2).flatten) =
      (items.map fun item => relayed item.1 item.2).map .frame := by
  have bodies : (items.map fun item => lineBytes rfc item.1 item.2) =
      (items.map fun item => toTsvLine rfc item.1 item.2).map fun body => encode (body ++ ['\n']) := by
    rw [List.map_map]
    rfl
  have single : ∀ body ∈ items.map fun item => toTsvLine rfc item.1 item.2, '\n' ∉ body := by
    intro body member
    obtain ⟨item, inside, rfl⟩ := List.mem_map.mp member
    obtain ⟨-, oneLine, stamp⟩ := good item inside
    exact (newline_toTsvLine_iff stamp).mpr oneLine
  have frames : readerLoop rfc strict (bufLines (items.map fun item => lineBytes rfc item.1 item.2).flatten) =
      (items.map fun item => relayed item.1 item.2).map .frame := by
    rw [bodies, bufLines_encode _ single, List.map_map]
    apply readerLoop_eq
    unfold Reads
    rw [List.forall₂_map_left_iff, List.forall₂_map_right_iff, List.forall₂_same]
    intro item inside
    obtain ⟨decoded, -, stamp⟩ := good item inside
    refine ⟨_, rfl, ?_⟩
    rw [parse_chomp, parse_append_newline]
    exact parse_toTsvLine decoded stamp
  unfold spawnUnixReader
  rcases banner with rfl | rfl
  · exact frames
  · have first : bufLines (Spine.banner ++ (items.map fun item => lineBytes rfc item.1 item.2).flatten) =
        some "# hawkd connected".toList :: bufLines (items.map fun item => lineBytes rfc item.1 item.2).flatten := by
      have split := readLines_append ["# hawkd connected".toList] (by decide)
        (items.map fun item => lineBytes rfc item.1 item.2).flatten
      unfold bufLines
      rw [List.map_singleton, List.flatten_singleton] at split
      change (readLines (encode ("# hawkd connected".toList ++ ['\n']) ++ _)).map _ = _
      rw [split]
      rfl
    rw [first]
    exact frames

/-- However the sends interleave, a mirror connected before the first of them
decodes every producer's frames, each once and in order. -/
theorem fan_in {ι : Type u} [DecidableEq ι] (rfc : Rfc3339) (table : DebugTable) (lawful : rfc.Lawful)
    (producers : ι → Producer rfc) (oracle : Nat → Nat → WriteOutcome) (before after : List Step) (state : State)
    (ran : run oracle (before ++ after) = some state)
    (fifo : Merge (fun i => (producers i).sends table) (messages (before ++ after)))
    (client : Nat) (silent : messages before = []) (pushed : client < pushes before)
    (succeeded : ∀ ok, (client, ok) ∈ state.writes → ok = true) (strict : Bool) :
    ∃ decoded : List HawkFrame, spawnUnixReader rfc strict (state.sockets client).received = decoded.map .frame ∧
      Merge (fun i => (producers i).frames.mapIdx fun k f => header (stamped f ((producers i).clock k)))
        (decoded.map header) := by
  obtain ⟨items, merged, lines⟩ := fifo.lift (fun item : HawkFrame × OffsetDateTime => lineBytes rfc item.1 item.2)
    fun i => (producers i).sends_eq
  have good : ∀ item ∈ items, Decoded item.1 ∧ OneLine item.1 ∧ rfc.RoundTrips (item.1.ts.getD item.2) := by
    intro item member
    obtain ⟨i, inside⟩ := merged.mem_source member
    obtain ⟨⟨line, single, accepted⟩, stamp⟩ := (producers i).handled_accepted inside
    have whole : '\n' ∉ trimEndMatches isLineEnd line :=
      fun here => single ((List.rdropWhile_prefix _ _).subset here)
    exact ⟨parse_decoded accepted, accepted_oneLine accepted whole, accepted_stamp lawful stamp accepted⟩
  have received : (state.sockets client).received = owed client (before ++ after) := by
    have valid := run_delivered ran
    have small : client < state.accepted := by
      have first : pushes before ≤ pushes (before ++ after) := by simp [pushes]
      have := valid.pushed_le
      omega
    cases broken : (state.sockets client).broken with
    | false => exact (valid.whole client small broken).1
    | true => exact absurd (succeeded false (valid.cut client small broken).2) (by simp)
  have start : bannerOf client (before ++ after) = [] ∨ bannerOf client (before ++ after) = banner := by
    unfold bannerOf
    split
    · exact Or.inr rfl
    · exact Or.inl rfl
  refine ⟨items.map fun item => relayed item.1 item.2, ?_, ?_⟩
  · rw [received, owed_early silent pushed, lines]
    exact spawnUnixReader_lines start items good
  · have headers := merged.map fun item : HawkFrame × OffsetDateTime => header (relayed item.1 item.2)
    have sources : (fun i => (producers i).handled.map fun item => header (relayed item.1 item.2)) =
        fun i => (producers i).frames.mapIdx fun k f => header (stamped f ((producers i).clock k)) := by
      funext i
      apply List.ext_getElem?
      intro k
      simp only [Producer.handled, List.getElem?_map, List.getElem?_mapIdx, Option.map_map]
      rfl
    rw [← sources, List.map_map]
    exact headers

def sampleLine : Text := "2026-02-16T12:34:56Z\tHEALTH\tservice\talpha\tok\talive\tpid=1".toList

def sampleFrame : HawkFrame where
  ts := some ⟨1771245296000000000, 0⟩
  kind := "HEALTH".toList
  scope := "service".toList
  id := "alpha".toList
  level := .ok
  msg := "alive".toList
  kv := (∅ : KvBag).insert "pid".toList "1".toList

def sampleProducer (ingest : Bool) : Producer sampleClock where
  source := if ingest then .ingest "/run/hawk.sock".toList else .stdin
  lines := [sampleLine]
  closed := ingest
  clock _ := sampleNow
  frames := [sampleFrame]
  single := by decide
  accepted := .cons (by decide) .nil
  stamps _ := sampleNow_roundTrips

def sampleMessage : Bytes := lineBytes sampleClock sampleFrame sampleNow

theorem fan_in_two_producers :
    ∃ state, run (fun _ _ => .complete) ([.connect true, .push] ++ [.broadcast sampleMessage, .broadcast sampleMessage]) =
        some state ∧
      ∃ decoded : List HawkFrame,
        spawnUnixReader sampleClock true (state.sockets 0).received = decoded.map .frame ∧
        Merge (fun i => (sampleProducer i).frames.mapIdx fun k f => header (stamped f ((sampleProducer i).clock k)))
          (decoded.map header) := by
  have enabled : (run (fun _ _ => .complete)
      ([.connect true, .push] ++ [.broadcast sampleMessage, .broadcast sampleMessage])).isSome = true := rfl
  obtain ⟨state, ran⟩ := Option.isSome_iff_exists.mp enabled
  have sends : (fun i => (sampleProducer i).sends fun _ => false) = fun _ => [sampleMessage] :=
    funext fun i => (sampleProducer i).sends_eq
  refine ⟨state, ran, fan_in sampleClock (fun _ => false) sampleTimes_proper.lawful sampleProducer _ _ _ state ran
    ?_ 0 rfl (by decide) ?_ true⟩
  · rw [sends]
    refine .take false sampleMessage [] rfl (.take true sampleMessage [] rfl (.done ?_))
    intro i
    cases i <;> rfl
  · simp [run, runFrom, step, broadcast, retainLoop_eq_sweep, sweep, write, Socket.writeAll] at ran
    subst ran
    simp

end HawkTui.Proofs.FanIn
