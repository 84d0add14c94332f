import HawkTui.Proofs.Entities

/-! The mirror after a whole run: counters, tail and rows as functions of the
messages taken in. The rows forget how the streams of different keys were
interleaved, and so does everything computed from the rows. -/

namespace HawkTui.Proofs.MirrorRun
open Lib Text HawkFrame App Entities

def parseErrorCount (msgs : List (OffsetDateTime × IngestMsg)) : Nat :=
  msgs.countP fun msg => msg.2 matches .parseError _

def ioErrorCount (msgs : List (OffsetDateTime × IngestMsg)) : Nat :=
  msgs.countP fun msg => msg.2 matches .ioError _

def lastWith (key : Text) (msgs : List (OffsetDateTime × IngestMsg)) : Option (OffsetDateTime × HawkFrame) :=
  ((frameMsgs msgs).filter fun item => keyOf (pairOf item) = key).getLast?

/-- The row shows a frame that arrived at the given instant. -/
structure Shows (st : EntityState) (now : OffsetDateTime) (f : HawkFrame) : Prop where
  scope : st.scope = f.scope
  id : st.id = f.id
  kind : st.kind = f.kind
  lastLevel : st.lastLevel = f.level
  lastMsg : st.lastMsg = f.msg
  kv : st.kv = f.kv
  lastSeen : st.lastSeen = f.ts.getD now

/-- What the mirror holds after the given messages. -/
structure Mirrors (rfc : Rfc3339) (tailSize : Nat) (msgs : List (OffsetDateTime × IngestMsg)) (app : App) : Prop where
  framesSeen : app.framesSeen.toNat = (frameMsgs msgs).length % 2 ^ 64
  parseErrors : app.parseErrors.toNat = parseErrorCount msgs % 2 ^ 64
  ioErrors : app.ioErrors.toNat = ioErrorCount msgs % 2 ^ 64
  tail : app.tail =
    ((frameMsgs msgs).reverse.take (min tailSize (frameMsgs msgs).length)).map fun item => toCompactLine rfc item.2
  key : ∀ (key : Text) st, app.entities[key]? = some st → key = st.scope ++ ':' :: st.id
  row : ∀ (key : Text) now f, lastWith key msgs = some (now, f) →
    ∃ st, app.entities[key]? = some st ∧ Shows st now f
  absent : ∀ key : Text, lastWith key msgs = none → app.entities[key]? = none

theorem popBack_eq_take (size : Nat) (tail : List Text) : popBack size tail = tail.take size := by
  induction tail using List.reverseRecOn with
  | nil =>
    rw [popBack]
    simp
  | append_singleton tail line ih =>
    rw [popBack, List.dropLast_concat, ih, List.length_append, List.length_singleton]
    split
    next long => rw [List.take_append_of_le_length (by omega)]
    next short => rw [List.take_of_length_le (by simp; omega)]

theorem pushTail_take (app : App) (line : Text) (lines : List Text) (held : app.tail = lines.take app.tailSize) :
    (app.pushTail line).tail = (line :: lines).take app.tailSize := by
  have pushed : (app.pushTail line).tail = (line :: app.tail).take app.tailSize := popBack_eq_take _ _
  rw [pushed, held]
  cases app.tailSize with
  | zero => rfl
  | succ n => simp [List.take_take]

variable {rfc : Rfc3339}

theorem frameMsgs_append (msgs : List (OffsetDateTime × IngestMsg)) (msg : OffsetDateTime × IngestMsg) :
    frameMsgs (msgs ++ [msg]) = frameMsgs msgs ++ frameMsgs [msg] := List.filterMap_append

/-- Counters and tail, as one message after another changes them. -/
structure Counted (rfc : Rfc3339) (tailSize : Nat) (msgs : List (OffsetDateTime × IngestMsg)) (app : App) : Prop where
  tailSize : app.tailSize = tailSize
  framesSeen : app.framesSeen = UInt64.ofNat (frameMsgs msgs).length
  parseErrors : app.parseErrors = UInt64.ofNat (parseErrorCount msgs)
  ioErrors : app.ioErrors = UInt64.ofNat (ioErrorCount msgs)
  tail : app.tail = ((frameMsgs msgs).reverse.map fun item => toCompactLine rfc item.2).take app.tailSize

private theorem parseErrorCount_append (msgs : List (OffsetDateTime × IngestMsg)) (msg : OffsetDateTime × IngestMsg) :
    parseErrorCount (msgs ++ [msg]) = parseErrorCount msgs + parseErrorCount [msg] := List.countP_append

private theorem ioErrorCount_append (msgs : List (OffsetDateTime × IngestMsg)) (msg : OffsetDateTime × IngestMsg) :
    ioErrorCount (msgs ++ [msg]) = ioErrorCount msgs + ioErrorCount [msg] := List.countP_append

theorem ingest_counted {tailSize : Nat} {msgs : List (OffsetDateTime × IngestMsg)} {app : App}
    (counted : Counted rfc tailSize msgs app) (msg : OffsetDateTime × IngestMsg) :
    Counted rfc tailSize (msgs ++ [msg]) (app.ingest rfc msg.1 msg.2) := by
  obtain ⟨size, frames, parses, ios, tail⟩ := counted
  obtain ⟨now, msg⟩ := msg
  refine ⟨?_, ?_, ?_, ?_, ?_⟩
  · cases msg <;> exact size
  · rw [frameMsgs_append, List.length_append, UInt64.ofNat_add, ← frames]
    cases msg with
    | frame f => rfl
    | parseError e => exact (UInt64.add_zero _).symm
    | ioError text => exact (UInt64.add_zero _).symm
  · rw [parseErrorCount_append, UInt64.ofNat_add, ← parses]
    cases msg with
    | frame f => exact (UInt64.add_zero _).symm
    | parseError e => rfl
    | ioError text => exact (UInt64.add_zero _).symm
  · rw [ioErrorCount_append, UInt64.ofNat_add, ← ios]
    cases msg with
    | frame f => exact (UInt64.add_zero _).symm
    | parseError e => exact (UInt64.add_zero _).symm
    | ioError text => rfl
  · rw [frameMsgs_append]
    cases msg with
    | frame f =>
      simp only [frameMsgs, List.filterMap_cons, List.filterMap_nil, List.reverse_append, List.reverse_singleton,
        List.singleton_append, List.map_cons]
      exact pushTail_take _ _ _ tail
    | parseError e =>
      rw [show frameMsgs [(now, .parseError e)] = [] from rfl, List.append_nil]
      exact tail
    | ioError text =>
      rw [show frameMsgs [(now, .ioError text)] = [] from rfl, List.append_nil]
      exact tail

theorem ingestAll_append (app : App) (msgs : List (OffsetDateTime × IngestMsg)) (msg : OffsetDateTime × IngestMsg) :
    app.ingestAll rfc (msgs ++ [msg]) = (app.ingestAll rfc msgs).ingest rfc msg.1 msg.2 := by
  simp only [ingestAll, List.foldl_append, List.foldl_cons, List.foldl_nil]

section Run
variable (tailSize : Nat) (staleS deadS : Int) (msgs : List (OffsetDateTime × IngestMsg))

theorem run_counted : Counted rfc tailSize msgs ((App.new tailSize staleS deadS).ingestAll rfc msgs) := by
  induction msgs using List.reverseRecOn with
  | nil => exact ⟨rfl, rfl, rfl, rfl, by simp [frameMsgs, ingestAll, App.new]⟩
  | append_singleton msgs msg ih =>
    rw [ingestAll_append]
    exact ingest_counted ih msg

theorem row_shows {key : Text} {now : OffsetDateTime} {f : HawkFrame} (last : lastWith key msgs = some (now, f)) :
    ∃ st, ((App.new tailSize staleS deadS).ingestAll rfc msgs).entities[key]? = some st ∧ Shows st now f := by
  refine ⟨entityState f now, ?_, ⟨rfl, rfl, rfl, rfl, rfl, rfl, rfl⟩⟩
  rw [lastWith] at last
  rw [row_lookup, last, Option.map_some]

end Run

/-- Every run of the mirror from its start leaves what the messages say. -/
theorem mirror_run (rfc : Rfc3339) (tailSize : Nat) (staleS deadS : Int) (msgs : List (OffsetDateTime × IngestMsg)) :
    Mirrors rfc tailSize msgs ((App.new tailSize staleS deadS).ingestAll rfc msgs) := by
  have counted : Counted rfc tailSize msgs _ := run_counted tailSize staleS deadS msgs
  refine ⟨?_, ?_, ?_, ?_, fun key st found => key_of_row found, fun key now f last => row_shows _ _ _ _ last, ?_⟩
  · rw [counted.framesSeen, UInt64.toNat_ofNat']
  · rw [counted.parseErrors, UInt64.toNat_ofNat']
  · rw [counted.ioErrors, UInt64.toNat_ofNat']
  · rw [counted.tail, counted.tailSize, List.map_take, List.take_eq_take_min, List.length_map, List.length_reverse]
  · intro key missing
    rw [lastWith] at missing
    rw [row_lookup, missing, Option.map_none]

def streamOf (key : Text) (msgs : List (OffsetDateTime × IngestMsg)) : List HawkFrame :=
  ((frameMsgs msgs).map Prod.snd).filter fun f => entityKey f.scope f.id = key

/-- With dated frames a row depends on the key's stream alone. -/
theorem row_of_stream {tailSize : Nat} {staleS deadS : Int} {msgs : List (OffsetDateTime × IngestMsg)}
    (dated : ∀ item ∈ frameMsgs msgs, item.2.ts ≠ none) (key : Text) (now : OffsetDateTime) :
    ((App.new tailSize staleS deadS).ingestAll rfc msgs).entities[key]? =
      (streamOf key msgs).getLast?.map fun f => entityState f now := by
  rw [row_lookup, streamOf, List.filter_map, List.getLast?_map, Option.map_map]
  apply Option.map_congr
  intro item last
  obtain ⟨t, given⟩ := Option.ne_none_iff_exists'.mp (dated item (List.mem_filter.mp (List.mem_of_getLast? last)).1)
  simp only [entityState, Function.comp_apply, given, Option.getD_some]

theorem ingestAll_config (rfc : Rfc3339) (app : App) (msgs : List (OffsetDateTime × IngestMsg)) :
    (app.ingestAll rfc msgs).staleS = app.staleS ∧ (app.ingestAll rfc msgs).deadS = app.deadS := by
  induction msgs using List.reverseRecOn with
  | nil => exact ⟨rfl, rfl⟩
  | append_singleton msgs msg ih =>
    rw [ingestAll_append]
    cases msg.2 <;> exact ih

/-- Counts and order are functions of the rows and the two default limits. -/
theorem readers_of_entities {app app' : App} (entities : app.entities = app'.entities) (stale : app.staleS = app'.staleS)
    (dead : app.deadS = app'.deadS) (now : OffsetDateTime) :
    app.countsByState now = app'.countsByState now ∧ app.sortedEntities now = app'.sortedEntities now := by
  have liveness : ∀ st, app.computeEntityLiveness st now = app'.computeEntityLiveness st now := by
    intro st
    simp only [computeEntityLiveness, stale, dead]
  have values : app.values = app'.values := by simp only [App.values, entities]
  have count : app.countEntity now = app'.countEntity now := by
    funext counts st
    simp only [countEntity, liveness]
  have order : app.compareEntities now = app'.compareEntities now := by
    funext a b
    simp only [compareEntities, liveness]
  exact ⟨by simp only [countsByState, values, count, entities], by simp only [sortedEntities, values, order]⟩

/-- Two runs that give each key the same frames in the same order end with the
same rows, however the keys' streams and the error messages interleave. -/
theorem interleaving_independent (rfc : Rfc3339) (tailSize : Nat) (staleS deadS : Int)
    (msgs msgs' : List (OffsetDateTime × IngestMsg)) (dated : ∀ item ∈ frameMsgs msgs, item.2.ts ≠ none)
    (dated' : ∀ item ∈ frameMsgs msgs', item.2.ts ≠ none) (same : ∀ key, streamOf key msgs = streamOf key msgs') :
    let app := (App.new tailSize staleS deadS).ingestAll rfc msgs
    let app' := (App.new tailSize staleS deadS).ingestAll rfc msgs'
    app.entities = app'.entities ∧
      (∀ now, app.countsByState now = app'.countsByState now ∧ app.sortedEntities now = app'.sortedEntities now) ∧
      ((frameMsgs msgs).length = (frameMsgs msgs').length → parseErrorCount msgs = parseErrorCount msgs' →
        ioErrorCount msgs = ioErrorCount msgs' →
        app.framesSeen = app'.framesSeen ∧ app.parseErrors = app'.parseErrors ∧ app.ioErrors = app'.ioErrors) := by
  intro app app'
  have entities : app.entities = app'.entities := by
    apply Std.ExtTreeMap.ext_getElem?
    intro key
    rw [row_of_stream dated key ⟨0, 0⟩, row_of_stream dated' key ⟨0, 0⟩, same key]
  obtain ⟨stale, dead⟩ := ingestAll_config rfc (App.new tailSize staleS deadS) msgs
  obtain ⟨stale', dead'⟩ := ingestAll_config rfc (App.new tailSize staleS deadS) msgs'
  refine ⟨entities, readers_of_entities entities (stale.trans stale'.symm) (dead.trans dead'.symm), ?_⟩
  intro frames parses ios
  have counted : Counted rfc tailSize msgs app := run_counted tailSize staleS deadS msgs
  have counted' : Counted rfc tailSize msgs' app' := run_counted tailSize staleS deadS msgs'
  refine ⟨?_, ?_, ?_⟩
  · rw [counted.framesSeen, counted'.framesSeen, frames]
  · rw [counted.parseErrors, counted'.parseErrors, parses]
  · rw [counted.ioErrors, counted'.ioErrors, ios]

def datedFrame (id : Text) : HawkFrame where
  ts := some ⟨5, 0⟩
  kind := "HEALTH".toList
  scope := "grpc".toList
  id
  level := .ok
  msg := []
  kv := ∅

def orderA : List (OffsetDateTime × IngestMsg) :=
  [(⟨6, 0⟩, .frame (datedFrame "a".toList)), (⟨7, 0⟩, .frame (datedFrame "b".toList))]

def orderB : List (OffsetDateTime × IngestMsg) :=
  [(⟨6, 0⟩, .frame (datedFrame "b".toList)), (⟨7, 0⟩, .ioError []), (⟨8, 0⟩, .frame (datedFrame "a".toList))]

private theorem orders_same (key : Text) : streamOf key orderA = streamOf key orderB := by
  by_cases first : entityKey "grpc".toList "a".toList = key
  · subst first
    decide
  · by_cases second : entityKey "grpc".toList "b".toList = key
    · subst second
      decide
    · simp only [streamOf, orderA, orderB, frameMsgs, List.filterMap_cons, List.filterMap_nil, List.map_cons,
        List.map_nil, List.filter_cons, datedFrame, first, second, decide_false, Bool.false_eq_true, ↓reduceIte]

theorem interleaving_independent_swap :
    ((App.new 10 30 90).ingestAll sampleClock orderA).entities =
      ((App.new 10 30 90).ingestAll sampleClock orderB).entities := by
  have dated : ∀ item ∈ frameMsgs orderA, item.2.ts ≠ none := by decide
  have dated' : ∀ item ∈ frameMsgs orderB, item.2.ts ≠ none := by decide
  exact (interleaving_independent sampleClock 10 30 90 orderA orderB dated dated' orders_same).1

end HawkTui.Proofs.MirrorRun
