import HawkTui.Hawk.App
import HawkTui.Proofs.FrameCodec
import Mathlib.Data.List.Dedup

/-! The mirror's rows over a whole run. A row is found under `scope:id`, and
since both columns may hold colons, two entities can share a key. -/

namespace HawkTui.Proofs.Entities
open Lib Text App

variable {rfc : Rfc3339}

def frameMsgs (msgs : List (OffsetDateTime × IngestMsg)) : List (OffsetDateTime × HawkFrame) :=
  msgs.filterMap fun msg => match msg.2 with
    | .frame f => some (msg.1, f)
    | _ => none

def pairOf (item : OffsetDateTime × HawkFrame) : Text × Text := (item.2.scope, item.2.id)

def keyOf (pair : Text × Text) : Text := entityKey pair.1 pair.2

def lastOf (pair : Text × Text) (msgs : List (OffsetDateTime × IngestMsg)) : Option (OffsetDateTime × HawkFrame) :=
  ((frameMsgs msgs).filter (pairOf · = pair)).getLast?

/-- Every entity seen has its own row, with its own last frame. -/
structure Identified (msgs : List (OffsetDateTime × IngestMsg)) (app : App) : Prop where
  row : ∀ pair now f, lastOf pair msgs = some (now, f) → ∃ key : Text, app.entities[key]? = some (entityState f now)
  count : app.entities.size = ((frameMsgs msgs).map pairOf).dedup.length

/-- The second entity's scope goes on where the first one's id starts. -/
def Clash (pair other : Text × Text) : Prop := ∃ x, other.1 = pair.1 ++ ':' :: x ∧ pair.2 = x ++ ':' :: other.2

private theorem cons_eq_append_cons {c : Char} {front a b : Text} (same : c :: a = front ++ c :: b) :
    (front = [] ∧ a = b) ∨ ∃ x, front = c :: x ∧ a = x ++ c :: b := by
  cases front with
  | nil => exact Or.inl ⟨rfl, by simpa using same⟩
  | cons d x =>
    simp only [List.cons_append, List.cons.injEq] at same
    exact Or.inr ⟨x, by rw [same.1], same.2⟩

theorem keyOf_eq_iff (pair other : Text × Text) :
    keyOf pair = keyOf other ↔ pair = other ∨ Clash pair other ∨ Clash other pair := by
  obtain ⟨scope, id⟩ := pair
  obtain ⟨scope', id'⟩ := other
  simp only [keyOf, entityKey, Clash, Prod.mk.injEq]
  constructor
  · intro same
    rcases List.append_eq_append_iff.mp same with ⟨front, rfl, rest⟩ | ⟨front, rfl, rest⟩
    · rcases cons_eq_append_cons rest with ⟨rfl, rfl⟩ | ⟨x, rfl, rfl⟩
      · exact Or.inl ⟨by simp, rfl⟩
      · exact Or.inr (Or.inl ⟨x, rfl, rfl⟩)
    · rcases cons_eq_append_cons rest with ⟨rfl, rfl⟩ | ⟨x, rfl, rfl⟩
      · exact Or.inl ⟨by simp, rfl⟩
      · exact Or.inr (Or.inr ⟨x, rfl, rfl⟩)
  · intro cases
    rcases cases with ⟨rfl, rfl⟩ | ⟨x, rfl, rfl⟩ | ⟨x, rfl, rfl⟩
    · rfl
    · simp
    · simp

/-- The row a frame message leaves, with its key. -/
def rowOf (item : OffsetDateTime × HawkFrame) : Text × EntityState := (keyOf (pairOf item), entityState item.2 item.1)

theorem ingestAll_entities (app : App) (msgs : List (OffsetDateTime × IngestMsg)) :
    (app.ingestAll rfc msgs).entities = BTreeMap.extend app.entities ((frameMsgs msgs).map rowOf) := by
  induction msgs generalizing app with
  | nil => rfl
  | cons msg msgs ih =>
    have step : (app.ingestAll rfc (msg :: msgs)).entities = ((app.ingest rfc msg.1 msg.2).ingestAll rfc msgs).entities :=
      rfl
    rw [step, ih]
    obtain ⟨now, msg⟩ := msg
    cases msg <;> rfl

section Run
variable {msgs : List (OffsetDateTime × IngestMsg)} {tailSize : Nat} {staleS deadS : Int}

/-- A row is that of the last frame message with its key. -/
theorem row_lookup (key : Text) :
    ((App.new tailSize staleS deadS).ingestAll rfc msgs).entities[key]? =
      (((frameMsgs msgs).filter fun item => keyOf (pairOf item) = key).getLast?).map fun item => entityState item.2 item.1 := by
  rw [ingestAll_entities, BTreeMap.getElem?_extend, List.filter_map, List.getLast?_map]
  simp only [App.new, Std.ExtTreeMap.getElem?_empty, Option.or_none, Option.map_map]
  rfl

theorem key_of_row {key : Text} {st : EntityState}
    (found : ((App.new tailSize staleS deadS).ingestAll rfc msgs).entities[key]? = some st) :
    key = keyOf (st.scope, st.id) := by
  rw [row_lookup] at found
  obtain ⟨item, last, rfl⟩ := Option.map_eq_some_iff.mp found
  have same : keyOf (pairOf item) = key := by simpa using (mem_of_last last).2
  exact same.symm

private theorem lastOf_of_mem {item : OffsetDateTime × HawkFrame} (member : item ∈ frameMsgs msgs) :
    ∃ now f, lastOf (pairOf item) msgs = some (now, f) ∧ (f.scope, f.id) = pairOf item := by
  obtain ⟨last, found⟩ : ∃ last, ((frameMsgs msgs).filter (pairOf · = pairOf item)).getLast? = some last :=
    exists_last member (by simp)
  have same : pairOf last = pairOf item := by simpa using (mem_of_last found).2
  exact ⟨last.1, last.2, found, same⟩

def Separate (msgs : List (OffsetDateTime × IngestMsg)) : Prop :=
  ∀ a ∈ frameMsgs msgs, ∀ b ∈ frameMsgs msgs, ¬ Clash (pairOf a) (pairOf b)

theorem Separate.keyOf_inj (separate : Separate msgs) {a b : OffsetDateTime × HawkFrame} (left : a ∈ frameMsgs msgs)
    (right : b ∈ frameMsgs msgs) : keyOf (pairOf a) = keyOf (pairOf b) ↔ pairOf a = pairOf b := by
  simp only [keyOf_eq_iff, separate a left b right, separate b right a left, or_false]

theorem Separate.count (separate : Separate msgs) :
    ((App.new tailSize staleS deadS).ingestAll rfc msgs).entities.size = ((frameMsgs msgs).map pairOf).dedup.length := by
  have distinct : ((((frameMsgs msgs).map pairOf).dedup).map keyOf).Nodup := by
    apply List.Nodup.map_on _ (List.nodup_dedup _)
    intro pair inside other inside' same
    simp only [List.mem_dedup, List.mem_map] at inside inside'
    obtain ⟨a, left, rfl⟩ := inside
    obtain ⟨b, right, rfl⟩ := inside'
    exact (separate.keyOf_inj left right).mp same
  have members : ((App.new tailSize staleS deadS).ingestAll rfc msgs).entities.keys.Perm
      ((((frameMsgs msgs).map pairOf).dedup).map keyOf) := by
    rw [List.perm_ext_iff_of_nodup Std.ExtTreeMap.nodup_keys distinct]
    intro key
    rw [Std.ExtTreeMap.mem_keys, Std.ExtTreeMap.mem_iff_isSome_getElem?, row_lookup]
    simp only [Option.isSome_map, List.getLast?_isSome, ne_eq, List.filter_eq_nil_iff, decide_eq_true_eq,
      not_forall, not_not, List.mem_map, List.mem_dedup, exists_exists_and_eq_and, exists_prop]
  rw [← Std.ExtTreeMap.length_keys, members.length_eq, List.length_map]

theorem Separate.row (separate : Separate msgs) {pair : Text × Text} {now : OffsetDateTime} {f : HawkFrame}
    (last : lastOf pair msgs = some (now, f)) :
    ((App.new tailSize staleS deadS).ingestAll rfc msgs).entities[keyOf pair]? = some (entityState f now) := by
  have member := List.mem_of_getLast? last
  simp only [List.mem_filter, decide_eq_true_eq] at member
  obtain ⟨inside, rfl⟩ := member
  have same : ((frameMsgs msgs).filter fun item => keyOf (pairOf item) = keyOf (pairOf (now, f))) =
      (frameMsgs msgs).filter (pairOf · = pairOf (now, f)) := by
    apply List.filter_congr
    intro item member
    simp only [separate.keyOf_inj member inside]
  rw [row_lookup, same]
  rw [lastOf] at last
  simp only [last, Option.map_some]

/-- Two clashing entities compete for one row. -/
theorem Identified.separate (identified : Identified msgs ((App.new tailSize staleS deadS).ingestAll rfc msgs)) :
    Separate msgs := by
  intro a left b right clash
  have shared : keyOf (pairOf a) = keyOf (pairOf b) := (keyOf_eq_iff _ _).mpr (Or.inr (Or.inl clash))
  obtain ⟨now, f, last, pair⟩ := lastOf_of_mem left
  obtain ⟨now', f', last', pair'⟩ := lastOf_of_mem right
  obtain ⟨key, found⟩ := identified.row _ _ _ last
  obtain ⟨key', found'⟩ := identified.row _ _ _ last'
  have same : key = key' := by
    rw [key_of_row found, key_of_row found']
    simp only [entityState, pair, pair', shared]
  rw [same, found', Option.some.injEq] at found
  have pairs : pairOf a = pairOf b := by
    rw [← pair, ← pair', Prod.mk.injEq]
    exact ⟨(congrArg EntityState.scope found).symm, (congrArg EntityState.id found).symm⟩
  obtain ⟨x, scope, id⟩ := clash
  rw [pairs] at scope
  have length := congrArg List.length scope
  simp at length

end Run

def clashFrame (scope id : Text) (level : Level) : HawkFrame where
  ts := none
  kind := "HEALTH".toList
  scope
  id
  level
  msg := []
  kv := ∅

def clashMsgs : List (OffsetDateTime × IngestMsg) :=
  [(⟨0, 0⟩, .frame (clashFrame "grpc".toList "svc:443".toList .fail)),
    (⟨1, 0⟩, .frame (clashFrame "grpc:svc".toList "443".toList .ok))]

end HawkTui.Proofs.Entities
