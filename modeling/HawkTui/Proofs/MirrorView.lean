import HawkTui.Hawk.App
import Mathlib.Data.List.Forall2

/-! What the screen can tell apart. No reader of a row looks at the bag's empty
key, so two mirrors whose rows differ there only show the same thing. -/

namespace HawkTui.Proofs.MirrorView
open Lib Text App

/-- Two rows that agree but for the bag's empty key. -/
structure SameRow (st st' : EntityState) : Prop where
  scope : st.scope = st'.scope
  id : st.id = st'.id
  kind : st.kind = st'.kind
  lastLevel : st.lastLevel = st'.lastLevel
  lastMsg : st.lastMsg = st'.lastMsg
  lastSeen : st.lastSeen = st'.lastSeen
  kv : ∀ k : Text, k ≠ [] → st.kv[k]? = st'.kv[k]?

def withoutEmptyKey (st : EntityState) : EntityState := { st with kv := st.kv.erase [] }

theorem sameRow_iff (st st' : EntityState) : SameRow st st' ↔ withoutEmptyKey st = withoutEmptyKey st' := by
  constructor
  · intro same
    have bag : st.kv.erase [] = st'.kv.erase [] := by
      apply Std.ExtTreeMap.ext_getElem?
      intro k
      rw [BTreeMap.getElem?_erase_eq, BTreeMap.getElem?_erase_eq]
      split
      next => rfl
      next named => exact same.kv k (Ne.symm named)
    obtain ⟨scope, id, lastLevel, lastMsg, lastSeen, kind, kv⟩ := st
    obtain ⟨rfl, rfl, rfl, rfl, rfl, rfl, -⟩ := same
    simp only [withoutEmptyKey, bag]
  · intro same
    have rows := EntityState.mk.inj same
    refine ⟨rows.1, rows.2.1, rows.2.2.2.2.2.1, rows.2.2.1, rows.2.2.2.1, rows.2.2.2.2.1, fun k named => ?_⟩
    have bag := congrArg (·[k]?) rows.2.2.2.2.2.2
    simpa only [BTreeMap.getElem?_erase_eq, Ne.symm named, ↓reduceIte] using bag

def view (app : App) : BTreeMap Text EntityState := app.entities.map fun _ st => withoutEmptyKey st

structure SameView (app app' : App) : Prop where
  framesSeen : app.framesSeen = app'.framesSeen
  tail : app.tail = app'.tail
  tailSize : app.tailSize = app'.tailSize
  staleS : app.staleS = app'.staleS
  deadS : app.deadS = app'.deadS
  entities : view app = view app'

/-- Two frames that leave the same row and the same line in the tail. -/
structure SameFrame (f f' : HawkFrame) : Prop where
  ts : f.ts = f'.ts
  dated : f.ts ≠ none
  kind : f.kind = f'.kind
  scope : f.scope = f'.scope
  id : f.id = f'.id
  level : f.level = f'.level
  msg : f.msg = f'.msg
  kv : ∀ k : Text, k ≠ [] → f.kv[k]? = f'.kv[k]?

theorem SameFrame.row {f f' : HawkFrame} (same : SameFrame f f') (now now' : OffsetDateTime) :
    SameRow (entityState f now) (entityState f' now') := by
  obtain ⟨t, dated⟩ := Option.ne_none_iff_exists'.mp same.dated
  refine ⟨same.scope, same.id, same.kind, same.level, same.msg, ?_, same.kv⟩
  simp only [entityState, ← same.ts, dated, Option.getD_some]

theorem ingestFrame_sameView {rfc : Rfc3339} {app app' : App} {f f' : HawkFrame} (same : SameView app app')
    (frames : SameFrame f f') (now now' : OffsetDateTime) :
    SameView (app.ingestFrame rfc now f) (app'.ingestFrame rfc now' f') := by
  have compact : f.toCompactLine rfc = f'.toCompactLine rfc := by
    simp only [HawkFrame.toCompactLine, frames.ts, frames.kind, frames.scope, frames.id, frames.level, frames.msg]
  have row := (sameRow_iff _ _).mp (frames.row now now')
  refine ⟨?_, ?_, same.tailSize, same.staleS, same.deadS, ?_⟩
  · simp only [ingestFrame, pushTail, same.framesSeen]
  · simp only [ingestFrame, pushTail, same.tail, same.tailSize, compact]
  · have rows := same.entities
    simp only [view] at rows ⊢
    simp only [ingestFrame, pushTail, BTreeMap.map_insert, rows, row, frames.scope, frames.id]

/-- A mirror fed with frames, the `k`-th of them arriving at `arrivals k`. -/
def mirror (rfc : Rfc3339) (arrivals : Nat → OffsetDateTime) (app : App) (frames : List HawkFrame) : App :=
  app.ingestAll rfc (frames.mapIdx fun k f => (arrivals k, .frame f))

theorem mirror_cons (rfc : Rfc3339) (arrivals : Nat → OffsetDateTime) (app : App) (f : HawkFrame)
    (frames : List HawkFrame) :
    mirror rfc arrivals app (f :: frames) =
      mirror rfc (fun k => arrivals (k + 1)) (app.ingestFrame rfc (arrivals 0) f) frames := by
  simp only [mirror, ingestAll, List.mapIdx_cons, List.foldl_cons]
  rfl

theorem mirror_sameView {rfc : Rfc3339} {arrivals arrivals' : Nat → OffsetDateTime} {app app' : App}
    {frames frames' : List HawkFrame} (same : SameView app app') (pairs : List.Forall₂ SameFrame frames frames') :
    SameView (mirror rfc arrivals app frames) (mirror rfc arrivals' app' frames') := by
  induction pairs generalizing app app' arrivals arrivals' with
  | nil => exact same
  | cons head tail ih =>
    rw [mirror_cons, mirror_cons]
    exact ih (ingestFrame_sameView same head _ _)

section Readers
variable {app app' : App} (now : OffsetDateTime)

theorem liveness_withoutEmptyKey (app : App) (st : EntityState) :
    app.computeEntityLiveness (withoutEmptyKey st) now = app.computeEntityLiveness st now := by
  have ttl : ∀ key : Text, key ≠ [] → parseTtlFromKv (withoutEmptyKey st).kv key = parseTtlFromKv st.kv key := by
    intro key named
    simp only [parseTtlFromKv, withoutEmptyKey, BTreeMap.getElem?_erase_eq, Ne.symm named, ↓reduceIte]
  simp only [computeEntityLiveness, ttl "ttl_stale_s".toList (by decide), ttl "ttl_dead_s".toList (by decide)]
  rfl

theorem SameView.liveness (same : SameView app app') (st : EntityState) :
    app.computeEntityLiveness st now = app'.computeEntityLiveness st now := by
  simp only [computeEntityLiveness, same.staleS, same.deadS]

theorem SameRow.liveness {st st' : EntityState} (row : SameRow st st') (same : SameView app app') :
    app.computeEntityLiveness st now = app'.computeEntityLiveness st' now := by
  rw [← liveness_withoutEmptyKey, (sameRow_iff st st').mp row, liveness_withoutEmptyKey, same.liveness]

theorem SameView.values (same : SameView app app') :
    app.values.map withoutEmptyKey = app'.values.map withoutEmptyKey := by
  have lists := congrArg (fun m : BTreeMap Text EntityState => m.toList.map Prod.snd) same.entities
  simpa only [view, Std.ExtTreeMap.toList_map, List.map_map, App.values, Function.comp_def] using lists

theorem SameView.counts (same : SameView app app') : app.countsByState now = app'.countsByState now := by
  have count : ∀ (app : App) (counts : Counts) (st : EntityState),
      app.countEntity now counts st = app.countEntity now counts (withoutEmptyKey st) := by
    intro app counts st
    simp only [countEntity, liveness_withoutEmptyKey]
    rfl
  have folds : ∀ (app : App) (rows : List EntityState) (counts : Counts),
      rows.foldl (app.countEntity now) counts = (rows.map withoutEmptyKey).foldl (app.countEntity now) counts := by
    intro app rows counts
    rw [List.foldl_map]
    congr
    funext counts st
    exact count app counts st
  have counter : app.countEntity now = app'.countEntity now := by
    funext counts st
    simp only [countEntity, same.liveness]
  have size : app.entities.size = app'.entities.size := by
    simpa only [view, Std.ExtTreeMap.size_map] using congrArg Std.ExtTreeMap.size same.entities
  simp only [countsByState, folds _ app.values, folds _ app'.values, same.values, counter, size]

theorem SameView.sorted (same : SameView app app') :
    List.Forall₂ SameRow (app.sortedEntities now) (app'.sortedEntities now) := by
  have order : ∀ (app : App) (a b : EntityState),
      app.compareEntities now a b = app.compareEntities now (withoutEmptyKey a) (withoutEmptyKey b) := by
    intro app a b
    simp only [compareEntities, liveness_withoutEmptyKey]
    rfl
  have sorts : ∀ app : App, (app.sortedEntities now).map withoutEmptyKey =
      (app.values.map withoutEmptyKey).mergeSort fun a b => (app.compareEntities now a b).isLE := by
    intro app
    apply List.map_mergeSort
    intro a _ b _
    rw [← order]
  have comparison : app.compareEntities now = app'.compareEntities now := by
    funext a b
    simp only [compareEntities, same.liveness]
  have rows : (app.sortedEntities now).map withoutEmptyKey = (app'.sortedEntities now).map withoutEmptyKey := by
    rw [sorts, sorts, same.values, comparison]
  rw [← List.forall₂_eq_eq_eq, List.forall₂_map_left_iff, List.forall₂_map_right_iff] at rows
  apply rows.imp
  intro st st' row
  exact (sameRow_iff st st').mpr row

end Readers

structure SameMirror (app app' : App) : Prop where
  framesSeen : app.framesSeen = app'.framesSeen
  tail : app.tail = app'.tail
  keys : ∀ key : Text, key ∈ app.entities ↔ key ∈ app'.entities
  rows : ∀ (key : Text) st st', app.entities[key]? = some st → app'.entities[key]? = some st' → SameRow st st'
  liveness : ∀ (key : Text) st st' now, app.entities[key]? = some st → app'.entities[key]? = some st' →
    app.computeEntityLiveness st now = app'.computeEntityLiveness st' now
  counts : ∀ now, app.countsByState now = app'.countsByState now
  sorted : ∀ now, List.Forall₂ SameRow (app.sortedEntities now) (app'.sortedEntities now)

theorem SameView.mirror {app app' : App} (same : SameView app app') : SameMirror app app' := by
  have row : ∀ (key : Text) st st', app.entities[key]? = some st → app'.entities[key]? = some st' → SameRow st st' := by
    intro key st st' found found'
    have rows := congrArg (·[key]?) same.entities
    simp only [view, Std.ExtTreeMap.getElem?_map, found, found', Option.map_some, Option.some.injEq] at rows
    exact (sameRow_iff st st').mpr rows
  refine ⟨same.framesSeen, same.tail, fun key => ?_, row, ?_, same.counts, same.sorted⟩
  · have keys := congrArg (fun m : BTreeMap Text EntityState => key ∈ m) same.entities
    simpa only [view, Std.ExtTreeMap.mem_map, eq_iff_iff] using keys
  · intro key st st' now found found'
    exact (row key st st' found found').liveness now same

end HawkTui.Proofs.MirrorView
