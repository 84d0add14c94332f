import HawkTui.Hawk.Draw
import HawkTui.Lib.StableSort
import HawkTui.Proofs.Entities

/-! The entity table. Its order is a sort by four keys that starts from the order
of the map, so the map's own key is the fifth; and the counters of the top bar
are those one gets by counting its rows. -/

namespace HawkTui.Proofs.Table
open Lib Text App Draw Entities

variable (app : App) (now : OffsetDateTime)

theorem compareEntities_eq :
    app.compareEntities now = compareLex (compareOn fun st => rankLive (app.computeEntityLiveness st now))
      (compareLex (compareOn fun st => LevelRank st.lastLevel)
        (compareLex (fun a b => compareOn (fun st => st.lastSeen.unixNanos) b a) (compareOn EntityState.id))) := rfl

instance : Std.TransCmp (app.compareEntities now) := by
  rw [compareEntities_eq]
  have recent : Std.TransCmp fun a b => compareOn (fun st : EntityState => st.lastSeen.unixNanos) b a :=
    Std.TransCmp.opposite
  infer_instance

/-- Sorting is by these, the time seen descending. -/
def sortKey (st : EntityState) : Nat × Nat × Int × Text :=
  (rankLive (app.computeEntityLiveness st now), LevelRank st.lastLevel, st.lastSeen.unixNanos, st.id)

/-- What makes `sort_by` safe to call, and which entities it takes for equal. -/
structure TotalPreorder : Prop where
  refl : ∀ a, app.compareEntities now a a = .eq
  trans : ∀ a b c, (app.compareEntities now a b).isLE = true → (app.compareEntities now b c).isLE = true →
    (app.compareEntities now a c).isLE = true
  total : ∀ a b, (app.compareEntities now a b).isLE = true ∨ (app.compareEntities now b a).isLE = true
  swap : ∀ a b, app.compareEntities now a b = (app.compareEntities now b a).swap
  antisymm : ∀ a b, app.compareEntities now a b = .eq ↔ sortKey app now a = sortKey app now b

theorem totalPreorder : TotalPreorder app now := by
  refine ⟨fun _ => Std.ReflCmp.compare_self, fun _ _ _ => Std.TransCmp.isLE_trans, ?_, fun _ _ => Std.OrientedCmp.eq_swap, ?_⟩
  · intro a b
    have either : ((app.compareEntities now a b).isLE || (app.compareEntities now b a).isLE) = true :=
      StableSort.isLE_total a b
    simpa using either
  · intro a b
    simp only [compareEntities, sortKey, Ordering.then_eq_eq, Std.LawfulEqOrd.compare_eq_iff_eq, Prod.mk.injEq]
    simp only [eq_comm]

/-- The order by liveness rank, level rank, time seen descending, id and map key. -/
def compareRows : EntityState → EntityState → Ordering :=
  compareLex (compareOn fun st => rankLive (app.computeEntityLiveness st now)) <|
    compareLex (compareOn fun st => LevelRank st.lastLevel) <|
      compareLex (fun a b => compare b.lastSeen.unixNanos a.lastSeen.unixNanos) <|
        compareLex (compareOn EntityState.id) (compareOn fun st => entityKey st.scope st.id)

theorem compareRows_eq :
    compareRows app now = compareLex (app.compareEntities now) (compareOn fun st => entityKey st.scope st.id) := by
  funext a b
  simp only [compareRows, compareLex, compareEntities, compareOn, Ordering.then_assoc]

instance : Std.TransCmp (compareRows app now) := by
  rw [compareRows_eq]
  infer_instance

def Increasing (rows : List EntityState) : Prop := rows.Pairwise fun a b => compareRows app now a b = .lt

variable {app now} {rfc : Rfc3339} {tailSize : Nat} {staleS deadS : Int} {msgs : List (OffsetDateTime × IngestMsg)}

/-- The map of a running mirror lists its rows in the order of their own keys. -/
theorem values_increasing (start : app = (App.new tailSize staleS deadS).ingestAll rfc msgs) :
    app.values.Pairwise fun a b => compareOn (fun st => entityKey st.scope st.id) a b = .lt := by
  rw [values, List.pairwise_map]
  apply List.Pairwise.imp_of_mem _ Std.ExtTreeMap.ordered_keys_toList
  intro a b left right below
  have own : ∀ row ∈ app.entities.toList, row.1 = entityKey row.2.scope row.2.id := by
    intro row member
    subst start
    exact key_of_row (Std.ExtTreeMap.mem_toList_iff_getElem?_eq_some.mp member)
  rw [own a left, own b right] at below
  exact below

theorem sortedEntities_increasing (start : app = (App.new tailSize staleS deadS).ingestAll rfc msgs) :
    Increasing app now (app.sortedEntities now) := by
  rw [Increasing, compareRows_eq]
  exact StableSort.pairwise_mergeSort_compareLex (values_increasing start)

theorem sortedEntities_perm (app : App) (now : OffsetDateTime) : (app.sortedEntities now).Perm app.values :=
  List.mergeSort_perm _ _

theorem sortedEntities_ordered (app : App) (now : OffsetDateTime) :
    (app.sortedEntities now).Pairwise fun a b => (app.compareEntities now a b).isLE = true :=
  StableSort.pairwise_isLE_mergeSort app.values

structure Canonical (app : App) (now : OffsetDateTime) : Prop where
  preorder : TotalPreorder app now
  perm : (app.sortedEntities now).Perm app.values
  increasing : Increasing app now (app.sortedEntities now)
  unique : ∀ rows, rows.Perm app.values → Increasing app now rows → rows = app.sortedEntities now
  /-- The rows shown are those with fewer than 200 entities below them. -/
  least : ∀ st, st ∈ shownEntities app now ↔
    st ∈ app.values ∧ app.values.countP (fun other => compareRows app now other st = .lt) < 200

theorem sorted_entities_canonical (rfc : Rfc3339) (tailSize : Nat) (staleS deadS : Int)
    (msgs : List (OffsetDateTime × IngestMsg)) (now : OffsetDateTime) :
    Canonical ((App.new tailSize staleS deadS).ingestAll rfc msgs) now := by
  generalize start : (App.new tailSize staleS deadS).ingestAll rfc msgs = app
  have increasing : Increasing app now (app.sortedEntities now) := sortedEntities_increasing start.symm
  have perm := sortedEntities_perm app now
  refine ⟨totalPreorder app now, perm, increasing, ?_, ?_⟩
  · intro rows same ordered
    exact StableSort.eq_of_perm_of_increasing (same.trans perm.symm) ordered increasing
  · intro st
    rw [shownEntities, StableSort.mem_take_iff increasing, perm.mem_iff, perm.countP_eq]

def Alive (row : Row) : Prop := row.state = "active".toList ∨ row.state = "dream".toList

instance (row : Row) : Decidable (Alive row) := inferInstanceAs (Decidable (_ ∨ _))

/-- What a reader of the table counts. -/
def tally (rows : List Row) : Counts where
  total := rows.length
  ok := rows.countP fun row => Alive row ∧
    (row.level = "ok".toList ∨ row.level = "info".toList ∨ row.level = "unknown".toList)
  warn := rows.countP fun row => Alive row ∧ row.level = "warn".toList
  fail := rows.countP fun row => Alive row ∧ row.level = "fail".toList
  stale := rows.countP fun row => row.state = "stale".toList
  dead := rows.countP fun row => row.state = "dead".toList

theorem state_iff (st : EntityState) (live : Liveness) :
    (entityRow app now st).state = liveStr live ↔ app.computeEntityLiveness st now = live := by
  have distinct : ∀ a b, liveStr a = liveStr b → a = b := by
    intro a b
    cases a <;> cases b <;> decide
  exact ⟨distinct _ _, congrArg liveStr⟩

theorem level_iff (st : EntityState) (level : Level) :
    (entityRow app now st).level = level.asStr ↔ st.lastLevel = level :=
  (Function.LeftInverse.injective Level.parse_asStr).eq_iff

def Living (app : App) (now : OffsetDateTime) (st : EntityState) : Prop :=
  app.computeEntityLiveness st now = .active ∨ app.computeEntityLiveness st now = .dream

instance (st : EntityState) : Decidable (Living app now st) := inferInstanceAs (Decidable (_ ∨ _))

def census (app : App) (now : OffsetDateTime) (items : List EntityState) : Counts where
  total := items.length
  ok := items.countP fun st => Living app now st ∧ (st.lastLevel = .ok ∨ st.lastLevel = .info ∨ st.lastLevel = .unknown)
  warn := items.countP fun st => Living app now st ∧ st.lastLevel = .warn
  fail := items.countP fun st => Living app now st ∧ st.lastLevel = .fail
  stale := items.countP fun st => app.computeEntityLiveness st now = .stale
  dead := items.countP fun st => app.computeEntityLiveness st now = .dead

theorem tally_rows (items : List EntityState) : tally (items.map (entityRow app now)) = census app now items := by
  have alive : ∀ st, Alive (entityRow app now st) ↔ Living app now st := fun st =>
    or_congr (state_iff st .active) (state_iff st .dream)
  simp only [tally, census, List.length_map, List.countP_map, Function.comp_def, Counts.mk.injEq, true_and]
  refine ⟨?_, ?_, ?_, ?_, ?_⟩ <;> apply List.countP_congr <;> intro st _ <;> simp only [decide_eq_true_eq]
  · exact and_congr (alive st) (or_congr (level_iff st .ok) (or_congr (level_iff st .info) (level_iff st .unknown)))
  · exact and_congr (alive st) (level_iff st .warn)
  · exact and_congr (alive st) (level_iff st .fail)
  · exact state_iff st .stale
  · exact state_iff st .dead

theorem census_perm {items others : List EntityState} (perm : items.Perm others) :
    census app now items = census app now others := by
  simp only [census, perm.length_eq, perm.countP_eq]

/-- The loop counts every entity once, and where the census does. -/
theorem foldl_countEntity (items : List EntityState) (counts : Counts) :
    items.foldl (app.countEntity now) counts =
      { total := counts.total
        ok := counts.ok + (census app now items).ok
        warn := counts.warn + (census app now items).warn
        fail := counts.fail + (census app now items).fail
        stale := counts.stale + (census app now items).stale
        dead := counts.dead + (census app now items).dead } := by
  induction items generalizing counts with
  | nil => rfl
  | cons st rest ih =>
    rw [List.foldl_cons, ih]
    cases live : app.computeEntityLiveness st now <;> cases level : st.lastLevel <;>
      simp [countEntity, census, Living, live, level, Nat.add_assoc, Nat.add_comm]

theorem census_total (items : List EntityState) :
    (census app now items).total = (census app now items).ok + (census app now items).warn +
      (census app now items).fail + (census app now items).stale + (census app now items).dead := by
  induction items with
  | nil => rfl
  | cons st rest ih =>
    cases live : app.computeEntityLiveness st now <;> cases level : st.lastLevel <;>
      simp [census, Living, live, level] at ih ⊢ <;> omega

theorem countsByState_eq (app : App) (now : OffsetDateTime) : app.countsByState now = census app now app.values := by
  have size : app.entities.size = app.values.length := by
    rw [values, List.length_map, Std.ExtTreeMap.length_toList]
  rw [countsByState, foldl_countEntity, size]
  simp [census]

theorem countsByState_tally (app : App) (now : OffsetDateTime) :
    app.countsByState now = tally ((app.sortedEntities now).map (entityRow app now)) := by
  rw [countsByState_eq, tally_rows, census_perm (sortedEntities_perm app now)]

/-- The top bar shows what one counts in the table, and counts every row once. -/
theorem top_bar_agrees (app : App) (now : OffsetDateTime) :
    app.countsByState now = tally ((app.sortedEntities now).map (entityRow app now)) ∧
      (app.countsByState now).total = (app.sortedEntities now).length ∧
      (app.countsByState now).total = (app.countsByState now).ok + (app.countsByState now).warn +
        (app.countsByState now).fail + (app.countsByState now).stale + (app.countsByState now).dead := by
  refine ⟨countsByState_tally app now, ?_, ?_⟩
  · rw [countsByState_eq, census, (sortedEntities_perm app now).length_eq]
  · rw [countsByState_eq, census_total]

/-- As long as every entity gets a row, the bar on the screen counts the rows on it. -/
theorem drawTopBar_counts_rows (rfc : Rfc3339) (app : App) (now later : OffsetDateTime) (few : app.values.length ≤ 200) :
    "HAWK  ".toList ++ showCounts (tally (drawEntityTable app now now)) <+: drawTopBar rfc app now later := by
  have all : shownEntities app now = app.sortedEntities now := by
    apply List.take_of_length_le
    rw [(sortedEntities_perm app now).length_eq]
    exact few
  rw [drawEntityTable, all, ← countsByState_tally]
  have start : ∀ a b c d e f g h i : Text, a <+: a ++ b ++ c ++ d ++ e ++ f ++ g ++ h ++ i := by
    intro a b c d e f g h i
    simp only [List.append_assoc]
    exact List.prefix_append _ _
  exact start _ _ _ _ _ _ _ _ _

end HawkTui.Proofs.Table
