import HawkTui.Proofs.Aging
import HawkTui.Proofs.Table

/-! Triage by the table. Dead and stale entities come first, as they should. Among
the living the table asks how recent an entity is before it asks how bad it is,
and a failing service that has gone quiet sinks below every healthy busy one. -/

namespace HawkTui.Proofs.Triage
open Lib Text App FrameCodec Entities Aging Table

def Outranks (app : App) (now : OffsetDateTime) (a b : EntityState) : Prop :=
  app.computeEntityLiveness a now = .dead ∧ app.computeEntityLiveness b now = .stale ∨
  (app.computeEntityLiveness a now = .dead ∨ app.computeEntityLiveness a now = .stale) ∧ Living app now b ∨
  Living app now a ∧ Living app now b ∧ LevelRank a.lastLevel < LevelRank b.lastLevel

def TriageOrder (app : App) (now : OffsetDateTime) : Prop :=
  (app.sortedEntities now).Pairwise fun a b => ¬ Outranks app now b a

/-- Heard of within half of its stale window, or within a second. -/
def Recent (app : App) (now : OffsetDateTime) (st : EntityState) : Prop :=
  ∃ staleS deadS, LivesBy app st staleS deadS ∧ wholeSeconds st.lastSeen now < deadS ∧
    wholeSeconds st.lastSeen now < staleS ∧ wholeSeconds st.lastSeen now ≤ max (staleS.tdiv 2) 1

def Quiet (app : App) (now : OffsetDateTime) (st : EntityState) : Prop :=
  ∃ staleS deadS, LivesBy app st staleS deadS ∧ wholeSeconds st.lastSeen now < deadS ∧
    wholeSeconds st.lastSeen now < staleS ∧ max (staleS.tdiv 2) 1 < wholeSeconds st.lastSeen now

variable {app : App} {now : OffsetDateTime} {a b : EntityState}

theorem recent_iff : Recent app now a ↔ app.computeEntityLiveness a now = .active := by
  constructor
  · rintro ⟨staleS, deadS, lives, recent⟩
    rw [lives.liveness, computeLivenessWithTtl_active_iff]
    exact recent
  · intro active
    obtain ⟨staleS, deadS, lives⟩ := exists_livesBy app a
    rw [lives.liveness, computeLivenessWithTtl_active_iff] at active
    exact ⟨staleS, deadS, lives, active⟩

theorem quiet_iff : Quiet app now a ↔ app.computeEntityLiveness a now = .dream := by
  constructor
  · rintro ⟨staleS, deadS, lives, quiet⟩
    rw [lives.liveness, computeLivenessWithTtl_dream_iff]
    exact quiet
  · intro dream
    obtain ⟨staleS, deadS, lives⟩ := exists_livesBy app a
    rw [lives.liveness, computeLivenessWithTtl_dream_iff] at dream
    exact ⟨staleS, deadS, lives, dream⟩

theorem ranks_of_isLE (below : (app.compareEntities now a b).isLE = true) :
    rankLive (app.computeEntityLiveness a now) ≤ rankLive (app.computeEntityLiveness b now) ∧
      (rankLive (app.computeEntityLiveness a now) = rankLive (app.computeEntityLiveness b now) →
        LevelRank a.lastLevel ≤ LevelRank b.lastLevel) := by
  rw [compareEntities, Ordering.isLE_then_iff_and, Ordering.isLE_then_iff_and, Nat.isLE_compare, Nat.compare_eq_lt,
    Nat.isLE_compare] at below
  omega

/-- A quiet entity that is worse than a recent one stands below it. -/
theorem inverted_of_quiet (left : a ∈ app.values) (right : b ∈ app.values)
    (active : app.computeEntityLiveness a now = .active) (dream : app.computeEntityLiveness b now = .dream)
    (worse : LevelRank b.lastLevel < LevelRank a.lastLevel) : ¬ TriageOrder app now := by
  intro ordered
  have perm := sortedEntities_perm app now
  have different : a ≠ b := by
    rintro rfl
    omega
  have both := (sortedEntities_ordered app now).and ordered
  rcases StableSort.either_of_pairwise both (perm.mem_iff.mpr left) (perm.mem_iff.mpr right) different
    with ⟨-, kept⟩ | ⟨below, -⟩
  · apply kept
    exact Or.inr (Or.inr ⟨Or.inr dream, Or.inl active, worse⟩)
  · have ranks := (ranks_of_isLE below).1
    simp [active, dream, rankLive] at ranks

/-- The table is in triage order exactly when no quiet entity is worse than a
recent one. -/
theorem triage_order_iff (app : App) (now : OffsetDateTime) :
    TriageOrder app now ↔ ∀ a ∈ app.values, ∀ b ∈ app.values, Recent app now a → Quiet app now b →
      LevelRank a.lastLevel ≤ LevelRank b.lastLevel := by
  constructor
  · intro ordered a left b right recent quiet
    by_contra worse
    exact inverted_of_quiet left right (recent_iff.mp recent) (quiet_iff.mp quiet) (by omega) ordered
  · intro mild
    apply List.Pairwise.imp_of_mem _ (sortedEntities_ordered app now)
    intro a b left right below outranked
    rw [(sortedEntities_perm app now).mem_iff] at left right
    obtain ⟨live, level⟩ := ranks_of_isLE below
    rcases outranked with ⟨dead, stale⟩ | ⟨gone, living⟩ | ⟨livingB, livingA, worse⟩
    · simp [dead, stale, rankLive] at live
    · rcases gone with gone | gone <;> rcases living with living | living <;> simp [gone, living, rankLive] at live
    · rcases livingA with liveA | liveA <;> rcases livingB with liveB | liveB
      · exact absurd (level (by rw [liveA, liveB])) (by omega)
      -- here the rank decides before the levels are compared
      · exact absurd (mild a left b right (recent_iff.mpr liveA) (quiet_iff.mpr liveB)) (by omega)
      · simp [liveA, liveB, rankLive] at live
      · exact absurd (level (by rw [liveA, liveB])) (by omega)

def report (id : Text) (level : Level) : HawkFrame where
  ts := none
  kind := "HEALTH".toList
  scope := "service".toList
  id
  level
  msg := []
  kv := ∅

/-- A failure eight seconds ago and a good report just now, under the default TTLs. -/
def quietFailure : App :=
  (App.new 200 10 30).ingestAll sampleClock
    [(⟨0, 0⟩, .frame (report "payments".toList .fail)), (⟨8000000000, 0⟩, .frame (report "web".toList .ok))]

theorem mem_values {key : Text} {st : EntityState} (found : app.entities[key]? = some st) : st ∈ app.values :=
  List.mem_map.mpr ⟨(key, st), Std.ExtTreeMap.mem_toList_iff_getElem?_eq_some.mpr found, rfl⟩

def failing : EntityState := entityState (report "payments".toList .fail) ⟨0, 0⟩

def healthy : EntityState := entityState (report "web".toList .ok) ⟨8000000000, 0⟩

theorem failing_service_sinks :
    quietFailure.entities[keyOf ("service".toList, "payments".toList)]? = some failing ∧
      quietFailure.entities[keyOf ("service".toList, "web".toList)]? = some healthy ∧
      quietFailure.computeEntityLiveness failing ⟨8000000000, 0⟩ = .dream ∧
      quietFailure.computeEntityLiveness healthy ⟨8000000000, 0⟩ = .active ∧
      ¬ TriageOrder quietFailure ⟨8000000000, 0⟩ := by
  have left : quietFailure.entities[keyOf ("service".toList, "payments".toList)]? = some failing := by
    rw [quietFailure, row_lookup]
    rfl
  have right : quietFailure.entities[keyOf ("service".toList, "web".toList)]? = some healthy := by
    rw [quietFailure, row_lookup]
    rfl
  have unset : ∀ (st : EntityState), st.kv = ∅ → ∀ key n, ¬ Sets st.kv key n := by
    intro st empty key n set
    obtain ⟨v, found, -, -⟩ := set
    simp [empty] at found
  have dream : quietFailure.computeEntityLiveness failing ⟨8000000000, 0⟩ = .dream := by
    rw [liveness_of_unset (unset failing rfl _) (unset failing rfl _)]
    decide
  have active : quietFailure.computeEntityLiveness healthy ⟨8000000000, 0⟩ = .active := by
    rw [liveness_of_unset (unset healthy rfl _) (unset healthy rfl _)]
    decide
  exact ⟨left, right, dream, active, inverted_of_quiet (mem_values right) (mem_values left) active dream (by decide)⟩

end HawkTui.Proofs.Triage
