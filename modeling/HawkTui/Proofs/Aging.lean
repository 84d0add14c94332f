import HawkTui.Hawk.App

/-! How an entity ages while no frame of it arrives. Its two TTLs come from its
own bag or, each by itself, from the mirror, so that any pair of thresholds can
meet. Whatever they are an entity only goes one way; that it is stale before it
is dead depends on their order. -/

namespace HawkTui.Proofs.Aging
open Lib Text Numbers App

/-- The stages of a life, in order. -/
def stage : Liveness → Nat
  | .active => 0
  | .dream => 1
  | .stale => 2
  | .dead => 3

/-- The bag sets the TTL to a positive number of seconds. -/
def Sets (kv : KvBag) (key : Text) (n : Int) : Prop := ∃ v, kv[key]? = some v ∧ parseI64 v = some n ∧ 0 < n

/-- The TTL an entity lives by: the one in its bag, or else the mirror's own. -/
def InForce (kv : KvBag) (key : Text) (own n : Int) : Prop := Sets kv key n ∨ n = own ∧ ∀ m, ¬ Sets kv key m

structure LivesBy (app : App) (st : EntityState) (staleS deadS : Int) : Prop where
  stale : InForce st.kv "ttl_stale_s".toList app.staleS staleS
  dead : InForce st.kv "ttl_dead_s".toList app.deadS deadS

variable {app : App} {st : EntityState} {now : OffsetDateTime} {staleS deadS : Int}

theorem parseTtlFromKv_eq_some {kv : KvBag} {key : Text} {n : Int} : parseTtlFromKv kv key = some n ↔ Sets kv key n := by
  simp only [parseTtlFromKv, Option.bind_eq_bind, Option.bind_eq_some_iff, Option.ite_none_right_eq_some, Option.some.injEq,
    Sets]
  constructor
  · rintro ⟨v, found, m, parsed, positive, rfl⟩
    exact ⟨v, found, parsed, positive⟩
  · rintro ⟨v, found, parsed, positive⟩
    exact ⟨v, found, n, parsed, positive, rfl⟩

theorem inForce_iff {kv : KvBag} {key : Text} {own n : Int} :
    InForce kv key own n ↔ (parseTtlFromKv kv key).getD own = n := by
  simp only [InForce, ← parseTtlFromKv_eq_some]
  cases parseTtlFromKv kv key with
  | none => simp [eq_comm]
  | some m => simp

theorem exists_livesBy (app : App) (st : EntityState) : ∃ staleS deadS, LivesBy app st staleS deadS :=
  ⟨_, _, inForce_iff.mpr rfl, inForce_iff.mpr rfl⟩

theorem LivesBy.liveness (lives : LivesBy app st staleS deadS) (now : OffsetDateTime) :
    app.computeEntityLiveness st now = computeLivenessWithTtl st.lastSeen now staleS deadS := by
  rw [computeEntityLiveness, inForce_iff.mp lives.stale, inForce_iff.mp lives.dead]

/-- An entity without TTLs of its own ages as the mirror's options say. -/
theorem liveness_of_unset (stale : ∀ n, ¬ Sets st.kv "ttl_stale_s".toList n)
    (dead : ∀ n, ¬ Sets st.kv "ttl_dead_s".toList n) (now : OffsetDateTime) :
    app.computeEntityLiveness st now = app.computeLiveness st.lastSeen now :=
  LivesBy.liveness ⟨Or.inr ⟨rfl, stale⟩, Or.inr ⟨rfl, dead⟩⟩ now

theorem wholeSeconds_mono {lastSeen t₁ t₂ : OffsetDateTime} (later : t₁.unixNanos ≤ t₂.unixNanos) :
    wholeSeconds lastSeen t₁ ≤ wholeSeconds lastSeen t₂ := Int.tdiv_le_tdiv (by decide) (by omega)

theorem le_wholeSeconds_iff (lastSeen now : OffsetDateTime) {n : Int} (positive : 0 < n) :
    n ≤ wholeSeconds lastSeen now ↔ lastSeen.unixNanos + n * 1000000000 ≤ now.unixNanos := by
  unfold wholeSeconds
  rcases Int.le_total 0 (now.unixNanos - lastSeen.unixNanos) with past | future
  · rw [Int.tdiv_eq_ediv_of_nonneg past]
    omega
  · have young := Int.tdiv_le_tdiv (c := 1000000000) (by decide) future
    rw [Int.zero_tdiv] at young
    omega

theorem computeLivenessWithTtl_active_iff {lastSeen : OffsetDateTime} :
    computeLivenessWithTtl lastSeen now staleS deadS = .active ↔ wholeSeconds lastSeen now < deadS ∧
      wholeSeconds lastSeen now < staleS ∧ wholeSeconds lastSeen now ≤ max (staleS.tdiv 2) 1 := by
  unfold computeLivenessWithTtl
  dsimp only
  split_ifs <;> simp only [true_iff, false_iff] <;> omega

theorem computeLivenessWithTtl_dream_iff {lastSeen : OffsetDateTime} :
    computeLivenessWithTtl lastSeen now staleS deadS = .dream ↔ wholeSeconds lastSeen now < deadS ∧
      wholeSeconds lastSeen now < staleS ∧ max (staleS.tdiv 2) 1 < wholeSeconds lastSeen now := by
  unfold computeLivenessWithTtl
  dsimp only
  split_ifs <;> simp only [true_iff, false_iff] <;> omega

/-- More age and shorter TTLs only lead further. -/
theorem computeLivenessWithTtl_mono {lastSeen lastSeen' now' : OffsetDateTime} {staleS' deadS' : Int}
    (older : wholeSeconds lastSeen now ≤ wholeSeconds lastSeen' now') (stale : staleS' ≤ staleS) (dead : deadS' ≤ deadS) :
    stage (computeLivenessWithTtl lastSeen now staleS deadS) ≤
      stage (computeLivenessWithTtl lastSeen' now' staleS' deadS') := by
  have half : staleS'.tdiv 2 ≤ staleS.tdiv 2 := Int.tdiv_le_tdiv (by decide) stale
  unfold computeLivenessWithTtl
  generalize wholeSeconds lastSeen now = age at *
  generalize wholeSeconds lastSeen' now' = age' at *
  dsimp only
  split_ifs <;> simp only [stage] <;> omega

/-- An entity never gets younger, and longer TTLs never make it older. -/
theorem liveness_monotone :
    (∀ (app : App) (st : EntityState) (t₁ t₂ : OffsetDateTime), t₁.unixNanos ≤ t₂.unixNanos →
      stage (app.computeEntityLiveness st t₁) ≤ stage (app.computeEntityLiveness st t₂)) ∧
    ∀ (lastSeen lastSeen' now now' : OffsetDateTime) (staleS staleS' deadS deadS' : Int),
      wholeSeconds lastSeen now = wholeSeconds lastSeen' now' → staleS ≤ staleS' → deadS ≤ deadS' →
      stage (computeLivenessWithTtl lastSeen' now' staleS' deadS') ≤
        stage (computeLivenessWithTtl lastSeen now staleS deadS) := by
  refine ⟨?_, ?_⟩
  · intro app st t₁ t₂ later
    exact computeLivenessWithTtl_mono (wholeSeconds_mono later) (Int.le_refl _) (Int.le_refl _)
  · intro lastSeen lastSeen' now now' staleS staleS' deadS deadS' same stale dead
    exact computeLivenessWithTtl_mono (Int.le_of_eq same.symm) stale dead

theorem liveness_monotone_inverted :
    stage (computeLivenessWithTtl ⟨0, 0⟩ ⟨-1500000000, 0⟩ 40 (-1)) ≤ stage (computeLivenessWithTtl ⟨0, 0⟩ ⟨-1500000000, 0⟩ 30 (-7)) :=
  liveness_monotone.2 ⟨0, 0⟩ ⟨0, 0⟩ ⟨-1500000000, 0⟩ ⟨-1500000000, 0⟩ 30 40 (-7) (-1) rfl (by decide) (by decide)

/-- Up to the last instant the clock can show, the entity is alive as long as its
stale TTL is not over. -/
def AliveWithinStale (app : App) (st : EntityState) (staleS horizon : Int) : Prop :=
  ∀ now : OffsetDateTime, now.unixNanos ≤ horizon → wholeSeconds st.lastSeen now < staleS →
    app.computeEntityLiveness st now = .active ∨ app.computeEntityLiveness st now = .dream

theorem computeLivenessWithTtl_alive_iff {lastSeen : OffsetDateTime} (young : wholeSeconds lastSeen now < staleS) :
    (computeLivenessWithTtl lastSeen now staleS deadS = .active ∨ computeLivenessWithTtl lastSeen now staleS deadS = .dream) ↔
      wholeSeconds lastSeen now < deadS := by
  rw [computeLivenessWithTtl_active_iff, computeLivenessWithTtl_dream_iff]
  omega

theorem InForce.pos {kv : KvBag} {key : Text} {own n : Int} (force : InForce kv key own n) (positive : 0 < own) : 0 < n := by
  rcases force with ⟨v, -, -, set⟩ | ⟨rfl, -⟩
  · exact set
  · exact positive

/-- Nobody dies within their stale TTL when that TTL is the smaller one, or the
dead TTL ends after the last instant there is; and not otherwise. -/
theorem alive_within_stale_iff (app : App) (st : EntityState) (staleS deadS horizon : Int) (positive : 0 < app.staleS)
    (ordered : app.staleS ≤ app.deadS) (lives : LivesBy app st staleS deadS) :
    AliveWithinStale app st staleS horizon ↔
      staleS ≤ deadS ∨ horizon < st.lastSeen.unixNanos + deadS * 1000000000 := by
  have living : 0 < deadS := lives.dead.pos (by omega)
  unfold AliveWithinStale
  simp only [lives.liveness]
  constructor
  · intro alive
    by_contra inverted
    rw [not_or, Int.not_le, Int.not_lt] at inverted
    obtain ⟨inverted, reached⟩ := inverted
    -- at the very age of the dead TTL the stale one is not over
    let death : OffsetDateTime := ⟨st.lastSeen.unixNanos + deadS * 1000000000, 0⟩
    have age : wholeSeconds st.lastSeen death = deadS := by
      have exact : death.unixNanos - st.lastSeen.unixNanos = deadS * 1000000000 := by simp [death]
      rw [wholeSeconds, exact, Int.mul_tdiv_cancel _ (by decide)]
    have young : wholeSeconds st.lastSeen death < staleS := by omega
    have alive := (computeLivenessWithTtl_alive_iff young).mp (alive death reached young)
    omega
  · intro safe now reached young
    rw [computeLivenessWithTtl_alive_iff young]
    rcases safe with ordered | far
    · omega
    · have dead := le_wholeSeconds_iff st.lastSeen now living
      omega

/-- An entity that was heard of once, at the epoch, and asks for a long stale TTL only. -/
def patient : EntityState where
  scope := "batch".toList
  id := "nightly".toList
  lastLevel := .ok
  lastMsg := "done".toList
  lastSeen := ⟨0, 0⟩
  kind := "HEALTH".toList
  kv := (∅ : KvBag).insert "ttl_stale_s".toList "3600".toList

theorem patient_lives : LivesBy (App.new 200 10 30) patient 3600 30 := by
  refine ⟨Or.inl ⟨"3600".toList, ?_, by decide, by decide⟩, Or.inr ⟨rfl, ?_⟩⟩
  · rw [patient, BTreeMap.getElem?_insert_eq, if_pos rfl]
  · intro n set
    obtain ⟨v, found, -, -⟩ := set
    rw [patient, BTreeMap.getElem?_insert_eq, if_neg (by decide)] at found
    simp at found

theorem alive_until_dead_ttl : AliveWithinStale (App.new 200 10 30) patient 3600 29999999999 :=
  (alive_within_stale_iff (App.new 200 10 30) patient 3600 30 29999999999 (by decide) (by decide) patient_lives).mpr
    (Or.inr (by decide))

theorem patient_entity_dies_early :
    LivesBy (App.new 200 10 30) patient 3600 30 ∧ wholeSeconds patient.lastSeen ⟨30000000000, 0⟩ = 30 ∧
      (App.new 200 10 30).computeEntityLiveness patient ⟨30000000000, 0⟩ = .dead ∧
      ¬ AliveWithinStale (App.new 200 10 30) patient 3600 30000000000 := by
  have dead : (App.new 200 10 30).computeEntityLiveness patient ⟨30000000000, 0⟩ = .dead := by
    rw [patient_lives.liveness]
    decide
  refine ⟨patient_lives, by decide, dead, ?_⟩
  intro alive
  have alive := alive ⟨30000000000, 0⟩ (by decide) (by decide)
  rw [dead] at alive
  simp at alive

end HawkTui.Proofs.Aging
