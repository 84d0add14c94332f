import HawkTui.Hawk.App
import HawkTui.Proofs.Emitters

/-! How long a watched entity lives. A watcher sends its TTLs beside texts that
come from elsewhere and can forge entries of the bag. The bag is written in key
order, in which the TTLs stand behind all of those texts, and read so that the
last entry wins. -/

namespace HawkTui.Proofs.Ttl
open Lib Text Utf8 Numbers HawkFrame UnixIngest FrameCodec KvBag Emitters

/-- Text that stays in its column and on its line. -/
def Inline (s : Text) : Prop := '\t' ∉ s ∧ '\n' ∉ s

instance (s : Text) : Decidable (Inline s) := inferInstanceAs (Decidable (_ ∧ _))

/-- The message is one line, and the mirror lets the entity in it live by the
given TTLs. One that is not positive leaves the mirror's own. -/
def CarriesTtls (rfc : Rfc3339) (message : Bytes) (ttlStaleS ttlDeadS : Int) : Prop :=
  ∃ line f, message = encode (line ++ ['\n']) ∧ '\n' ∉ line ∧ parseTsvLine rfc line = .ok (some f) ∧
    ∀ (app : App) (arrival now : OffsetDateTime), ∃ st,
      (app.ingest rfc arrival (.frame f)).entities[App.entityKey f.scope f.id]? = some st ∧
      (app.ingest rfc arrival (.frame f)).computeEntityLiveness st now =
        App.computeLivenessWithTtl st.lastSeen now (if 0 < ttlStaleS then ttlStaleS else app.staleS)
          (if 0 < ttlDeadS then ttlDeadS else app.deadS)

variable {rfc : Rfc3339} {t now later : OffsetDateTime} {ttlStaleS ttlDeadS : Int}

theorem ttl_getD {kv : KvBag} {key : Text} {n : Int} (found : kv[key]? = some (i64ToText n)) (bounds : IsI64 n)
    (own : Int) : (App.parseTtlFromKv kv key).getD own = if 0 < n then n else own := by
  simp only [App.parseTtlFromKv, found, parseI64_i64ToText bounds, Option.bind_eq_bind, Option.bind_some, gt_iff_lt]
  split <;> rfl

def ttlKeys : List Text := ["ttl_stale_s".toList, "ttl_dead_s".toList]

def ttlEntries (ttlStaleS ttlDeadS : Int) : List (Text × Text) :=
  [("ttl_stale_s".toList, i64ToText ttlStaleS), ("ttl_dead_s".toList, i64ToText ttlDeadS)]

theorem ttlEntries_keys (ttlStaleS ttlDeadS : Int) : (ttlEntries ttlStaleS ttlDeadS).map Prod.fst = ttlKeys := rfl

/-- A watcher's frame: named texts, then the TTLs, and no name behind the TTLs
but the unit's. -/
structure Watched (f : HawkFrame) (names : List Text) (named : List (Text × Text)) (ttlStaleS ttlDeadS : Int) :
    Prop where
  bag : f.kv = BTreeMap.extend ∅ (named ++ ttlEntries ttlStaleS ttlDeadS)
  listed : named.map Prod.fst = names
  keys : ∀ k ∈ names ++ ttlKeys, Key k
  distinct : (names ++ ttlKeys).Nodup
  behind : ∀ k ∈ names, compare "ttl_dead_s".toList k = .lt → k = "unit".toList
  unit : ∀ v, ("unit".toList, v) ∈ named → ';' ∉ v
  inline : ∀ entry ∈ named, Inline entry.2
  columns : Inline f.kind ∧ Inline f.scope ∧ Inline f.id ∧ Inline f.msg

namespace Watched
variable {f : HawkFrame} {names : List Text} {named : List (Text × Text)}

theorem lookup_iff (watched : Watched f names named ttlStaleS ttlDeadS) (k v : Text) :
    f.kv[k]? = some v ↔ (k, v) ∈ named ++ ttlEntries ttlStaleS ttlDeadS := by
  rw [watched.bag]
  apply BTreeMap.getElem?_extend_eq_some_iff
  rw [List.map_append, watched.listed, ttlEntries_keys]
  exact watched.distinct

theorem key (watched : Watched f names named ttlStaleS ttlDeadS) {k v : Text} (found : f.kv[k]? = some v) : Key k := by
  apply watched.keys
  rw [← watched.listed, ← ttlEntries_keys ttlStaleS ttlDeadS, ← List.map_append]
  exact List.mem_map_of_mem ((watched.lookup_iff k v).mp found)

theorem inline_value (watched : Watched f names named ttlStaleS ttlDeadS) {k v : Text} (found : f.kv[k]? = some v) :
    Inline v := by
  rcases List.mem_append.mp ((watched.lookup_iff k v).mp found) with text | ttl
  · exact watched.inline _ text
  · have number : ∀ n, Inline (i64ToText n) := fun n => ⟨(i64ToText_plain n).tab, (i64ToText_plain n).newline⟩
    simp only [ttlEntries, List.mem_cons, Prod.mk.injEq, List.not_mem_nil, or_false] at ttl
    rcases ttl with ⟨-, rfl⟩ | ⟨-, rfl⟩
    · exact number _
    · exact number _

theorem tabless (watched : Watched f names named ttlStaleS ttlDeadS) : Tabless f := by
  obtain ⟨kind, scope, id, msg⟩ := watched.columns
  exact ⟨kind.1, scope.1, id.1, msg.1, fun k v found => ⟨(watched.key found).tab, (watched.inline_value found).1⟩⟩

theorem oneLine (watched : Watched f names named ttlStaleS ttlDeadS) : OneLine f := by
  obtain ⟨kind, scope, id, msg⟩ := watched.columns
  exact ⟨kind.2, scope.2, id.2, msg.2, fun k v found => ⟨(watched.key found).newline, (watched.inline_value found).2⟩⟩

/-- From the first TTL on, every entry stays inside its part of the bag. -/
theorem confined (watched : Watched f names named ttlStaleS ttlDeadS) {k v : Text} (found : f.kv[k]? = some v)
    (below : compare "ttl_dead_s".toList k = .lt) : EntryConfined k v := by
  have key := watched.key found
  refine ⟨key.trimmed, key.semicolon, key.equals, ?_⟩
  rcases List.mem_append.mp ((watched.lookup_iff k v).mp found) with text | ttl
  · obtain rfl := watched.behind k (watched.listed ▸ List.mem_map_of_mem text) below
    exact watched.unit v text
  · simp only [ttlEntries, List.mem_cons, Prod.mk.injEq, List.not_mem_nil, or_false] at ttl
    rcases ttl with ⟨-, rfl⟩ | ⟨-, rfl⟩
    · exact (i64ToText_plain _).semicolon
    · exact (i64ToText_plain _).semicolon

theorem ttl_read (watched : Watched f names named ttlStaleS ttlDeadS) {k : Text} {n : Int}
    (ttl : (k, i64ToText n) ∈ ttlEntries ttlStaleS ttlDeadS) (order : (compare "ttl_dead_s".toList k).isLE = true) :
    (parseKvBag (serializeKvBag f.kv))[k]? = some (i64ToText n) := by
  have found := (watched.lookup_iff k _).mpr (List.mem_append_right named ttl)
  have key := watched.key found
  have plain := i64ToText_plain n
  apply lookup_protected found ⟨key.trimmed, plain.trimmed, key.semicolon, key.equals, plain.semicolon⟩ key.present
  intro k' v' other below
  exact watched.confined other (Std.TransCmp.lt_of_isLE_of_lt order below)

/-- Whatever the named texts hold, the TTLs are the watcher's. -/
theorem livesBy (watched : Watched f names named ttlStaleS ttlDeadS) (dated : f.ts = some t) (stamp : rfc.RoundTrips t)
    (stale : IsI64 ttlStaleS) (dead : IsI64 ttlDeadS) : CarriesTtls rfc (lineBytes rfc f now) ttlStaleS ttlDeadS := by
  have round : rfc.RoundTrips (f.ts.getD now) := by
    rw [dated]
    exact stamp
  refine ⟨toTsvLine rfc f now, _, rfl, (newline_toTsvLine_iff round).mpr watched.oneLine,
    parse_tabless watched.tabless round, fun app arrival now => ⟨_, Std.ExtTreeMap.getElem?_insert_self, ?_⟩⟩
  have staleRead := ttl_getD (watched.ttl_read (k := "ttl_stale_s".toList) (by simp [ttlEntries]) (by decide)) stale
  have deadRead := ttl_getD (watched.ttl_read (k := "ttl_dead_s".toList) (by simp [ttlEntries]) (by decide)) dead
  simp only [App.computeEntityLiveness, App.entityState, staleRead, deadRead]
  rfl

end Watched

section Frames
variable {msg err : Text}

theorem inline_of_undelimited {s : Text} (undelimited : Undelimited s) : Inline s := ⟨undelimited.1, undelimited.2.1⟩

private theorem health_inline : Inline "HEALTH".toList := by decide

theorem grpcError_watched (spec : GrpcHealth.WatchSpec) (cfg : GrpcHealth.GrpcWatchConfig)
    (endpoint : Undelimited spec.endpoint) (service : Undelimited spec.service) (id : Undelimited spec.id)
    (message : Inline msg) (error : Inline err) :
    Watched (GrpcHealth.errorFrame spec cfg now msg err) ["endpoint".toList, "service".toList, "error".toList]
      [("endpoint".toList, spec.endpoint), ("service".toList, spec.service), ("error".toList, err)]
      cfg.ttlStaleS cfg.ttlDeadS := by
  have scope : Inline "grpc".toList := by decide
  refine ⟨rfl, rfl, by decide, by decide, by decide, by simp, ?_, health_inline, scope, inline_of_undelimited id, message⟩
  simp only [List.forall_mem_cons]
  exact ⟨inline_of_undelimited endpoint, inline_of_undelimited service, error, by simp⟩

theorem systemdError_watched (spec : Systemd.UnitSpec) (cfg : Systemd.SystemdWatchConfig)
    (unit : Undelimited spec.unit) (id : Undelimited spec.id) (message : Inline msg) (error : Inline err) :
    Watched (Systemd.errorFrame spec cfg now msg err) ["unit".toList, "error".toList]
      [("unit".toList, spec.unit), ("error".toList, err)] cfg.ttlStaleS cfg.ttlDeadS := by
  have scope : Inline "systemd".toList := by decide
  refine ⟨rfl, rfl, by decide, by decide, by decide, ?_, ?_, health_inline, scope, inline_of_undelimited id, message⟩
  · simpa using unit.2.2
  · simp only [List.forall_mem_cons]
    exact ⟨inline_of_undelimited unit, error, by simp⟩

theorem snapshot_watched (spec : Systemd.UnitSpec) (cfg : Systemd.SystemdWatchConfig) (state : Systemd.UnitState)
    (unit : Undelimited spec.unit) (id : Undelimited spec.id) (active : Inline state.active) (sub : Inline state.sub)
    (load : Inline state.load) (desc : Inline state.desc) :
    ∃ names named, Watched (Systemd.snapshotFrame spec cfg now state) names named cfg.ttlStaleS cfg.ttlDeadS := by
  have scope : Inline "systemd".toList := by decide
  have msg : Inline (state.active ++ ':' :: state.sub) := by
    simp [Inline, active.1, active.2, sub.1, sub.2]
  have columns := And.intro health_inline (And.intro scope (And.intro (inline_of_undelimited id) msg))
  -- an empty description is left out of the bag
  cases described : state.desc.isEmpty with
  | true =>
    refine ⟨["unit".toList, "active".toList, "sub".toList, "load".toList],
      [("unit".toList, spec.unit), ("active".toList, state.active), ("sub".toList, state.sub), ("load".toList, state.load)],
      ?_, rfl, by decide, by decide, by decide, ?_, ?_, columns⟩
    · simp only [Systemd.snapshotFrame, described]
      rfl
    · simpa using unit.2.2
    · simp [inline_of_undelimited unit, active, sub, load]
  | false =>
    refine ⟨["unit".toList, "active".toList, "sub".toList, "load".toList, "desc".toList],
      [("unit".toList, spec.unit), ("active".toList, state.active), ("sub".toList, state.sub), ("load".toList, state.load),
        ("desc".toList, state.desc)], ?_, rfl, by decide, by decide, by decide, ?_, ?_, columns⟩
    · simp only [Systemd.snapshotFrame, described]
      rfl
    · simpa using unit.2.2
    · simp [inline_of_undelimited unit, active, sub, load, desc]

end Frames

/-- Foreign text cannot change how long the entities of a watcher live. -/
theorem foreign_text_keeps_ttl (rfc : Rfc3339) (now later : OffsetDateTime) (stamp : rfc.RoundTrips now) :
    (∀ (spec : GrpcHealth.WatchSpec) (cfg : GrpcHealth.GrpcWatchConfig) (msg err : Text),
      IsI64 cfg.ttlStaleS → IsI64 cfg.ttlDeadS →
      Undelimited spec.endpoint → Undelimited spec.service → Undelimited spec.id → Inline msg → Inline err →
      CarriesTtls rfc (GrpcHealth.emitErrorFrame rfc spec cfg now later msg err) cfg.ttlStaleS cfg.ttlDeadS) ∧
    (∀ (spec : Systemd.UnitSpec) (cfg : Systemd.SystemdWatchConfig) (unit : Systemd.UnitState),
      IsI64 cfg.ttlStaleS → IsI64 cfg.ttlDeadS → Undelimited spec.unit → Undelimited spec.id →
      Inline unit.active → Inline unit.sub → Inline unit.load → Inline unit.desc →
      CarriesTtls rfc (Systemd.emitSnapshotFrame rfc spec cfg now unit) cfg.ttlStaleS cfg.ttlDeadS) ∧
    ∀ (spec : Systemd.UnitSpec) (cfg : Systemd.SystemdWatchConfig) (msg err : Text),
      IsI64 cfg.ttlStaleS → IsI64 cfg.ttlDeadS → Undelimited spec.unit → Undelimited spec.id → Inline msg → Inline err →
      CarriesTtls rfc (Systemd.emitErrorFrame rfc spec cfg now msg err) cfg.ttlStaleS cfg.ttlDeadS := by
  refine ⟨?_, ?_, ?_⟩
  · intro spec cfg msg err stale dead endpoint service id message error
    exact (grpcError_watched spec cfg endpoint service id message error).livesBy rfl stamp stale dead
  · intro spec cfg state stale dead unit id active sub load desc
    obtain ⟨names, named, watched⟩ := snapshot_watched spec cfg state unit id active sub load desc
    exact watched.livesBy rfl stamp stale dead
  · intro spec cfg msg err stale dead unit id message error
    exact (systemdError_watched spec cfg unit id message error).livesBy rfl stamp stale dead

/-- Texts that try to declare the entity dead after one second. -/
def forged : Text := "down;ttl_dead_s=1;ttl_stale_s=1".toList

theorem foreign_text_keeps_ttl_forged :
    CarriesTtls sampleClock
      (GrpcHealth.emitErrorFrame sampleClock ⟨"http://db:50051".toList, "db".toList, "db".toList⟩ ⟨30, 0⟩ sampleNow sampleNow
        forged forged) 30 0 ∧
    CarriesTtls sampleClock
      (Systemd.emitSnapshotFrame sampleClock ⟨"web.service".toList, "web".toList⟩ ⟨30, 60⟩ sampleNow
        ⟨forged, forged, forged, forged⟩) 30 60 ∧
    CarriesTtls sampleClock
      (Systemd.emitErrorFrame sampleClock ⟨"web.service".toList, "web".toList⟩ ⟨0, 60⟩ sampleNow Systemd.watchFailed
        forged) 0 60 := by
  obtain ⟨grpcError, snapshot, systemdError⟩ :=
    foreign_text_keeps_ttl sampleClock sampleNow sampleNow sampleNow_roundTrips
  have inline : Inline forged := by decide
  refine ⟨?_, ?_, ?_⟩
  · exact grpcError _ _ _ _ (by decide) (by decide) (by decide) (by decide) (by decide) inline inline
  · exact snapshot _ _ _ (by decide) (by decide) (by decide) (by decide) inline inline inline inline
  · exact systemdError _ _ _ _ (by decide) (by decide) (by decide) (by decide) (by decide) inline

end HawkTui.Proofs.Ttl
