import HawkTui.Hawk.Awk
import HawkTui.Hawkd.Spine
import HawkTui.Proofs.FrameCodec
import HawkTui.Proofs.MirrorView

/-! Frames through any chain of relays. Each hop decodes its lines and emits
them again, and the one thing it can change is the bag's empty flag, which the
mirror never reads. -/

namespace HawkTui.Proofs.Relay
open Lib Text Utf8 HawkFrame UnixIngest Spine Awk FrameCodec KvBag MirrorView

/-- A process that decodes and re-emits. `clock k` is what it reads at its
`k`-th line or frame. -/
inductive Hop where
  | hawkd (clock : Nat → OffsetDateTime)
  | awkBridge (clock : Nat → OffsetDateTime)

variable (rfc : Rfc3339) (table : DebugTable)

def decodeAll (lines : List Text) : List HawkFrame := (bridgeReaderLoop rfc (lines.map some)).frames

def Hop.relay : Hop → List Text → List Text
  | .hawkd clock, lines => (stdinSourceLines rfc table false clock 0 (lines.map some)).filterMap decode
  | .awkBridge clock, lines => bridgeWriter rfc ((decodeAll rfc lines).mapIdx fun k f => (f, clock k))

def relayAll (hops : List Hop) (lines : List Text) : List Text :=
  hops.foldl (fun lines hop => hop.relay rfc table lines) lines

variable {rfc table}

theorem decodeAll_cons (line : Text) (lines : List Text) :
    decodeAll rfc (line :: lines) =
      match parseTsvLine rfc line with
      | .ok (some f) => f :: decodeAll rfc lines
      | _ => decodeAll rfc lines := by
  simp only [decodeAll, List.map_cons, bridgeReaderLoop]
  cases parseTsvLine rfc line with
  | error e => rfl
  | ok found => cases found <;> rfl

theorem mem_decodeAll {lines : List Text} {f : HawkFrame} (member : f ∈ decodeAll rfc lines) :
    ∃ line, parseTsvLine rfc line = .ok (some f) := by
  induction lines with
  | nil => cases member
  | cons line lines ih =>
    rw [decodeAll_cons] at member
    split at member
    next g parsed =>
      rcases List.mem_cons.mp member with rfl | later
      · exact ⟨line, parsed⟩
      · exact ih later
    next => exact ih member

/-- Lines emitted for the given frames, at whatever instants. -/
def Emits (rfc : Rfc3339) (frames : List HawkFrame) (lines : List Text) : Prop :=
  List.Forall₂ (fun f line => ∃ now, line = toTsvLine rfc f now ++ ['\n']) frames lines

private theorem stdinSource_emits (clock : Nat → OffsetDateTime) (k : Nat) (lines : List Text) :
    Emits rfc (decodeAll rfc lines) ((stdinSourceLines rfc table false clock k (lines.map some)).filterMap decode) := by
  induction lines generalizing k with
  | nil => exact .nil
  | cons line lines ih =>
    rw [decodeAll_cons, List.map_cons, stdinSourceLines]
    cases parseTsvLine rfc line with
    | error e => exact ih (k + 1)
    | ok found =>
      cases found with
      | none => exact ih (k + 1)
      | some f =>
        simp only [lineBytes, List.filterMap_cons, decode_encode]
        exact .cons ⟨clock k, rfl⟩ (ih (k + 1))

private theorem bridgeWriter_emits (clock : Nat → OffsetDateTime) (frames : List HawkFrame) :
    Emits rfc frames (bridgeWriter rfc (frames.mapIdx fun k f => (f, clock k))) := by
  induction frames generalizing clock with
  | nil => exact .nil
  | cons f frames ih =>
    simp only [bridgeWriter, List.mapIdx_cons, List.map_cons]
    exact .cons ⟨clock 0, rfl⟩ (ih fun k => clock (k + 1))

theorem Hop.relay_emits (hop : Hop) (lines : List Text) :
    Emits rfc (decodeAll rfc lines) (hop.relay rfc table lines) := by
  cases hop with
  | hawkd clock => exact stdinSource_emits clock 0 lines
  | awkBridge clock => exact bridgeWriter_emits clock _

/-- What every later hop makes of a frame with a timestamp. -/
def settled (f : HawkFrame) : HawkFrame := { f with kv := withoutEmptyFlag f.kv }

theorem settled_settled (f : HawkFrame) : settled (settled f) = settled f := by
  simp only [settled, withoutEmptyFlag_idem]

theorem sameFrame_settled {f : HawkFrame} (dated : f.ts ≠ none) : SameFrame f (settled f) :=
  ⟨rfl, dated, rfl, rfl, rfl, rfl, rfl, fun _ named => (withoutEmptyFlag_lookup_of_ne f.kv named).symm⟩

theorem decodeAll_emitted (lawful : rfc.Lawful) {frames : List HawkFrame} {lines : List Text}
    (good : ∀ f ∈ frames, f.ts ≠ none ∧ ∃ line, parseTsvLine rfc line = .ok (some f))
    (emitted : Emits rfc frames lines) : decodeAll rfc lines = frames.map settled := by
  induction emitted with
  | nil => rfl
  | @cons f line frames lines head tail ih =>
    obtain ⟨now, rfl⟩ := head
    obtain ⟨dated, source, accepted⟩ := good f (by simp)
    obtain ⟨t, stamp⟩ := Option.ne_none_iff_exists'.mp dated
    have round : rfc.RoundTrips (f.ts.getD now) := by
      rw [stamp]
      exact accepted_dated lawful accepted stamp
    have parsed : parseTsvLine rfc (toTsvLine rfc f now ++ ['\n']) = .ok (some (settled f)) := by
      rw [parse_append_newline, parse_toTsvLine (parse_decoded accepted) round]
      simp only [relayed, settled, stamp, Option.getD_some]
    rw [decodeAll_cons, parsed]
    simp only [List.map_cons, ih fun g member => good g (by simp [member])]

theorem Hop.decode_relay (lawful : rfc.Lawful) (hop : Hop) {lines : List Text}
    (dated : ∀ f ∈ decodeAll rfc lines, f.ts ≠ none) :
    decodeAll rfc (hop.relay rfc table lines) = (decodeAll rfc lines).map settled := by
  apply decodeAll_emitted lawful _ (hop.relay_emits lines)
  intro f member
  exact ⟨dated f member, mem_decodeAll member⟩

/-- The first hop settles every frame, and no later hop changes it again. -/
theorem decode_relayAll (lawful : rfc.Lawful) (hop : Hop) (hops : List Hop) {lines : List Text}
    (dated : ∀ f ∈ decodeAll rfc lines, f.ts ≠ none) :
    decodeAll rfc (relayAll rfc table (hop :: hops) lines) = (decodeAll rfc lines).map settled := by
  induction hops generalizing hop lines with
  | nil => exact hop.decode_relay lawful dated
  | cons next hops ih =>
    have first : decodeAll rfc (hop.relay rfc table lines) = (decodeAll rfc lines).map settled :=
      hop.decode_relay lawful dated
    have later : ∀ f ∈ decodeAll rfc (hop.relay rfc table lines), f.ts ≠ none := by
      intro f member
      rw [first] at member
      obtain ⟨g, inside, rfl⟩ := List.mem_map.mp member
      exact dated g inside
    have rest := ih next later
    have stable : settled ∘ settled = settled := funext settled_settled
    rw [first, List.map_map, stable] at rest
    exact rest

/-- However many relays the lines pass through, the mirror fed with what comes
out shows what a mirror fed with the lines themselves shows. -/
theorem relay_transparent (rfc : Rfc3339) (table : DebugTable) (lawful : rfc.Lawful) (lines : List Text)
    (dated : ∀ f ∈ decodeAll rfc lines, f.ts ≠ none) (hops : List Hop) (tailSize : Nat) (staleS deadS : Int)
    (arrivals arrivals' : Nat → OffsetDateTime) :
    SameMirror (mirror rfc arrivals (App.new tailSize staleS deadS) (decodeAll rfc lines))
      (mirror rfc arrivals' (App.new tailSize staleS deadS) (decodeAll rfc (relayAll rfc table hops lines))) := by
  have frames : List.Forall₂ SameFrame (decodeAll rfc lines) (decodeAll rfc (relayAll rfc table hops lines)) := by
    cases hops with
    | nil =>
      apply List.forall₂_same.mpr
      intro f member
      exact ⟨rfl, dated f member, rfl, rfl, rfl, rfl, rfl, fun _ _ => rfl⟩
    | cons hop hops =>
      rw [decode_relayAll lawful hop hops dated, List.forall₂_map_right_iff, List.forall₂_same]
      intro f member
      exact sameFrame_settled (dated f member)
  have start : SameView (App.new tailSize staleS deadS) (App.new tailSize staleS deadS) :=
    ⟨rfl, rfl, rfl, rfl, rfl, rfl⟩
  exact (mirror_sameView start frames).mirror

def sampleLines : List Text :=
  ["2026-02-16T12:34:56Z\tHEALTH\tservice\talpha\tok\talive\t=true;ttl_dead_s=9".toList, "noise".toList]

theorem relay_transparent_two_hops :
    (∀ f ∈ decodeAll sampleClock sampleLines, f.ts ≠ none) ∧
      SameMirror (mirror sampleClock (fun _ => sampleNow) (App.new 5 30 90) (decodeAll sampleClock sampleLines))
        (mirror sampleClock (fun _ => sampleNow) (App.new 5 30 90)
          (decodeAll sampleClock (relayAll sampleClock (fun _ => false)
            [.hawkd fun _ => sampleNow, .awkBridge fun _ => sampleNow] sampleLines))) := by
  have dated : ∀ f ∈ decodeAll sampleClock sampleLines, f.ts ≠ none := by decide
  exact ⟨dated, relay_transparent sampleClock _ sampleTimes_proper.lawful sampleLines dated _ 5 30 90 _ _⟩

end HawkTui.Proofs.Relay
