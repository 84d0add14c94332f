import HawkTui.Hawkd.GrpcHealth
import HawkTui.Lib.Backoff

/-! The pauses of a gRPC watcher. They double while the server cannot be reached.
A connection that opens puts them back, also when nothing comes over it, so a
server that takes connections and fails every call is asked four times a second. -/

namespace HawkTui.Proofs.Backoff
open Lib Text Lib.Backoff GrpcHealth

def sleeps (attempts : List Attempt) : List Nat := (watchOne attempts).map Turn.sleepMs

def isStatus : Event → Bool
  | .status _ => true
  | .failure .. => false

def delivered : Attempt → Nat
  | .streamed items => (readStream items).countP isStatus
  | .connectFailed _ | .watchFailed _ => 0

def connects : Attempt → Bool
  | .connectFailed _ => false
  | .watchFailed _ | .streamed _ => true

def Fruitless (attempt : Attempt) : Prop := delivered attempt = 0

/-- The connection or the call failed, so that there was no stream to read. -/
def FailedCall : Attempt → Prop
  | .connectFailed _ | .watchFailed _ => True
  | .streamed _ => False

/-- The pauses start over after a status, and grow over the attempts that count as failures. -/
def Escalates (counts : Attempt → Prop) (attempts : List Attempt) : Prop :=
  Paced 250 15000 (fun attempt => 0 < delivered attempt) counts attempts (sleeps attempts)

def sleepsFrom (backoffMs : Nat) (attempts : List Attempt) : List Nat := (watchFrom backoffMs attempts).map Turn.sleepMs

theorem sleepsFrom_eq (backoffMs : Nat) (attempts : List Attempt) :
    sleepsFrom backoffMs attempts = pauses 250 15000 connects backoffMs attempts := by
  induction attempts generalizing backoffMs with
  | nil => rfl
  | cons attempt rest ih =>
    rw [pauses, ← ih]
    cases attempt <;> simp [sleepsFrom, watchFrom, watchTurn, connects, initialBackoffMs, maxBackoffMs, Nat.mul_comm]

theorem connects_of_delivered {attempt : Attempt} (some : 0 < delivered attempt) : connects attempt = true := by
  cases attempt with
  | connectFailed err => simp [delivered] at some
  | watchFailed status => rfl
  | streamed items => rfl

theorem escalates_iff (counts : Attempt → Prop) (attempts : List Attempt) :
    Escalates counts attempts ↔ ∀ attempt ∈ attempts.tail, counts attempt → connects attempt = false := by
  have loop : sleeps attempts = pauses 250 15000 connects 250 attempts := sleepsFrom_eq 250 attempts
  rw [Escalates, loop, paced_iff (by decide) (by decide)]
  exact and_iff_right fun attempt _ => connects_of_delivered

/-- The pauses escalate over all attempts without a status exactly when, after the
first, each of those is a refused connection; and over failed connections and
calls exactly when no call fails after the first attempt. -/
theorem backoff_escalates_iff (attempts : List Attempt) :
    (Escalates Fruitless attempts ↔
      ∀ attempt ∈ attempts.tail, 0 < delivered attempt ∨ ∃ err, attempt = .connectFailed err) ∧
    (Escalates FailedCall attempts ↔ ∀ status, .watchFailed status ∉ attempts.tail) := by
  refine ⟨(escalates_iff Fruitless attempts).trans ?_, (escalates_iff FailedCall attempts).trans ?_⟩
  · apply forall₂_congr
    intro attempt _
    cases attempt <;> simp [Fruitless, delivered, connects, Nat.pos_iff_ne_zero]
  · constructor
    · intro refused status member
      exact absurd (refused _ member trivial) (by simp [connects])
    · intro absent attempt member counted
      cases attempt with
      | connectFailed err => rfl
      | watchFailed status => exact absurd member (absent status)
      | streamed items => exact counted.elim

theorem refusing_server_hammered :
    sleeps [.watchFailed "unavailable".toList, .watchFailed "unavailable".toList, .watchFailed "unavailable".toList] =
        [250, 250, 250] ∧
      ¬ Escalates FailedCall [.watchFailed "unavailable".toList, .watchFailed "unavailable".toList] ∧
      ¬ Escalates Fruitless [.watchFailed "unavailable".toList, .watchFailed "unavailable".toList] := by
  refine ⟨rfl, ?_, ?_⟩
  · intro escalates
    exact absurd (escalates.doubled 0 _ 250 250 rfl rfl rfl trivial) (by decide)
  · intro escalates
    exact absurd (escalates.doubled 0 _ 250 250 rfl rfl rfl rfl) (by decide)

end HawkTui.Proofs.Backoff
