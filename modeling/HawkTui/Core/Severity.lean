import HawkTui.Lib.Text

/-! Severity levels of a frame and their order in the mirror. -/

namespace HawkTui
open Lib Text

inductive Level where
  | ok
  | info
  | warn
  | fail
  | unknown
  deriving DecidableEq, Repr

namespace Level

def parse (s : Text) : Level :=
  let name := toAsciiLowercase (trim s)
  if name = "ok".toList then .ok
  else if name = "info".toList then .info
  else if name = "warn".toList ∨ name = "warning".toList then .warn
  else if name = "fail".toList ∨ name = "error".toList ∨ name = "fatal".toList then .fail
  else .unknown

def asStr : Level → Text
  | .ok => "ok".toList
  | .info => "info".toList
  | .warn => "warn".toList
  | .fail => "fail".toList
  | .unknown => "unknown".toList

@[simp] theorem parse_asStr (level : Level) : parse level.asStr = level := by
  cases level <;> decide

end Level

/-- Smaller is worse, so ascending order puts failures first. -/
def LevelRank : Level → Nat
  | .fail => 0
  | .warn => 1
  | .info => 2
  | .ok => 3
  | .unknown => 4

end HawkTui
