import HawkTui.Core.HawkFrame

/-! `Debug` text, as it ends up in error frames. Which characters beyond ASCII
are escaped is decided by Unicode tables, which stay a parameter. -/

namespace HawkTui
open Lib Text

/-- Whether a character beyond ASCII is not printable or extends a grapheme. -/
abbrev DebugTable := Char → Bool

def escapeUnicode (c : Char) : Text := "\\u\x7b".toList ++ Nat.toDigits 16 c.toNat ++ "\x7d".toList

/-- `escape_debug` as string literals use it, where single quotes stay. -/
def escapeDebug (table : DebugTable) (c : Char) : Text :=
  if c = '\x00' then "\\0".toList
  else if c = '\t' then "\\t".toList
  else if c = '\r' then "\\r".toList
  else if c = '\n' then "\\n".toList
  else if c = '\\' ∨ c = '"' then ['\\', c]
  else if c.toNat < 0x20 ∨ c.toNat = 0x7f then escapeUnicode c
  else if c.toNat < 0x7f then [c]
  else if table c then escapeUnicode c
  else [c]

def debugStr (table : DebugTable) (s : Text) : Text := '"' :: s.flatMap (escapeDebug table) ++ ['"']

def HawkFrameParseError.debug (table : DebugTable) : HawkFrameParseError → Text
  | .empty => "Empty".toList
  | .tooFewColumns found => "TooFewColumns \x7b found: ".toList ++ Nat.toDigits 10 found ++ " \x7d".toList
  | .badTimestamp raw => "BadTimestamp \x7b raw: ".toList ++ debugStr table raw ++ " \x7d".toList

theorem HawkFrameParseError.debug_tooFewColumns (table : DebugTable) (found : Nat) :
    (tooFewColumns found).debug table =
      "TooFewColumns \x7b found: ".toList ++ Nat.toDigits 10 found ++ " \x7d".toList :=
  rfl

theorem HawkFrameParseError.debug_badTimestamp (table : DebugTable) (raw : Text) :
    (badTimestamp raw).debug table = "BadTimestamp \x7b raw: ".toList ++ debugStr table raw ++ " \x7d".toList :=
  rfl

end HawkTui
