import HawkTui.Lib.AwkRuntime
import HawkTui.Lib.Maps

/-! The threads of the core pack. The filters are one rule that looks at a record
and either prints it or goes on to the next; the aggregate keeps counters, and
prints them all when its window is over. -/

namespace HawkTui.Threads
open Lib Text AwkRuntime

variable {ν : Type} [DecidableEq ν] (dialect : Dialect ν) (args : List Text)

/-- The rule of `fail_only.awk`. -/
def failOnly (record : Text) : List Text :=
  let scope := dialect.assigned args "scope".toList
  let lvl := tolower (dialect.field '\t' record 5)
  if !lvl.eq (.string "fail".toList) && !lvl.eq (.string "warn".toList) then []
  else if !scope.eq (.string []) && !(dialect.field '\t' record 3).eq scope then []
  else [record]

/-- The rule of `systemd_focus.awk`. -/
def systemdFocus (record : Text) : List Text :=
  let idPrefix := dialect.assigned args "id_prefix".toList
  if !(dialect.field '\t' record 3).eq (.string "systemd".toList) then []
  else if !idPrefix.eq (.string []) then
    if index (dialect.field '\t' record 4).text idPrefix.text ≠ 1 then [] else [record]
  else [record]

/-- The process of a thread whose variables stay as the command line sets them. -/
def runFilter (rule : Text → List Text) (input : Text) : Text := run (fun _ record => ((), rule record)) () input

/-- The variables of `scope_counts.awk` that outlive a record. -/
structure ScopeCounts (ν : Type) where
  counts : BTreeMap Text Nat
  nextEmit : ν
  -- how often the clock was read and the counters were printed
  readings : Nat
  loops : Nat

section ScopeCounts
variable (arith : Arithmetic ν) (world : World)

def windowS : Value ν :=
  let window := dialect.assigned args "window_s".toList
  if window.eq (.string []) then dialect.input "10".toList else window

/-- The `BEGIN` block. -/
def scopeCountsBegin : ScopeCounts ν where
  counts := ∅
  nextEmit := arith.add (arith.ofInt (world.systime 0)) (arith.value (windowS dialect args))
  readings := 1
  loops := 0

def countKv (scope lvl : Text) (c : Nat) : Text :=
  "src_scope=".toList ++ scope ++ ";src_level=".toList ++ lvl ++ ";count=".toList ++ Nat.toDigits 10 c ++
    ";window_s=".toList ++ (windowS dialect args).text

/-- The function `emit`, called with the record at hand. -/
def emitCount (record now scope lvl : Text) (c : Nat) : Text :=
  let ts := (dialect.field '\t' record 1).text
  let ts := if ts = [] then now else ts
  ['\t'].intercalate [ts, "RECEIPT_EVENT".toList, "awk".toList, "scope_counts".toList, "info".toList, "count".toList,
    countKv dialect args scope lvl c]

/-- The loop over the counters. It prints each and sets it back, and takes the key
apart at its bars. -/
def emitCounts (record now : Text) (counts : BTreeMap Text Nat) : List Text → BTreeMap Text Nat × List Text
  | [] => (counts, [])
  | k :: rest =>
    let parts := fields '|' k
    let line := emitCount dialect args record now (parts[0]?.getD []) (parts[1]?.getD []) (counts[k]?.getD 0)
    let later := emitCounts record now (counts.insert k 0) rest
    (later.1, line :: later.2)

def isDue (st : ScopeCounts ν) : Bool := arith.ge (arith.ofInt (world.systime st.readings)) st.nextEmit

def countKey (record : Text) : Text :=
  (dialect.field '\t' record 3).text ++ '|' :: (tolower (dialect.field '\t' record 5)).text

/-- The main rule. -/
def scopeCounts (st : ScopeCounts ν) (record : Text) : ScopeCounts ν × List Text :=
  let key := countKey dialect record
  let counts := st.counts.insert key (st.counts[key]?.getD 0 + 1)
  if isDue arith world st then
    let now := (dialect.field '\t' record 1).text
    let now := if now = [] then "1970-01-01T00:00:00Z".toList else now
    let emitted := emitCounts dialect args record now counts (world.order st.loops counts.keys)
    let nextEmit := arith.add (arith.ofInt (world.systime (st.readings + 1))) (arith.value (windowS dialect args))
    (⟨emitted.1, nextEmit, st.readings + 2, st.loops + 1⟩, emitted.2)
  else (⟨counts, st.nextEmit, st.readings + 1, st.loops⟩, [])

def runScopeCounts (input : Text) : Text :=
  run (scopeCounts dialect args arith world) (scopeCountsBegin dialect args arith world) input

end ScopeCounts

end HawkTui.Threads
