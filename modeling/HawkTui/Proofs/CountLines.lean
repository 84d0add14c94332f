import HawkTui.Hawk.Threads
import HawkTui.Lib.Numbers
import HawkTui.Proofs.KvBag

/-! A line of the counting thread. A counter is kept under its scope and level joined
by a bar, and printed into the bag of a frame, with the text of the window behind it.
What the line tells of scope, level and count is known from the key, the counter and
the window's text. -/

namespace HawkTui.Proofs.CountLines
open Lib Text Numbers AwkRuntime Threads KvBag

def keyText (pair : Text × Text) : Text := pair.1 ++ '|' :: pair.2

/-- Text that survives the key and the bag. -/
structure Survives (s : Text) : Prop where
  bar : '|' ∉ s
  semicolon : ';' ∉ s
  trimmed : Trimmed s

def bagOf (line : Text) : KvBag := parseKvBag ((line.splitOn '\t')[6]?.getD [])

def Says (pair : Text × Text) (line : Text) : Prop :=
  (bagOf line)["src_scope".toList]? = some pair.1 ∧ (bagOf line)["src_level".toList]? = some pair.2

instance (pair : Text × Text) (line : Text) : Decidable (Says pair line) := inferInstanceAs (Decidable (_ ∧ _))

def countOf (line : Text) : Nat := ((bagOf line)["count".toList]?.bind parseDigits).getD 0

/-- What the lines about a scope and level add up to. -/
def total (pair : Text × Text) (lines : List Text) : Nat := ((lines.filter (Says pair)).map countOf).sum

theorem total_append (pair : Text × Text) (lines more : List Text) :
    total pair (lines ++ more) = total pair lines + total pair more := by
  simp [total]

theorem total_cons (pair : Text × Text) (line : Text) (lines : List Text) :
    total pair (line :: lines) = (if Says pair line then countOf line else 0) + total pair lines := by
  unfold total
  rw [List.filter_cons]
  by_cases about : Says pair line
  · simp [about]
  · simp [about]

section
variable {ν : Type} [DecidableEq ν] (dialect : Dialect ν) (args : List Text)

def pairOf (record : Text) : Text × Text :=
  ((dialect.field '\t' record 3).text, (tolower (dialect.field '\t' record 5)).text)

/-- What the window's text puts into the bag of a line: all up to a line break or a tab. -/
def ownText : Text := ((((windowS dialect args).text.splitOn '\n').headD []).splitOn '\t').headD []

def ownBag : KvBag := parseKvBag ("window_s=".toList ++ ownText dialect args)

/-- The count that the window's text gives to every line. -/
def ownCount : Option Nat := (ownBag dialect args)["count".toList]?.map fun text => (parseDigits text).getD 0

/-- The lines that a line break in the window's text puts behind every line. -/
def furtherLines : List Text := ((windowS dialect args).text.splitOn '\n').tail

/-- The first line of what is printed at once. -/
def headLine (text : Text) : Text := (text.splitOn '\n').headD []

def part (k : Text) (i : Nat) : Text := (fields '|' k)[i]?.getD []

/-- The line for a record's counter tells its scope and its level: the first part of
the key and the second, unless the window's text names others. -/
structure Kept (record : Text) : Prop where
  scope : (ownBag dialect args)["src_scope".toList]?.getD (trim (part (countKey dialect record) 0)) = (pairOf dialect record).1
  level : (ownBag dialect args)["src_level".toList]?.getD (trim (part (countKey dialect record) 1)) = (pairOf dialect record).2
  semicolons : ';' ∉ (pairOf dialect record).1 ∧ ';' ∉ (pairOf dialect record).2

def lineFor (record now k : Text) (c : Nat) : Text := emitCount dialect args record now (part k 0) (part k 1) c

def scopeEntry (k : Text) : Text := "src_scope".toList ++ '=' :: part k 0

def levelEntry (k : Text) : Text := "src_level".toList ++ '=' :: part k 1

def countEntry (c : Nat) : Text := "count".toList ++ '=' :: Nat.toDigits 10 c

/-- The bag of a line before the window's part. -/
def counterBag (k : Text) : KvBag := parseKvBag (scopeEntry k ++ ';' :: levelEntry k)

/-- The scope and level a line for the key tells. -/
def toldPair (k : Text) : Text × Text :=
  (((ownBag dialect args)["src_scope".toList]?.or (counterBag k)["src_scope".toList]?).getD [],
    ((ownBag dialect args)["src_level".toList]?.or (counterBag k)["src_level".toList]?).getD [])

end

variable {ν : Type} [DecidableEq ν] {dialect : Dialect ν} {args : List Text}

omit [DecidableEq ν] in
theorem countKey_eq (record : Text) : countKey dialect record = keyText (pairOf dialect record) := rfl

section Lines

theorem mem_part {k : Text} {i : Nat} {c : Char} (member : c ∈ part k i) : c ∈ k ∧ c ≠ '|' := by
  unfold part at member
  cases found : (fields '|' k)[i]? with
  | none => simp [found] at member
  | some piece =>
    rw [found, Option.getD_some] at member
    have inside := List.mem_of_getElem? found
    unfold fields at inside
    split at inside
    · simp at inside
    · refine ⟨mem_of_mem_splitOn inside member, ?_⟩
      rintro rfl
      exact sep_not_mem_of_mem_splitOn inside member

/-- All of a line's bag but the window's own text. -/
def counterText (k : Text) (c : Nat) : Text :=
  scopeEntry k ++ ';' :: levelEntry k ++ ';' :: countEntry c ++ ";window_s=".toList

private theorem join_entries (k₁ k₂ k₃ k₄ a b c d : Text) :
    (k₁ ++ ['=']) ++ a ++ (';' :: k₂ ++ ['=']) ++ b ++ (';' :: k₃ ++ ['=']) ++ c ++ k₄ ++ d =
      k₁ ++ '=' :: a ++ ';' :: (k₂ ++ '=' :: b) ++ ';' :: (k₃ ++ '=' :: c) ++ k₄ ++ d := by
  simp

theorem countKv_eq (k : Text) (c : Nat) :
    countKv dialect args (part k 0) (part k 1) c = counterText k c ++ (windowS dialect args).text :=
  join_entries "src_scope".toList "src_level".toList "count".toList ";window_s=".toList _ _ _ _

/-- A character that the script does not write into a bag by itself. -/
structure Foreign (d : Char) : Prop where
  scope : d ∉ "src_scope".toList
  level : d ∉ "src_level".toList
  count : d ∉ "count".toList
  window : d ∉ ";window_s=".toList
  semicolon : d ≠ ';'
  equals : d ≠ '='
  digit : d.isDigit = false

theorem foreign_tab : Foreign '\t' := by
  constructor <;> decide

theorem foreign_newline : Foreign '\n' := by
  constructor <;> decide

theorem Foreign.not_mem_counterText {d : Char} (foreign : Foreign d) {k : Text} (absent : d ∉ k) (c : Nat) :
    d ∉ counterText k c := by
  have parts : ∀ i, d ∉ part k i := fun i member => absent (mem_part member).1
  have next : ∀ {front back : Text} {sep : Char}, d ≠ sep → d ∉ front → d ∉ back → d ∉ front ++ sep :: back :=
    fun other left right => List.not_mem_append left (List.not_mem_cons_of_ne_of_not_mem other right)
  have scope : d ∉ scopeEntry k := next foreign.equals foreign.scope (parts 0)
  have level : d ∉ levelEntry k := next foreign.equals foreign.level (parts 1)
  have count : d ∉ countEntry c := next foreign.equals foreign.count (toDigits_not_mem foreign.digit c)
  exact List.not_mem_append (next foreign.semicolon (next foreign.semicolon scope level) count) foreign.window

/-- The time a line shows. -/
def stamp (dialect : Dialect ν) (record now : Text) : Text :=
  if (dialect.field '\t' record 1).text = [] then now else (dialect.field '\t' record 1).text

def lineCells (dialect : Dialect ν) (record now : Text) : List Text :=
  [stamp dialect record now, "RECEIPT_EVENT".toList, "awk".toList, "scope_counts".toList, "info".toList, "count".toList]

/-- Text that may stand in a column. -/
structure InColumn (s : Text) : Prop where
  newline : '\n' ∉ s
  tab : '\t' ∉ s

section
variable {record now : Text} (line : '\n' ∉ record)
include line

omit [DecidableEq ν] in
theorem field_inColumn (dialect : Dialect ν) (i : Nat) : InColumn (dialect.field '\t' record i).text :=
  ⟨fun member => line (dialect.mem_of_mem_field member), dialect.sep_not_mem_field '\t' record i⟩

omit [DecidableEq ν] in
theorem countKey_inColumn (dialect : Dialect ν) : InColumn (countKey dialect record) := by
  have scope := field_inColumn line dialect 3
  have level := field_inColumn line dialect 5
  have absent : ∀ {d : Char}, d.toNat < 65 → d ∉ (dialect.field '\t' record 3).text →
      d ∉ (dialect.field '\t' record 5).text → d ∉ countKey dialect record := by
    intro d early left right
    have bar : d ≠ '|' := by
      rintro rfl
      exact absurd early (by decide)
    exact List.not_mem_append left
      (List.not_mem_cons_of_ne_of_not_mem bar (mt (mem_lowercase_iff early _).mp right))
  exact ⟨absent (by decide) scope.newline level.newline, absent (by decide) scope.tab level.tab⟩

omit [DecidableEq ν] in
theorem lineCells_inColumn (dialect : Dialect ν) (time : InColumn now) :
    ∀ cell ∈ lineCells dialect record now, InColumn cell := by
  have first : InColumn (stamp dialect record now) := by
    unfold stamp
    split
    · exact time
    · exact field_inColumn line dialect 1
  simp only [lineCells, List.forall_mem_cons]
  exact ⟨first, ⟨by decide, by decide⟩, ⟨by decide, by decide⟩, ⟨by decide, by decide⟩, ⟨by decide, by decide⟩,
    ⟨by decide, by decide⟩, by simp⟩

end

/-- A line before the window's text. -/
def lineFront (dialect : Dialect ν) (record now k : Text) (c : Nat) : Text :=
  ['\t'].intercalate (lineCells dialect record now ++ [counterText k c])

theorem lineFor_eq (record now k : Text) (c : Nat) :
    lineFor dialect args record now k c = lineFront dialect record now k c ++ (windowS dialect args).text := by
  rw [lineFor, emitCount, countKv_eq]
  simp only [lineFront, lineCells, stamp, List.cons_append, List.nil_append, List.intercalate_cons_cons,
    List.intercalate_singleton, List.append_assoc]

theorem lookup_counterText (k : Text) (c : Nat) (name : Text) :
    (parseKvBag (counterText k c ++ ownText dialect args))[name]? = (ownBag dialect args)[name]?.or
      ((if "count".toList = name then some (Nat.toDigits 10 c) else none).or (counterBag k)[name]?) := by
  have shape : counterText k c ++ ownText dialect args =
      (scopeEntry k ++ ';' :: levelEntry k ++ ';' :: countEntry c) ++ ';' :: ("window_s=".toList ++ ownText dialect args) :=
    List.append_assoc _ _ _
  have absent : ';' ∉ countEntry c :=
    List.not_mem_append (by decide) (List.not_mem_cons_of_ne_of_not_mem (by decide) (toDigits_not_mem (by decide) c))
  have count : (parseKvBag (countEntry c))[name]? = if "count".toList = name then some (trim (Nat.toDigits 10 c)) else none :=
    lookup_pair (by decide) (by decide) absent name
  have digits : trim (Nat.toDigits 10 c) = Nat.toDigits 10 c := i64ToText_trimmed c
  rw [shape, lookup_append, lookup_append, count, digits, ownBag, counterBag]

theorem counterBag_scope (k : Text) : (counterBag k)["src_scope".toList]?.isSome = true := by
  have own : (parseKvBag (scopeEntry k))["src_scope".toList]?.isSome = true := lookup_isSome (by decide) (by decide) (by decide) _
  rw [counterBag, lookup_append, Option.isSome_or, own, Bool.or_true]

theorem counterBag_level (k : Text) : (counterBag k)["src_level".toList]?.isSome = true := by
  have own : (parseKvBag (levelEntry k))["src_level".toList]?.isSome = true := lookup_isSome (by decide) (by decide) (by decide) _
  rw [counterBag, lookup_append, Option.isSome_or, own, Bool.true_or]

section
variable {record now k : Text} (line : '\n' ∉ record) (time : InColumn now) (key : InColumn k) (c : Nat)
include line time key

theorem splitOn_lineFor : (lineFor dialect args record now k c).splitOn '\n' =
    (lineFront dialect record now k c ++ ((windowS dialect args).text.splitOn '\n').headD []) :: furtherLines dialect args := by
  rw [lineFor_eq, splitOn_append_of_absent]
  · rfl
  · intro member
    rcases mem_of_mem_intercalate member with same | ⟨cell, inside, found⟩
    · exact absurd same (by decide)
    · rcases List.mem_append.mp inside with own | last
      · exact (lineCells_inColumn line dialect time cell own).newline found
      · obtain rfl := List.mem_singleton.mp last
        exact foreign_newline.not_mem_counterText key.newline c found

/-- The bag of a line for a counter. -/
theorem bagOf_headLine : bagOf (headLine (lineFor dialect args record now k c)) =
    parseKvBag (counterText k c ++ ownText dialect args) := by
  have cells : (lineCells dialect record now).flatMap (·.splitOn '\t') = lineCells dialect record now := by
    conv_rhs => rw [← List.flatMap_singleton' (lineCells dialect record now)]
    apply List.flatMap_congr
    intro cell inside
    exact splitOn_of_absent (lineCells_inColumn line dialect time cell inside).tab
  rw [bagOf, headLine, splitOn_lineFor line time key, List.headD_cons, lineFront, intercalate_snoc_append,
    splitOn_intercalate_flatMap (by simp), List.flatMap_append, cells,
    List.flatMap_singleton, splitOn_append_of_absent (foreign_tab.not_mem_counterText key.tab c)]
  rfl

/-- A line for a counter tells one scope and level. -/
theorem says_headLine (pair : Text × Text) :
    Says pair (headLine (lineFor dialect args record now k c)) ↔ toldPair dialect args k = pair := by
  have some_iff : ∀ {found : Option Text} {v : Text}, found.isSome = true → (found = some v ↔ found.getD [] = v) := by
    intro found v present
    obtain ⟨text, rfl⟩ := Option.isSome_iff_exists.mp present
    simp
  have scope : ((ownBag dialect args)["src_scope".toList]?.or (counterBag k)["src_scope".toList]?).isSome = true := by
    rw [Option.isSome_or, counterBag_scope, Bool.or_true]
  have level : ((ownBag dialect args)["src_level".toList]?.or (counterBag k)["src_level".toList]?).isSome = true := by
    rw [Option.isSome_or, counterBag_level, Bool.or_true]
  rw [Says, bagOf_headLine line time key, lookup_counterText, lookup_counterText, if_neg (by decide), if_neg (by decide),
    Option.none_or, Option.none_or, some_iff scope, some_iff level, toldPair, Prod.ext_iff]

theorem countOf_headLine :
    countOf (headLine (lineFor dialect args record now k c)) = (ownCount dialect args).getD c := by
  rw [countOf, bagOf_headLine line time key, lookup_counterText, if_pos rfl, ownCount]
  cases (ownBag dialect args)["count".toList]? with
  | none => simp [parseDigits_toDigits]
  | some text => simp

end

end Lines

section Told

/-- Where scope and level have no semicolon, a line tells the parts of the key. -/
theorem told_eq {k : Text} (absent : ';' ∉ k) :
    toldPair dialect args k =
      ((ownBag dialect args)["src_scope".toList]?.getD (trim (part k 0)),
        (ownBag dialect args)["src_level".toList]?.getD (trim (part k 1))) := by
  have parts : ∀ i, ';' ∉ part k i := fun i member => absent (mem_part member).1
  have entry : ∀ {name value : Text}, ';' ∉ name → ';' ∉ value → ';' ∉ name ++ '=' :: value := fun left right =>
    List.not_mem_append left (List.not_mem_cons_of_ne_of_not_mem (by decide) right)
  have levels : ∀ name, (parseKvBag (levelEntry k))[name]? = if "src_level".toList = name then some (trim (part k 1)) else none :=
    lookup_pair (by decide) (by decide) (entry (by decide) (parts 1))
  have scopes : ∀ name, (parseKvBag (scopeEntry k))[name]? = if "src_scope".toList = name then some (trim (part k 0)) else none :=
    lookup_pair (by decide) (by decide) (entry (by decide) (parts 0))
  have scope : (counterBag k)["src_scope".toList]? = some (trim (part k 0)) := by
    rw [counterBag, lookup_append, levels, scopes, if_neg (by decide), if_pos rfl, Option.none_or]
  have level : (counterBag k)["src_level".toList]? = some (trim (part k 1)) := by
    rw [counterBag, lookup_append, levels, if_pos rfl, Option.some_or]
  rw [toldPair, scope, level]
  cases (ownBag dialect args)["src_scope".toList]? <;> cases (ownBag dialect args)["src_level".toList]? <;> rfl

/-- What a line tells can stand in a bag. -/
theorem told_clean (dialect : Dialect ν) (args : List Text) (k : Text) :
    ';' ∉ (toldPair dialect args k).1 ∧ ';' ∉ (toldPair dialect args k).2 := by
  have value : ∀ {name : Text}, ';' ∉ (((ownBag dialect args)[name]?.or (counterBag k)[name]?).getD []) := by
    intro name
    cases own : (ownBag dialect args)[name]? with
    | some v => exact (parseKvBag_clean _ name v own).valueSemicolon
    | none =>
      cases counted : (counterBag k)[name]? with
      | some v => exact (parseKvBag_clean _ name v counted).valueSemicolon
      | none => simp
  exact ⟨value, value⟩

theorem kept_iff_told (record : Text) :
    Kept dialect args record ↔ toldPair dialect args (countKey dialect record) = pairOf dialect record := by
  have absent : ';' ∉ (pairOf dialect record).1 ∧ ';' ∉ (pairOf dialect record).2 → ';' ∉ countKey dialect record := fun both =>
    List.not_mem_append both.1 (List.not_mem_cons_of_ne_of_not_mem (by decide) both.2)
  constructor
  · intro kept
    rw [told_eq (absent kept.semicolons), kept.scope, kept.level]
  · intro same
    have semicolons := told_clean dialect args (countKey dialect record)
    rw [same] at semicolons
    rw [told_eq (absent semicolons), Prod.ext_iff] at same
    exact ⟨same.1, same.2, semicolons⟩

theorem splitOn_keyText (pair : Text × Text) : (keyText pair).splitOn '|' = pair.1.splitOn '|' ++ pair.2.splitOn '|' :=
  List.splitOn_append_cons_self _ _

theorem part_keyText (pair : Text × Text) (i : Nat) :
    part (keyText pair) i = (pair.1.splitOn '|' ++ pair.2.splitOn '|')[i]?.getD [] := by
  have present : (keyText pair).isEmpty = false := by
    rw [List.isEmpty_eq_false_iff]
    exact List.append_ne_nil_of_right_ne_nil _ (List.cons_ne_nil _ _)
  rw [part, fields, present, if_neg (by decide), splitOn_keyText]

theorem part_scope {pair : Text × Text} (scope : '|' ∉ pair.1) : part (keyText pair) 0 = pair.1 := by
  rw [part_keyText, splitOn_of_absent scope]
  rfl

theorem part_level {pair : Text × Text} (scope : '|' ∉ pair.1) (level : '|' ∉ pair.2) : part (keyText pair) 1 = pair.2 := by
  rw [part_keyText, splitOn_of_absent scope, splitOn_of_absent level]
  rfl

/-- Behind a bar in the scope the level is not looked at. -/
theorem part_barred {pair other : Text × Text} (barred : '|' ∈ pair.1) (same : other.1 = pair.1) :
    part (keyText pair) 1 = part (keyText other) 1 := by
  have second : 1 < (pair.1.splitOn '|').length := by
    rw [length_splitOn]
    exact Nat.lt_add_of_pos_left (List.count_pos_iff.mpr barred)
  rw [part_keyText, part_keyText, same, List.getElem?_append_left second, List.getElem?_append_left second]

theorem trim_part (k : Text) (i : Nat) : '|' ∉ trim (part k i) := fun member => (mem_part (mem_of_mem_trim member)).2 rfl

/-- Where every pair is told by the line of another of them, each is told by its own. -/
theorem told_keyText {pairs : List (Text × Text)}
    (all : ∀ pair ∈ pairs, ∃ other ∈ pairs, toldPair dialect args (keyText other) = pair) :
    ∀ pair ∈ pairs, toldPair dialect args (keyText pair) = pair := by
  have plain : ∀ pair ∈ pairs, ';' ∉ keyText pair := by
    intro pair member
    obtain ⟨other, -, rfl⟩ := all pair member
    obtain ⟨scope, level⟩ := told_clean dialect args (keyText other)
    exact List.not_mem_append scope (List.not_mem_cons_of_ne_of_not_mem (by decide) level)
  have parts : ∀ pair ∈ pairs, ∃ other ∈ pairs,
      (ownBag dialect args)["src_scope".toList]?.getD (trim (part (keyText other) 0)) = pair.1 ∧
        (ownBag dialect args)["src_level".toList]?.getD (trim (part (keyText other) 1)) = pair.2 := by
    intro pair member
    obtain ⟨other, inside, same⟩ := all pair member
    rw [told_eq (plain other inside), Prod.ext_iff] at same
    exact ⟨other, inside, same⟩
  intro pair member
  obtain ⟨other, inside, scope, level⟩ := parts pair member
  obtain ⟨third, -, otherScope, -⟩ := parts other inside
  rw [told_eq (plain pair member), Prod.ext_iff]
  cases ownScope : (ownBag dialect args)["src_scope".toList]? with
  | none =>
    simp only [ownScope, Option.getD_none] at scope ⊢
    have unbarred : '|' ∉ pair.1 := scope ▸ trim_part _ _
    refine ⟨by rw [part_scope unbarred, ← scope, trim_trim], ?_⟩
    cases ownLevel : (ownBag dialect args)["src_level".toList]? with
    | some named =>
      simp only [ownLevel, Option.getD_some] at level ⊢
      exact level
    | none =>
      simp only [ownLevel, Option.getD_none] at level ⊢
      rw [part_level unbarred (level ▸ trim_part _ _), ← level, trim_trim]
  | some named =>
    simp only [ownScope, Option.getD_some] at scope otherScope ⊢
    refine ⟨scope, ?_⟩
    cases ownLevel : (ownBag dialect args)["src_level".toList]? with
    | some named =>
      simp only [ownLevel, Option.getD_some] at level ⊢
      exact level
    | none =>
      simp only [ownLevel, Option.getD_none] at level ⊢
      by_cases barred : '|' ∈ pair.1
      · rw [part_barred barred (otherScope.symm.trans scope), level]
      · rw [part_level barred (level ▸ trim_part _ _), ← level, trim_trim]

end Told

/-- A window whose text parts neither a bag nor a line. -/
structure ProperWindow (dialect : Dialect ν) (args : List Text) : Prop where
  semicolon : ';' ∉ (windowS dialect args).text
  newline : '\n' ∉ (windowS dialect args).text

/-- A window that is left to the script, or is a number as the pack declares it, is proper. -/
theorem properWindow_of_int (declared : (dialect.assigned args "window_s".toList).text = [] ∨
    (parseI64 (dialect.assigned args "window_s".toList).text).isSome = true) : ProperWindow dialect args := by
  have plain : ∀ c ∈ (windowS dialect args).text, c = '-' ∨ c = '+' ∨ c.isDigit = true := by
    simp only [windowS, Value.eq_string]
    split
    next unset =>
      intro c member
      have digits : "10".toList.all Char.isDigit = true := by decide
      exact Or.inr (Or.inr (List.all_eq_true.mp digits c member))
    next given =>
      rcases declared with empty | number
      · exact absurd (decide_eq_true empty) given
      · obtain ⟨n, parsed⟩ := Option.isSome_iff_exists.mp number
        exact mem_of_parseI64 parsed
  constructor
  · intro member
    exact absurd (plain _ member) (by decide)
  · intro member
    exact absurd (plain _ member) (by decide)

theorem ProperWindow.ownBag_lookup (proper : ProperWindow dialect args) {name : Text} (other : "window_s".toList ≠ name) :
    (ownBag dialect args)[name]? = none := by
  have absent : ';' ∉ ownText dialect args := by
    have front : ∀ (sep : Char) (s : Text), (s.splitOn sep).headD [] <+: s := by
      intro sep s
      rw [List.headD_eq_head?_getD, head_splitOn, Option.getD_some]
      exact List.takeWhile_prefix _
    exact fun member => proper.semicolon (((front '\t' _).trans (front '\n' _)).subset member)
  have entry : ';' ∉ "window_s".toList ++ '=' :: ownText dialect args :=
    List.not_mem_append (by decide) (List.not_mem_cons_of_ne_of_not_mem (by decide) absent)
  have lookup : (parseKvBag ("window_s".toList ++ '=' :: ownText dialect args))[name]? =
      if "window_s".toList = name then some (trim (ownText dialect args)) else none :=
    lookup_pair (by decide) (by decide) entry name
  rw [if_neg other] at lookup
  exact lookup

/-- Under a proper window each scope and level has to survive the key and the bag. -/
theorem ProperWindow.kept_iff (proper : ProperWindow dialect args) (record : Text) :
    Kept dialect args record ↔ Survives (pairOf dialect record).1 ∧ Survives (pairOf dialect record).2 := by
  have scope : (ownBag dialect args)["src_scope".toList]? = none := proper.ownBag_lookup (by decide)
  have level : (ownBag dialect args)["src_level".toList]? = none := proper.ownBag_lookup (by decide)
  constructor
  · rintro ⟨first, second, semicolons⟩
    rw [scope, Option.getD_none] at first
    rw [level, Option.getD_none] at second
    exact ⟨⟨first ▸ trim_part _ _, semicolons.1, first ▸ trim_trimmed _⟩,
      ⟨second ▸ trim_part _ _, semicolons.2, second ▸ trim_trimmed _⟩⟩
  · rintro ⟨first, second⟩
    refine ⟨?_, ?_, first.semicolon, second.semicolon⟩
    · rw [scope, Option.getD_none, countKey_eq, part_scope first.bar]
      exact first.trimmed
    · rw [level, Option.getD_none, countKey_eq, part_level first.bar second.bar]
      exact second.trimmed

end HawkTui.Proofs.CountLines
