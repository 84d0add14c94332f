import HawkTui.Lib.Text

/-! The awk language as far as scripts over tab-separated lines need it: records
and their fields, variables set on the command line, comparison, and the main
loop over the input. What a text is worth as a number and what its escapes stand
for differ between implementations, and are parameters. -/

namespace HawkTui.Lib.AwkRuntime
open Text

/-- One implementation of the language. -/
structure Dialect (ν : Type u) where
  zero : ν
  /-- The number that a text from outside looks like. -/
  number : Text → Option ν
  /-- The escapes of a command line assignment, undone. -/
  unescape : Text → Text
  unescape_plain : ∀ s, '\\' ∉ s → unescape s = s

/-- A value has a text, and a number when it may be compared as one. -/
structure Value (ν : Type u) where
  text : Text
  number : Option ν

variable {ν : Type u} [DecidableEq ν] (dialect : Dialect ν)

def Value.string (s : Text) : Value ν := ⟨s, none⟩

/-- The operator `==`: two numbers compare as numbers, and anything else as text. -/
def Value.eq (a b : Value ν) : Bool :=
  match a.number, b.number with
  | some x, some y => x = y
  | _, _ => a.text = b.text

/-- Text from outside counts as a number when it looks like one. -/
def Dialect.input (s : Text) : Value ν := ⟨s, dialect.number s⟩

/-- A variable or field that was never set is empty and zero at once. -/
def Dialect.unset : Value ν := ⟨[], some dialect.zero⟩

/-- The assignments among the arguments awk is started with. -/
def assignments : List Text → List (Text × Text)
  | flag :: assignment :: rest =>
    if flag = "-v".toList then (splitOnce '=' assignment).toList ++ assignments rest
    else assignments (assignment :: rest)
  | _ => []

/-- A variable that only the command line sets. -/
def Dialect.assigned (args : List Text) (name : Text) : Value ν :=
  match ((assignments args).filter (·.1 = name)).getLast? with
  | some assignment => dialect.input (dialect.unescape assignment.2)
  | none => dialect.unset

/-- The fields of a record for a one-character `FS`; an empty record has none. -/
def fields (fs : Char) (record : Text) : List Text := if record.isEmpty then [] else record.splitOn fs

def Dialect.field (fs : Char) (record : Text) (k : Nat) : Value ν :=
  match (fields fs record)[k - 1]? with
  | some s => dialect.input s
  | none => dialect.unset

/-- `tolower`, in the POSIX locale. -/
def tolower (a : Value ν) : Value ν := .string (toAsciiLowercase a.text)

def indexFrom (t : Text) (pos : Nat) : Text → Nat
  | [] => if t.isEmpty then pos else 0
  | c :: rest => if t.isPrefixOf (c :: rest) then pos else indexFrom t (pos + 1) rest

/-- `index`: where a non-empty text first occurs, counted from one, or zero. -/
def index (s t : Text) : Nat := indexFrom t 1 s

/-- How an implementation calculates and compares. -/
structure Arithmetic (ν : Type u) where
  value : Value ν → ν
  ofInt : Int → ν
  add : ν → ν → ν
  ge : ν → ν → Bool

/-- What a script learns from outside as it runs: the readings of `systime()` in
turn, and the order each loop over an array happens to take. -/
structure World where
  systime : Nat → Int
  order : Nat → List Text → List Text
  order_perm : ∀ i keys, (order i keys).Perm keys

def records (input : Text) : List Text :=
  (splitInclusive '\n' input).map fun piece => if piece.getLast? = some '\n' then piece.dropLast else piece

/-- The main loop. The rule sees each record in turn, and may print and change the variables. -/
def mainLoop (rule : σ → Text → σ × List Text) : σ → List Text → List Text
  | _, [] => []
  | s, record :: rest => (rule s record).2 ++ mainLoop rule (rule s record).1 rest

def output (printed : List Text) : Text := (printed.map (· ++ ['\n'])).flatten

def run (rule : σ → Text → σ × List Text) (start : σ) (input : Text) : Text :=
  output (mainLoop rule start (records input))

theorem Value.eq_text {b : Value ν} (textual : b.number = none) (a : Value ν) : a.eq b = decide (a.text = b.text) := by
  unfold Value.eq
  rw [textual]
  cases a.number <;> rfl

@[simp] theorem Value.eq_string (a : Value ν) (s : Text) : a.eq (.string s) = decide (a.text = s) :=
  Value.eq_text rfl a

omit [DecidableEq ν] in
@[simp] theorem Dialect.input_text (s : Text) : (dialect.input s).text = s := rfl

omit [DecidableEq ν] in
@[simp] theorem tolower_text (a : Value ν) : (tolower a).text = toAsciiLowercase a.text := rfl

omit [DecidableEq ν] in
/-- A single assignment without escapes sets its variable to its text. -/
theorem Dialect.assigned_single {name v : Text} (equals : '=' ∉ name) (plain : '\\' ∉ v) (script : Text) :
    dialect.assigned ["-v".toList, name ++ '=' :: v, "-f".toList, script] name = dialect.input v := by
  have found : assignments ["-v".toList, name ++ '=' :: v, "-f".toList, script] = [(name, v)] := by
    rw [assignments, if_pos rfl, splitOnce_append equals, assignments, if_neg (by decide), assignments]
    · rfl
    · simp
  rw [Dialect.assigned, found]
  simp [dialect.unescape_plain v plain]

theorem index_eq_one_iff (s t : Text) : index s t = 1 ↔ t <+: s := by
  have later : ∀ (rest : Text) (pos : Nat), 1 < pos → indexFrom t pos rest ≠ 1 := by
    intro rest
    induction rest with
    | nil =>
      intro pos far
      unfold indexFrom
      split <;> omega
    | cons c rest ih =>
      intro pos far
      unfold indexFrom
      split
      · omega
      · exact ih (pos + 1) (by omega)
  cases s with
  | nil =>
    simp [index, indexFrom]
  | cons c rest =>
    unfold index indexFrom
    split
    next found => simpa using List.isPrefixOf_iff_prefix.mp found
    next missing =>
      exact iff_of_false (later rest 2 (by omega)) (mt List.isPrefixOf_iff_prefix.mpr missing)

theorem newline_not_mem_record {input record : Text} (member : record ∈ records input) : '\n' ∉ record := by
  obtain ⟨piece, inside, rfl⟩ := List.mem_map.mp member
  obtain ⟨front, absent, rfl | rfl⟩ := mem_splitInclusive inside
  · rw [if_neg fun last => absent (List.mem_of_getLast? last)]
    exact absent
  · simpa using absent

theorem records_append_newline (body rest : Text) : records (body ++ '\n' :: rest) = body.splitOn '\n' ++ records rest := by
  have line : ∀ {front : Text}, '\n' ∉ front → ∀ rest, records (front ++ '\n' :: rest) = front :: records rest := by
    intro front absent rest
    rw [records, splitInclusive_append_cons absent, List.map_cons]
    simp [records]
  induction sized : body.length using Nat.strong_induction_on generalizing body with
  | _ size ih =>
    by_cases member : '\n' ∈ body
    · obtain ⟨front, later, rfl, absent⟩ := List.eq_append_cons_of_mem member
      have shorter : later.length < size := by
        rw [← sized, List.length_append, List.length_cons]
        omega
      rw [List.append_assoc, List.cons_append, line absent, ih _ shorter later rfl, List.splitOn_append_cons_self,
        splitOn_of_absent absent]
      rfl
    · rw [line member, splitOn_of_absent member]
      rfl

/-- A script that prints line breaks prints several lines at once. -/
theorem records_output_flatMap (bodies : List Text) : records (output bodies) = bodies.flatMap (·.splitOn '\n') := by
  induction bodies with
  | nil => rfl
  | cons body bodies ih =>
    have first : output (body :: bodies) = body ++ '\n' :: output bodies := by simp [output]
    rw [first, records_append_newline, ih, List.flatMap_cons]

theorem records_output {bodies : List Text} (absent : ∀ body ∈ bodies, '\n' ∉ body) : records (output bodies) = bodies := by
  rw [records_output_flatMap]
  induction bodies with
  | nil => rfl
  | cons body bodies ih =>
    obtain ⟨first, others⟩ := List.forall_mem_cons.mp absent
    rw [List.flatMap_cons, splitOn_of_absent first, ih others]
    rfl

theorem mainLoop_append (rule : σ → Text → σ × List Text) (start : σ) (records : List Text) (last : Text) :
    mainLoop rule start (records ++ [last]) =
      mainLoop rule start records ++ (rule (records.foldl (fun s record => (rule s record).1) start) last).2 := by
  induction records generalizing start with
  | nil => simp [mainLoop]
  | cons record rest ih => rw [List.cons_append, mainLoop, ih, mainLoop, List.append_assoc, List.foldl_cons]

omit [DecidableEq ν] in
theorem Dialect.sep_not_mem_field (fs : Char) (record : Text) (k : Nat) : fs ∉ (dialect.field fs record k).text := by
  unfold Dialect.field
  cases found : (fields fs record)[k - 1]? with
  | none => simp [Dialect.unset]
  | some s =>
    have member := List.mem_of_getElem? found
    unfold fields at member
    split at member
    · simp at member
    · exact sep_not_mem_of_mem_splitOn member

omit [DecidableEq ν] in
theorem Dialect.mem_of_mem_field {fs c : Char} {record : Text} {k : Nat} (member : c ∈ (dialect.field fs record k).text) :
    c ∈ record := by
  unfold Dialect.field at member
  cases found : (fields fs record)[k - 1]? with
  | none => simp [found, Dialect.unset] at member
  | some s =>
    rw [found] at member
    have inside := List.mem_of_getElem? found
    unfold fields at inside
    split at inside
    · simp at inside
    · exact mem_of_mem_splitOn inside member

/-- A rule that keeps no variables sees every record alike. -/
theorem mainLoop_stateless (rule : Text → List Text) (records : List Text) :
    mainLoop (fun _ record => ((), rule record)) () records = records.flatMap rule := by
  induction records with
  | nil => rfl
  | cons record rest ih => rw [mainLoop, ih, List.flatMap_cons]

end HawkTui.Lib.AwkRuntime
