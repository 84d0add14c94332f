import HawkTui.Hawk.Doctor

/-! The doctor's security scan against the awk constructs it is there to keep out.
The scan looks for fixed texts on a line; a construct has many spellings, and
the ones outside the fixed texts pass. The script is read with a small lexer, so that
text in a comment is no construct and a `print` in a string no statement. -/

namespace HawkTui.Proofs.SecurityScan
open Lib Text Packs Doctor

/-- What a character belongs to; of a regular expression, with the text of it so far. -/
inductive Mode where
  | code
  | string
  | regex (text : Text)
  | comment
  deriving DecidableEq

/-- The last token of the code: a name, number or other word, a sign, two signs that
step a variable, the end of an operand, or another operator. A statement begins
behind an `operator` as well. -/
inductive Token where
  | word (text : Text)
  | sign (c : Char)
  | stepped
  | operand
  | operator
  deriving DecidableEq

/-- Words behind which an expression or a statement begins. Other words are names,
numbers or words that end an expression. -/
def expecting : List Text :=
  ["print".toList, "printf".toList, "return".toList, "exit".toList, "delete".toList, "case".toList, "in".toList,
    "do".toList, "else".toList]

/-- Words whose brackets hold a condition, with a statement behind them. -/
def conditional : List Text := ["if".toList, "while".toList, "for".toList, "switch".toList]

/-- What awks do not agree on: whether a slash ends a regular expression of which the
given text is read, when it may stand between `[` and `]`, and whether a slash opens
one right behind `++`, `--` or a bare `length`. -/
structure Slashes where
  closes : Text → Bool
  opens : Token → Bool

/-- A slash opens a regular expression where an operand is due and divides elsewhere. -/
def Token.operandDue (slashes : Slashes) : Token → Bool
  | .word text => expecting.contains text || (text = "length".toList && slashes.opens (.word text))
  | .stepped => slashes.opens .stepped
  | .operand => false
  | .sign _ | .operator => true

def Token.opensCondition : Token → Bool
  | .word text => conditional.contains text
  | _ => false

/-- Where the lexer stands in a script: the open brackets, each with whether it holds
a condition, how many statements the line has closed, the last token and whether the
next character may belong to it. -/
structure Lex where
  mode : Mode := .code
  escaped : Bool := false
  brackets : List Bool := []
  statement : Nat := 0
  last : Token := .operator
  growing : Bool := false
  deriving DecidableEq

/-- The token `c` belongs to, if `c` is of a name or a number. -/
def Lex.word (s : Lex) (c : Char) : Token :=
  match s.growing, s.last with
  | true, .word text => .word (text ++ [c])
  | _, _ => .word [c]

def Lex.sign (s : Lex) (c : Char) : Token := if s.growing ∧ s.last = .sign c then .stepped else .sign c

def Lex.code (slashes : Slashes) (s : Lex) (c : Char) : Lex :=
  if isNameChar c ∨ c = '.' then { s with last := s.word c, growing := true }
  else if c = '+' ∨ c = '-' then { s with last := s.sign c, growing := true }
  else
    let s := { s with growing := false }
    if isWhitespace c then s
    else if c = '\\' then { s with escaped := true }
    else if c = '"' then { s with mode := .string }
    else if c = '#' then { s with mode := .comment }
    else if c = '/' ∧ s.last.operandDue slashes = true then { s with mode := .regex [] }
    else if c = '(' ∨ c = '[' then { s with brackets := s.last.opensCondition :: s.brackets, last := .operator }
    else if c = ')' ∨ c = ']' then
      { s with brackets := s.brackets.tail, last := if s.brackets.head? = some true then .operator else .operand }
    else if c = ';' ∨ c = '\x7b' ∨ c = '\x7d' then { s with statement := s.statement + 1, last := .operator }
    else { s with last := .operator }

def Lex.quoted (s : Lex) (closing : Bool) (c : Char) : Lex :=
  if s.escaped then { s with escaped := false }
  else if c = '\\' then { s with escaped := true }
  else if closing then { s with mode := .code, last := .operand }
  else s

def Lex.step (slashes : Slashes) (s : Lex) (c : Char) : Lex :=
  match s.mode with
  | .comment => s
  | .string => s.quoted (c == '"') c
  | .regex text => { s with mode := .regex (text ++ [c]) }.quoted (c == '/' && slashes.closes text) c
  | .code => { s with escaped := false }.code slashes c

/-- A line ends a comment and a token. Behind a backslash the rest goes on. -/
def Lex.newline (s : Lex) : Lex :=
  let s := { s with statement := 0, growing := false }
  if s.mode ≠ .comment ∧ s.escaped then { s with escaped := false } else { s with mode := .code, last := .operator }

def lex (slashes : Slashes) (s : Lex) (text : Text) : Lex := text.foldl (Lex.step slashes) s

/-- A line without the blanks around it, and where the lexer stands before it. -/
structure Place where
  start : Lex
  text : Text
  deriving DecidableEq

def placed (slashes : Slashes) (s : Lex) : List Text → List Place
  | [] => []
  | line :: rest =>
    ⟨lex slashes s (line.takeWhile isWhitespace), trim line⟩ :: placed slashes (lex slashes s line).newline rest

/-- The lines of a script. -/
def places (slashes : Slashes) (raw : Text) : List Place := placed slashes {} (lines raw)

section
variable (slashes : Slashes) (start : Lex)

def Live (before : Text) : Prop := (lex slashes start before).mode ≠ .comment

instance (before : Text) : Decidable (Live slashes start before) := inferInstanceAs (Decidable (_ ≠ _))

def WordStart (before : Text) : Prop := before.getLast?.any isNameChar = false

instance (before : Text) : Decidable (WordStart before) := inferInstanceAs (Decidable (_ = _))

def WordEnd (after : Text) : Prop := after.head?.any isNameChar = false

instance (after : Text) : Decidable (WordEnd after) := inferInstanceAs (Decidable (_ = _))

def isBlankChar (c : Char) : Bool := c == ' ' || c == '\t'

def Blanks (s : Text) : Prop := s.all isBlankChar = true

instance (s : Text) : Decidable (Blanks s) := inferInstanceAs (Decidable (_ = _))

def IsName (s : Text) : Prop := s.all isNameChar = true ∧ s.head?.any (!·.isDigit) = true

instance (s : Text) : Decidable (IsName s) := inferInstanceAs (Decidable (_ ∧ _))

/-- What stands between `getline` and `<`: blanks, or a variable set off by blanks. -/
def Receives (between : Text) : Prop :=
  Blanks between ∨ ∃ gap name blanks, between = gap ++ name ++ blanks ∧ gap ≠ [] ∧ Blanks gap ∧ IsName name ∧
    Blanks blanks

/-- A statement that prints `body`; what follows it stands in the same statement,
outside its brackets and strings. -/
def Prints (before keyword body : Text) : Prop :=
  let opened := lex slashes start before
  let closed := lex slashes start (before ++ keyword ++ body)
  (keyword = "print".toList ∨ keyword = "printf".toList) ∧ WordStart before ∧ WordEnd body ∧ opened.mode = .code ∧
    closed.mode = .code ∧ closed.brackets.length = opened.brackets.length ∧ closed.statement = opened.statement

instance (before keyword body : Text) : Decidable (Prints slashes start before keyword body) :=
  inferInstanceAs (Decidable (_ ∧ _))

def endsStatement (rest : Text) : Bool := (rest.dropWhile isBlankChar).head?.all fun c => ";\x7d#".toList.contains c

/-- The target of a redirection is one of the two names of stderr and nothing else. -/
def toStderr (target : Text) : Bool :=
  ["\"/dev/stderr\"".toList, "\"/dev/fd/2\"".toList].any fun name =>
    startsWith name (target.dropWhile isBlankChar) &&
      endsStatement ((target.dropWhile isBlankChar).drop name.length)

inductive Construct where
  | systemCall
  | getlinePipe
  | getlineFile
  | printPipe
  | printRedirect
  deriving DecidableEq, Repr

/-- The construct stands on the line, outside its comment. The last argument is
the part whose spelling is free: the blanks, the text up to `<`, the command or
the target. -/
def Occurs : Construct → Text → Text → Prop
  | .systemCall, t, gap =>
    ∃ before after, t = before ++ "system".toList ++ gap ++ '(' :: after ∧ Live slashes start before ∧ WordStart before ∧
      Blanks gap
  | .getlinePipe, t, gap =>
    ∃ before after, t = before ++ '|' :: gap ++ "getline".toList ++ after ∧ Live slashes start before ∧ WordEnd after ∧
      Blanks gap
  | .getlineFile, t, gap =>
    ∃ before after, t = before ++ "getline".toList ++ gap ++ '<' :: after ∧ Live slashes start before ∧ WordStart before ∧
      Receives gap
  | .printPipe, t, command =>
    -- two bars are the logical operator
    ∃ before keyword body, t = before ++ keyword ++ body ++ '|' :: command ∧ Prints slashes start before keyword body ∧
      body.getLast? ≠ some '|' ∧ command.head? ≠ some '|' ∧ ¬ Blank command
  | .printRedirect, t, target =>
    ∃ before keyword body op, t = before ++ keyword ++ body ++ op ++ target ∧ Prints slashes start before keyword body ∧
      (op = ['>'] ∨ op = ['>', '>']) ∧ body.getLast? ≠ some '>' ∧ target.head? ≠ some '>' ∧ target.head? ≠ some '=' ∧
      toStderr target = false

def Dangerous (place : Place) : Prop := ∃ construct gap, Occurs slashes place.start construct place.text gap

end

def Names (needle : String) (t : Text) : Prop := needle.toList <:+: t

def NamesStderr (t : Text) : Prop := Names "/dev/stderr" t ∨ Names "/dev/fd/2" t

def Denied (t : Text) : Prop :=
  Names "system(" t ∨ Names "| getline" t ∨ Names "|getline" t ∨ Names "getline <" t ∨
    Names "getline<" t ∨
    Names "print" t ∧ (Names "|\"" t ∨ Names "| \"" t ∨ Names ">" t ∧ ¬ NamesStderr t)

/-- The construct is written the way the fixed texts have it. -/
def Expected : Construct → Text → Text → Prop
  | .systemCall, _, gap => gap = []
  | .getlinePipe, _, gap => gap = [] ∨ gap = [' ']
  | .getlineFile, _, gap => gap = [] ∨ gap = [' ']
  | .printPipe, _, command => ['"'] <+: command ∨ [' ', '"'] <+: command
  | .printRedirect, t, _ => ¬ NamesStderr t

section
variable {slashes : Slashes} {start : Lex} {construct : Construct} {t gap before keyword body : Text}

private theorem step_comment (closed : start.mode = .comment) (c : Char) : start.step slashes c = start := by
  simp [Lex.step, closed]

theorem lex_comment (closed : start.mode = .comment) (rest : Text) : lex slashes start rest = start := by
  induction rest with
  | nil => rfl
  | cons c rest ih =>
    rw [lex, List.foldl_cons, step_comment closed]
    exact ih

theorem hash_opens_comment (slashes : Slashes) (code : start.mode = .code) : (start.step slashes '#').mode = .comment := by
  have name : isNameChar '#' = false := by decide
  have blank : isWhitespace '#' = false := by decide
  simp [Lex.step, code, Lex.code, name, blank]

private theorem Prints.starts (prints : Prints slashes start before keyword body) : ∃ tail, keyword = "print".toList ++ tail := by
  rcases prints.1 with rfl | rfl
  · exact ⟨[], rfl⟩
  · exact ⟨['f'], rfl⟩

private theorem Prints.live (prints : Prints slashes start before keyword body) : Live slashes start before := by
  obtain ⟨_, _, _, code, _⟩ := prints
  simp [Live, code]

private theorem occurs_live (present : Occurs slashes start construct t gap) :
    ∃ before c after, t = before ++ c :: after ∧ c ≠ '#' ∧ Live slashes start before := by
  cases construct with
  | systemCall =>
    obtain ⟨before, after, rfl, live, _⟩ := present
    exact ⟨before, 's', "ystem".toList ++ gap ++ '(' :: after, by simp, by decide, live⟩
  | getlinePipe =>
    obtain ⟨before, after, rfl, live, _⟩ := present
    exact ⟨before, '|', gap ++ "getline".toList ++ after, by simp, by decide, live⟩
  | getlineFile =>
    obtain ⟨before, after, rfl, live, _⟩ := present
    exact ⟨before, 'g', "etline".toList ++ gap ++ '<' :: after, by simp, by decide, live⟩
  | printPipe =>
    obtain ⟨before, keyword, body, rfl, prints, _⟩ := present
    obtain ⟨tail, rfl⟩ := prints.starts
    exact ⟨before, 'p', "rint".toList ++ tail ++ body ++ '|' :: gap, by simp, by decide, prints.live⟩
  | printRedirect =>
    obtain ⟨before, keyword, body, op, rfl, prints, _⟩ := present
    obtain ⟨tail, rfl⟩ := prints.starts
    exact ⟨before, 'p', "rint".toList ++ tail ++ body ++ op ++ gap, by simp, by decide, prints.live⟩

/-- On a comment line everything is comment, unless a string or a regular
expression goes on from the line before. -/
theorem occurs_uncommented (present : Occurs slashes start construct t gap) (code : start.mode = .code) : isComment t = false := by
  obtain ⟨before, c, after, rfl, visible, live⟩ := occurs_live present
  cases before with
  | nil => simpa [isComment, startsWith, List.isPrefixOf] using visible.symm
  | cons first before =>
    have differs : first ≠ '#' := by
      rintro rfl
      have closed := hash_opens_comment slashes code
      have rest : lex slashes start ('#' :: before) = start.step slashes '#' := lex_comment closed before
      exact live (rest ▸ closed)
    simpa [isComment, startsWith, List.isPrefixOf] using differs.symm

private theorem Prints.names (prints : Prints slashes start before keyword body) (after : Text) :
    Names "print" (before ++ keyword ++ body ++ after) := by
  obtain ⟨tail, rfl⟩ := prints.starts
  exact ⟨before, tail ++ body ++ after, by simp⟩

/-- A construct in the expected spelling puts one of the fixed texts on its line. -/
theorem denied_of_expected (present : Occurs slashes start construct t gap) (expected : Expected construct t gap) :
    Denied t := by
  cases construct with
  | systemCall =>
    obtain ⟨before, after, rfl, _⟩ := present
    obtain rfl : gap = [] := expected
    exact Or.inl ⟨before, after, by simp⟩
  | getlinePipe =>
    obtain ⟨before, after, rfl, _⟩ := present
    rcases expected with rfl | rfl
    · exact Or.inr (Or.inr (Or.inl ⟨before, after, by simp⟩))
    · exact Or.inr (Or.inl ⟨before, after, by simp⟩)
  | getlineFile =>
    obtain ⟨before, after, rfl, _⟩ := present
    rcases expected with rfl | rfl
    · exact Or.inr (Or.inr (Or.inr (Or.inr (Or.inl ⟨before, after, by simp⟩))))
    · exact Or.inr (Or.inr (Or.inr (Or.inl ⟨before, after, by simp⟩)))
  | printPipe =>
    obtain ⟨before, keyword, body, rfl, prints, _⟩ := present
    have printed := prints.names ('|' :: gap)
    refine Or.inr (Or.inr (Or.inr (Or.inr (Or.inr ⟨printed, ?_⟩))))
    rcases expected with ⟨after, rfl⟩ | ⟨after, rfl⟩
    · exact Or.inl ⟨before ++ keyword ++ body, after, by simp⟩
    · exact Or.inr (Or.inl ⟨before ++ keyword ++ body, after, by simp⟩)
  | printRedirect =>
    obtain ⟨before, keyword, body, op, rfl, prints, arrow, _⟩ := present
    have printed := prints.names (op ++ gap)
    rw [← List.append_assoc] at printed
    refine Or.inr (Or.inr (Or.inr (Or.inr (Or.inr ⟨printed, Or.inr (Or.inr ⟨?_, expected⟩)⟩))))
    rcases arrow with rfl | rfl
    · exact ⟨before ++ keyword ++ body, gap, by simp⟩
    · exact ⟨before ++ keyword ++ body, '>' :: gap, by simp⟩

end

private theorem contains_iff (needle : String) (t : Text) : contains needle.toList t = true ↔ Names needle t := by
  simp [contains, Names]

private theorem print_of_printf {t : Text} (named : Names "printf" t) : Names "print" t :=
  List.IsInfix.trans ⟨[], ['f'], by simp⟩ named

private theorem arrow_of_append {t : Text} (named : Names ">>" t) : Names ">" t :=
  List.IsInfix.trans ⟨[], ['>'], by simp⟩ named

private theorem denial_eq_nil (found : Bool) (message : Text) :
    (if found = true then [message] else []) = [] ↔ ¬ found = true := by
  cases found <;> simp

theorem undenied_iff (t : Text) : deniedBy t = [] ∧ readsFile t = false ↔ ¬ Denied t := by
  have print : (Names "print" t ∨ Names "printf" t) ↔ Names "print" t := or_iff_left_of_imp print_of_printf
  have arrow : (Names ">>" t ∨ Names ">" t) ↔ Names ">" t := or_iff_right_of_imp arrow_of_append
  simp only [deniedBy, readsFile, List.append_eq_nil_iff, denial_eq_nil, ← Bool.not_eq_true, Bool.and_eq_true,
    Bool.or_eq_true, Bool.not_eq_true', contains_iff, print, arrow]
  unfold Denied NamesStderr
  grind

/-- The strict scan of a text finds nothing when no scanned line has a fixed text. -/
theorem scanText_eq_nil_iff (raw : Text) : scanText raw .strict = [] ↔ ∀ t ∈ scannedLines raw, ¬ Denied t := by
  simp only [scanText, List.append_eq_nil_iff, List.map_eq_nil_iff, BTreeMap.keys_extend_eq_nil, List.flatMap_eq_nil_iff,
    List.filter_eq_nil_iff, ← undenied_iff]
  constructor
  · rintro ⟨files, denials⟩ t member
    exact ⟨denials t member, by simpa using files t member⟩
  · intro quiet
    exact ⟨fun t member => by simp [(quiet t member).2], fun t member => (quiet t member).1⟩

theorem placed_text (slashes : Slashes) (s : Lex) (rest : List Text) :
    (placed slashes s rest).map Place.text = rest.map trim := by
  induction rest generalizing s with
  | nil => rfl
  | cons line rest ih => rw [placed, List.map_cons, List.map_cons, ih]

variable {fs : FileSystem} {table : DebugTable} {scriptPath raw : Text}

private theorem securityScanAwk_strict (read : fs.readToString scriptPath = .ok raw) :
    securityScanAwk fs table scriptPath .strict = .ok [] ↔ ∀ t ∈ scannedLines raw, ¬ Denied t := by
  rw [← scanText_eq_nil_iff]
  simp [securityScanAwk, readScript, read, Except.mapError, bind, Except.bind, pure, Except.pure]

def scriptFile (script : String) : FileSystem where
  pathExists _ := true
  isDir _ := false
  readDir _ := .ok []
  readToString _ := .ok script.toList

/-- A slash inside brackets ends a regular expression like any other, and behind an
operand a slash divides. -/
def plainSlashes : Slashes := { closes := fun _ => true, opens := fun _ => false }

def deniedScript : String := "BEGIN \x7b system(\"id\") \x7d"

def quietLine : Construct → String
  | .systemCall => "\x7b print /#/, system (\"id -un\") \x7d"
  | .getlinePipe => "\x7b \"id\" |  getline \x7d"
  | .getlineFile => "\x7b getline row < \"/etc/passwd\" \x7d"
  | .printPipe => "\x7b print /a|b/ | cmd \x7d"
  | .printRedirect => "\x7b print $1 > \"/tmp/f\"; print \"done\" > \"/dev/stderr\" \x7d"

def quietLines : List String :=
  [quietLine .systemCall, quietLine .getlinePipe, quietLine .getlineFile, quietLine .printPipe,
    quietLine .printRedirect]

/-- A script with a line for each construct, in a spelling the fixed texts do not have. -/
def quietScript : String := String.intercalate "\n" quietLines

private theorem quietScript_places :
    places plainSlashes quietScript.toList = quietLines.map fun line => ⟨{}, line.toList⟩ := by
  decide +kernel

private theorem quietLine_dangerous (construct : Construct) : Dangerous plainSlashes ⟨{}, (quietLine construct).toList⟩ := by
  refine ⟨construct, ?_⟩
  cases construct with
  | systemCall => exact ⟨" ".toList, "\x7b print /#/, ".toList, "\"id -un\") \x7d".toList, by decide +kernel⟩
  | getlinePipe => exact ⟨"  ".toList, "\x7b \"id\" ".toList, " \x7d".toList, by decide +kernel⟩
  | getlineFile =>
    have received : Receives " row ".toList :=
      Or.inr ⟨" ".toList, "row".toList, " ".toList, by decide +kernel⟩
    exact ⟨" row ".toList, "\x7b ".toList, " \"/etc/passwd\" \x7d".toList, by decide +kernel, by decide +kernel,
      by decide +kernel, received⟩
  | printPipe => exact ⟨" cmd \x7d".toList, "\x7b ".toList, "print".toList, " /a|b/ ".toList, by decide +kernel⟩
  | printRedirect =>
    exact ⟨" \"/tmp/f\"; print \"done\" > \"/dev/stderr\" \x7d".toList, "\x7b ".toList, "print".toList,
      " $1 ".toList, ">".toList, by decide +kernel⟩

private theorem quietLine_quiet (construct : Construct) : ¬ Denied (quietLine construct).toList := by
  rw [← undenied_iff]
  cases construct <;> decide +kernel

private theorem quietScript_passes (t : Text) (scanned : t ∈ scannedLines quietScript.toList) : ¬ Denied t := by
  have listed := (List.mem_filter.mp scanned).1
  rw [← placed_text plainSlashes {}, ← places, quietScript_places, List.map_map] at listed
  obtain ⟨line, member, rfl⟩ := List.mem_map.mp listed
  simp only [quietLines, List.mem_cons, List.not_mem_nil, or_false] at member
  rcases member with rfl | rfl | rfl | rfl | rfl
  all_goals apply quietLine_quiet

/-- A string goes on behind the line break, so the second line is none of comment,
and the scan passes it over. -/
def hidingScript : String := "BEGIN \x7b x = \"a\\\n# \"; system(\"id\") \x7d"

private theorem hidingScript_dangerous :
    ∃ place ∈ places plainSlashes hidingScript.toList, Dangerous plainSlashes place ∧ isComment place.text = true := by
  refine ⟨⟨{ mode := .string }, "# \"; system(\"id\") \x7d".toList⟩, by decide +kernel, ?_, by decide +kernel⟩
  exact ⟨.systemCall, [], "# \"; ".toList, "\"id\") \x7d".toList, by decide +kernel⟩

private theorem hidingScript_passes (t : Text) (scanned : t ∈ scannedLines hidingScript.toList) : ¬ Denied t := by
  have lines : scannedLines hidingScript.toList = ["BEGIN \x7b x = \"a\\".toList] := by decide +kernel
  rw [lines, List.mem_singleton] at scanned
  rw [scanned, ← undenied_iff]
  decide +kernel

end HawkTui.Proofs.SecurityScan
