import Mathlib.Data.List.DropRight
import Mathlib.Data.List.Infix
import Mathlib.Tactic.Common

/-! Text as a list of Unicode scalar values, with the `str` operations the
program's encoders and decoders are built from. Splitting at one separator is
`List.splitOn`, and joining is `List.intercalate`. -/

namespace HawkTui.Lib

/-- Pieces that each end at a separator, but perhaps for the last. -/
def splitInclusive [DecidableEq α] (sep : α) : List α → List (List α)
  | [] => []
  | c :: rest =>
    if c = sep then [c] :: splitInclusive sep rest
    else match splitInclusive sep rest with
      | [] => [[c]]
      | piece :: pieces => (c :: piece) :: pieces

theorem splitInclusive_append_cons [DecidableEq α] {sep : α} {body : List α} (absent : sep ∉ body) (rest : List α) :
    splitInclusive sep (body ++ sep :: rest) = (body ++ [sep]) :: splitInclusive sep rest := by
  induction body with
  | nil => simp [splitInclusive]
  | cons c body ih =>
    rw [List.mem_cons, not_or] at absent
    rw [List.cons_append, splitInclusive, if_neg (Ne.symm absent.1), ih absent.2]
    rfl

theorem splitInclusive_append [DecidableEq α] {sep : α} {front : List α} (absent : sep ∉ front) (present : front ≠ [])
    (rest : List α) :
    splitInclusive sep (front ++ rest) =
      match splitInclusive sep rest with
      | [] => [front]
      | piece :: pieces => (front ++ piece) :: pieces := by
  induction front with
  | nil => exact absurd rfl present
  | cons c front ih =>
    simp only [List.mem_cons, not_or] at absent
    rw [List.cons_append, splitInclusive, if_neg (Ne.symm absent.1)]
    cases front with
    | nil =>
      rw [List.nil_append]
      cases splitInclusive sep rest <;> rfl
    | cons d front =>
      rw [ih absent.2 (by simp)]
      cases splitInclusive sep rest <;> rfl

theorem splitInclusive_flatten_append [DecidableEq α] {sep : α} (bodies : List (List α))
    (absent : ∀ body ∈ bodies, sep ∉ body) (rest : List α) :
    splitInclusive sep ((bodies.map (· ++ [sep])).flatten ++ rest) =
      bodies.map (· ++ [sep]) ++ splitInclusive sep rest := by
  induction bodies with
  | nil => rfl
  | cons body bodies ih =>
    simp only [List.map_cons, List.flatten_cons, List.append_assoc, List.cons_append, List.nil_append]
    rw [splitInclusive_append_cons (absent body (by simp)), ih fun other member => absent other (by simp [member])]

theorem splitInclusive_of_absent [DecidableEq α] {sep : α} {last : List α} (absent : sep ∉ last) (present : last ≠ []) :
    splitInclusive sep last = [last] := by
  have split := splitInclusive_append absent present []
  rw [List.append_nil] at split
  exact split

/-- A list that ends at a separator is split apart from what follows it. -/
theorem splitInclusive_append_of_ends [DecidableEq α] {sep : α} {front : List α}
    (ends : ∀ c, front.getLast? = some c → c = sep) (rest : List α) :
    splitInclusive sep (front ++ rest) = splitInclusive sep front ++ splitInclusive sep rest := by
  induction front with
  | nil => rfl
  | cons c front ih =>
    cases front with
    | nil =>
      obtain rfl : c = sep := ends c rfl
      simp [splitInclusive]
    | cons d front =>
      have present : splitInclusive sep (d :: front) ≠ [] := by
        rw [splitInclusive]
        split
        · simp
        · split <;> simp
      obtain ⟨piece, pieces, parts⟩ := List.exists_cons_of_ne_nil present
      have first : splitInclusive sep (c :: d :: front) =
          if c = sep then [c] :: piece :: pieces else (c :: piece) :: pieces := by
        rw [splitInclusive, parts]
      rw [first, List.cons_append, splitInclusive, ih (by simpa using ends), parts]
      split <;> rfl

/-- A piece holds the separator at its end only. -/
theorem mem_splitInclusive [DecidableEq α] {sep : α} {list piece : List α} (member : piece ∈ splitInclusive sep list) :
    ∃ front, sep ∉ front ∧ (piece = front ∨ piece = front ++ [sep]) := by
  induction list generalizing piece with
  | nil => cases member
  | cons c rest ih =>
    rw [splitInclusive] at member
    split at member
    next same =>
      subst same
      rcases List.mem_cons.mp member with rfl | later
      · exact ⟨[], by simp, Or.inr rfl⟩
      · exact ih later
    next other =>
      cases pieces : splitInclusive sep rest with
      | nil =>
        rw [pieces] at member
        obtain rfl := List.mem_singleton.mp member
        exact ⟨[c], by simpa using Ne.symm other, Or.inl rfl⟩
      | cons first others =>
        rw [pieces] at member ih
        rcases List.mem_cons.mp member with rfl | later
        · obtain ⟨front, absent, shape⟩ := ih (List.mem_cons_self ..)
          refine ⟨c :: front, by simp [absent, Ne.symm other], ?_⟩
          rcases shape with rfl | rfl
          · exact Or.inl rfl
          · exact Or.inr rfl
        · exact ih (List.mem_cons_of_mem _ later)

abbrev Text := List Char

namespace Text

instance : LawfulBEq Text := List.instLawfulBEq

/-- The Unicode `White_Space` property, as `char::is_whitespace` decides it. -/
def isWhitespace (c : Char) : Bool :=
  let n := c.toNat
  (9 ≤ n && n ≤ 13) || n == 0x20 || n == 0x85 || n == 0xA0 || n == 0x1680 ||
    (0x2000 ≤ n && n ≤ 0x200A) || n == 0x2028 || n == 0x2029 || n == 0x202F || n == 0x205F || n == 0x3000

theorem isDigit_iff (c : Char) : c.isDigit = true ↔ 48 ≤ c.toNat ∧ c.toNat ≤ 57 :=
  Bool.and_eq_true_iff.trans (and_congr decide_eq_true_iff decide_eq_true_iff)

theorem isAlpha_iff (c : Char) :
    c.isAlpha = true ↔ 65 ≤ c.toNat ∧ c.toNat ≤ 90 ∨ 97 ≤ c.toNat ∧ c.toNat ≤ 122 := by
  have upper : c.isUpper = true ↔ 65 ≤ c.toNat ∧ c.toNat ≤ 90 := decide_eq_true_iff
  have lower : c.isLower = true ↔ 97 ≤ c.toNat ∧ c.toNat ≤ 122 :=
    Bool.and_eq_true_iff.trans (and_congr decide_eq_true_iff decide_eq_true_iff)
  exact Bool.or_eq_true_iff.trans (or_congr upper lower)

/-- The characters of a name. -/
def isNameChar (c : Char) : Bool := c.isAlphanum || c == '_'

theorem isNameChar_iff (c : Char) : isNameChar c = true ↔
    ((65 ≤ c.toNat ∧ c.toNat ≤ 90 ∨ 97 ≤ c.toNat ∧ c.toNat ≤ 122) ∨ 48 ≤ c.toNat ∧ c.toNat ≤ 57) ∨ c.toNat = 95 := by
  have alphanum : c.isAlphanum = true ↔ c.isAlpha = true ∨ c.isDigit = true := Bool.or_eq_true_iff
  have line : c = '_' ↔ c.toNat = 95 := Char.toNat_inj.symm
  rw [isNameChar, Bool.or_eq_true_iff, alphanum, isAlpha_iff, isDigit_iff, beq_iff_eq, line]

theorem visible_of_isAlphanum {c : Char} (name : c.isAlphanum = true) : isWhitespace c = false := by
  have letters : c.isAlpha = true ∨ c.isDigit = true := Bool.or_eq_true_iff.mp name
  rw [isAlpha_iff, isDigit_iff] at letters
  simp only [isWhitespace, Bool.or_eq_false_iff, Bool.and_eq_false_iff, decide_eq_false_iff_not, beq_eq_false_iff_ne]
  omega

def trimStart (s : Text) : Text := s.dropWhile isWhitespace

def trimEnd (s : Text) : Text := s.rdropWhile isWhitespace

def trim (s : Text) : Text := trimEnd (trimStart s)

def trimEndMatches (p : Char → Bool) (s : Text) : Text := s.rdropWhile p

def toAsciiLowercase (s : Text) : Text := s.map Char.toLower

/-- `split_once`: the text before and after the first separator. -/
def splitOnce (sep : Char) (s : Text) : Option (Text × Text) :=
  match s.dropWhile (· != sep) with
  | [] => none
  | _ :: rest => some (s.takeWhile (· != sep), rest)

def contains (needle s : Text) : Bool := decide (needle <:+: s)

def startsWith (start s : Text) : Bool := start.isPrefixOf s

/-- A line without its terminator: `\n`, or `\r\n`. -/
def chomp (s : Text) : Text :=
  if s.getLast? = some '\n' then
    let s := s.dropLast
    if s.getLast? = some '\r' then s.dropLast else s
  else s

/-- `str::lines`. -/
def lines (s : Text) : List Text := (splitInclusive '\n' s).map chomp

/-- `replace` for a non-empty pattern. `skip` counts the characters of a match
still to be passed over. -/
def replaceFrom (old new : Text) : Nat → Text → Text
  | _, [] => []
  | skip + 1, _ :: rest => replaceFrom old new skip rest
  | 0, c :: rest =>
    if old.isPrefixOf (c :: rest) then new ++ replaceFrom old new (old.length - 1) rest
    else c :: replaceFrom old new 0 rest

def replace (old new s : Text) : Text := replaceFrom old new 0 s

/-- `split` at a non-empty text, with the same `skip`. -/
def splitTextFrom (sep : Text) : Nat → Text → List Text
  | _, [] => [[]]
  | skip + 1, _ :: rest => splitTextFrom sep skip rest
  | 0, c :: rest =>
    if sep.isPrefixOf (c :: rest) then [] :: splitTextFrom sep (sep.length - 1) rest
    else (splitTextFrom sep 0 rest).modifyHead (c :: ·)

def splitText (sep s : Text) : List Text := splitTextFrom sep 0 s

/-- Text that trimming leaves alone. -/
def Trimmed (s : Text) : Prop := trim s = s

instance (s : Text) : Decidable (Trimmed s) := inferInstanceAs (Decidable (_ = _))

def Blank (s : Text) : Prop := ∀ c ∈ s, isWhitespace c = true

instance (s : Text) : Decidable (Blank s) := decidable_of_iff (s.all isWhitespace = true) List.all_eq_true

theorem trimmed_iff (s : Text) :
    Trimmed s ↔ (∀ c, s.head? = some c → isWhitespace c = false) ∧
      (∀ c, s.getLast? = some c → isWhitespace c = false) := by
  constructor
  · intro same
    have front : trimStart s = s := by
      have shorter := (List.rdropWhile_prefix isWhitespace (trimStart s)).length_le
      have suffix := List.dropWhile_suffix (l := s) isWhitespace
      change (trim s).length ≤ (trimStart s).length at shorter
      rw [same] at shorter
      exact suffix.eq_of_length_le shorter
    have back : trimEnd s = s := by
      have whole : trimEnd (trimStart s) = s := same
      rwa [front] at whole
    refine ⟨fun c first => ?_, fun c last => ?_⟩
    · cases s with
      | nil => cases first
      | cons head rest =>
        obtain rfl : head = c := by simpa using first
        have visible := List.dropWhile_eq_self_iff.mp front (by simp)
        rwa [List.getElem_cons_zero, Bool.not_eq_true] at visible
    · have present : s ≠ [] := by rintro rfl; cases last
      have value : s.getLast present = c := by simpa [List.getLast?_eq_some_getLast present] using last
      simpa [value] using List.rdropWhile_eq_self_iff.mp back present
  · intro ends
    obtain ⟨first, last⟩ := ends
    have front : trimStart s = s := by
      cases s with
      | nil => rfl
      | cons head rest => simp [trimStart, first head rfl]
    unfold Trimmed trim
    rw [front]
    apply List.rdropWhile_eq_self_iff.mpr
    intro present
    simp [last _ (List.getLast?_eq_some_getLast present)]

theorem trim_trimmed (s : Text) : Trimmed (trim s) := by
  rw [trimmed_iff]
  refine ⟨fun c first => ?_, fun c last => ?_⟩
  · have kept : trim s <+: trimStart s := List.rdropWhile_prefix _ _
    have head : (trimStart s).head? = some c := by
      obtain ⟨rest, whole⟩ := kept
      rw [← whole]
      simp [List.head?_append, first]
    have present : trimStart s ≠ [] := by intro empty; simp [empty] at head
    have value : (trimStart s).head present = c := by simpa [List.head?_eq_some_head present] using head
    rw [← value]
    exact List.head_dropWhile_not isWhitespace present
  · have present : trim s ≠ [] := by intro empty; simp [empty] at last
    have value : (trim s).getLast present = c := by simpa [List.getLast?_eq_some_getLast present] using last
    rw [← value, ← Bool.not_eq_true]
    exact List.rdropWhile_last_not isWhitespace (trimStart s) present

@[simp] theorem trim_trim (s : Text) : trim (trim s) = trim s := trim_trimmed s

theorem trim_inside (s : Text) : trim s <:+: s :=
  (List.rdropWhile_prefix isWhitespace (trimStart s)).isInfix.trans (List.dropWhile_suffix isWhitespace).isInfix

/-- Trimming takes blanks off at both ends. -/
theorem exists_trim (s : Text) : ∃ before after, s = before ++ trim s ++ after ∧ Blank before ∧ Blank after := by
  have start : s.takeWhile isWhitespace ++ trimStart s = s := List.takeWhile_append_dropWhile
  have finish : trim s ++ ((trimStart s).reverse.takeWhile isWhitespace).reverse = trimStart s := by
    rw [trim, trimEnd, List.rdropWhile, ← List.reverse_append, List.takeWhile_append_dropWhile, List.reverse_reverse]
  refine ⟨_, _, by rw [List.append_assoc, finish, start], ?_, ?_⟩
  · intro c member
    exact List.mem_takeWhile_imp member
  · intro c member
    exact List.mem_takeWhile_imp (List.mem_reverse.mp member)

theorem mem_of_mem_trim {c : Char} {s : Text} (member : c ∈ trim s) : c ∈ s := (trim_inside s).subset member

theorem trim_eq_nil_iff (s : Text) : trim s = [] ↔ Blank s := by
  constructor
  · intro empty c member
    have front : trimStart s = [] := by
      by_contra present
      have blank := List.rdropWhile_eq_nil_iff.mp empty _ (List.head_mem present)
      have visible := List.head_dropWhile_not isWhitespace present
      exact absurd (blank.symm.trans visible) (by simp)
    exact List.dropWhile_eq_nil_iff.mp front c member
  · intro blank
    have front : trimStart s = [] := List.dropWhile_eq_nil_iff.mpr blank
    simp [trim, front, trimEnd]

@[simp] theorem trimmed_nil : Trimmed [] := rfl

theorem Trimmed.append_cons {a b : Text} {c : Char} (first : Trimmed a) (last : Trimmed b)
    (visible : isWhitespace c = false) : Trimmed (a ++ c :: b) := by
  rw [trimmed_iff] at first last ⊢
  refine ⟨fun d head => ?_, fun d tail => ?_⟩
  · cases a with
    | nil => obtain rfl : c = d := by simpa using head
             exact visible
    | cons x xs => exact first.1 d (by simpa using head)
  · cases b with
    | nil => obtain rfl : c = d := by simpa using tail
             exact visible
    | cons x xs =>
      apply last.2 d
      simpa [List.getLast?_append, List.getLast?_cons_cons] using tail

theorem mem_intercalate_of_mem {sep c : Char} {parts : List Text} {part : Text} (inside : part ∈ parts)
    (member : c ∈ part) : c ∈ [sep].intercalate parts := by
  induction parts with
  | nil => cases inside
  | cons first rest ih =>
    cases rest with
    | nil =>
      obtain rfl : part = first := by simpa using inside
      simpa using member
    | cons next rest =>
      rw [List.intercalate_cons_cons, List.append_assoc, List.mem_append]
      rcases List.mem_cons.mp inside with rfl | later
      · exact Or.inl member
      · exact Or.inr (List.mem_append.mpr (Or.inr (ih later)))

theorem mem_of_mem_intercalate {sep c : Char} {parts : List Text} (member : c ∈ [sep].intercalate parts) :
    c = sep ∨ ∃ part ∈ parts, c ∈ part := by
  induction parts with
  | nil => cases member
  | cons first rest ih =>
    cases rest with
    | nil => exact Or.inr ⟨first, by simp, by simpa using member⟩
    | cons next rest =>
      rw [List.intercalate_cons_cons, List.append_assoc, List.mem_append, List.mem_append] at member
      rcases member with here | here | here
      · exact Or.inr ⟨first, by simp, here⟩
      · exact Or.inl (by simpa using here)
      · rcases ih here with same | ⟨part, inside, found⟩
        · exact Or.inl same
        · exact Or.inr ⟨part, by simp [inside], found⟩

theorem mem_of_mem_splitOn {sep c : Char} {s part : Text} (inside : part ∈ s.splitOn sep)
    (member : c ∈ part) : c ∈ s := by
  have joined : [sep].intercalate (s.splitOn sep) = s := List.intercalate_splitOn sep
  rw [← joined]
  exact mem_intercalate_of_mem inside member

theorem sep_not_mem_of_mem_splitOn {sep : Char} {s part : Text} (inside : part ∈ s.splitOn sep) : sep ∉ part := by
  induction s generalizing part with
  | nil =>
    obtain rfl : part = [] := by simpa using inside
    exact List.not_mem_nil
  | cons c rest ih =>
    rw [List.splitOn_cons_eq_if_modifyHead] at inside
    split at inside
    next same =>
      rcases List.mem_cons.mp inside with rfl | later
      · exact List.not_mem_nil
      · exact ih later
    next different =>
      cases pieces : rest.splitOn sep with
      | nil => exact absurd pieces (List.splitOn_ne_nil sep rest)
      | cons first others =>
        rw [pieces, List.modifyHead_cons] at inside
        rcases List.mem_cons.mp inside with rfl | later
        · have absent : sep ∉ first := ih (by simp [pieces])
          simp only [List.mem_cons, not_or]
          refine ⟨?_, absent⟩
          rintro rfl
          simp at different
        · exact ih (by simp [pieces, later])

theorem length_splitOn (sep : Char) (s : Text) : (s.splitOn sep).length = s.count sep + 1 := by
  induction s with
  | nil => rfl
  | cons c rest ih =>
    rw [List.splitOn_cons_eq_if_modifyHead, List.count_cons]
    split <;> simp_all

theorem splitOnce_eq_none_iff {sep : Char} {s : Text} : splitOnce sep s = none ↔ sep ∉ s := by
  unfold splitOnce
  split
  next all =>
    simp only [true_iff]
    intro member
    simpa using List.dropWhile_eq_nil_iff.mp all sep member
  next head rest found =>
    simp only [reduceCtorEq, false_iff, not_not]
    have present : s.dropWhile (· != sep) ≠ [] := by simp [found]
    have same := List.head_dropWhile_not (· != sep) present
    simp only [found, List.head_cons, bne_eq_false_iff_eq] at same
    subst head
    exact (List.dropWhile_suffix _).subset (found ▸ List.mem_cons_self)

theorem splitOnce_append {sep : Char} {k : Text} (absent : sep ∉ k) (v : Text) :
    splitOnce sep (k ++ sep :: v) = some (k, v) := by
  have before : ∀ c ∈ k, (c != sep) = true := by
    intro c member
    have : c ≠ sep := by rintro rfl; exact absent member
    simpa using this
  unfold splitOnce
  rw [List.dropWhile_append_of_pos before, List.takeWhile_append_of_pos before]
  simp

theorem splitOnce_eq_some_iff {sep : Char} {s k v : Text} :
    splitOnce sep s = some (k, v) ↔ sep ∉ k ∧ s = k ++ sep :: v := by
  constructor
  · intro found
    have member : sep ∈ s := by
      by_contra absent
      rw [splitOnce_eq_none_iff.mpr absent] at found
      cases found
    obtain ⟨first, rest, rfl, absent⟩ := List.eq_append_cons_of_mem member
    rw [splitOnce_append absent] at found
    cases found
    exact ⟨absent, rfl⟩
  · rintro ⟨absent, rfl⟩
    exact splitOnce_append absent v

/-- Trimming at the end goes no further back than a character it keeps. -/
theorem trimEndMatches_append_cons {p : Char → Bool} {c : Char} (kept : p c = false) (a b : Text) :
    trimEndMatches p (a ++ c :: b) = a ++ c :: trimEndMatches p b := by
  simp only [trimEndMatches, List.rdropWhile, List.reverse_append, List.reverse_cons, List.append_assoc,
    List.cons_append, List.nil_append, List.dropWhile_append]
  split
  next empty =>
    rw [List.isEmpty_iff] at empty
    simp [kept, empty]
  next => simp

/-- Last parts without the separator are split off again, whatever stands before them. -/
theorem splitOn_intercalate_append {sep : Char} (front : List Text) {parts : List Text}
    (absent : ∀ part ∈ parts, sep ∉ part) (present : parts ≠ []) :
    ∃ earlier, ([sep].intercalate (front ++ parts)).splitOn sep = earlier ++ parts := by
  induction front with
  | nil => exact ⟨[], List.splitOn_intercalate _ absent present⟩
  | cons part front ih =>
    obtain ⟨earlier, split⟩ := ih
    obtain ⟨next, rest, more⟩ := List.exists_cons_of_ne_nil (List.append_ne_nil_of_right_ne_nil front present)
    refine ⟨part.splitOn sep ++ earlier, ?_⟩
    rw [List.cons_append, more, List.intercalate_cons_cons, List.append_assoc, List.singleton_append,
      List.splitOn_append_cons_self, ← more, split, List.append_assoc]

/-- Splitting what was joined splits each part. -/
theorem splitOn_intercalate_flatMap {sep : Char} {parts : List Text} (present : parts ≠ []) :
    ([sep].intercalate parts).splitOn sep = parts.flatMap (·.splitOn sep) := by
  induction parts with
  | nil => exact absurd rfl present
  | cons part parts ih =>
    cases parts with
    | nil => simp
    | cons next rest =>
      rw [List.intercalate_cons_cons, List.append_assoc, List.singleton_append, List.splitOn_append_cons_self, ih (by simp)]
      rfl

/-- Text behind joined parts belongs to the last of them. -/
theorem intercalate_snoc_append (sep : Char) (cells : List Text) (last more : Text) :
    [sep].intercalate (cells ++ [last]) ++ more = [sep].intercalate (cells ++ [last ++ more]) := by
  induction cells with
  | nil => simp
  | cons cell cells ih =>
    obtain ⟨next, rest, split⟩ : ∃ next rest, cells ++ [last] = next :: rest := List.exists_cons_of_ne_nil (by simp)
    obtain ⟨next', rest', split'⟩ : ∃ next rest, cells ++ [last ++ more] = next :: rest := List.exists_cons_of_ne_nil (by simp)
    rw [List.cons_append, List.cons_append, split, split', List.intercalate_cons_cons, List.intercalate_cons_cons, ← split,
      ← split', ← ih]
    simp only [List.append_assoc]

theorem splitOn_of_absent {sep : Char} {s : Text} (absent : sep ∉ s) : s.splitOn sep = [s] := by
  have joined : ([sep].intercalate [s]).splitOn sep = [s] :=
    List.splitOn_intercalate sep (by simpa using absent) (by simp)
  simpa using joined

theorem head_splitOn (sep : Char) (s : Text) : (s.splitOn sep).head? = some (s.takeWhile (· != sep)) := by
  induction s with
  | nil => rfl
  | cons c rest ih =>
    obtain ⟨first, others, parts⟩ := List.exists_cons_of_ne_nil (List.splitOn_ne_nil sep rest)
    rw [parts, List.head?_cons, Option.some_inj] at ih
    rw [List.splitOn_cons_eq_if_modifyHead, parts, List.takeWhile_cons, ← ih]
    by_cases same : c = sep
    · simp [same]
    · simp [same]

/-- Text without the separator stays before the first part. -/
theorem splitOn_append_of_absent {sep : Char} {front : Text} (absent : sep ∉ front) (s : Text) :
    (front ++ s).splitOn sep = (front ++ (s.splitOn sep).headD []) :: (s.splitOn sep).tail := by
  induction front with
  | nil =>
    obtain ⟨first, others, parts⟩ := List.exists_cons_of_ne_nil (List.splitOn_ne_nil sep s)
    simp [parts]
  | cons c front ih =>
    rw [List.mem_cons, not_or] at absent
    have other : (c == sep) = false := beq_false_of_ne (Ne.symm absent.1)
    rw [List.cons_append, List.splitOn_cons_eq_if_modifyHead, ih absent.2]
    simp [other]

/-- The first part ends where the separator first stands, or with the text. -/
theorem head_splitText (sep s : Text) :
    ∃ first others, splitText sep s = first :: others ∧ (first = s ∨ ∃ rest, s = first ++ (sep ++ rest)) := by
  induction s with
  | nil => exact ⟨[], [], rfl, Or.inl rfl⟩
  | cons c rest ih =>
    obtain ⟨first, others, parts, stops⟩ := ih
    rw [splitText] at parts
    rw [splitText, splitTextFrom]
    split
    next found =>
      obtain ⟨behind, same⟩ := List.isPrefixOf_iff_prefix.mp found
      exact ⟨[], _, rfl, Or.inr ⟨behind, same.symm⟩⟩
    next =>
      refine ⟨c :: first, others, by rw [parts, List.modifyHead_cons], ?_⟩
      rcases stops with rfl | ⟨behind, rfl⟩
      · exact Or.inl rfl
      · exact Or.inr ⟨behind, rfl⟩

private theorem toLower_eq_iff {c d : Char} (early : d.toNat < 65) : c.toLower = d ↔ c = d := by
  unfold Char.toLower
  split
  next upper =>
    have low : 65 ≤ c.toNat := UInt32.le_iff_toNat_le.mp upper.1
    have top : c.toNat ≤ 90 := UInt32.le_iff_toNat_le.mp upper.2
    have sum : (c.val + ('a'.val - 'A'.val)).toNat = c.toNat + 32 := by
      rw [UInt32.toNat_add]
      change (c.toNat + 32) % 2 ^ 32 = c.toNat + 32
      omega
    constructor
    · rintro rfl
      have : (c.val + ('a'.val - 'A'.val)).toNat < 65 := early
      omega
    · rintro rfl
      omega
  next => rfl

/-- Characters before the letters have no case. -/
theorem mem_lowercase_iff {d : Char} (early : d.toNat < 65) (v : Text) : d ∈ toAsciiLowercase v ↔ d ∈ v := by
  simp only [toAsciiLowercase, List.mem_map, toLower_eq_iff early, exists_eq_right]

theorem lowercase_digit {d : Char} (digit : d.isDigit = true) (v : Text) : toAsciiLowercase v = [d] ↔ v = [d] := by
  have early : d.toNat < 65 := Nat.lt_of_le_of_lt ((isDigit_iff d).mp digit).2 (by decide)
  cases v with
  | nil => simp [toAsciiLowercase]
  | cons c v => simp [toAsciiLowercase, toLower_eq_iff early]

end Text

end HawkTui.Lib
