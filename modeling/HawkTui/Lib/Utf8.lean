import HawkTui.Lib.Text
import Mathlib.Algebra.GroupWithZero.Nat

/-! Text as UTF-8 bytes: length and truncation in bytes, and reading a byte
stream line by line. A newline byte only ever stands for a newline. -/

namespace HawkTui.Lib

abbrev Bytes := List UInt8

namespace Utf8
open Text

def encode (s : Text) : Bytes := s.flatMap String.utf8EncodeChar

def decode (bytes : Bytes) : Option Text := bytes.toByteArray.utf8Decode?.map Array.toList

def byteLen (s : Text) : Nat := (s.map Char.utf8Size).sum

/-- The text made of the first `n` bytes, when these end between two characters. -/
def takeBytes : Text → Nat → Option Text
  | _, 0 => some []
  | [], _ + 1 => none
  | c :: rest, n + 1 =>
    if c.utf8Size ≤ n + 1 then (takeBytes rest (n + 1 - c.utf8Size)).map (c :: ·) else none

/-- `String::truncate`, which panics inside a character. -/
def truncate (s : Text) (n : Nat) : Option Text := if n ≤ byteLen s then takeBytes s n else some s

/-- What `BufRead::read_line` gives for each line of the stream, `none` for invalid UTF-8. -/
def readLines (bytes : Bytes) : List (Option Text) := (splitInclusive 10 bytes).map decode

/-- `BufRead::lines`: the same lines without their terminators. -/
def bufLines (bytes : Bytes) : List (Option Text) := (readLines bytes).map (·.map chomp)

def IsCharBoundary (s : Text) (n : Nat) : Prop := ∃ front back, s = front ++ back ∧ byteLen front = n

@[simp] theorem byteLen_nil : byteLen [] = 0 := rfl

@[simp] theorem byteLen_cons (c : Char) (s : Text) : byteLen (c :: s) = c.utf8Size + byteLen s := rfl

@[simp] theorem byteLen_append (a b : Text) : byteLen (a ++ b) = byteLen a + byteLen b := by
  simp [byteLen]

theorem takeBytes_eq_some_iff (s : Text) (n : Nat) (front : Text) :
    takeBytes s n = some front ↔ ∃ back, s = front ++ back ∧ byteLen front = n := by
  induction s generalizing n front with
  | nil =>
    cases n <;> simp only [takeBytes, Option.some.injEq, reduceCtorEq, false_iff]
    · exact ⟨by rintro rfl; exact ⟨[], rfl, rfl⟩, fun ⟨back, whole, _⟩ => (List.append_eq_nil_iff.mp whole.symm).1.symm⟩
    · rintro ⟨back, whole, length⟩
      simp [(List.append_eq_nil_iff.mp whole.symm).1] at length
  | cons c rest ih =>
    have size := Char.utf8Size_pos c
    cases n with
    | zero =>
      simp only [takeBytes, Option.some.injEq]
      constructor
      · rintro rfl
        exact ⟨_, rfl, rfl⟩
      · rintro ⟨back, whole, empty⟩
        cases front with
        | nil => rfl
        | cons d front =>
          have := Char.utf8Size_pos d
          simp at empty
          omega
    | succ n =>
      simp only [takeBytes]
      split
      next fits =>
        simp only [Option.map_eq_some_iff, ih]
        constructor
        · rintro ⟨front, ⟨back, rfl, exact⟩, rfl⟩
          exact ⟨back, rfl, by simp; omega⟩
        · rintro ⟨back, whole, exact⟩
          cases front with
          | nil => simp at exact
          | cons d front =>
            obtain ⟨rfl, rfl⟩ : c = d ∧ rest = front ++ back := by simpa using whole
            exact ⟨front, ⟨back, rfl, by simp at exact; omega⟩, rfl⟩
      next large =>
        simp only [reduceCtorEq, false_iff]
        rintro ⟨back, whole, exact⟩
        cases front with
        | nil => simp at exact
        | cons d front =>
          obtain ⟨rfl, rfl⟩ : c = d ∧ rest = front ++ back := by simpa using whole
          simp at exact
          omega

theorem isCharBoundary_iff (s : Text) (n : Nat) : IsCharBoundary s n ↔ (takeBytes s n).isSome = true := by
  rw [Option.isSome_iff_exists]
  simp only [takeBytes_eq_some_iff]
  exact Iff.rfl

instance (s : Text) (n : Nat) : Decidable (IsCharBoundary s n) := decidable_of_iff _ (isCharBoundary_iff s n).symm

/-- Truncation is safe exactly between two characters or past the end. -/
theorem truncate_isSome_iff (s : Text) (n : Nat) :
    (truncate s n).isSome = true ↔ byteLen s < n ∨ IsCharBoundary s n := by
  unfold truncate
  split
  next inside => rw [isCharBoundary_iff]; simp [Nat.not_lt.mpr inside]
  next outside => simp [Nat.not_le.mp outside]

theorem truncate_spec {s front : Text} {n : Nat} (result : truncate s n = some front) (long : n ≤ byteLen s) :
    front <+: s ∧ byteLen front = n := by
  rw [truncate, if_pos long, takeBytes_eq_some_iff] at result
  obtain ⟨back, rfl, length⟩ := result
  exact ⟨List.prefix_append front back, length⟩

@[simp] theorem encode_nil : encode [] = [] := rfl

@[simp] theorem encode_append (a b : Text) : encode (a ++ b) = encode a ++ encode b := by
  simp [encode]

theorem encode_ne_nil {s : Text} (present : s ≠ []) : encode s ≠ [] := by
  obtain ⟨c, rest, rfl⟩ := List.exists_cons_of_ne_nil present
  simp [encode]

theorem encode_lines (bodies : List Text) :
    encode (bodies.map (· ++ ['\n'])).flatten = (bodies.map fun body => encode (body ++ ['\n'])).flatten := by
  induction bodies with
  | nil => rfl
  | cons body bodies ih => rw [List.map_cons, List.flatten_cons, encode_append, ih, List.map_cons, List.flatten_cons]

@[simp] theorem decode_encode (s : Text) : decode (encode s) = some s := by
  have bytes : (encode s).toByteArray = s.utf8Encode := rfl
  rw [decode, bytes, List.utf8Decode?_utf8Encode]
  rfl

/-- In a multi-byte character every byte has its high bit set. -/
theorem mem_encodeChar {c : Char} {b : UInt8} (member : b ∈ String.utf8EncodeChar c) :
    c.toNat < 128 ∧ b.toNat = c.toNat ∨ 128 ≤ c.toNat ∧ 128 ≤ b.toNat := by
  have byte : ∀ n, n < 256 → b = UInt8.ofNat n → b.toNat = n := by
    rintro n small rfl
    simp [UInt8.toNat_ofNat', Nat.mod_eq_of_lt small]
  simp only [String.utf8EncodeChar] at member
  split at member
  next ascii =>
    have value : b.toNat = c.toNat := byte c.val.toNat (by omega) (List.mem_singleton.mp member)
    exact Or.inl ⟨Nat.lt_succ_of_le ascii, value⟩
  next wide =>
    have large : ∀ n m, n < 256 - m → 128 ≤ m → b = UInt8.ofNat (n + m) → 128 ≤ b.toNat := by
      intro n m small big same
      have value := byte (n + m) (by omega) same
      omega
    refine Or.inr ⟨Nat.lt_of_not_le wide, ?_⟩
    split at member
    · simp only [List.mem_cons, List.not_mem_nil, or_false] at member
      rcases member with same | same
      · exact large _ _ (by omega) (by omega) same
      · exact large _ _ (by omega) (by omega) same
    · split at member
      · simp only [List.mem_cons, List.not_mem_nil, or_false] at member
        rcases member with same | same | same
        · exact large _ _ (by omega) (by omega) same
        · exact large _ _ (by omega) (by omega) same
        · exact large _ _ (by omega) (by omega) same
      · simp only [List.mem_cons, List.not_mem_nil, or_false] at member
        rcases member with same | same | same | same
        · exact large _ _ (by omega) (by omega) same
        · exact large _ _ (by omega) (by omega) same
        · exact large _ _ (by omega) (by omega) same
        · exact large _ _ (by omega) (by omega) same

private theorem newline_mem_encodeChar {c : Char} (member : (10 : UInt8) ∈ String.utf8EncodeChar c) : c = '\n' := by
  rcases mem_encodeChar member with ⟨-, value⟩ | ⟨-, large⟩
  · apply Char.ext
    apply UInt32.toNat_inj.mp
    exact value.symm
  · exact absurd large (by decide)

theorem newline_not_mem_encode {s : Text} (absent : '\n' ∉ s) : (10 : UInt8) ∉ encode s := by
  intro member
  obtain ⟨c, inside, byte⟩ := List.mem_flatMap.mp member
  exact absent (newline_mem_encodeChar byte ▸ inside)

theorem encode_of_decode {bytes : Bytes} {s : Text} (decoded : decode bytes = some s) : encode s = bytes := by
  obtain ⟨chars, found, rfl⟩ := Option.map_eq_some_iff.mp decoded
  have whole := ByteArray.utf8Encode_get_utf8Decode? (b := bytes.toByteArray) (h := by simp [found])
  simp only [found, Option.get_some] at whole
  have same : (encode chars.toList).toByteArray = bytes.toByteArray := whole
  simpa using congrArg (fun array => array.data.toList) same

theorem splitInclusive_encode (s : Text) : splitInclusive 10 (encode s) = (splitInclusive '\n' s).map encode := by
  induction s with
  | nil => rfl
  | cons c s ih =>
    have shape : encode (c :: s) = encode [c] ++ encode s := encode_append [c] s
    rw [shape]
    by_cases newline : c = '\n'
    · subst newline
      change splitInclusive 10 (10 :: encode s) = _
      simp only [splitInclusive, ↓reduceIte, ih, List.map_cons]
      rfl
    · have absent : (10 : UInt8) ∉ encode [c] := newline_not_mem_encode (by simpa [eq_comm] using newline)
      have present : encode [c] ≠ [] := by
        simp [encode, String.utf8EncodeChar_ne_nil]
      rw [splitInclusive_append absent present, ih, splitInclusive, if_neg newline]
      cases splitInclusive '\n' s with
      | nil => rfl
      | cons piece pieces => simp only [List.map_cons, ← encode_append, List.singleton_append]

/-- A line that was read holds a newline at its end only. -/
theorem mem_readLines {bytes : Bytes} {line : Text} (member : some line ∈ readLines bytes) :
    ∃ front, '\n' ∉ front ∧ (line = front ∨ line = front ++ ['\n']) := by
  obtain ⟨piece, inside, decoded⟩ := List.mem_map.mp member
  by_cases newline : '\n' ∈ line
  · obtain ⟨before, after, rfl, first⟩ := List.eq_append_cons_of_mem newline
    have bytes_of : piece = encode before ++ 10 :: encode after := by
      rw [← encode_of_decode decoded, encode_append]
      rfl
    have nothing : encode after = [] := by
      obtain ⟨front, absent, rfl | rfl⟩ := mem_splitInclusive inside
      · exact absurd (by simp [bytes_of]) absent
      · -- Behind the piece's only newline stands nothing.
        rcases List.eq_nil_or_concat (encode after) with none | ⟨middle, last, some⟩
        · exact none
        · rw [some, List.concat_eq_append, ← List.cons_append, ← List.append_assoc] at bytes_of
          exact absurd (by simp [(List.append_inj' bytes_of rfl).1]) absent
    have empty : after = [] := by
      by_contra present
      exact encode_ne_nil present nothing
    exact ⟨before, first, Or.inr (by rw [empty])⟩
  · exact ⟨line, newline, Or.inl rfl⟩

theorem mem_bufLines {bytes : Bytes} {line : Text} (member : some line ∈ bufLines bytes) : '\n' ∉ line := by
  obtain ⟨read, inside, chomped⟩ := List.mem_map.mp member
  obtain ⟨whole, rfl, rfl⟩ := Option.map_eq_some_iff.mp chomped
  obtain ⟨front, absent, same | same⟩ := mem_readLines inside
  · have ends : front.getLast? ≠ some '\n' := fun last => absent (List.mem_of_getLast? last)
    rwa [same, chomp, if_neg ends]
  · rw [same]
    have shorter : chomp (front ++ ['\n']) <+: front := by
      simp only [chomp, List.getLast?_concat, ↓reduceIte, List.dropLast_concat]
      split
      · exact List.dropLast_prefix front
      · exact List.prefix_rfl
    exact fun here => absent (shorter.subset here)

theorem bufLines_text (s : Text) : bufLines (encode s) = (lines s).map some := by
  rw [bufLines, readLines, splitInclusive_encode, lines, List.map_map, List.map_map, List.map_map]
  apply List.map_congr_left
  intro piece _
  simp

/-- Newline-terminated lines are read back from their concatenated bytes. -/
theorem readLines_append (bodies : List Text) (absent : ∀ body ∈ bodies, '\n' ∉ body) (rest : Bytes) :
    readLines ((bodies.map fun body => encode (body ++ ['\n'])).flatten ++ rest) =
      (bodies.map fun body => some (body ++ ['\n'])) ++ readLines rest := by
  have shape : (bodies.map fun body => encode (body ++ ['\n'])) = (bodies.map encode).map (· ++ [10]) := by
    rw [List.map_map]
    apply List.map_congr_left
    intro body _
    rw [encode_append]
    rfl
  have bytes : ∀ line ∈ bodies.map encode, (10 : UInt8) ∉ line := by
    intro line member
    obtain ⟨body, inside, rfl⟩ := List.mem_map.mp member
    exact newline_not_mem_encode (absent body inside)
  rw [readLines, shape, splitInclusive_flatten_append _ bytes, ← shape, List.map_append, List.map_map]
  congr 1
  exact List.map_congr_left fun body _ => decode_encode _

theorem readLines_encode (bodies : List Text) (absent : ∀ body ∈ bodies, '\n' ∉ body) :
    readLines (bodies.map fun body => encode (body ++ ['\n'])).flatten =
      bodies.map fun body => some (body ++ ['\n']) := by
  simpa [readLines, splitInclusive] using readLines_append bodies absent []

theorem readLines_last {last : Text} (absent : '\n' ∉ last) (present : last ≠ []) :
    readLines (encode last) = [some last] := by
  have bytes : encode last ≠ [] := by
    intro empty
    have same := decode_encode last
    rw [empty, ← encode_nil, decode_encode] at same
    exact present (Option.some.inj same).symm
  rw [readLines, splitInclusive_of_absent (newline_not_mem_encode absent) bytes, List.map_singleton, decode_encode]

theorem bufLines_encode (bodies : List Text) (absent : ∀ body ∈ bodies, '\n' ∉ body) :
    bufLines (bodies.map fun body => encode (body ++ ['\n'])).flatten =
      bodies.map fun body => some (chomp (body ++ ['\n'])) := by
  rw [bufLines, readLines_encode bodies absent, List.map_map]
  rfl

theorem bufLines_append (bodies : List Text) (absent : ∀ body ∈ bodies, '\n' ∉ body) (rest : Bytes) :
    bufLines ((bodies.map fun body => encode (body ++ ['\n'])).flatten ++ rest) =
      (bodies.map fun body => some (chomp (body ++ ['\n']))) ++ bufLines rest := by
  rw [bufLines, readLines_append bodies absent, List.map_append, List.map_map]
  rfl

/-- Bytes that end at a newline are read apart from what follows them. -/
theorem bufLines_append_of_ends {front : Bytes} (ends : ∀ b, front.getLast? = some b → b = 10) (rest : Bytes) :
    bufLines (front ++ rest) = bufLines front ++ bufLines rest := by
  simp only [bufLines, readLines, splitInclusive_append_of_ends ends, List.map_append]

/-- Bytes without a newline are at most one line. -/
theorem bufLines_length {bytes : Bytes} (absent : 10 ∉ bytes) : (bufLines bytes).length ≤ 1 := by
  by_cases present : bytes = []
  · simp [present, bufLines, readLines, splitInclusive]
  · simp [bufLines, readLines, splitInclusive_of_absent absent present]

end Utf8

end HawkTui.Lib
