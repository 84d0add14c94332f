import HawkTui.Hawk.Doctor
import HawkTui.Lib.Runs

/-! The search for a declared variable in a script. The loop over the bytes of a
line stays inside them and ends, whatever it looks for; and for a name it finds
the lines that have it as a word of its own. -/

namespace HawkTui.Proofs.WordSearch
open Lib Text Utf8 Runs Doctor

/-- A line that is no comment has the name as one of its words. -/
def Mentions (hay needle : Text) : Prop :=
  ∃ line ∈ lines hay, ¬ ['#'] <+: trim line ∧ encode needle ∈ runs isIdentChar (encode line)

variable {n front rest : Bytes}

theorem slice_append (fits : n.length ≤ rest.length) :
    slice (front ++ rest) front.length (front.length + n.length) = .ok (rest.take n.length) := by
  have inside : front.length ≤ front.length + n.length ∧ front.length + n.length ≤ (front ++ rest).length := by
    rw [List.length_append]
    omega
  rw [slice, if_pos inside, List.drop_take, List.drop_left, Nat.add_sub_cancel_left]

theorem leftOk_append (front rest : Bytes) :
    leftOk (front ++ rest) front.length = .ok (!front.getLast?.any isIdentChar) := by
  rcases List.eq_nil_or_concat front with rfl | ⟨others, b, rfl⟩
  · rfl
  · have found : (others.concat b ++ rest)[(others.concat b).length - 1]? = some b := by simp
    rw [leftOk, if_neg (by simp), byteAt, found]
    simp [Except.map]

theorem rightOk_append (fits : n.length ≤ rest.length) :
    rightOk (front ++ rest) (front.length + n.length) = .ok (!(rest.drop n.length).head?.any isIdentChar) := by
  rw [rightOk, List.length_append, List.head?_drop]
  split
  next ends => rw [List.getElem?_eq_none (by omega), Option.any_none, Bool.not_false]
  next more =>
    have found : (front ++ rest)[front.length + n.length]? = rest[n.length]? := by
      rw [List.getElem?_append_right (by omega), Nat.add_sub_cancel_left]
    have later : n.length < rest.length := by omega
    rw [byteAt, found, List.getElem?_eq_getElem later]
    rfl

/-- One turn of the loop, with all its accesses inside the line. -/
theorem wordLoop_turn (fits : n.length ≤ rest.length) (fuel : Nat) :
    wordLoop (front ++ rest) n (fuel + 1) front.length =
      if n.isPrefixOf rest && !front.getLast?.any isIdentChar && !(rest.drop n.length).head?.any isIdentChar then .ok true
      else wordLoop (front ++ rest) n fuel (front.length + 1) := by
  have inside : front.length + n.length ≤ (front ++ rest).length := by
    rw [List.length_append]
    omega
  have window : rest.take n.length = n ↔ n.isPrefixOf rest = true := by
    rw [List.isPrefixOf_iff_prefix, List.prefix_iff_eq_take, eq_comm]
  rw [wordLoop, if_pos inside, slice_append fits]
  simp only [bind, Except.bind, leftOk_append, rightOk_append fits, window]
  cases n.isPrefixOf rest with
  | false => simp
  | true => simp [pure, Except.pure]

theorem findWord_short {before : Option UInt8} (short : rest.length < n.length) : findWord n before rest = false := by
  induction rest generalizing before with
  | nil => rfl
  | cons b rest ih =>
    have missing : n.isPrefixOf (b :: rest) = false := by
      rw [Bool.eq_false_iff, ne_eq, List.isPrefixOf_iff_prefix]
      exact fun found => absurd found.length_le (by omega)
    rw [findWord, missing, Bool.false_and, Bool.false_and, if_neg (by decide)]
    exact ih (by rw [List.length_cons] at short; omega)

/-- The loop does not leave the line, takes at most one turn for each byte and one
more, and answers as the scan does. -/
theorem wordLoop_eq (present : n ≠ []) (front rest : Bytes) {fuel : Nat} (enough : rest.length < fuel) :
    wordLoop (front ++ rest) n fuel front.length = .ok (findWord n front.getLast? rest) := by
  induction rest generalizing front fuel with
  | nil =>
    obtain ⟨turns, rfl⟩ := Nat.exists_eq_add_one_of_ne_zero (Nat.ne_zero_of_lt enough)
    have size := List.length_pos_iff.mpr present
    rw [wordLoop, if_neg (by rw [List.append_nil]; omega)]
    rfl
  | cons b rest ih =>
    obtain ⟨turns, rfl⟩ := Nat.exists_eq_add_one_of_ne_zero (Nat.ne_zero_of_lt enough)
    by_cases fits : n.length ≤ (b :: rest).length
    · have next : wordLoop (front ++ b :: rest) n turns (front.length + 1) = .ok (findWord n (some b) rest) := by
        have later := ih (front ++ [b]) (Nat.lt_of_succ_lt_succ enough)
        simpa using later
      rw [wordLoop_turn fits, next, findWord]
      split <;> rfl
    · rw [wordLoop, if_neg (by rw [List.length_append]; omega), findWord_short (by omega)]
      rfl

theorem wordLines_eq (present : n ≠ []) {fuel : Nat} {texts : List Text}
    (enough : ∀ line ∈ texts, (encode (trim line)).length < fuel) :
    wordLines fuel n texts =
      .ok (texts.any fun line => !isComment (trim line) && findWord n none (encode (trim line))) := by
  induction texts with
  | nil => rfl
  | cons line rest ih =>
    obtain ⟨turns, later⟩ := List.forall_mem_cons.mp enough
    rw [List.any_cons, wordLines]
    have loop : wordLoop (encode (trim line)) n fuel 0 = .ok (findWord n none (encode (trim line))) :=
      wordLoop_eq present [] _ turns
    simp only [ih later, loop, bind, Except.bind]
    cases isComment (trim line) with
    | true => simp
    | false =>
      by_cases short : (encode (trim line)).length < n.length
      · simp [short, findWord_short short]
      · cases found : findWord n none (encode (trim line)) <;> simp [short, pure, Except.pure]

theorem runContainsWord_eq (hay needle : Text) {fuel : Nat}
    (enough : ∀ line ∈ lines hay, (encode (trim line)).length < fuel) :
    runContainsWord fuel hay needle = .ok (containsWord hay needle) := by
  unfold runContainsWord containsWord
  cases needle with
  | nil => rfl
  | cons c rest =>
    rw [wordLines_eq (encode_ne_nil (List.cons_ne_nil c rest)) enough]
    rfl

/-- The scan finds the needle where no name goes on before or behind it. -/
theorem findWord_iff (present : n ≠ []) (before : Option UInt8) (bytes : Bytes) :
    findWord n before bytes = true ↔ ∃ front after, bytes = front ++ n ++ after ∧
      (before.toList ++ front).getLast?.any isIdentChar = false ∧ after.head?.any isIdentChar = false := by
  induction bytes generalizing before with
  | nil => simp [findWord, present]
  | cons c rest ih =>
    have last : (before.toList ++ []).getLast? = before := by cases before <;> rfl
    have further : ∀ front, (before.toList ++ c :: front).getLast? = ((some c).toList ++ front).getLast? :=
      fun front => List.getLast?_append_of_ne_nil _ (List.cons_ne_nil c front)
    rw [findWord]
    split
    next here =>
      simp only [Bool.and_eq_true, Bool.not_eq_true', List.isPrefixOf_iff_prefix] at here
      obtain ⟨⟨⟨after, whole⟩, left⟩, right⟩ := here
      rw [← whole, List.drop_left] at right
      exact iff_of_true rfl ⟨[], after, whole.symm, by rw [last, left], right⟩
    next elsewhere =>
      rw [ih (some c)]
      constructor
      · rintro ⟨front, after, rfl, left, right⟩
        exact ⟨c :: front, after, rfl, by rw [further, left], right⟩
      · rintro ⟨front, after, whole, left, right⟩
        cases front with
        | nil =>
          refine absurd ?_ elsewhere
          rw [whole, List.nil_append, List.drop_left, right]
          rw [last] at left
          simp [left]
        | cons d front =>
          obtain ⟨rfl, tail⟩ := List.cons.inj whole
          exact ⟨front, after, tail, by rw [← further, left], right⟩

theorem findWord_iff_mem_runs (named : ∀ b ∈ n, isIdentChar b = true) (present : n ≠ []) (bytes : Bytes) :
    findWord n none bytes = true ↔ n ∈ runs isIdentChar bytes := by
  rw [findWord_iff present, mem_runs_iff, and_iff_right present]
  simp only [Option.any_eq_false]
  constructor
  · rintro ⟨front, after, whole, left, right⟩
    exact ⟨front, after, whole, named, left, right⟩
  · rintro ⟨front, after, whole, stands⟩
    exact ⟨front, after, whole, stands.left, stands.right⟩

/-- A text's bytes are those of a name where its characters are. -/
theorem exists_letter {s : Text} {b : UInt8} (member : b ∈ encode s) : ∃ c ∈ s, isIdentChar b = isNameChar c := by
  obtain ⟨c, inside, byte⟩ := List.mem_flatMap.mp member
  refine ⟨c, inside, ?_⟩
  rw [Bool.eq_iff_iff, isNameChar_iff]
  simp only [isIdentChar, Bool.or_eq_true, Bool.and_eq_true, decide_eq_true_eq, beq_iff_eq]
  have bytes := mem_encodeChar byte
  omega

theorem isIdentChar_of_name {needle : Text} (named : ∀ c ∈ needle, isNameChar c = true) :
    ∀ b ∈ encode needle, isIdentChar b = true := by
  intro b member
  obtain ⟨c, inside, same⟩ := exists_letter member
  rw [same, named c inside]

theorem isIdentChar_of_blank {s : Text} (blank : Blank s) : ∀ b ∈ encode s, isIdentChar b = false := by
  intro b member
  obtain ⟨c, inside, same⟩ := exists_letter member
  rw [same, Bool.eq_false_iff, isNameChar, ne_eq, Bool.or_eq_true_iff]
  rintro (name | line)
  · exact absurd ((blank c inside).symm.trans (visible_of_isAlphanum name)) (by decide)
  · obtain rfl := beq_iff_eq.mp line
    exact absurd (blank _ inside) (by decide)

/-- Trimming a line takes no word away from it. -/
theorem runs_trim (line : Text) : runs isIdentChar (encode (trim line)) = runs isIdentChar (encode line) := by
  obtain ⟨before, after, whole, front, back⟩ := exists_trim line
  conv_rhs => rw [whole, encode_append, encode_append]
  rw [runs_of_append_outside (isIdentChar_of_blank back), runs_append_of_outside (isIdentChar_of_blank front)]

theorem containsWord_iff {hay needle : Text} (present : needle ≠ []) (named : ∀ c ∈ needle, isNameChar c = true) :
    containsWord hay needle = true ↔ Mentions hay needle := by
  have word : ∀ line, findWord (encode needle) none (encode (trim line)) = true ↔
      encode needle ∈ runs isIdentChar (encode line) := by
    intro line
    rw [findWord_iff_mem_runs (isIdentChar_of_name named) (encode_ne_nil present), runs_trim]
  have shown : (!needle.isEmpty) = true := by simpa using present
  simp only [containsWord, Mentions, shown, Bool.true_and, List.any_eq_true, Bool.and_eq_true, word, isComment,
    startsWith, Bool.not_eq_true', Bool.eq_false_iff, ne_eq, List.isPrefixOf_iff_prefix]

/-- Whatever it looks for, the search answers without leaving a line; a name is found
exactly where it is a whole word. -/
theorem contains_word_whole (hay needle : Text) :
    (∀ fuel, (∀ line ∈ lines hay, (encode (trim line)).length < fuel) →
      runContainsWord fuel hay needle = .ok (containsWord hay needle)) ∧
    (needle ≠ [] → (∀ c ∈ needle, isNameChar c = true) → (containsWord hay needle = true ↔ Mentions hay needle)) :=
  ⟨fun _ enough => runContainsWord_eq hay needle enough, containsWord_iff⟩

/-- A script with the name in a comment, in a longer name, and beside letters
outside ASCII. -/
def script : Text := "# window_s\n  windows = window_size\nprint é→window_s/2\n".toList

theorem window_found : runContainsWord 40 script "window_s".toList = .ok true ∧
    Mentions script "window_s".toList ∧ ¬ Mentions script "window".toList := by
  obtain ⟨answers, words⟩ := contains_word_whole script "window_s".toList
  have found : containsWord script "window_s".toList = true := by decide
  have short := (contains_word_whole script "window".toList).2 (by decide) (List.all_eq_true.mp (by decide))
  refine ⟨?_, (words (by decide) (List.all_eq_true.mp (by decide))).mp found, ?_⟩
  · rw [answers 40 (by decide), found]
  · rw [← short]
    decide

end HawkTui.Proofs.WordSearch
