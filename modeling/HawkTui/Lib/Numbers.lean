import HawkTui.Lib.Text
import Mathlib.Data.Nat.Digits.Defs

/-! Decimal text of 64-bit signed integers: `to_string` and `parse::<i64>`. -/

namespace HawkTui.Lib.Numbers
open Text

def IsI64 (n : Int) : Prop := -2 ^ 63 ≤ n ∧ n < 2 ^ 63

instance (n : Int) : Decidable (IsI64 n) := inferInstanceAs (Decidable (_ ∧ _))

/-- `i64::to_string`. -/
def i64ToText (n : Int) : Text :=
  if n < 0 then '-' :: Nat.toDigits 10 n.natAbs else Nat.toDigits 10 n.natAbs

def parseDigits (digits : Text) : Option Nat :=
  if digits.isEmpty then none
  else digits.foldlM (fun n c => if c.isDigit then some (10 * n + (c.toNat - 48)) else none) 0

/-- `parse::<i64>`: an optional sign, at least one digit, and no overflow. -/
def parseI64 (s : Text) : Option Int :=
  let value : Option Int := match s with
    | '-' :: digits => (parseDigits digits).map fun n => -(n : Int)
    | '+' :: digits => (parseDigits digits).map fun n => (n : Int)
    | digits => (parseDigits digits).map fun n => (n : Int)
  value.filter fun n => IsI64 n

theorem mem_toDigits {b n : Nat} {c : Char} (base : 1 < b) (member : c ∈ Nat.toDigits b n) :
    ∃ d < b, c = Nat.digitChar d := by
  induction n using Nat.strongRecOn with
  | ind n ih =>
    rw [Nat.toDigits_eq_if base] at member
    split at member
    next small => exact ⟨n, small, by simpa using member⟩
    next large =>
      rcases List.mem_append.mp member with higher | last
      · exact ih (n / b) (Nat.div_lt_self (by omega) base) higher
      · exact ⟨n % b, Nat.mod_lt _ (by omega), by simpa using last⟩

theorem mem_i64ToText {n : Int} {c : Char} (member : c ∈ i64ToText n) : c = '-' ∨ c.isDigit = true := by
  have digit : c ∈ Nat.toDigits 10 n.natAbs → c.isDigit = true :=
    Nat.isDigit_of_mem_toDigits (by decide) (by decide)
  unfold i64ToText at member
  split at member
  · exact (List.mem_cons.mp member).imp id digit
  · exact Or.inr (digit member)

theorem visible_of_isDigit {c : Char} (digit : c.isDigit = true) : isWhitespace c = false :=
  visible_of_isAlphanum (Bool.or_eq_true_iff.mpr (Or.inr digit))

theorem i64ToText_visible {n : Int} {c : Char} (member : c ∈ i64ToText n) : isWhitespace c = false := by
  rcases mem_i64ToText member with rfl | digit
  · decide
  · exact visible_of_isDigit digit

theorem i64ToText_trimmed (n : Int) : Trimmed (i64ToText n) := by
  rw [trimmed_iff]
  exact ⟨fun c first => i64ToText_visible (List.mem_of_head? first),
    fun c last => i64ToText_visible (List.mem_of_getLast? last)⟩

theorem i64ToText_not_mem {n : Int} {c : Char} (sign : c ≠ '-') (digit : c.isDigit = false) : c ∉ i64ToText n := by
  intro member
  rcases mem_i64ToText member with same | other
  · exact sign same
  · exact absurd (other.symm.trans digit) (by simp)

theorem toDigits_not_mem {c : Char} (digit : c.isDigit = false) (n : Nat) : c ∉ Nat.toDigits 10 n := by
  intro member
  have other : c.isDigit = true := Nat.isDigit_of_mem_toDigits (by decide) (by decide) member
  exact absurd (other.symm.trans digit) (by simp)

private theorem foldlM_digits {digits : Text} (all : ∀ c ∈ digits, c.isDigit = true) (n : Nat) :
    digits.foldlM (fun n c => if c.isDigit then some (10 * n + (c.toNat - 48)) else none) n =
      some (Nat.ofDigitChars 10 digits n) := by
  induction digits generalizing n with
  | nil => rfl
  | cons c digits ih =>
    rw [List.foldlM_cons, if_pos (all c (by simp)), Option.bind_eq_bind, Option.bind_some,
      ih fun d member => all d (List.mem_cons_of_mem c member)]
    rfl

theorem parseDigits_toDigits (n : Nat) : parseDigits (Nat.toDigits 10 n) = some n := by
  have present : (Nat.toDigits 10 n).isEmpty = false := by
    rw [Nat.toDigits_eq_if (by decide)]
    split <;> simp
  have all : ∀ c ∈ Nat.toDigits 10 n, c.isDigit = true :=
    fun c member => Nat.isDigit_of_mem_toDigits (by decide) (by decide) member
  rw [parseDigits, present, if_neg (by decide), foldlM_digits all, Nat.ofDigitChars_toDigits (by decide) (by decide)]

theorem parseI64_i64ToText {n : Int} (bounds : IsI64 n) : parseI64 (i64ToText n) = some n := by
  unfold i64ToText
  split
  next negative =>
    simp [parseI64, parseDigits_toDigits, abs_of_neg negative, bounds]
  next natural =>
    -- a digit is neither of the signs
    have unsigned : ∀ c rest, Nat.toDigits 10 n.natAbs = c :: rest → c.isDigit = true := by
      intro c rest whole
      apply Nat.isDigit_of_mem_toDigits (b := 10) (n := n.natAbs) (by decide) (by decide)
      rw [whole]
      exact List.mem_cons_self
    unfold parseI64
    split
    next digits whole => exact absurd (unsigned _ _ whole) (by decide)
    next digits whole => exact absurd (unsigned _ _ whole) (by decide)
    next => simp [parseDigits_toDigits, abs_of_nonneg (Int.not_lt.mp natural), bounds]

theorem isDigit_of_parseDigits {digits : Text} {n : Nat} (parsed : parseDigits digits = some n) :
    ∀ c ∈ digits, c.isDigit = true := by
  have run : ∀ start : Nat, digits.foldlM (fun n c => if c.isDigit then some (10 * n + (c.toNat - 48)) else none) start =
      some n → ∀ c ∈ digits, c.isDigit = true := by
    clear parsed
    induction digits with
    | nil => simp
    | cons c rest ih =>
      intro start parsed
      rw [List.foldlM_cons, Option.bind_eq_bind, Option.bind_eq_some_iff] at parsed
      obtain ⟨next, first, later⟩ := parsed
      rw [Option.ite_none_right_eq_some] at first
      exact List.forall_mem_cons.mpr ⟨first.1, ih next later⟩
  unfold parseDigits at parsed
  split at parsed
  · cases parsed
  · exact run 0 parsed

theorem mem_of_parseI64 {s : Text} {n : Int} (parsed : parseI64 s = some n) :
    ∀ c ∈ s, c = '-' ∨ c = '+' ∨ c.isDigit = true := by
  simp only [parseI64, Option.filter_eq_some_iff] at parsed
  obtain ⟨value, -⟩ := parsed
  split at value
  all_goals
    obtain ⟨m, read, -⟩ := Option.map_eq_some_iff.mp value
    obtain ⟨k, digits, -⟩ := Option.bind_eq_some_iff.mp read
    intro c member
  · exact (List.mem_cons.mp member).imp id fun later => Or.inr (isDigit_of_parseDigits digits c later)
  · exact Or.inr ((List.mem_cons.mp member).imp id (isDigit_of_parseDigits digits c))
  · exact Or.inr (Or.inr (isDigit_of_parseDigits digits c member))

theorem parseI64_blank {s : Text} (blank : Blank s) : parseI64 s = none := by
  have first : ∀ c rest, s = c :: rest → isWhitespace c = true := by
    rintro c rest rfl
    exact blank c List.mem_cons_self
  have digits : parseDigits s = none := by
    cases s with
    | nil => rfl
    | cons c rest =>
      have other : c.isDigit = false := by
        rw [← Bool.not_eq_true]
        intro digit
        exact absurd ((first c rest rfl).symm.trans (visible_of_isDigit digit)) (by simp)
      simp [parseDigits, other]
  unfold parseI64
  split
  next rest => exact absurd (first _ rest rfl) (by decide)
  next rest => exact absurd (first _ rest rfl) (by decide)
  next => rw [digits]; rfl

end HawkTui.Lib.Numbers
