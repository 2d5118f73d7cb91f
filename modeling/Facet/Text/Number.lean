/-!
Whole numbers as decimal text.

Owns:
- digits padded with zeros to a least width;
- reading digits, and integers with an optional sign.

Does not own: which integers a caller accepts.
-/

namespace Facet.Text

/-- The decimal digits of a number, with zeros in front up to a least width. -/
def padded (width value : Nat) : List Char :=
  let digits := Nat.toDigits 10 value
  List.replicate (width - digits.length) '0' ++ digits

/-- Reads a row of decimal digits, at least one. -/
def readDigits? (chars : List Char) : Option Nat :=
  if chars.isEmpty || !chars.all Char.isDigit then none else some (Nat.ofDigitChars 10 chars 0)

theorem isDigit_of_mem_toDigits {char : Char} {value : Nat}
    (member : char ∈ Nat.toDigits 10 value) : char.isDigit = true := by
  induction value using Nat.strongRecOn with
  | ind value inductionHypothesis =>
      have digitIsDigit : ∀ digit, digit < 10 → digit.digitChar.isDigit = true := by decide
      by_cases small : value < 10
      · rw [Nat.toDigits_of_lt_base small, List.mem_singleton] at member
        subst member
        exact digitIsDigit value small
      · rw [Nat.toDigits_of_base_le (by omega) (by omega), List.mem_append,
          List.mem_singleton] at member
        rcases member with front | last
        · exact inductionHypothesis (value / 10) (by omega) front
        · subst last
          exact digitIsDigit (value % 10) (Nat.mod_lt value (by omega))

/-- Reading undoes writing. -/
theorem readDigits?_toDigits (value : Nat) : readDigits? (Nat.toDigits 10 value) = some value := by
  have allDigits : (Nat.toDigits 10 value).all Char.isDigit = true :=
    List.all_eq_true.mpr fun _ member => isDigit_of_mem_toDigits member
  have nonempty : (Nat.toDigits 10 value).isEmpty = false := by
    simp [Nat.toDigits_ne_nil]
  simp [readDigits?, allDigits, nonempty, Nat.ofDigitChars_ten_toDigits]

end Facet.Text
