import Facet.Json.Printer
import Facet.Proofs.Double.Exact

/-!
Integers as decimal text.

Owns:
- that the text of an integer is read back within any width that holds the integer;
- that a text with any character besides digits and signs is no integer;
- that the JSON text of a double always has such a character, a point or an exponent mark.

Does not own: reading doubles back.
-/

namespace Facet

/-! ### Characters of integers -/

/-- An integer is written as the digits of its magnitude, after a sign if it is negative. -/
theorem toList_toString_int (value : Int) :
    (toString value).toList =
      if value < 0 then '-' :: Nat.toDigits 10 value.natAbs
      else Nat.toDigits 10 value.natAbs := by
  cases value with
  | ofNat magnitude =>
      have positive : ¬(Int.ofNat magnitude < 0) := by simp
      rw [if_neg positive]
      simp [toString, Int.repr, Nat.repr]
  | negSucc magnitude =>
      rw [if_pos (Int.negSucc_lt_zero magnitude)]
      simp [toString, Int.repr, Nat.repr]

namespace DecimalText

/-- Digits have no sign in front. -/
theorem splitSign_toDigits (magnitude : Nat) :
    splitSign (Nat.toDigits 10 magnitude) = (none, Nat.toDigits 10 magnitude) := by
  unfold splitSign
  split
  · next rest spelled =>
      have digit : '-'.isDigit = true :=
        Text.isDigit_of_mem_toDigits (spelled ▸ List.mem_cons_self)
      cases digit
  · next rest spelled =>
      have digit : '+'.isDigit = true :=
        Text.isDigit_of_mem_toDigits (spelled ▸ List.mem_cons_self)
      cases digit
  · rfl

/-- What is no sign stands behind the sign. -/
theorem mem_splitSign {chars : List Char} {char : Char} (member : char ∈ chars)
    (noMinus : char ≠ '-') (noPlus : char ≠ '+') : char ∈ (splitSign chars).2 := by
  unfold splitSign
  split
  · exact (List.mem_cons.mp member).resolve_left noMinus
  · exact (List.mem_cons.mp member).resolve_left noPlus
  · exact member

end DecimalText

/-! ### Reading integers -/

namespace IntegerType

variable {type : IntegerType}

/-- **Integers are read back from their text**, if the width holds them. -/
theorem ofChars?_toString (type : IntegerType) (value : Int) :
    type.ofChars? (toString value).toList = type.check? value := by
  rw [toList_toString_int, ofChars?]
  by_cases negative : value < 0
  · have magnitude : Double.signed true value.natAbs = value := by
      rw [Double.signed, if_pos rfl]
      omega
    rw [if_pos negative]
    by_cases signed : type.isSigned = true
    · simp [DecimalText.splitSign, signed, Text.readDigits?_toDigits, magnitude]
    · have outside : ¬(type.least ≤ value ∧ value ≤ type.greatest) := by
        rw [isSigned, decide_eq_true_eq] at signed
        omega
      rw [check?, if_neg outside]
      simp [DecimalText.splitSign, signed]
  · have magnitude : Double.signed false value.natAbs = value := by
      rw [Double.signed, if_neg Bool.false_ne_true]
      omega
    rw [if_neg negative, DecimalText.splitSign_toDigits]
    simp [Text.readDigits?_toDigits, magnitude]

/-- A text with a character that is neither a digit nor a sign is no integer. -/
theorem ofChars?_of_mem {chars : List Char} {char : Char} (member : char ∈ chars)
    (noDigit : char.isDigit = false) (noMinus : char ≠ '-') (noPlus : char ≠ '+') :
    type.ofChars? chars = none := by
  have behind := DecimalText.mem_splitSign member noMinus noPlus
  have notAll : (DecimalText.splitSign chars).2.all Char.isDigit = false := by
    rw [List.all_eq_false]
    exact ⟨char, behind, by simp [noDigit]⟩
  have unread : Text.readDigits? (DecimalText.splitSign chars).2 = none := by
    simp [Text.readDigits?, notAll]
  simp [ofChars?, unread]

end IntegerType

/-! ### Text of doubles -/

namespace Double

/-- A JSON double has a point or an exponent mark. -/
theorem point_or_mark_mem_numeralText (numeral : Numeral) :
    '.' ∈ Layout.json.numeralText numeral ∨ 'e' ∈ Layout.json.numeralText numeral := by
  rw [Layout.numeralText]
  split_ifs
  · left
    simp only [Layout.positionalText]
    split_ifs
    · simp
    · simp [Layout.json]
    · simp
  · right
    simp [Layout.scientificText]

/-- The JSON text of a double is never that of an integer. -/
theorem ofChars?_jsonText (type : IntegerType) (value : Double) :
    type.ofChars? value.jsonText.toList = none := by
  cases value with
  | finite negative biased fraction =>
      rw [jsonText, String.toList_ofList, Layout.finiteText]
      rcases point_or_mark_mem_numeralText (shortest Layout.json.tie biased fraction) with
        point | mark
      · exact IntegerType.ofChars?_of_mem (List.mem_append_right _ point) rfl (by decide)
          (by decide)
      · exact IntegerType.ofChars?_of_mem (List.mem_append_right _ mark) rfl (by decide)
          (by decide)
  | nan | infinite negative =>
      have first : 'n' ∈ "null".toList := by decide
      exact IntegerType.ofChars?_of_mem first rfl (by decide) (by decide)

end Double

end Facet
