import Facet.Text.Number
import Mathlib.Algebra.Group.Nat.Defs
import Mathlib.Data.Nat.Init

/-!
Texts in columns: numbers with a fixed count of digits, each before a mark.

Such texts are compared like the rows of their numbers, since the digits of a column begin with
those that count most and no column is longer than another.

Owns:
- numbers that fit a column, the length of their digits, and the order of their digits;
- `Column.write`, the text of a row of numbers, and `Column.Fit`;
- that texts in the same columns have one length, and are ordered as their rows of numbers;
- the characters of such texts.

Does not own: what the numbers mean.
-/

namespace Facet.Text

/-! ### Rows of one length -/

/-- The first difference decides, whatever follows. -/
theorem append_lt_append {α : Type} [LT α] {first second : List α}
    (same : first.length = second.length) (less : first < second) (rest other : List α) :
    first ++ rest < second ++ other := by
  induction first generalizing second with
  | nil =>
      rw [List.eq_nil_of_length_eq_zero same.symm] at less
      exact absurd less (List.not_lt_nil _)
  | cons head tail inductionHypothesis =>
      cases second with
      | nil => cases same
      | cons other others =>
          rw [List.cons_append, List.cons_append, List.cons_lt_cons_iff]
          rcases List.cons_lt_cons_iff.mp less with below | ⟨equal, below⟩
          · exact .inl below
          · exact .inr ⟨equal, inductionHypothesis (Nat.succ.inj same) below⟩

/-! ### Digits -/

/-- One more digit is the last digit. -/
theorem padded_succ {width : Nat} (positive : 1 ≤ width) (value : Nat) :
    padded (width + 1) value = padded width (value / 10) ++ [(value % 10).digitChar] := by
  unfold padded
  by_cases small : value < 10
  · obtain ⟨before, rfl⟩ := Nat.exists_eq_add_of_le' positive
    have none : value / 10 = 0 := Nat.div_eq_of_lt small
    rw [Nat.toDigits_of_lt_base small, none, Nat.mod_eq_of_lt small]
    simp [List.replicate_succ']
  · rw [Nat.toDigits_of_base_le (by omega) (by omega)]
    simp

private theorem padded_one {value : Nat} (fits : value < 10) :
    padded 1 value = [value.digitChar] := by
  simp [padded, Nat.toDigits_of_lt_base fits]

private theorem length_padded {width value : Nat} (positive : 1 ≤ width)
    (fits : value < 10 ^ width) : (padded width value).length = width := by
  induction width, positive using Nat.le_induction generalizing value with
  | base => rw [padded_one (by omega), List.length_singleton]
  | succ width positive inductionHypothesis =>
      have front : value / 10 < 10 ^ width := by
        rw [Nat.pow_succ] at fits
        omega
      rw [padded_succ positive, List.length_append, inductionHypothesis front,
        List.length_singleton]

private theorem digitChar_lt_digitChar : ∀ second < 10, ∀ first < second,
    first.digitChar < second.digitChar := by
  decide

/-- Digits of one width are ordered as their numbers. -/
theorem padded_lt_padded {width first second : Nat} (positive : 1 ≤ width)
    (fits : second < 10 ^ width) (less : first < second) :
    padded width first < padded width second := by
  induction width, positive using Nat.le_induction generalizing first second with
  | base =>
      rw [padded_one (by omega), padded_one (by omega)]
      exact List.cons_lt_cons_iff.mpr (.inl (digitChar_lt_digitChar second (by omega) first less))
  | succ width positive inductionHypothesis =>
      rw [Nat.pow_succ] at fits
      have firstFits : first / 10 < 10 ^ width := by omega
      have secondFits : second / 10 < 10 ^ width := by omega
      rw [padded_succ positive, padded_succ positive]
      by_cases front : first / 10 < second / 10
      · have same : (padded width (first / 10)).length = (padded width (second / 10)).length := by
          rw [length_padded positive firstFits, length_padded positive secondFits]
        exact append_lt_append same (inductionHypothesis secondFits front) _ _
      · have equal : first / 10 = second / 10 := by omega
        rw [equal]
        refine List.append_left_lt (List.cons_lt_cons_iff.mpr (.inl ?_))
        exact digitChar_lt_digitChar _ (by omega) _ (by omega)

private theorem isDigit_of_mem_padded {char : Char} {width value : Nat}
    (member : char ∈ padded width value) : char.isDigit = true := by
  rcases List.mem_append.mp member with zero | digit
  · rw [List.eq_of_mem_replicate zero]
    rfl
  · exact isDigit_of_mem_toDigits digit

/-! ### Columns -/

/-- A number of digits and the mark after them. -/
structure Column where
  width : Nat
  mark : Char
deriving DecidableEq, Repr

namespace Column

/-- The text of a row of numbers. -/
def write : List Column → List Nat → List Char
  | column :: columns, value :: values =>
      padded column.width value ++ column.mark :: write columns values
  | _, _ => []

/-- Each number has a column, and fits it. -/
def Fit : List Column → List Nat → Prop
  | [], [] => True
  | column :: columns, value :: values =>
      (1 ≤ column.width ∧ value < 10 ^ column.width) ∧ Fit columns values
  | _, _ => False

/-- Texts in the same columns have one length. -/
theorem length_write_eq : ∀ {columns : List Column} {values others : List Nat},
    Fit columns values → Fit columns others →
      (write columns values).length = (write columns others).length
  | [], [], [], _, _ => rfl
  | column :: columns, value :: values, other :: others, ⟨⟨positive, fits⟩, further⟩,
      ⟨⟨_, otherFits⟩, otherFurther⟩ => by
      have rest := length_write_eq further otherFurther
      rw [write, write, List.length_append, List.length_append, List.length_cons,
        List.length_cons, length_padded positive fits, length_padded positive otherFits, rest]

/-- Texts in the same columns are ordered as their rows of numbers. -/
theorem write_lt_write : ∀ {columns : List Column} {values others : List Nat},
    Fit columns values → Fit columns others → values < others →
      write columns values < write columns others
  | [], [], [], _, _, less => absurd less (List.not_lt_nil _)
  | column :: columns, value :: values, other :: others, ⟨⟨positive, fits⟩, further⟩,
      ⟨⟨_, otherFits⟩, otherFurther⟩, less => by
      rw [write, write]
      rcases List.cons_lt_cons_iff.mp less with below | ⟨rfl, below⟩
      · have same : (padded column.width value).length = (padded column.width other).length := by
          rw [length_padded positive fits, length_padded positive otherFits]
        exact append_lt_append same (padded_lt_padded positive otherFits below) _ _
      · refine List.append_left_lt (List.cons_lt_cons_iff.mpr (.inr ⟨rfl, ?_⟩))
        exact write_lt_write further otherFurther below

/-- A text in columns has digits and marks. -/
theorem of_mem_write {char : Char} : ∀ {columns : List Column} {values : List Nat},
    char ∈ write columns values → char.isDigit = true ∨ char ∈ columns.map (·.mark)
  | column :: columns, value :: values, member => by
      rcases List.mem_append.mp member with digit | rest
      · exact .inl (isDigit_of_mem_padded digit)
      · rcases List.mem_cons.mp rest with rfl | further
        · exact .inr (List.mem_cons_self ..)
        · exact (of_mem_write further).imp_right (List.mem_cons_of_mem _)

end Column

end Facet.Text
