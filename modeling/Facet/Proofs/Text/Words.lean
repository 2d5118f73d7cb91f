/-!
Words in rows of characters.

Owns:
- rows of characters of one class, and where such a row ends;
- that a row at the beginning of a text is determined by the text.
-/

namespace Facet.Text

/-- All characters are inside of words. -/
def IsWordRow (inside : Char → Bool) (chars : List Char) : Prop :=
  ∀ char ∈ chars, inside char = true

instance (inside : Char → Bool) (chars : List Char) : Decidable (IsWordRow inside chars) :=
  List.decidableBAll (fun char => inside char = true) chars

/-- A word that stands before the characters ends there. -/
def Breaks (inside : Char → Bool) : List Char → Prop
  | [] => True
  | char :: _ => inside char = false

theorem isWordRow_nil (inside : Char → Bool) : IsWordRow inside [] :=
  fun _ member => absurd member List.not_mem_nil

theorem Breaks.ne_inside {inside : Char → Bool} {char : Char} {rest : List Char}
    (breaks : Breaks inside (char :: rest)) : ¬ inside char = true := by
  rw [show inside char = false from breaks]
  exact Bool.false_ne_true

/-- Where a word ends does not depend on what follows. -/
theorem IsWordRow.append_inj {inside : Char → Bool} {first second rest otherRest : List Char}
    (firstWord : IsWordRow inside first) (secondWord : IsWordRow inside second)
    (breaks : Breaks inside rest) (otherBreaks : Breaks inside otherRest)
    (same : first ++ rest = second ++ otherRest) : first = second ∧ rest = otherRest := by
  induction first generalizing second with
  | nil =>
      cases second with
      | nil => exact ⟨rfl, same⟩
      | cons char more =>
          subst same
          exact absurd (secondWord char List.mem_cons_self) breaks.ne_inside
  | cons char more inductionHypothesis =>
      cases second with
      | nil =>
          subst same
          exact absurd (firstWord char List.mem_cons_self) otherBreaks.ne_inside
      | cons other others =>
          obtain ⟨rfl, tails⟩ := List.cons.inj same
          have moreWord := (List.forall_mem_cons.mp firstWord).2
          have othersWord := (List.forall_mem_cons.mp secondWord).2
          obtain ⟨rfl, rests⟩ := inductionHypothesis moreWord othersWord tails
          exact ⟨rfl, rests⟩

end Facet.Text
