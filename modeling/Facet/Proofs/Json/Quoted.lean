import Facet.Json.Parser
import Facet.Text.Quoted

/-!
Quoted texts in JSON.

A quoted form is legible if JSON readers undo each of its decisions: letters of escapes stand for
their characters, codes have four digits, and what is left as it is neither ends the text nor
begins an escape nor is a control character of the first row. Reading a text in a legible form
gives the text.

Owns:
- rows of inputs that lead from one state to another;
- `Quotation.IsLegible`, and that the form of log records is legible;
- that every text in a legible form is read as one token.

Does not own: how tokens nest.
-/

namespace Facet

/-! ### Rows of inputs -/

/-- The inputs lead from a state to another, one step each. -/
def Leads {σ α : Type} (step : σ → α → Option σ) (before : σ) (inputs : List α)
    (after : σ) : Prop :=
  inputs.foldlM step before = some after

namespace Leads

variable {σ α : Type} {step : σ → α → Option σ} {before middle after : σ}

theorem nil (state : σ) : Leads step state [] state := rfl

theorem cons {input : α} {rest : List α} (first : step before input = some middle)
    (further : Leads step middle rest after) : Leads step before (input :: rest) after := by
  rw [Leads, List.foldlM_cons, first]
  exact further

theorem single {input : α} (only : step before input = some after) :
    Leads step before [input] after :=
  cons only (nil after)

theorem append {first second : List α} (begins : Leads step before first middle)
    (further : Leads step middle second after) :
    Leads step before (first ++ second) after := by
  rw [Leads, List.foldlM_append, show first.foldlM step before = some middle from begins]
  exact further

end Leads

/-! ### Legible forms -/

open Json (Lexer)

namespace Text.Quotation

/-- A quoted form that JSON readers undo. -/
structure IsLegible (quotation : Quotation) : Prop where
  lettered : ∀ pair ∈ quotation.letters,
    pair.2 ≠ 'u' ∧ Lexer.unescape? pair.2 = some pair.1
  coded : ∀ char, quotation.isCoded char = true → char.toNat < 0x10000
  plain : ∀ char, quotation.letters.lookup char = none → quotation.isCoded char = false →
    char ≠ '"' ∧ char ≠ '\\' ∧ 0x20 ≤ char.toNat

/-- Log records are written in a legible form. -/
theorem record_isLegible : record.IsLegible where
  lettered := by decide
  coded := by
    intro char control
    simp only [record, isControl, Bool.or_eq_true, Bool.and_eq_true,
      decide_eq_true_eq] at control
    omega
  plain := by
    intro char unlettered uncoded
    have apart := List.lookup_eq_none_iff.mp unlettered
    refine ⟨?_, ?_, ?_⟩
    · rintro rfl
      exact absurd (apart ('"', '"') (by decide)) (by decide)
    · rintro rfl
      exact absurd (apart ('\\', '\\') (by decide)) (by decide)
    · simp only [record, isControl, Bool.or_eq_false_iff, decide_eq_false_iff_not] at uncoded
      omega

end Text.Quotation

/-! ### Reading -/

namespace Json.Lexer

variable {read : List Char} {tokens : List Token}

private theorem hexValue?_digitChar : ∀ digit < 16, hexValue? digit.digitChar = some digit := by
  decide

/-- The code of a character is not one of a half of a pair. -/
theorem finishCode_toNat (read : List Char) (char : Char) :
    finishCode read none char.toNat = some (.text (char :: read)) := by
  have valid : char.toNat < 0xD800 ∨ 0xDFFF < char.toNat ∧ char.toNat < 0x110000 := char.valid
  rw [finishCode, if_neg (by omega), if_neg (by omega), Char.ofNat_toNat]

/-- A digit of a code that is not the last one. -/
theorem step_code_more (read : List Char) (left value digit : Nat) :
    step ⟨.code read none (left + 2) value, tokens⟩ (digit % 16).digitChar =
      some ⟨.code read none (left + 1) (16 * value + digit % 16), tokens⟩ := by
  have isDigit := hexValue?_digitChar (digit % 16) (Nat.mod_lt digit (by decide))
  simp [step, isDigit]

/-- The last digit of the code of a character. -/
theorem step_code_last (read : List Char) (value digit : Nat) {char : Char}
    (complete : 16 * value + digit % 16 = char.toNat) :
    step ⟨.code read none 1 value, tokens⟩ (digit % 16).digitChar =
      some ⟨.text (char :: read), tokens⟩ := by
  have isDigit := hexValue?_digitChar (digit % 16) (Nat.mod_lt digit (by decide))
  simp [step, isDigit, complete, finishCode_toNat]

/-- Four digits are read as the character of the code. -/
theorem leads_hexCode {char : Char} (small : char.toNat < 0x10000) :
    Leads step ⟨.code read none 4 0, tokens⟩ (Text.hexCode char.toNat)
      ⟨.text (char :: read), tokens⟩ := by
  have complete : 16 * (16 * (16 * (16 * 0 + char.toNat / 4096 % 16) +
      char.toNat / 256 % 16) + char.toNat / 16 % 16) + char.toNat % 16 = char.toNat := by
    omega
  refine .cons (step_code_more read 2 0 _) ?_
  refine .cons (step_code_more read 1 _ _) ?_
  refine .cons (step_code_more read 0 _ _) ?_
  exact .single (step_code_last read _ _ complete)

variable {quotation : Text.Quotation}

/-- One character in a legible form is read back. -/
theorem leads_encodeChar (legible : quotation.IsLegible) (char : Char) :
    Leads step ⟨.text read, tokens⟩ (quotation.encodeChar char)
      ⟨.text (char :: read), tokens⟩ := by
  unfold Text.Quotation.encodeChar
  split
  · next letter found =>
      obtain ⟨before, after, letters, _⟩ := List.lookup_eq_some_iff.mp found
      obtain ⟨noCode, unescaped⟩ := legible.lettered (char, letter) (by simp [letters])
      have escaped : step ⟨.escape read, tokens⟩ letter = some ⟨.text (char :: read), tokens⟩ := by
        simp [step, noCode, unescaped]
      exact .cons rfl (.single escaped)
  · next unlettered =>
      split
      · next coded =>
          exact .cons rfl (.cons rfl (leads_hexCode (legible.coded char coded)))
      · next uncoded =>
          obtain ⟨noQuote, noEscape, printable⟩ :=
            legible.plain char unlettered (Bool.eq_false_iff.mpr uncoded)
          refine .single ?_
          simp only [step, if_neg noQuote, if_neg noEscape, if_neg (Nat.not_lt.mpr printable)]

private theorem leads_encode (legible : quotation.IsLegible) (chars : List Char) :
    Leads step ⟨.text read, tokens⟩ (quotation.encode chars)
      ⟨.text (chars.reverse ++ read), tokens⟩ := by
  induction chars generalizing read with
  | nil => exact .nil _
  | cons char rest inductionHypothesis =>
      rw [List.reverse_cons, List.append_assoc]
      exact (leads_encodeChar legible char).append inductionHypothesis

/-- **A text in a legible form is read as it is.** -/
theorem leads_quoted (tokens : List Token) (legible : quotation.IsLegible) (text : String) :
    Leads step ⟨.between, tokens⟩ ('"' :: quotation.encode text.toList ++ ['"'])
      ⟨.between, .text text :: tokens⟩ := by
  have body : Leads step ⟨.text [], tokens⟩ (quotation.encode text.toList)
      ⟨.text (text.toList.reverse ++ []), tokens⟩ := leads_encode legible text.toList
  have closed : step ⟨.text (text.toList.reverse ++ []), tokens⟩ '"' =
      some ⟨.between, .text text :: tokens⟩ := by
    simp [step]
  exact .cons rfl (body.append (.single closed))

end Json.Lexer

end Facet
