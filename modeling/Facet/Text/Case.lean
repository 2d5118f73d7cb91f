import Facet.Text.CaseTable

/-!
Upper-case and lower-case forms of characters, and names with a changed first letter.

Owns:
- `upper` and `lower`, the full forms of one character, by the tables;
- `upperFirst` and `lowerFirst`, which leave all but the first character alone.
-/

namespace Facet.Text

/-- The form of a character in a run, if the character belongs to it. -/
def CaseRun.form? (run : CaseRun) (code : Nat) : Option Nat :=
  if run.first ≤ code ∧ code ≤ run.last ∧ (code - run.first) % run.step = 0 then
    some (run.target + (code - run.first))
  else
    none

/-- The form of a character by a pair of tables; a character in neither is its own form. -/
def caseForm (runs : List CaseRun) (expansions : List CaseExpansion) (char : Char) : List Char :=
  match runs.findSome? (·.form? char.toNat) with
  | some code => [Char.ofNat code]
  | none =>
      match expansions.find? (·.source == char.toNat) with
      | some expansion => expansion.form.map Char.ofNat
      | none => [char]

def upper (char : Char) : List Char :=
  caseForm upperRuns upperExpansions char

def lower (char : Char) : List Char :=
  caseForm lowerRuns lowerExpansions char

/-- Replaces the first character by its form. -/
def mapFirst (form : Char → List Char) : List Char → List Char
  | [] => []
  | first :: rest => form first ++ rest

def upperFirst (name : List Char) : List Char :=
  mapFirst upper name

def lowerFirst (name : List Char) : List Char :=
  mapFirst lower name

end Facet.Text
