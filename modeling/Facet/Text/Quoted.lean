import Facet.Text.Blank

/-!
Text between quotation marks, with escapes.

Owns:
- `Quotation`, the decisions of one quoted form;
- `Quotation.json`, the form of strings in JSON text, and `Quotation.record`, that of log
  records;
- `Quotation.encode`, the characters between the quotation marks.

Does not own: reading quoted text back.
-/

namespace Facet.Text

/-- The decisions of one quoted form: which characters are escaped by a letter, and which of
the others are written by their code. -/
structure Quotation where
  letters : List (Char × Char)
  isCoded : Char → Bool

namespace Quotation

/-- JSON text escapes only what it must. -/
def json : Quotation where
  letters :=
    [('"', '"'), ('\\', '\\'), ('\x08', 'b'), ('\x0c', 'f'), ('\n', 'n'), ('\r', 'r'),
      ('\t', 't')]
  isCoded := fun char => char.toNat < 0x20

/-- Log records escape every control character, so that a record stays on its line on any
terminal. -/
def record : Quotation where
  letters := [('"', '"'), ('\\', '\\'), ('\n', 'n'), ('\r', 'r'), ('\t', 't')]
  isCoded := isControl

end Quotation

/-- The four hexadecimal digits of a code below 65536. -/
def hexCode (code : Nat) : List Char :=
  [code / 4096 % 16, code / 256 % 16, code / 16 % 16, code % 16].map Nat.digitChar

/-- One character between quotation marks. -/
def Quotation.encodeChar (quotation : Quotation) (char : Char) : List Char :=
  match quotation.letters.lookup char with
  | some letter => ['\\', letter]
  | none => if quotation.isCoded char then '\\' :: 'u' :: hexCode char.toNat else [char]

/-- The characters between the quotation marks. -/
def Quotation.encode (quotation : Quotation) (chars : List Char) : List Char :=
  chars.flatMap quotation.encodeChar

/-- A quoted text. -/
def Quotation.quote (quotation : Quotation) (text : String) : String :=
  String.ofList ('"' :: quotation.encode text.toList ++ ['"'])

end Facet.Text
