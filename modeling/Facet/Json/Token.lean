import Facet.Double.Reading
import Facet.Json.Basic

/-!
The tokens of JSON text, read one character at a time.

Owns:
- `Number.ofChars?`, the grammar of JSON numbers and the choice between integer and double;
- `Lexer`, the state between two characters, and its step;
- `Token.ofChars?`, the tokens of a whole text.

Does not own: how tokens nest.
-/

namespace Facet

/-- Whether a decimal is written as JSON allows: no plus sign, no needless zero in front, and
digits on both sides of a point. -/
def DecimalText.isJson (text : DecimalText) : Bool :=
  text.sign != some '+' && !text.whole.isEmpty &&
    (text.whole.head? != some '0' || text.whole.length == 1) && text.fraction != some []

namespace Number

/-- A whole number: an integer if it fits 64 bits, signed or unsigned, and else a double.
Minus zero has no integer and is a double. -/
def ofWhole (negative : Bool) (magnitude : Nat) : Number :=
  let value := Double.signed negative magnitude
  if (negative ∧ magnitude = 0) ∨ value < -Int.pow 2 63 ∨ Int.pow 2 64 ≤ value then
    .double (.ofRatio negative magnitude 1)
  else
    .integer value

/-- Reads a JSON number. A number beyond the largest double is refused. -/
def ofChars? (chars : List Char) : Option Number :=
  match DecimalText.ofChars? chars with
  | none => none
  | some text =>
      if !text.isJson then none
      else
        match text.fraction, text.exponent with
        | none, none =>
            some (ofWhole (text.sign == some '-') (Nat.ofDigitChars 10 text.whole 0))
        | _, _ =>
            match text.toDouble with
            | .finite negative biased fraction =>
                some (.double (.finite negative biased fraction))
            | _ => none

end Number

namespace Json

/-- A token of JSON text. Values without parts are tokens of their own. -/
inductive Token where
  | openArray
  | closeArray
  | openObject
  | closeObject
  | colon
  | comma
  | text (value : String)
  | scalar (value : Json)
deriving Repr

/-- What the characters read so far have begun. Characters of an unfinished text or word are
kept last first. -/
inductive Mode where
  | between
  | text (read : List Char)
  | escape (read : List Char)
  | code (read : List Char) (leading : Option Nat) (left : Nat) (value : Nat)
  | trailing (read : List Char) (leading : Nat)
  | trailingCode (read : List Char) (leading : Nat)
  | word (read : List Char)
deriving DecidableEq, Repr

/-- The state between two characters, with the finished tokens last first. -/
structure Lexer where
  mode : Mode
  tokens : List Token
deriving Repr

namespace Lexer

def isSpace (char : Char) : Bool :=
  char == ' ' || char == '\t' || char == '\n' || char == '\r'

/-- The tokens of a single character. -/
def punctuation? : Char → Option Token
  | '[' => some .openArray
  | ']' => some .closeArray
  | '\x7b' => some .openObject
  | '\x7d' => some .closeObject
  | ':' => some .colon
  | ',' => some .comma
  | _ => none

/-- The value of a word outside quotation marks. -/
def wordValue? (word : List Char) : Option Json :=
  if word = "null".toList then some .null
  else if word = "true".toList then some (.bool true)
  else if word = "false".toList then some (.bool false)
  else (Number.ofChars? word).map .number

/-- A character that is not inside a text or a word. -/
def start (tokens : List Token) (char : Char) : Lexer :=
  if isSpace char then ⟨.between, tokens⟩
  else if char = '"' then ⟨.text [], tokens⟩
  else
    match punctuation? char with
    | some token => ⟨.between, token :: tokens⟩
    | none => ⟨.word [char], tokens⟩

/-- The character that an escape letter stands for. -/
def unescape? : Char → Option Char
  | '"' => some '"'
  | '\\' => some '\\'
  | '/' => some '/'
  | 'b' => some '\x08'
  | 'f' => some '\x0c'
  | 'n' => some '\n'
  | 'r' => some '\r'
  | 't' => some '\t'
  | _ => none

def hexValue? (char : Char) : Option Nat :=
  if char.isDigit then some (char.toNat - '0'.toNat)
  else if 'a' ≤ char ∧ char ≤ 'f' then some (char.toNat - 'a'.toNat + 10)
  else if 'A' ≤ char ∧ char ≤ 'F' then some (char.toNat - 'A'.toNat + 10)
  else none

/-- The mode after a complete code unit. Codes of the first half of a pair wait for the
second half; a half alone is refused. -/
def finishCode (read : List Char) (leading : Option Nat) (unit : Nat) : Option Mode :=
  match leading with
  | none =>
      if 0xD800 ≤ unit ∧ unit < 0xDC00 then some (.trailing read unit)
      else if 0xDC00 ≤ unit ∧ unit < 0xE000 then none
      else some (.text (Char.ofNat unit :: read))
  | some first =>
      if 0xDC00 ≤ unit ∧ unit < 0xE000 then
        some (.text
          (Char.ofNat (0x10000 + (first - 0xD800) * 0x400 + (unit - 0xDC00)) :: read))
      else
        none

/-- One more character. -/
def step (lexer : Lexer) (char : Char) : Option Lexer :=
  match lexer.mode with
  | .between => some (start lexer.tokens char)
  | .text read =>
      if char = '"' then some ⟨.between, .text (String.ofList read.reverse) :: lexer.tokens⟩
      else if char = '\\' then some ⟨.escape read, lexer.tokens⟩
      else if char.toNat < 0x20 then none
      else some ⟨.text (char :: read), lexer.tokens⟩
  | .escape read =>
      if char = 'u' then some ⟨.code read none 4 0, lexer.tokens⟩
      else (unescape? char).map fun plain => ⟨.text (plain :: read), lexer.tokens⟩
  | .code read leading left value =>
      match hexValue? char with
      | none => none
      | some digit =>
          let unit := 16 * value + digit
          if left ≤ 1 then (finishCode read leading unit).map (⟨·, lexer.tokens⟩)
          else some ⟨.code read leading (left - 1) unit, lexer.tokens⟩
  | .trailing read leading =>
      if char = '\\' then some ⟨.trailingCode read leading, lexer.tokens⟩ else none
  | .trailingCode read leading =>
      if char = 'u' then some ⟨.code read (some leading) 4 0, lexer.tokens⟩ else none
  | .word read =>
      if isSpace char || char == '"' || (punctuation? char).isSome then
        (wordValue? read.reverse).map fun value => start (.scalar value :: lexer.tokens) char
      else
        some ⟨.word (char :: read), lexer.tokens⟩

/-- The tokens when the text ends here. -/
def finish? (lexer : Lexer) : Option (List Token) :=
  match lexer.mode with
  | .between => some lexer.tokens.reverse
  | .word read =>
      (wordValue? read.reverse).map fun value => (Token.scalar value :: lexer.tokens).reverse
  | _ => none

end Lexer

/-- The tokens of a text. -/
def Token.ofChars? (chars : List Char) : Option (List Token) :=
  (chars.foldlM Lexer.step ⟨.between, []⟩).bind Lexer.finish?

end Json

end Facet
