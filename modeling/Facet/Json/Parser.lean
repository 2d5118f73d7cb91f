import Facet.Json.Token

/-!
Reading JSON text: tokens are fed to a machine whose stack holds the arrays and objects that
are still open.

Owns:
- `Machine`, the state between two tokens, and its step;
- `Json.parse?`, which reads exactly one value with nothing but spaces around it.
-/

namespace Facet.Json

/-- An array or object that is still open, with its parts last first. -/
inductive Frame where
  | items (read : List Json)
  | members (read : List (String × Json))
  | member (read : List (String × Json)) (name : String)
deriving Repr

/-- What the next token may be. -/
inductive Expectation where
  | value
  | valueOrClose
  | name
  | nameOrClose
  | colon
  | separator
deriving DecidableEq, Repr

/-- The state between two tokens. -/
inductive Machine where
  | reading (stack : List Frame) (expects : Expectation)
  | done (value : Json)
deriving Repr

namespace Machine

/-- Puts a complete value where the innermost open frame wants it. -/
def deliver (value : Json) : List Frame → Option Machine
  | [] => some (.done value)
  | .items read :: stack => some (.reading (.items (value :: read) :: stack) .separator)
  | .member read name :: stack =>
      some (.reading (.members ((name, value) :: read) :: stack) .separator)
  | .members _ :: _ => none

/-- Closes the innermost open array. -/
def closeArray : List Frame → Option Machine
  | .items read :: stack => deliver (.array read.reverse) stack
  | _ => none

/-- Closes the innermost open object. -/
def closeObject : List Frame → Option Machine
  | .members read :: stack => deliver (.object read.reverse) stack
  | _ => none

/-- A token where a value may begin. -/
def beginValue (stack : List Frame) : Token → Option Machine
  | .scalar value => deliver value stack
  | .text value => deliver (.string value) stack
  | .openArray => some (.reading (.items [] :: stack) .valueOrClose)
  | .openObject => some (.reading (.members [] :: stack) .nameOrClose)
  | _ => none

/-- A token where the name of a member is due. -/
def beginMember (stack : List Frame) : Token → Option Machine
  | .text name =>
      match stack with
      | .members read :: outer => some (.reading (.member read name :: outer) .colon)
      | _ => none
  | _ => none

/-- A token after a complete part of an array or object. -/
def separate (stack : List Frame) : Token → Option Machine
  | .comma =>
      match stack with
      | .items _ :: _ => some (.reading stack .value)
      | .members _ :: _ => some (.reading stack .name)
      | _ => none
  | .closeArray => closeArray stack
  | .closeObject => closeObject stack
  | _ => none

/-- One more token. -/
def step : Machine → Token → Option Machine
  | .done _, _ => none
  | .reading stack .value, token => beginValue stack token
  | .reading stack .valueOrClose, .closeArray => closeArray stack
  | .reading stack .valueOrClose, token => beginValue stack token
  | .reading stack .name, token => beginMember stack token
  | .reading stack .nameOrClose, .closeObject => closeObject stack
  | .reading stack .nameOrClose, token => beginMember stack token
  | .reading stack .colon, .colon => some (.reading stack .value)
  | .reading _ .colon, _ => none
  | .reading stack .separator, token => separate stack token

/-- The value, if all is read. -/
def value? : Machine → Option Json
  | .done value => some value
  | .reading _ _ => none

end Machine

/-- The value that a row of tokens spells. -/
def ofTokens? (tokens : List Token) : Option Json :=
  (tokens.foldlM Machine.step (.reading [] .value)).bind Machine.value?

/-- Reads a text that holds exactly one value. -/
def parse? (text : String) : Option Json :=
  (Token.ofChars? text.toList).bind ofTokens?

end Facet.Json
