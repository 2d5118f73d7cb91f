import Facet.Proofs.Predicate.Outline

/-!
Signatures are read in one way only.

The first word of an operand is the word for negation or the name of a field, and the next word
tells what is said of the field. A row of operands with connectives between them is a chain of one
connective that leans to the left; any other grouping is in parentheses. So an operand is
determined by the characters that it begins with, as long as they are followed by a connective, by
a closing parenthesis or by nothing.

Owns:
- where words and operands end;
- the spine of an outline: its leftmost operand, and the operands that follow;
- that an outline is determined by its characters;
- that signatures of legible predicates are equal exactly for predicates of the same structure.
-/

namespace Facet

open Predicate (Connective)

/-! ### Words -/

/-- The characters make a word of a signature. -/
abbrev IsPlainRow (chars : List Char) : Prop :=
  Text.IsWordRow isPlain chars

/-- A word of a signature that stands before the characters ends there. -/
abbrev Breaks (chars : List Char) : Prop :=
  Text.Breaks isPlain chars

/-- The word after a separator, if there is a separator. -/
def nextWord? : List Char → Option (List Char)
  | '_' :: rest => some (rest.takeWhile isPlain)
  | _ => none

private theorem nextWord?_word {word rest : List Char} (plain : IsPlainRow word)
    (breaks : Breaks rest) : nextWord? ('_' :: (word ++ rest)) = some word := by
  have stops : rest.takeWhile isPlain = [] := by
    cases rest with
    | nil => rfl
    | cons char more => exact List.takeWhile_cons_of_neg breaks.ne_inside
  rw [nextWord?, List.takeWhile_append_of_pos plain, stops, List.append_nil]

private theorem Predicate.Connective.isPlainRow (connective : Connective) :
    IsPlainRow connective.signatureName.toList := by
  cases connective <;> decide

private theorem Operator.isPlainRow (operator : Operator) : IsPlainRow operator.name.toList := by
  rcases operator with _ | _ | ⟨_ | _ | _ | _⟩ <;> decide

/-- No operator has the name of another word that may follow a field. -/
theorem Operator.name_ne_keyword (operator : Operator) :
    operator.name.toList ≠ "HasValue".toList ∧ operator.name.toList ≠ "Any".toList := by
  rcases operator with _ | _ | ⟨_ | _ | _ | _⟩ <;> decide

/-! ### Where operands end -/

/-- What may follow an operand: nothing, a closing parenthesis, or a connective. -/
inductive Closes : List Char → Prop where
  | finish : Closes []
  | group (more : List Char) : Closes (')' :: more)
  | connective (connective : Connective) (more : List Char) :
      Closes ('_' :: (connective.signatureName.toList ++ '_' :: more))

private theorem Closes.breaks {rest : List Char} (closes : Closes rest) : Breaks rest := by
  cases closes with
  | finish => trivial
  | group _ => exact (by decide : isPlain ')' = false)
  | connective _ _ => exact (by decide : isPlain '_' = false)

private theorem breaks_separator (rest : List Char) : Breaks ('_' :: rest) :=
  (by decide : isPlain '_' = false)

/-- The next word, unless it is a connective. -/
def keyword? (rest : List Char) : Option (List Char) :=
  (nextWord? rest).filter fun word =>
    word != Connective.and.signatureName.toList && word != Connective.or.signatureName.toList

private theorem Closes.keyword? {rest : List Char} (closes : Closes rest) :
    keyword? rest = none := by
  cases closes with
  | finish => rfl
  | group _ => rfl
  | connective connective more =>
      rw [Facet.keyword?, nextWord?_word connective.isPlainRow (breaks_separator more)]
      cases connective <;> rfl

namespace Outline

/-! ### Operands that begin with a field -/

/-- The field that an outline begins with. -/
def field? : Outline → Option String
  | .operation field _ _ => some field
  | .truth field => some field
  | .present field => some field
  | .any collection _ => some collection
  | _ => none

/-- The characters of an outline as an operand. -/
def operandChars (outline : Outline) : List Char :=
  outline.grouped outline.chars

/-- The characters after the field. -/
def tail : Outline → List Char
  | .operation _ operator text => '_' :: (operator.name.toList ++ '_' :: text.toList)
  | .present _ => '_' :: "HasValue".toList
  | .any _ inner => '_' :: ("Any".toList ++ '_' :: inner.operandChars)
  | _ => []

/-- The word that tells what is said of the field. -/
def keyword? : Outline → Option (List Char)
  | .operation _ operator _ => some operator.name.toList
  | .present _ => some "HasValue".toList
  | .any _ _ => some "Any".toList
  | _ => none

private theorem operandChars_of_field? {outline : Outline} {field : String}
    (led : outline.field? = some field) : outline.operandChars = field.toList ++ outline.tail := by
  cases outline with
  | join _ _ _ | negation _ => cases led
  | truth _ =>
      cases led
      exact (List.append_nil _).symm
  | _ =>
      cases led
      rfl

private theorem isFieldWord_of_field? {outline : Outline} {field : String}
    (led : outline.field? = some field) (legible : outline.IsLegible) : IsFieldWord field := by
  cases outline with
  | join _ _ _ | negation _ => cases led
  | operation _ _ _ | any _ _ =>
      cases led
      exact legible.1
  | truth _ | present _ =>
      cases led
      exact legible

private theorem breaks_tail (outline : Outline) {rest : List Char} (closes : Closes rest) :
    Breaks (outline.tail ++ rest) := by
  cases outline with
  | operation _ _ _ | present _ | any _ _ => exact breaks_separator _
  | _ => exact closes.breaks

private theorem tail_ne_open (outline : Outline) {rest more : List Char} (closes : Closes rest) :
    outline.tail ++ rest ≠ '(' :: more := by
  intro same
  cases outline with
  | operation _ _ _ | present _ | any _ _ => exact absurd (List.cons.inj same).1 (by decide)
  | _ => cases closes with
      | finish => cases same
      | _ => exact absurd (List.cons.inj same).1 (by decide)

/-- What is said of the field can be read from the tail. -/
theorem keyword?_tail (outline : Outline) {rest : List Char} (closes : Closes rest) :
    Facet.keyword? (outline.tail ++ rest) = outline.keyword? := by
  cases outline with
  | operation field operator text =>
      have next : nextWord? ('_' :: (operator.name.toList ++ '_' :: (text.toList ++ rest))) =
          some operator.name.toList :=
        nextWord?_word operator.isPlainRow (breaks_separator _)
      rw [tail, List.cons_append, List.append_assoc, List.cons_append, Facet.keyword?, next]
      rcases operator with _ | _ | ⟨_ | _ | _ | _⟩ <;> rfl
  | present field =>
      have next : nextWord? ('_' :: ("HasValue".toList ++ rest)) = some "HasValue".toList :=
        nextWord?_word (by decide) closes.breaks
      rw [tail, List.cons_append, Facet.keyword?, next]
      rfl
  | any collection inner =>
      have next : nextWord? ('_' :: ("Any".toList ++ '_' :: (inner.operandChars ++ rest))) =
          some "Any".toList :=
        nextWord?_word (by decide) (breaks_separator _)
      rw [tail, List.cons_append, List.append_assoc, List.cons_append, Facet.keyword?, next]
      rfl
  | _ => exact closes.keyword?

/-- An operand that begins with a field is no group. -/
theorem ne_group_of_field? {outline : Outline} {field : String} {rest more : List Char}
    (led : outline.field? = some field) (legible : outline.IsLegible) (closes : Closes rest) :
    outline.operandChars ++ rest ≠ '(' :: more := by
  intro same
  obtain ⟨word, _⟩ := isFieldWord_of_field? led legible
  rw [operandChars_of_field? led, List.append_assoc] at same
  have opens : Breaks ('(' :: more) := (by decide : isPlain '(' = false)
  have tails := (Text.IsWordRow.append_inj word (Text.isWordRow_nil isPlain)
    (outline.breaks_tail closes) opens same).2
  exact outline.tail_ne_open closes tails

/-- An operand that begins with a field is no negation. -/
theorem ne_negation_of_field? {outline : Outline} {field : String} {rest more : List Char}
    (led : outline.field? = some field) (legible : outline.IsLegible) (closes : Closes rest) :
    outline.operandChars ++ rest ≠ "Not".toList ++ '_' :: more := by
  intro same
  obtain ⟨word, notNegation⟩ := isFieldWord_of_field? led legible
  rw [operandChars_of_field? led, List.append_assoc] at same
  have negationWord : IsPlainRow "Not".toList := by decide
  have words := (Text.IsWordRow.append_inj word negationWord (outline.breaks_tail closes)
    (breaks_separator more) same).1
  exact notNegation (String.toList_inj.mp words)

/-- If an operand begins with a field, this field and what is said of it can be read off. -/
theorem field_read {outline other : Outline} {field : String} {rest otherRest : List Char}
    (led : outline.field? = some field) (legible : outline.IsLegible)
    (otherLegible : other.IsLegible) (closes : Closes rest) (otherCloses : Closes otherRest)
    (same : outline.operandChars ++ rest = other.operandChars ++ otherRest) :
    other.field? = some field ∧ outline.keyword? = other.keyword? ∧
      outline.tail ++ rest = other.tail ++ otherRest := by
  cases otherLed : other.field? with
  | some otherField =>
      obtain ⟨word, _⟩ := isFieldWord_of_field? led legible
      obtain ⟨otherWord, _⟩ := isFieldWord_of_field? otherLed otherLegible
      rw [operandChars_of_field? led, operandChars_of_field? otherLed, List.append_assoc,
        List.append_assoc] at same
      obtain ⟨fields, tails⟩ := Text.IsWordRow.append_inj word otherWord
        (outline.breaks_tail closes) (other.breaks_tail otherCloses) same
      refine ⟨congrArg some (String.toList_inj.mp fields).symm, ?_, tails⟩
      rw [← outline.keyword?_tail closes, tails, other.keyword?_tail otherCloses]
  | none =>
      exfalso
      cases other with
      | join _ _ _ => exact ne_group_of_field? led legible closes same
      | negation inner =>
          exact ne_negation_of_field? led legible closes (same.trans (List.append_assoc _ _ _))
      | _ => cases otherLed

/-- Outlines with the same field and the same word after it are of one kind. -/
theorem same_kind {outline other : Outline} {field : String} (led : outline.field? = some field)
    (otherLed : other.field? = some field) (keywords : outline.keyword? = other.keyword?) :
    (∃ operator text otherText, outline = .operation field operator text ∧
        other = .operation field operator otherText) ∨
      (outline = .truth field ∧ other = .truth field) ∨
      (outline = .present field ∧ other = .present field) ∨
      ∃ inner otherInner, outline = .any field inner ∧ other = .any field otherInner := by
  cases outline with
  | join _ _ _ | negation _ => cases led
  | operation _ operator _ =>
      cases led
      cases other with
      | join _ _ _ | negation _ => cases otherLed
      | operation _ _ _ =>
          cases otherLed
          have names := String.toList_inj.mp (Option.some.inj keywords)
          cases Operator.name_injective names
          exact Or.inl ⟨operator, _, _, rfl, rfl⟩
      | truth _ => cases keywords
      | present _ => exact absurd (Option.some.inj keywords) operator.name_ne_keyword.1
      | any _ _ => exact absurd (Option.some.inj keywords) operator.name_ne_keyword.2
  | truth _ =>
      cases led
      cases other with
      | join _ _ _ | negation _ => cases otherLed
      | truth _ =>
          cases otherLed
          exact Or.inr (Or.inl ⟨rfl, rfl⟩)
      | _ => cases keywords
  | present _ =>
      cases led
      cases other with
      | join _ _ _ | negation _ => cases otherLed
      | operation _ operator _ =>
          exact absurd (Option.some.inj keywords.symm) operator.name_ne_keyword.1
      | truth _ => cases keywords
      | present _ =>
          cases otherLed
          exact Or.inr (Or.inr (Or.inl ⟨rfl, rfl⟩))
      | any _ _ => exact absurd (Option.some.inj keywords) (by decide)
  | any _ _ =>
      cases led
      cases other with
      | join _ _ _ | negation _ => cases otherLed
      | operation _ operator _ =>
          exact absurd (Option.some.inj keywords.symm) operator.name_ne_keyword.2
      | truth _ => cases keywords
      | present _ => exact absurd (Option.some.inj keywords) (by decide)
      | any _ _ =>
          cases otherLed
          exact Or.inr (Or.inr (Or.inr ⟨_, _, rfl, rfl⟩))

/-! ### Spines -/

/-- The leftmost operand of a chain; an outline that is no join is its own. -/
def head : Outline → Outline
  | .join connective left _ => if left.connective? = some connective then left.head else left
  | outline => outline

/-- The operands after the leftmost one, each with the connective before it. -/
def steps : Outline → List (Connective × Outline)
  | .join connective left right =>
      (if left.connective? = some connective then left.steps else []) ++ [(connective, right)]
  | _ => []

/-- A row of operands as a chain that leans to the left. -/
def chain (first : Outline) (steps : List (Connective × Outline)) : Outline :=
  steps.foldl (fun outline step => .join step.1 outline step.2) first

/-- A connective and the operand after it. -/
def stepChars (step : Connective × Outline) : List Char :=
  '_' :: (step.1.signatureName.toList ++ '_' :: step.2.operandChars)

/-- An outline is the chain of its operands. -/
theorem chain_spine (outline : Outline) : chain outline.head outline.steps = outline := by
  induction outline with
  | join connective left right leftHypothesis _ =>
      unfold head steps
      split
      · calc chain left.head (left.steps ++ [(connective, right)])
            = .join connective (chain left.head left.steps) right := List.foldl_append
          _ = .join connective left right := by rw [leftHypothesis]
      · rfl
  | _ => rfl

/-- An outline is spelled by its operands in a row. -/
theorem chars_spine (outline : Outline) :
    outline.chars = outline.head.operandChars ++ outline.steps.flatMap stepChars := by
  induction outline with
  | join connective left right leftHypothesis _ =>
      unfold chars chained head steps
      split
      · simp [leftHypothesis, stepChars, operandChars]
      · simp [stepChars, operandChars]
  | _ => exact (List.append_nil _).symm

private theorem isLegible_head {outline : Outline} (legible : outline.IsLegible) :
    outline.head.IsLegible := by
  induction outline with
  | join connective left right leftHypothesis _ =>
      unfold head
      split
      · exact leftHypothesis legible.1
      · exact legible.1
  | _ => exact legible

private theorem isLegible_of_mem_steps {outline : Outline} (legible : outline.IsLegible) :
    ∀ step ∈ outline.steps, step.2.IsLegible := by
  induction outline with
  | join connective left right leftHypothesis _ =>
      unfold steps
      refine List.forall_mem_append.mpr ⟨?_, List.forall_mem_singleton.mpr legible.2⟩
      split
      · exact leftHypothesis legible.1
      · exact fun _ member => absurd member List.not_mem_nil
  | _ => exact fun _ member => absurd member List.not_mem_nil

/-! ### Operands are read in one way -/

/-- Before anything that may follow an operand, only this outline has these characters as an
operand. -/
def ReadsOff (outline : Outline) : Prop :=
  ∀ {other : Outline} {rest otherRest : List Char}, other.IsLegible → Closes rest →
    Closes otherRest → outline.operandChars ++ rest = other.operandChars ++ otherRest →
      outline = other ∧ rest = otherRest

/-- What ends a chain: nothing, or a closing parenthesis. -/
inductive Stops : List Char → Prop where
  | finish : Stops []
  | group (more : List Char) : Stops (')' :: more)

private theorem Stops.closes {rest : List Char} (stops : Stops rest) : Closes rest := by
  cases stops with
  | finish => exact .finish
  | group more => exact .group more

private theorem Stops.ne_separator {rest more : List Char} (stops : Stops rest) :
    rest ≠ '_' :: more := by
  intro same
  cases stops with
  | finish => cases same
  | group _ => exact absurd (List.cons.inj same).1 (by decide)

private theorem closes_steps (steps : List (Connective × Outline)) {rest : List Char}
    (stops : Stops rest) : Closes (steps.flatMap stepChars ++ rest) := by
  cases steps with
  | nil => exact stops.closes
  | cons step more =>
      have follows := Closes.connective step.1 (step.2.operandChars ++
        (more.flatMap stepChars ++ rest))
      simpa [stepChars] using follows

/-- The steps of a chain are read off one after the other. -/
theorem steps_read {steps others : List (Connective × Outline)} {rest otherRest : List Char}
    (reads : ∀ step ∈ steps, step.2.ReadsOff) (legible : ∀ step ∈ others, step.2.IsLegible)
    (stops : Stops rest) (otherStops : Stops otherRest)
    (same : steps.flatMap stepChars ++ rest = others.flatMap stepChars ++ otherRest) :
    steps = others ∧ rest = otherRest := by
  induction steps generalizing others with
  | nil =>
      -- Where one row has ended the other cannot go on, since a step begins with a separator.
      cases others with
      | nil => exact ⟨rfl, same⟩
      | cons other more => exact absurd same stops.ne_separator
  | cons step more inductionHypothesis =>
      cases others with
      | nil => exact absurd same.symm otherStops.ne_separator
      | cons other moreOthers =>
          obtain ⟨connective, operand⟩ := step
          obtain ⟨otherConnective, otherOperand⟩ := other
          simp only [List.flatMap_cons, stepChars, List.cons_append, List.append_assoc,
            List.cons.injEq, true_and] at same
          obtain ⟨names, operands⟩ := Text.IsWordRow.append_inj connective.isPlainRow
            otherConnective.isPlainRow (breaks_separator _) (breaks_separator _) same
          have connectives : connective = otherConnective := by
            cases connective <;> cases otherConnective <;>
              first | rfl | exact absurd names (by decide)
          have operandRead : operand.ReadsOff := reads (connective, operand) List.mem_cons_self
          have operandLegible := legible (otherConnective, otherOperand) List.mem_cons_self
          obtain ⟨operandSame, restSame⟩ := operandRead operandLegible (closes_steps more stops)
            (closes_steps moreOthers otherStops) (List.cons.inj operands).2
          obtain ⟨moreSame, ends⟩ := inductionHypothesis
            (fun step member => reads step (List.mem_cons_of_mem _ member))
            (fun step member => legible step (List.mem_cons_of_mem _ member)) restSame
          exact ⟨by rw [connectives, operandSame, moreSame], ends⟩

/-- An outline whose operands are read off is read off itself where a chain may end. -/
theorem spine_read {outline other : Outline} {rest otherRest : List Char}
    (headReads : outline.head.ReadsOff) (stepsRead : ∀ step ∈ outline.steps, step.2.ReadsOff)
    (legible : other.IsLegible) (stops : Stops rest) (otherStops : Stops otherRest)
    (same : outline.chars ++ rest = other.chars ++ otherRest) :
    outline = other ∧ rest = otherRest := by
  rw [outline.chars_spine, other.chars_spine, List.append_assoc, List.append_assoc] at same
  obtain ⟨heads, tails⟩ := headReads (isLegible_head legible) (closes_steps _ stops)
    (closes_steps _ otherStops) same
  obtain ⟨steps, ends⟩ :=
    steps_read stepsRead (isLegible_of_mem_steps legible) stops otherStops tails
  refine ⟨?_, ends⟩
  calc outline = chain outline.head outline.steps := outline.chain_spine.symm
    _ = chain other.head other.steps := by rw [heads, steps]
    _ = other := other.chain_spine

/-- A join is read off if its operands are. -/
theorem readsOff_join {connective : Connective} {left right : Outline}
    (headReads : (join connective left right).head.ReadsOff)
    (stepsRead : ∀ step ∈ (join connective left right).steps, step.2.ReadsOff) :
    (join connective left right).ReadsOff := by
  intro other rest otherRest legible closes otherCloses same
  cases other with
  | join otherConnective otherLeft otherRight =>
      have inner : (join connective left right).chars ++ ')' :: rest =
          (join otherConnective otherLeft otherRight).chars ++ ')' :: otherRest := by
        simpa [operandChars, grouped, connective?] using same
      obtain ⟨outlines, ends⟩ :=
        spine_read headReads stepsRead legible (.group rest) (.group otherRest) inner
      exact ⟨outlines, (List.cons.inj ends).2⟩
  | negation _ => exact absurd (List.cons.inj same).1 (by decide)
  | _ => exact absurd same.symm (ne_group_of_field? rfl legible otherCloses)

private theorem readsOff_negation {inner : Outline} (innerReads : inner.ReadsOff) :
    (negation inner).ReadsOff := by
  intro other rest otherRest legible closes otherCloses same
  have spelled : (negation inner).operandChars ++ rest =
      "Not".toList ++ '_' :: (inner.operandChars ++ rest) := List.append_assoc _ _ _
  cases other with
  | join _ _ _ => exact absurd (List.cons.inj same).1 (by decide)
  | negation otherInner =>
      have operands := List.append_cancel_left
        (spelled.symm.trans (same.trans (List.append_assoc _ _ _)))
      have otherLegible : otherInner.IsLegible := legible
      obtain ⟨inners, ends⟩ :=
        innerReads otherLegible closes otherCloses (List.cons.inj operands).2
      exact ⟨congrArg negation inners, ends⟩
  | _ =>
      exact absurd (same.symm.trans spelled) (ne_negation_of_field? rfl legible otherCloses)

private theorem readsOff_of_field? {outline : Outline} {field : String}
    (led : outline.field? = some field) (legible : outline.IsLegible)
    (innerReads : ∀ inner, outline = .any field inner → inner.ReadsOff) :
    outline.ReadsOff := by
  intro other rest otherRest otherLegible closes otherCloses same
  obtain ⟨otherLed, keywords, tails⟩ :=
    field_read led legible otherLegible closes otherCloses same
  rcases same_kind led otherLed keywords with ⟨operator, text, otherText, rfl, rfl⟩ | ⟨rfl, rfl⟩ |
    ⟨rfl, rfl⟩ | ⟨inner, otherInner, rfl, rfl⟩
  · simp only [tail, List.cons_append, List.append_assoc, List.cons.injEq,
      List.append_cancel_left_eq, true_and] at tails
    obtain ⟨texts, ends⟩ := Text.IsWordRow.append_inj legible.2 otherLegible.2 closes.breaks
      otherCloses.breaks tails
    exact ⟨by rw [String.toList_inj.mp texts], ends⟩
  · exact ⟨rfl, tails⟩
  · exact ⟨rfl, List.append_cancel_left tails⟩
  · simp only [tail, List.cons_append, List.append_assoc, List.cons.injEq,
      List.append_cancel_left_eq, true_and] at tails
    have reads : inner.ReadsOff := innerReads inner rfl
    obtain ⟨inners, ends⟩ := reads otherLegible.2 closes otherCloses tails
    exact ⟨congrArg (any field) inners, ends⟩

/-- **Operands are read in one way.** By induction on the outline: with an outline its operands
in a chain are read off, since a join is not read as a whole but along its spine. -/
theorem readsOff_spine {outline : Outline} (legible : outline.IsLegible) :
    outline.ReadsOff ∧ outline.head.ReadsOff ∧ ∀ step ∈ outline.steps, step.2.ReadsOff := by
  induction outline with
  | join connective left right leftHypothesis rightHypothesis =>
      obtain ⟨leftReads, leftHead, leftSteps⟩ := leftHypothesis legible.1
      obtain ⟨rightReads, _⟩ := rightHypothesis legible.2
      have headReads : (join connective left right).head.ReadsOff := by
        unfold head
        split
        · exact leftHead
        · exact leftReads
      have stepsRead : ∀ step ∈ (join connective left right).steps, step.2.ReadsOff := by
        unfold steps
        refine List.forall_mem_append.mpr ⟨?_, List.forall_mem_singleton.mpr rightReads⟩
        split
        · exact leftSteps
        · exact fun _ member => absurd member List.not_mem_nil
      exact ⟨readsOff_join headReads stepsRead, headReads, stepsRead⟩
  | negation inner innerHypothesis =>
      have innerReads : inner.ReadsOff := (innerHypothesis legible).1
      have reads : (negation inner).ReadsOff := readsOff_negation innerReads
      exact ⟨reads, reads, fun _ member => absurd member List.not_mem_nil⟩
  | any collection inner innerHypothesis =>
      have reads : (any collection inner).ReadsOff :=
        readsOff_of_field? rfl legible fun _ same => by
          cases same
          exact (innerHypothesis legible.2).1
      exact ⟨reads, reads, fun _ member => absurd member List.not_mem_nil⟩
  | operation field operator text =>
      have reads : (operation field operator text).ReadsOff := readsOff_of_field? rfl legible nofun
      exact ⟨reads, reads, fun _ member => absurd member List.not_mem_nil⟩
  | truth field =>
      have reads : (truth field).ReadsOff := readsOff_of_field? rfl legible nofun
      exact ⟨reads, reads, fun _ member => absurd member List.not_mem_nil⟩
  | present field =>
      have reads : (present field).ReadsOff := readsOff_of_field? rfl legible nofun
      exact ⟨reads, reads, fun _ member => absurd member List.not_mem_nil⟩

/-- A legible outline is determined by its characters. -/
theorem eq_of_chars_eq {outline other : Outline} (legible : outline.IsLegible)
    (otherLegible : other.IsLegible) (same : outline.chars = other.chars) : outline = other := by
  obtain ⟨_, headReads, stepsRead⟩ := readsOff_spine legible
  have ended : outline.chars ++ [] = other.chars ++ [] := congrArg (· ++ []) same
  exact (spine_read headReads stepsRead otherLegible .finish .finish ended).1

end Outline

/-! ### Signatures -/

namespace Predicate

/-- **Signatures are unambiguous.** Two legible predicates have the same signature exactly if
they have the same structure. -/
theorem signature_eq_iff_sameStructure {first second : Predicate}
    {signature signature₂ : String} (firstLegible : first.IsLegible)
    (secondLegible : second.IsLegible) (firstSigned : first.signature = .ok signature)
    (secondSigned : second.signature = .ok signature₂) :
    signature = signature₂ ↔ SameStructure first second := by
  obtain ⟨outline, outlines, legible, spelled⟩ := toList_signature firstSigned firstLegible
  obtain ⟨outline₂, outlines₂, legible₂, spelled₂⟩ := toList_signature secondSigned secondLegible
  constructor
  · intro same
    have chars : outline.chars = outline₂.chars := by rw [← spelled, ← spelled₂, same]
    rw [Outline.eq_of_chars_eq legible legible₂ chars] at outlines
    exact sameStructure_iff.mpr ⟨outline₂, outlines, outlines₂⟩
  · intro same
    obtain ⟨common, firstOutlines, secondOutlines⟩ := same.outlines
    have firstSignature := signature_eq_ok_iff.mpr ⟨common, firstOutlines, rfl⟩
    have secondSignature := signature_eq_ok_iff.mpr ⟨common, secondOutlines, rfl⟩
    rw [firstSigned] at firstSignature
    rw [secondSigned] at secondSignature
    exact (Except.ok.inj firstSignature).trans (Except.ok.inj secondSignature).symm

/-- A property that is open may be called as a named field, and two may be written as a text. -/
theorem signature_of_same_texts :
    let first := Predicate.not (.and (.flag (.property "IsOpen"))
      (.compare ⟨.greater, .property "X", .integer 2⟩))
    let second := Predicate.not (.and (.holds (.named .root (.literal "isOpen")))
      (.compare ⟨.greater, .property "X", .string "2"⟩))
    first.signature = .ok "Not_(isOpen_AndAlso_x_GreaterThan_2)" ∧
      second.signature = .ok "Not_(isOpen_AndAlso_x_GreaterThan_2)" ∧
      SameStructure first second := by
  intro first second
  have opens : IsFieldWord "isOpen" := by decide
  have bound : IsFieldWord "x" := by decide
  have two : IsWord "2" := by decide
  have firstLegible : first.IsLegible := by
    refine ⟨fun wire resolved => ?_, fun wire resolved => ?_, fun context text valued => ?_⟩
    · cases resolved
      exact opens
    · cases resolved
      exact bound
    · cases valued
      exact two
  have secondLegible : second.IsLegible := by
    refine ⟨fun wire resolved => ?_, fun wire resolved => ?_, fun context text valued => ?_⟩
    · cases resolved
      exact opens
    · cases resolved
      exact bound
    · cases valued
      exact two
  have firstSigned : first.signature = .ok "Not_(isOpen_AndAlso_x_GreaterThan_2)" := rfl
  have secondSigned : second.signature = .ok "Not_(isOpen_AndAlso_x_GreaterThan_2)" := rfl
  exact ⟨firstSigned, secondSigned,
    (signature_eq_iff_sameStructure firstLegible secondLegible firstSigned secondSigned).mp rfl⟩

/-- Texts with separators can be taken for other predicates. -/
example :
    (Predicate.equals (.property "X") (.string "a_AndAlso_y")).signature =
      (Predicate.and (.equals (.property "X") (.string "a")) (.flag (.property "Y"))).signature :=
  rfl

end Predicate

end Facet
