import Facet.Predicate.Signature
import Facet.Proofs.Outcome
import Facet.Proofs.Text.Words

/-!
What signatures tell of predicates.

A signature names the fields and the literals of a predicate by their texts, and does not say
whether a boolean field is a property or a named field. What is left of a predicate is its
outline.

Owns:
- `Outline`, the characters that spell an outline, and `Predicate.Outlines`, the outline of a
  predicate;
- that a predicate is spelled by its outline, if it has a signature at all;
- predicates of the same structure, which are those with the same outline;
- legible predicates, whose names and texts have no character with a meaning of its own in
  signatures, and that their signatures are not changed any further.

Does not own: that a spelling has only one outline.
-/

namespace Facet

/-! ### Outlines -/

/-- What stands between a field and a literal. -/
inductive Operator where
  | equal
  | notEqual
  | compared (comparator : Comparator)
deriving DecidableEq, Repr

namespace Operator

def name : Operator → String
  | .equal => "Equal"
  | .notEqual => "NotEqual"
  | .compared comparator => comparator.signatureName

/-- Operators are told apart by their names. -/
theorem name_injective {first second : Operator} (same : first.name = second.name) :
    first = second := by
  rcases first with _ | _ | ⟨_ | _ | _ | _⟩ <;> rcases second with _ | _ | ⟨_ | _ | _ | _⟩ <;>
    first | rfl | exact absurd same (by decide)

end Operator

open Predicate (Connective)

/-- A predicate without what its signature does not tell. -/
inductive Outline where
  | join (connective : Connective) (left right : Outline)
  | negation (inner : Outline)
  | operation (field : String) (operator : Operator) (text : String)
  | truth (field : String)
  | present (field : String)
  | any (collection : String) (inner : Outline)
deriving DecidableEq, Repr

namespace Outline

/-- The connective of an outline, if it is a join. -/
def connective? : Outline → Option Connective
  | .join connective _ _ => some connective
  | _ => none

/-- Characters in parentheses, if they spell a join. -/
def grouped (outline : Outline) (chars : List Char) : List Char :=
  if outline.connective?.isSome then '(' :: (chars ++ [')']) else chars

/-- The left operand of a connective: a chain goes on without parentheses. -/
def chained (connective : Connective) (outline : Outline) (chars : List Char) : List Char :=
  if outline.connective? = some connective then chars else outline.grouped chars

/-- The characters that spell an outline. -/
def chars : Outline → List Char
  | .join connective left right =>
      left.chained connective left.chars ++
        '_' :: (connective.signatureName.toList ++ '_' :: right.grouped right.chars)
  | .negation inner => "Not".toList ++ '_' :: inner.grouped inner.chars
  | .operation field operator text =>
      field.toList ++ '_' :: (operator.name.toList ++ '_' :: text.toList)
  | .truth field => field.toList
  | .present field => field.toList ++ '_' :: "HasValue".toList
  | .any collection inner =>
      collection.toList ++ '_' :: ("Any".toList ++ '_' :: inner.grouped inner.chars)

end Outline

namespace Predicate

/-- The texts of a field and of a literal. -/
structure Texts (field : FieldExpr) (value : Literal) (wire text : String) : Prop where
  field : field.wire = .ok wire
  value : value.signatureText wire = .ok text

/-- The outline of a predicate. Calls have none. -/
inductive Outlines : Predicate → Outline → Prop where
  | and {left right : Predicate} {leftOutline rightOutline : Outline}
      (leftOutlines : Outlines left leftOutline) (rightOutlines : Outlines right rightOutline) :
      Outlines (.and left right) (.join .and leftOutline rightOutline)
  | or {left right : Predicate} {leftOutline rightOutline : Outline}
      (leftOutlines : Outlines left leftOutline) (rightOutlines : Outlines right rightOutline) :
      Outlines (.or left right) (.join .or leftOutline rightOutline)
  | not {inner : Predicate} {innerOutline : Outline}
      (innerOutlines : Outlines inner innerOutline) :
      Outlines (.not inner) (.negation innerOutline)
  | compare {comparator : Comparator} {field : FieldExpr} {value : Literal} {wire text : String}
      (texts : Texts field value wire text) :
      Outlines (.compare ⟨comparator, field, value⟩) (.operation wire (.compared comparator) text)
  | equals {field : FieldExpr} {value : Literal} {wire text : String}
      (texts : Texts field value wire text) :
      Outlines (.equals field value) (.operation wire .equal text)
  | notEquals {field : FieldExpr} {value : Literal} {wire text : String}
      (texts : Texts field value wire text) :
      Outlines (.notEquals field value) (.operation wire .notEqual text)
  | flag {field : FieldExpr} {wire : String} (resolved : field.wire = .ok wire) :
      Outlines (.flag field) (.truth wire)
  | holds {field : FieldExpr} {wire : String} (resolved : field.wire = .ok wire) :
      Outlines (.holds field) (.truth wire)
  | present {field : FieldExpr} {wire : String} (resolved : field.wire = .ok wire) :
      Outlines (.present field) (.present wire)
  | any {collection : FieldExpr} {inner : Predicate} {wire : String} {innerOutline : Outline}
      (resolved : collection.wire = .ok wire) (innerOutlines : Outlines inner innerOutline) :
      Outlines (.any collection inner) (.any wire innerOutline)

/-! ### Spellings -/

private theorem Outlines.connective? {predicate : Predicate} {outline : Outline}
    (outlines : Outlines predicate outline) :
    predicate.connective? = outline.connective? := by
  cases outlines <;> rfl

private theorem toList_grouped {predicate : Predicate} {outline : Outline}
    (outlines : Outlines predicate outline) {spelling : String}
    (spelled : spelling.toList = outline.chars) :
    (grouped predicate spelling).toList = outline.grouped outline.chars := by
  unfold grouped Outline.grouped
  rw [outlines.connective?]
  split
  · simp [toString, spelled]
  · exact spelled

private theorem toList_chained {predicate : Predicate} {outline : Outline}
    (outlines : Outlines predicate outline) {spelling : String}
    (spelled : spelling.toList = outline.chars) (connective : Connective) :
    (chained connective predicate spelling).toList =
      outline.chained connective outline.chars := by
  unfold chained Outline.chained
  rw [outlines.connective?]
  split
  · exact spelled
  · exact toList_grouped outlines spelled

private theorem toList_operation (wire name text : String) :
    s!"{wire}_{name}_{text}".toList =
      wire.toList ++ '_' :: (name.toList ++ '_' :: text.toList) := by
  simp [toString]

private theorem operation_of_texts {field : FieldExpr} {value : Literal} {wire text : String}
    (texts : Texts field value wire text) (name : String) :
    operation field name value =
      .ok (String.ofList (wire.toList ++ '_' :: (name.toList ++ '_' :: text.toList))) := by
  rw [operation, texts.field, Outcome.ok_bind, texts.value, ← toList_operation,
    String.ofList_toList]
  rfl

private theorem texts_of_operation {field : FieldExpr} {name : String} {value : Literal}
    {spelling : String} (spelled : operation field name value = .ok spelling) :
    ∃ wire text, Texts field value wire text := by
  obtain ⟨wire, resolved, rest⟩ := Outcome.bind_eq_ok.mp spelled
  obtain ⟨text, valued, _⟩ := Outcome.bind_eq_ok.mp rest
  exact ⟨wire, text, resolved, valued⟩

/-- A predicate with an outline is spelled by it. -/
theorem spelling_of_outlines {predicate : Predicate} {outline : Outline}
    (outlines : Outlines predicate outline) :
    predicate.spelling = .ok (String.ofList outline.chars) := by
  induction outlines with
  | and leftOutlines rightOutlines leftSpelled rightSpelled
  | or leftOutlines rightOutlines leftSpelled rightSpelled =>
      rw [spelling, leftSpelled, Outcome.ok_bind, rightSpelled, Outcome.ok_bind]
      refine congrArg Except.ok (String.toList_inj.mp ?_)
      simp [toString, Outline.chars, Connective.signatureName,
        toList_chained leftOutlines String.toList_ofList,
        toList_grouped rightOutlines String.toList_ofList]
  | not innerOutlines innerSpelled =>
      rw [spelling, innerSpelled, Outcome.ok_bind]
      refine congrArg Except.ok (String.toList_inj.mp ?_)
      simp [toString, Outline.chars, toList_grouped innerOutlines String.toList_ofList]
  | compare texts | equals texts | notEquals texts => exact operation_of_texts texts _
  | flag resolved | holds resolved =>
      rw [spelling, resolved, Outline.chars, String.ofList_toList]
  | present resolved =>
      rw [spelling, resolved, Outcome.ok_bind]
      refine congrArg Except.ok (String.toList_inj.mp ?_)
      simp [toString, Outline.chars]
  | any resolved innerOutlines innerSpelled =>
      rw [spelling, resolved, Outcome.ok_bind, innerSpelled, Outcome.ok_bind]
      refine congrArg Except.ok (String.toList_inj.mp ?_)
      simp [toString, Outline.chars, toList_grouped innerOutlines String.toList_ofList]

/-- Whatever is spelled has an outline. -/
theorem outlines_of_spelling {predicate : Predicate} {spelling : String}
    (spelled : predicate.spelling = .ok spelling) : ∃ outline, Outlines predicate outline := by
  induction predicate generalizing spelling with
  | and left right leftHypothesis rightHypothesis =>
      obtain ⟨_, leftSpelled, rest⟩ := Outcome.bind_eq_ok.mp spelled
      obtain ⟨_, rightSpelled, _⟩ := Outcome.bind_eq_ok.mp rest
      obtain ⟨_, leftOutlines⟩ := leftHypothesis leftSpelled
      obtain ⟨_, rightOutlines⟩ := rightHypothesis rightSpelled
      exact ⟨_, .and leftOutlines rightOutlines⟩
  | or left right leftHypothesis rightHypothesis =>
      obtain ⟨_, leftSpelled, rest⟩ := Outcome.bind_eq_ok.mp spelled
      obtain ⟨_, rightSpelled, _⟩ := Outcome.bind_eq_ok.mp rest
      obtain ⟨_, leftOutlines⟩ := leftHypothesis leftSpelled
      obtain ⟨_, rightOutlines⟩ := rightHypothesis rightSpelled
      exact ⟨_, .or leftOutlines rightOutlines⟩
  | not inner innerHypothesis =>
      obtain ⟨_, innerSpelled, _⟩ := Outcome.bind_eq_ok.mp spelled
      obtain ⟨_, innerOutlines⟩ := innerHypothesis innerSpelled
      exact ⟨_, .not innerOutlines⟩
  | compare comparison =>
      obtain ⟨_, _, texts⟩ := texts_of_operation spelled
      exact ⟨_, .compare texts⟩
  | equals field value =>
      obtain ⟨_, _, texts⟩ := texts_of_operation spelled
      exact ⟨_, .equals texts⟩
  | notEquals field value =>
      obtain ⟨_, _, texts⟩ := texts_of_operation spelled
      exact ⟨_, .notEquals texts⟩
  | flag field => exact ⟨_, .flag spelled⟩
  | holds field => exact ⟨_, .holds spelled⟩
  | present field =>
      obtain ⟨_, resolved, _⟩ := Outcome.bind_eq_ok.mp spelled
      exact ⟨_, .present resolved⟩
  | any collection inner innerHypothesis =>
      obtain ⟨_, resolved, rest⟩ := Outcome.bind_eq_ok.mp spelled
      obtain ⟨_, innerSpelled, _⟩ := Outcome.bind_eq_ok.mp rest
      obtain ⟨_, innerOutlines⟩ := innerHypothesis innerSpelled
      exact ⟨_, .any resolved innerOutlines⟩
  | call target method => cases spelled

/-- **A signature is made from an outline.** -/
theorem signature_eq_ok_iff {predicate : Predicate} {signature : String} :
    predicate.signature = .ok signature ↔
      ∃ outline, Outlines predicate outline ∧
        signature = sanitize (String.ofList outline.chars) := by
  unfold Predicate.signature
  simp only [Outcome.bind_eq_ok, Outcome.pure_eq_ok]
  constructor
  · rintro ⟨spelling, spelled, same⟩
    obtain ⟨outline, outlines⟩ := outlines_of_spelling spelled
    rw [spelling_of_outlines outlines] at spelled
    cases spelled
    exact ⟨outline, outlines, same.symm⟩
  · rintro ⟨outline, outlines, same⟩
    exact ⟨_, spelling_of_outlines outlines, same.symm⟩

/-! ### The same structure -/

end Predicate

/-- Two fields have the same text. -/
def FieldExpr.SameWire (first second : FieldExpr) : Prop :=
  ∃ wire, first.wire = .ok wire ∧ second.wire = .ok wire

/-- The text of a literal does not depend on where it stands. -/
theorem Literal.signatureText_of_ok {literal : Literal} {context text : String}
    (valued : literal.signatureText context = .ok text) (other : String) :
    literal.signatureText other = .ok text := by
  cases literal with
  | bytes _ | list _ => cases valued
  | _ => exact valued

/-- Two literals have the same text in signatures. -/
def Literal.SameText (first second : Literal) : Prop :=
  ∃ text, ∀ context,
    first.signatureText context = .ok text ∧ second.signatureText context = .ok text

namespace Predicate

/-- The field that a predicate requires to be true, if it is a boolean property or a named field
called as a condition. -/
def truthField? : Predicate → Option FieldExpr
  | .flag field => some field
  | .holds field => some field
  | _ => none

/-- Predicates of the same structure are equal except that a field may stand for another with
the same text, a literal for another with the same text, and a named field called as a condition
for a boolean property. -/
inductive SameStructure : Predicate → Predicate → Prop where
  | and {left right left₂ right₂ : Predicate} (lefts : SameStructure left left₂)
      (rights : SameStructure right right₂) :
      SameStructure (.and left right) (.and left₂ right₂)
  | or {left right left₂ right₂ : Predicate} (lefts : SameStructure left left₂)
      (rights : SameStructure right right₂) :
      SameStructure (.or left right) (.or left₂ right₂)
  | not {inner inner₂ : Predicate} (inners : SameStructure inner inner₂) :
      SameStructure (.not inner) (.not inner₂)
  | compare {comparator : Comparator} {field field₂ : FieldExpr} {value value₂ : Literal}
      (fields : field.SameWire field₂) (values : value.SameText value₂) :
      SameStructure (.compare ⟨comparator, field, value⟩) (.compare ⟨comparator, field₂, value₂⟩)
  | equals {field field₂ : FieldExpr} {value value₂ : Literal}
      (fields : field.SameWire field₂) (values : value.SameText value₂) :
      SameStructure (.equals field value) (.equals field₂ value₂)
  | notEquals {field field₂ : FieldExpr} {value value₂ : Literal}
      (fields : field.SameWire field₂) (values : value.SameText value₂) :
      SameStructure (.notEquals field value) (.notEquals field₂ value₂)
  | truth {first second : Predicate} {field field₂ : FieldExpr}
      (firstField : first.truthField? = some field)
      (secondField : second.truthField? = some field₂) (fields : field.SameWire field₂) :
      SameStructure first second
  | present {field field₂ : FieldExpr} (fields : field.SameWire field₂) :
      SameStructure (.present field) (.present field₂)
  | any {collection collection₂ : FieldExpr} {inner inner₂ : Predicate}
      (collections : collection.SameWire collection₂) (inners : SameStructure inner inner₂) :
      SameStructure (.any collection inner) (.any collection₂ inner₂)

private theorem Texts.sameText {field field₂ : FieldExpr} {value value₂ : Literal}
    {wire text : String} (first : Texts field value wire text)
    (second : Texts field₂ value₂ wire text) :
    value.SameText value₂ :=
  ⟨text, fun context => ⟨Literal.signatureText_of_ok first.value context,
    Literal.signatureText_of_ok second.value context⟩⟩

private theorem Texts.sameWire {field field₂ : FieldExpr} {value value₂ : Literal}
    {wire text : String} (first : Texts field value wire text)
    (second : Texts field₂ value₂ wire text) :
    field.SameWire field₂ :=
  ⟨wire, first.field, second.field⟩

/-- Fields and literals with the same texts have texts in common. -/
theorem texts_of_same {field field₂ : FieldExpr} {value value₂ : Literal}
    (fields : field.SameWire field₂) (values : value.SameText value₂) :
    ∃ wire text, Texts field value wire text ∧ Texts field₂ value₂ wire text := by
  obtain ⟨wire, first, second⟩ := fields
  obtain ⟨text, valued⟩ := values
  exact ⟨wire, text, ⟨first, (valued wire).1⟩, ⟨second, (valued wire).2⟩⟩

private theorem outlines_of_truthField? {predicate : Predicate} {field : FieldExpr} {wire : String}
    (found : predicate.truthField? = some field) (resolved : field.wire = .ok wire) :
    Outlines predicate (.truth wire) := by
  cases predicate with
  | flag _ =>
      cases found
      exact .flag resolved
  | holds _ =>
      cases found
      exact .holds resolved
  | _ => cases found

private theorem truthField?_of_outlines {predicate : Predicate} {wire : String}
    (outlines : Outlines predicate (.truth wire)) :
    ∃ field, predicate.truthField? = some field ∧ field.wire = .ok wire := by
  cases outlines with
  | flag resolved | holds resolved => exact ⟨_, rfl, resolved⟩

theorem SameStructure.outlines {first second : Predicate} (same : SameStructure first second) :
    ∃ outline, Outlines first outline ∧ Outlines second outline := by
  induction same with
  | and _ _ leftHypothesis rightHypothesis =>
      obtain ⟨_, left, left₂⟩ := leftHypothesis
      obtain ⟨_, right, right₂⟩ := rightHypothesis
      exact ⟨_, .and left right, .and left₂ right₂⟩
  | or _ _ leftHypothesis rightHypothesis =>
      obtain ⟨_, left, left₂⟩ := leftHypothesis
      obtain ⟨_, right, right₂⟩ := rightHypothesis
      exact ⟨_, .or left right, .or left₂ right₂⟩
  | not _ innerHypothesis =>
      obtain ⟨_, inner, inner₂⟩ := innerHypothesis
      exact ⟨_, .not inner, .not inner₂⟩
  | compare fields values =>
      obtain ⟨_, _, texts, texts₂⟩ := texts_of_same fields values
      exact ⟨_, .compare texts, .compare texts₂⟩
  | equals fields values =>
      obtain ⟨_, _, texts, texts₂⟩ := texts_of_same fields values
      exact ⟨_, .equals texts, .equals texts₂⟩
  | notEquals fields values =>
      obtain ⟨_, _, texts, texts₂⟩ := texts_of_same fields values
      exact ⟨_, .notEquals texts, .notEquals texts₂⟩
  | truth firstField secondField fields =>
      obtain ⟨wire, resolved, resolved₂⟩ := fields
      exact ⟨.truth wire, outlines_of_truthField? firstField resolved,
        outlines_of_truthField? secondField resolved₂⟩
  | present fields =>
      obtain ⟨_, resolved, resolved₂⟩ := fields
      exact ⟨_, .present resolved, .present resolved₂⟩
  | any collections _ innerHypothesis =>
      obtain ⟨_, resolved, resolved₂⟩ := collections
      obtain ⟨_, inner, inner₂⟩ := innerHypothesis
      exact ⟨_, .any resolved inner, .any resolved₂ inner₂⟩

/-- **Predicates of the same structure are those with the same outline.** -/
theorem sameStructure_iff {first second : Predicate} :
    SameStructure first second ↔
      ∃ outline, Outlines first outline ∧ Outlines second outline := by
  refine ⟨SameStructure.outlines, ?_⟩
  rintro ⟨outline, outlines, outlines₂⟩
  induction outlines generalizing second with
  | and _ _ leftHypothesis rightHypothesis =>
      cases outlines₂ with
      | and left₂ right₂ => exact .and (leftHypothesis left₂) (rightHypothesis right₂)
  | or _ _ leftHypothesis rightHypothesis =>
      cases outlines₂ with
      | or left₂ right₂ => exact .or (leftHypothesis left₂) (rightHypothesis right₂)
  | not _ innerHypothesis =>
      cases outlines₂ with
      | not inner₂ => exact .not (innerHypothesis inner₂)
  | compare texts =>
      cases outlines₂ with
      | compare texts₂ => exact .compare (texts.sameWire texts₂) (texts.sameText texts₂)
  | equals texts =>
      cases outlines₂ with
      | equals texts₂ => exact .equals (texts.sameWire texts₂) (texts.sameText texts₂)
  | notEquals texts =>
      cases outlines₂ with
      | notEquals texts₂ => exact .notEquals (texts.sameWire texts₂) (texts.sameText texts₂)
  | flag resolved | holds resolved =>
      obtain ⟨field₂, found, resolved₂⟩ := truthField?_of_outlines outlines₂
      exact .truth rfl found ⟨_, resolved, resolved₂⟩
  | present resolved =>
      cases outlines₂ with
      | present resolved₂ => exact .present ⟨_, resolved, resolved₂⟩
  | any resolved _ innerHypothesis =>
      cases outlines₂ with
      | any resolved₂ inner₂ => exact .any ⟨_, resolved, resolved₂⟩ (innerHypothesis inner₂)

end Predicate

/-! ### Legible predicates -/

/-- A character without a meaning of its own in signatures: it neither separates words nor
groups them, and is allowed in names. -/
def isPlain (char : Char) : Bool :=
  char != '_' && char != '(' && char != ')' && !Predicate.isRefused char

/-- A text of plain characters. -/
def IsWord (text : String) : Prop :=
  Text.IsWordRow isPlain text.toList

instance (text : String) : Decidable (IsWord text) :=
  inferInstanceAs (Decidable (Text.IsWordRow isPlain text.toList))

/-- A field whose text is a word, and not the word for negation. -/
def IsFieldWord (text : String) : Prop :=
  IsWord text ∧ text ≠ "Not"

instance (text : String) : Decidable (IsFieldWord text) :=
  inferInstanceAs (Decidable (IsWord text ∧ text ≠ "Not"))

def FieldExpr.IsLegible (field : FieldExpr) : Prop :=
  ∀ wire, field.wire = .ok wire → IsFieldWord wire

def Literal.IsLegible (literal : Literal) : Prop :=
  ∀ context text, literal.signatureText context = .ok text → IsWord text

/-- All fields and literals of the predicate are legible. -/
def Predicate.IsLegible : Predicate → Prop
  | .and left right => left.IsLegible ∧ right.IsLegible
  | .or left right => left.IsLegible ∧ right.IsLegible
  | .not inner => inner.IsLegible
  | .compare ⟨_, field, value⟩ => field.IsLegible ∧ value.IsLegible
  | .equals field value => field.IsLegible ∧ value.IsLegible
  | .notEquals field value => field.IsLegible ∧ value.IsLegible
  | .flag field => field.IsLegible
  | .holds field => field.IsLegible
  | .present field => field.IsLegible
  | .any collection inner => collection.IsLegible ∧ inner.IsLegible
  | .call _ _ => True

/-- All fields and texts of the outline are legible. -/
def Outline.IsLegible : Outline → Prop
  | .join _ left right => left.IsLegible ∧ right.IsLegible
  | .negation inner => inner.IsLegible
  | .operation field _ text => IsFieldWord field ∧ IsWord text
  | .truth field => IsFieldWord field
  | .present field => IsFieldWord field
  | .any collection inner => IsFieldWord collection ∧ inner.IsLegible

private theorem Predicate.Outlines.isLegible {predicate : Predicate} {outline : Outline}
    (outlines : Outlines predicate outline) (legible : predicate.IsLegible) :
    outline.IsLegible := by
  induction outlines with
  | and _ _ leftHypothesis rightHypothesis | or _ _ leftHypothesis rightHypothesis =>
      exact ⟨leftHypothesis legible.1, rightHypothesis legible.2⟩
  | not _ innerHypothesis => exact innerHypothesis legible
  | compare texts | equals texts | notEquals texts =>
      exact ⟨legible.1 _ texts.field, legible.2 _ _ texts.value⟩
  | flag resolved | holds resolved | present resolved => exact legible _ resolved
  | any resolved _ innerHypothesis => exact ⟨legible.1 _ resolved, innerHypothesis legible.2⟩

/-! ### Legible signatures -/

/-- Characters that may all stand in names. -/
def Allowed (chars : List Char) : Prop :=
  ∀ char ∈ chars, Predicate.isRefused char = false

instance (chars : List Char) : Decidable (Allowed chars) :=
  List.decidableBAll (fun char => Predicate.isRefused char = false) chars

private theorem IsWord.allowed {text : String} (word : IsWord text) : Allowed text.toList := by
  intro char member
  have plain := word char member
  simp only [isPlain, Bool.and_eq_true, Bool.not_eq_true'] at plain
  exact plain.2

/-- Two words or operands with the separator between them. -/
theorem Allowed.joined {first second : List Char} (firstAllowed : Allowed first)
    (secondAllowed : Allowed second) : Allowed (first ++ '_' :: second) :=
  List.forall_mem_append.mpr
    ⟨firstAllowed, List.forall_mem_cons.mpr ⟨by decide, secondAllowed⟩⟩

private theorem Allowed.grouped {chars : List Char} (allowed : Allowed chars) (outline : Outline) :
    Allowed (outline.grouped chars) := by
  unfold Outline.grouped
  split
  · have closed := List.forall_mem_append.mpr
      ⟨allowed, List.forall_mem_singleton.mpr (by decide : Predicate.isRefused ')' = false)⟩
    exact List.forall_mem_cons.mpr ⟨by decide, closed⟩
  · exact allowed

private theorem Allowed.chained {chars : List Char} (allowed : Allowed chars)
    (connective : Connective) (outline : Outline) : Allowed (outline.chained connective chars) := by
  unfold Outline.chained
  split
  · exact allowed
  · exact allowed.grouped outline

private theorem Operator.allowed_name (operator : Operator) : Allowed operator.name.toList := by
  rcases operator with _ | _ | ⟨_ | _ | _ | _⟩ <;> decide

private theorem Predicate.Connective.allowed_signatureName (connective : Connective) :
    Allowed connective.signatureName.toList := by
  cases connective <;> decide

private theorem Outline.IsLegible.allowed {outline : Outline} (legible : outline.IsLegible) :
    Allowed outline.chars := by
  induction outline with
  | join connective left right leftHypothesis rightHypothesis =>
      have leftAllowed := (leftHypothesis legible.1).chained connective left
      have rightAllowed := (rightHypothesis legible.2).grouped right
      exact leftAllowed.joined (connective.allowed_signatureName.joined rightAllowed)
  | negation inner innerHypothesis =>
      have word : Allowed "Not".toList := by decide
      exact word.joined ((innerHypothesis legible).grouped inner)
  | operation field operator text =>
      exact legible.1.1.allowed.joined (operator.allowed_name.joined legible.2.allowed)
  | truth field => exact legible.1.allowed
  | present field =>
      have word : Allowed "HasValue".toList := by decide
      exact legible.1.allowed.joined word
  | any collection inner innerHypothesis =>
      have word : Allowed "Any".toList := by decide
      exact legible.1.1.allowed.joined (word.joined ((innerHypothesis legible.2).grouped inner))

/-- Nothing is replaced in a text that may stand in names. -/
theorem Predicate.sanitize_of_allowed {chars : List Char} (allowed : Allowed chars) :
    sanitize (String.ofList chars) = String.ofList chars := by
  have kept : chars.map (fun char => if isRefused char then '_' else char) = chars := by
    refine (List.map_congr_left fun char member => ?_).trans (List.map_id chars)
    rw [allowed char member]
    rfl
  rw [sanitize, String.toList_ofList, kept]

/-- The signature of a legible predicate spells its outline. -/
theorem Predicate.toList_signature {predicate : Predicate} {signature : String}
    (signed : predicate.signature = .ok signature) (legible : predicate.IsLegible) :
    ∃ outline, Outlines predicate outline ∧ outline.IsLegible ∧
      signature.toList = outline.chars := by
  obtain ⟨outline, outlines, rfl⟩ := signature_eq_ok_iff.mp signed
  have outlineLegible := outlines.isLegible legible
  refine ⟨outline, outlines, outlineLegible, ?_⟩
  rw [sanitize_of_allowed outlineLegible.allowed, String.toList_ofList]

end Facet
