import Facet.Proofs.Aggregation.Likeness
import Facet.Proofs.Field.Property
import Facet.Proofs.Predicate.Outline

/-!
Names that no metric has.

Groups and the filters of conditions share one level with metrics, and their names are made from
fields as they are. They keep apart from the names of metrics if they begin with no tag. Those
that begin with a property do, since a tag begins with a capital.

Owns:
- names that begin with no tag;
- conditions and groups that begin with a property, and that their names begin with no tag.
-/

namespace Facet

/-! ### Names without tags -/

/-- The name does not begin with the tag of a metric. -/
def IsUntagged (name : String) : Prop :=
  ∀ kind : MetricKind, ¬ kind.tag.toList <+: name.toList

/-- The characters begin with the word for negation or with no capital. -/
def BeginsUntagged (chars : List Char) : Prop :=
  ∃ first rest, chars = first :: rest ∧ (first.isUpper = false ∨ first = 'N')

private theorem Text.BeginsWithoutCapital.untagged {chars : List Char}
    (begins : Text.BeginsWithoutCapital chars) : BeginsUntagged chars := by
  obtain ⟨first, rest, same, small⟩ := begins
  exact ⟨first, rest, same, Or.inl small⟩

theorem BeginsUntagged.append {chars : List Char} (begins : BeginsUntagged chars)
    (more : List Char) : BeginsUntagged (chars ++ more) := by
  obtain ⟨first, rest, rfl, apart⟩ := begins
  exact ⟨first, rest ++ more, rfl, apart⟩

private theorem BeginsUntagged.isUntagged {name : String} (begins : BeginsUntagged name.toList) :
    IsUntagged name := by
  intro kind tagged
  obtain ⟨first, rest, spelled, apart⟩ := begins
  obtain ⟨initial, others, tag, capital, notNegation⟩ := kind.tag_begins
  obtain ⟨suffix, appended⟩ := tagged
  rw [tag, spelled, List.cons_append] at appended
  obtain ⟨rfl, _⟩ := List.cons.inj appended
  rcases apart with small | negation
  · rw [capital] at small
    cases small
  · exact notNegation negation

/-- The name of a metric begins with a tag. -/
theorem Target.name_not_isUntagged {target : Target} {kind : MetricKind}
    (metric : target.kind? = some kind) : ¬ IsUntagged target.name := by
  intro untagged
  refine untagged kind ⟨target.suffix.toList, ?_⟩
  rw [Target.name_eq_append metric, String.toList_append]

/-! ### Conditions -/

namespace Predicate

/-- The leftmost field of the predicate begins with a property, or the predicate is a
negation. -/
def BeginsWithProperty : Predicate → Prop
  | .and left _ => left.BeginsWithProperty
  | .or left _ => left.BeginsWithProperty
  | .not _ => True
  | .compare comparison => comparison.field.BeginsWithProperty
  | .equals field _ => field.BeginsWithProperty
  | .notEquals field _ => field.BeginsWithProperty
  | .flag field => field.BeginsWithProperty
  | .holds field => field.BeginsWithProperty
  | .present field => field.BeginsWithProperty
  | .any collection _ => collection.BeginsWithProperty
  | .call _ _ => False

private theorem beginsUntagged_chained {outline : Outline} (begins : BeginsUntagged outline.chars)
    (connective : Connective) :
    BeginsUntagged (outline.chained connective outline.chars) := by
  unfold Outline.chained Outline.grouped
  split
  · exact begins
  · split
    · exact ⟨'(', _, rfl, Or.inl rfl⟩
    · exact begins

private theorem Outlines.beginsUntagged {predicate : Predicate} {outline : Outline}
    (outlines : Outlines predicate outline) (begins : predicate.BeginsWithProperty) :
    BeginsUntagged outline.chars := by
  have wires {field : FieldExpr} {wire : String} (property : field.BeginsWithProperty)
      (resolved : field.wire = .ok wire) : BeginsUntagged wire.toList :=
    (FieldExpr.wire_beginsWithoutCapital property resolved).untagged
  induction outlines with
  | and _ _ leftHypothesis _ | or _ _ leftHypothesis _ =>
      exact (beginsUntagged_chained (leftHypothesis begins) _).append _
  | not _ _ => exact ⟨'N', _, rfl, Or.inr rfl⟩
  | compare texts | equals texts | notEquals texts => exact (wires begins texts.field).append _
  | flag resolved | holds resolved => exact wires begins resolved
  | present resolved | any resolved _ _ => exact (wires begins resolved).append _

/-- The signature of a condition that begins with a property begins with no tag. -/
theorem signature_isUntagged {predicate : Predicate} {signature : String}
    (signed : predicate.signature = .ok signature) (begins : predicate.BeginsWithProperty) :
    IsUntagged signature := by
  obtain ⟨outline, outlines, rfl⟩ := signature_eq_ok_iff.mp signed
  obtain ⟨first, rest, spelled, apart⟩ := outlines.beginsUntagged begins
  refine BeginsUntagged.isUntagged ?_
  rw [sanitize, String.toList_ofList, String.toList_ofList, spelled, List.map_cons]
  refine ⟨_, _, rfl, ?_⟩
  split
  · exact Or.inl rfl
  · exact apart

end Predicate

/-! ### Entries -/

/-- The entry has no name that could be that of a metric, unless it is one: groups and conditions
begin with properties, and groups by a name of the engine begin with no tag. -/
def Entry.KeepsApart : Entry → Prop
  | .metric declaration =>
      ∀ condition, declaration.condition = some condition → condition.BeginsWithProperty
  | .group (.field source) _ => source.BeginsWithProperty
  | .group (.name name) _ => IsUntagged name
  | .group _ _ => True

/-- A group that keeps apart is not by the name of a metric. -/
theorem Entry.KeepsApart.isUntagged {key : GroupKey} {inner : List Entry} {name : String}
    (apart : (Entry.group key inner).KeepsApart) (keyed : key.target = .ok (.terms name)) :
    IsUntagged name := by
  cases key with
  | field source =>
      obtain ⟨wire, resolved, same⟩ := Outcome.bind_eq_ok.mp keyed
      cases same
      exact (FieldExpr.wire_beginsWithoutCapital apart resolved).untagged.isUntagged
  | name wire =>
      cases keyed
      exact apart
  | histogram source _ | dateHistogram source _ =>
      obtain ⟨_, _, same⟩ := Outcome.bind_eq_ok.mp keyed
      cases same

end Facet
