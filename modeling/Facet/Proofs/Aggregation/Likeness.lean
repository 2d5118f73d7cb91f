import Facet.Proofs.Aggregation.Naming

/-!
Which metrics share a name.

The name of a metric is a tag and the capitalised words of a field. No two tags begin alike, so
metrics of different kinds never share a name. Metrics of one kind do if their fields have the
same capitalised words, since these tell neither where a segment ends nor how it began.

Owns:
- the target that a metric is named after;
- how tags begin, and the kind of metrics that is read from there;
- that metrics share a name exactly if they are alike, and that none has the name of a
  histogram.
-/

namespace Facet

/-! ### The targets of metrics -/

/-- The target that a declared metric is named after. -/
inductive Declaration.Names : Declaration → Target → Prop where
  | measure {kind : Measure} {field : FieldExpr} {condition : Option Predicate} {wire : String}
      (resolved : field.wire = .ok wire) :
      Names (.measure kind field condition) (.metric (.measure kind) wire)
  | percentiles {field : FieldExpr} {percents : List Double} {condition : Option Predicate}
      {wire : String} (resolved : field.wire = .ok wire) :
      Names (.percentiles field percents condition) (.metric .percentiles wire)
  | topHits {size : Nat} {fields : List FieldExpr} :
      Names (.topHits size none fields) (.topHits none)
  | sortedTopHits {size : Nat} {sort : FieldExpr} {direction : Direction} {wire : String}
      {fields : List FieldExpr} (resolved : sort.wire = .ok wire) :
      Names (.topHits size (some (sort, direction)) fields) (.topHits (some (wire, direction)))

namespace Declaration

/-- The node of a metric has the name of its target. -/
theorem names_of_node {options : BuilderOptions} {declaration : Declaration} {node : Node}
    (made : declaration.node options = .ok node) :
    ∃ target, declaration.Names target ∧ node.name = target.name := by
  cases declaration with
  | measure kind field condition =>
      obtain ⟨wire, resolved, rest⟩ := Outcome.bind_eq_ok.mp made
      cases rest
      exact ⟨_, .measure resolved, rfl⟩
  | percentiles field percents condition =>
      obtain ⟨wire, resolved, rest⟩ := Outcome.bind_eq_ok.mp made
      cases rest
      exact ⟨_, .percentiles resolved, rfl⟩
  | topHits size sort fields =>
      obtain ⟨_, _, rest⟩ := Outcome.bind_eq_ok.mp made
      obtain ⟨order, ordered, rest⟩ := Outcome.bind_eq_ok.mp rest
      cases rest
      cases sort with
      | none =>
          cases ordered
          exact ⟨_, .topHits, rfl⟩
      | some sorting =>
          obtain ⟨wire, resolved, rest⟩ := Outcome.bind_eq_ok.mp ordered
          cases rest
          exact ⟨_, .sortedTopHits resolved, rfl⟩

/-- Readers of an unconditional metric look for the name of its target. -/
theorem Names.address {declaration : Declaration} {target : Target}
    (names : declaration.Names target) (unconditional : declaration.condition = none) :
    declaration.address = .ok ⟨none, target.name⟩ := by
  cases names with
  | measure resolved | percentiles resolved =>
      cases unconditional
      rw [Declaration.address, MetricKind.address_eq resolved]
  | topHits => rfl
  | sortedTopHits resolved =>
      rw [Declaration.address, resolved]
      rfl

end Declaration

/-! ### Tags -/

/-- The first two characters of a name. -/
def initials (name : String) : List Char :=
  name.toList.take 2

theorem initials_append {first : String} (long : 2 ≤ first.toList.length) (rest : String) :
    initials (first ++ rest) = initials first := by
  rw [initials, String.toList_append, List.take_append_of_le_length long]
  rfl

namespace MetricKind

private theorem tag_long (kind : MetricKind) : 2 ≤ kind.tag.toList.length := by
  cases kind with
  | measure kind => cases kind <;> decide
  | _ => decide

/-- The kind of metrics whose tag begins with some characters. -/
def ofInitials? : List Char → Option MetricKind
  | ['S', 'u'] => some (.measure .sum)
  | ['C', 'o'] => some (.measure .count)
  | ['A', 'v'] => some (.measure .average)
  | ['M', 'i'] => some (.measure .min)
  | ['M', 'a'] => some (.measure .max)
  | ['C', 'a'] => some (.measure .cardinality)
  | ['S', 't'] => some (.measure .stats)
  | ['F', 'i'] => some (.measure .first)
  | ['D', 'i'] => some (.measure .distinct)
  | ['P', 'e'] => some .percentiles
  | ['T', 'o'] => some .topHits
  | _ => none

private theorem ofInitials?_tag (kind : MetricKind) :
    ofInitials? (initials kind.tag) = some kind := by
  cases kind with
  | measure measure => cases measure <;> rfl
  | _ => rfl

/-- No two kinds of metrics begin alike. -/
theorem initials_injective {first second : MetricKind}
    (same : initials first.tag = initials second.tag) : first = second := by
  have kinds := ofInitials?_tag first
  rw [same, ofInitials?_tag second] at kinds
  exact (Option.some.inj kinds).symm

/-- No kind of metrics begins as histograms do. -/
theorem initials_ne_histogram (kind : MetricKind) :
    initials kind.tag ≠ initials "Histogram" ∧
      initials kind.tag ≠ initials "DateHistogram" := by
  constructor
  · intro same
    have kinds := ofInitials?_tag kind
    rw [same] at kinds
    cases kinds
  · intro same
    have kinds := ofInitials?_tag kind
    rw [same] at kinds
    cases kinds

/-- Tags begin with capitals, and none of them as the word for negation does. -/
theorem tag_begins (kind : MetricKind) :
    ∃ first rest, kind.tag.toList = first :: rest ∧ first.isUpper = true ∧ first ≠ 'N' := by
  cases kind with
  | measure measure => cases measure <;> exact ⟨_, _, rfl, rfl, by decide⟩
  | percentiles => exact ⟨_, _, rfl, rfl, by decide⟩
  | topHits => exact ⟨_, _, rfl, rfl, by decide⟩

end MetricKind

namespace Target

/-- The kind of metrics that a target belongs to. -/
def kind? : Target → Option MetricKind
  | .metric kind _ => some kind
  | .topHits _ => some .topHits
  | _ => none

/-- What follows the tag in the name of a metric. -/
def suffix : Target → String
  | .metric _ field => pascal field
  | .topHits (some (field, direction)) => pascal field ++ direction.tag
  | _ => ""

theorem name_eq_append {target : Target} {kind : MetricKind} (metric : target.kind? = some kind) :
    target.name = kind.tag ++ target.suffix := by
  cases target with
  | metric _ _ =>
      cases metric
      rfl
  | topHits sort =>
      cases metric
      cases sort with
      | none => rfl
      | some sorting => exact String.append_assoc
  | _ => cases metric

private theorem initials_name {target : Target} {kind : MetricKind}
    (metric : target.kind? = some kind) : initials target.name = initials kind.tag := by
  rw [name_eq_append metric]
  exact initials_append kind.tag_long target.suffix

/-- Metrics with one name are of one kind. -/
theorem kind_eq_of_name_eq {target other : Target} {kind otherKind : MetricKind}
    (metric : target.kind? = some kind) (otherMetric : other.kind? = some otherKind)
    (same : target.name = other.name) : kind = otherKind := by
  refine MetricKind.initials_injective ?_
  rw [← initials_name metric, ← initials_name otherMetric, same]

/-- No metric has the name of a histogram. -/
theorem name_ne_histogram {target : Target} {kind : MetricKind}
    (metric : target.kind? = some kind) (field : String) :
    target.name ≠ (Target.histogram field).name ∧
      target.name ≠ (Target.dateHistogram field).name := by
  obtain ⟨histogram, dateHistogram⟩ := kind.initials_ne_histogram
  have histogramInitials : initials (Target.histogram field).name = initials "Histogram" :=
    initials_append (by decide) _
  have dateInitials : initials (Target.dateHistogram field).name = initials "DateHistogram" :=
    initials_append (by decide) _
  constructor
  · intro same
    rw [← initials_name metric, same] at histogram
    exact histogram histogramInitials
  · intro same
    rw [← initials_name metric, same] at dateHistogram
    exact dateHistogram dateInitials

/-! ### Likeness -/

/-- Two metrics are of one kind, and their fields have the same capitalised words. -/
inductive Alike : Target → Target → Prop where
  | metric {kind : MetricKind} {field other : String} (same : pascal field = pascal other) :
      Alike (.metric kind field) (.metric kind other)
  | topHits : Alike (.topHits none) (.topHits none)
  | sortedTopHits {field other : String} {direction : Direction}
      (same : pascal field = pascal other) :
      Alike (.topHits (some (field, direction))) (.topHits (some (other, direction)))

theorem Alike.name_eq {target other : Target} (alike : target.Alike other) :
    target.name = other.name := by
  cases alike with
  | metric same | sortedTopHits same => simp only [name, same]
  | topHits => rfl

end Target

/-- The order at the end of a name is told apart from the field before it. -/
theorem Direction.append_tag_inj {first second : String} {direction other : Direction}
    (same : first ++ direction.tag = second ++ other.tag) :
    first = second ∧ direction = other := by
  have chars : first.toList ++ direction.tag.toList = second.toList ++ other.tag.toList := by
    rw [← String.toList_append, ← String.toList_append, same]
  have reversed := congrArg List.reverse chars
  rw [List.reverse_append, List.reverse_append] at reversed
  have thirdLast (direction : Direction) (rest : List Char) :
      (direction.tag.toList.reverse ++ rest)[2]? = direction.tag.toList.reverse[2]? := by
    cases direction <;> rfl
  have thirds : direction.tag.toList.reverse[2]? = other.tag.toList.reverse[2]? := by
    rw [← thirdLast direction, reversed, thirdLast]
  have directions : direction = other := by
    cases direction <;> cases other <;> first | rfl | exact absurd thirds (by decide)
  subst directions
  exact ⟨String.toList_inj.mp (List.append_cancel_right chars), rfl⟩

private theorem Direction.append_tag_ne_empty (direction : Direction) (field : String) :
    field ++ direction.tag ≠ "" := by
  intro same
  have chars := congrArg String.toList same
  rw [String.toList_append] at chars
  have none := (List.append_eq_nil_iff.mp chars).2
  cases direction <;> exact absurd none (by decide)

namespace Declaration

theorem Names.kind? {declaration : Declaration} {target : Target}
    (names : declaration.Names target) : ∃ kind, target.kind? = some kind := by
  cases names <;> exact ⟨_, rfl⟩

/-- **Which metrics share a name.** Those of one kind over fields with the same capitalised
words. -/
theorem Names.name_eq_iff {first second : Declaration} {target other : Target}
    (names : first.Names target) (otherNames : second.Names other) :
    target.name = other.name ↔ target.Alike other := by
  refine ⟨fun same => ?_, Target.Alike.name_eq⟩
  obtain ⟨kind, metric⟩ := names.kind?
  obtain ⟨otherKind, otherMetric⟩ := otherNames.kind?
  have kinds := Target.kind_eq_of_name_eq metric otherMetric same
  subst kinds
  have suffixes : target.suffix = other.suffix := by
    rw [Target.name_eq_append metric, Target.name_eq_append otherMetric] at same
    exact (String.append_right_inj kind.tag).mp same
  cases names with
  | measure _ =>
      cases metric
      cases otherNames with
      | measure _ =>
          cases otherMetric
          exact .metric suffixes
      | _ => cases otherMetric
  | percentiles _ =>
      cases metric
      cases otherNames with
      | percentiles _ => exact .metric suffixes
      | _ => cases otherMetric
  | topHits =>
      cases metric
      cases otherNames with
      | topHits => exact .topHits
      | sortedTopHits _ => exact absurd suffixes.symm (Direction.append_tag_ne_empty _ _)
      | _ => cases otherMetric
  | sortedTopHits _ =>
      cases metric
      cases otherNames with
      | topHits => exact absurd suffixes (Direction.append_tag_ne_empty _ _)
      | sortedTopHits _ =>
          obtain ⟨fields, directions⟩ := Direction.append_tag_inj suffixes
          subst directions
          exact .sortedTopHits fields
      | _ => cases otherMetric

end Declaration

end Facet
