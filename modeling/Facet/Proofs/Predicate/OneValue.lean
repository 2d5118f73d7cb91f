import Facet.Predicate.Meaning
import Facet.Proofs.Query.Lowering

/-!
Predicates whose merged pairs speak of one value.

Two comparisons that merge into one range have to be met by one and the same value of their
field. Read as a plain conjunction, they may be met by two different values. The two readings
differ only on documents in which one value meets the one comparison, another value meets the
other, and none meets both.

Owns:
- `Predicate.isMetMerged`, the reading in which a merged pair speaks of one value;
- `Predicate.AtEveryPart`, what is true of a predicate and of all of its parts, each with the
  scope and the document that it speaks of;
- `Predicate.IsUndivided`, that no pair is divided between two values;
- that the readings agree if no pair is divided, and that no pair is divided without merging
  or in documents with single values.

Does not own: queries.
-/

namespace Facet

/-! ### Comparisons -/

namespace Comparison

/-- Whether a value satisfies the comparison. -/
def admits (order : Order) (comparison : Comparison) (value : Json) : Bool :=
  match rangeKind? comparison.value, comparison.value.toJson "" with
  | some kind, .ok bound => order kind comparison.comparator value bound
  | _, _ => false

/-- Whether some one value of the first comparison's field satisfies both comparisons. -/
def areMetByOne (order : Order) (scope : Option Path) (document : Document)
    (lower upper : Comparison) : Bool :=
  match lower.field.wireWithin scope with
  | .ok wire =>
      (document.values wire).any fun value => lower.admits order value && upper.admits order value
  | .error _ => false

theorem admits_eq {comparison : Comparison} {kind : RangeKind} {context : String} {bound : Json}
    (ranged : rangeKind? comparison.value = some kind)
    (valued : comparison.value.toJson context = .ok bound) (order : Order) (value : Json) :
    comparison.admits order value = order kind comparison.comparator value bound := by
  simp [admits, ranged, Literal.toJson_of_ok valued ""]

theorem isMet_eq_any {order : Order} {scope : Option Path} {comparison : Comparison}
    {wire : String} (valued : comparison.value.isNull = false)
    (resolved : comparison.field.wireWithin scope = .ok wire) (document : Document) :
    comparison.isMet order scope document =
      (document.values wire).any (comparison.admits order) := by
  unfold isMet
  rw [valued, if_neg (by simp), resolved]
  cases ranged : rangeKind? comparison.value with
  | none => simp [admits, ranged]
  | some kind =>
      cases json : comparison.value.toJson "" with
      | error error => simp [admits, json]
      | ok bound => simp [funext fun value => admits_eq ranged json order value]

theorem areMetByOne_eq_any {order : Order} {scope : Option Path} {lower upper : Comparison}
    {wire : String} (resolved : lower.field.wireWithin scope = .ok wire)
    (document : Document) :
    areMetByOne order scope document lower upper =
      (document.values wire).any fun value =>
        lower.admits order value && upper.admits order value := by
  simp [areMetByOne, resolved]

/-- One value that meets both comparisons meets each of them. -/
theorem isMet_of_areMetByOne {order : Order} {scope : Option Path} {document : Document}
    {lower upper : Comparison} (merges : merges scope lower upper = .ok true)
    (one : areMetByOne order scope document lower upper = true) :
    lower.isMet order scope document = true ∧ upper.isMet order scope document = true := by
  obtain ⟨opposite, wire, lowerResolved, upperResolved⟩ := merges_eq_ok_true_iff.mp merges
  obtain ⟨lowerValued, upperValued, _⟩ := areOpposite_iff.mp opposite
  rw [areMetByOne_eq_any lowerResolved, List.any_eq_true] at one
  obtain ⟨value, member, both⟩ := one
  rw [Bool.and_eq_true] at both
  rw [isMet_eq_any lowerValued lowerResolved, isMet_eq_any upperValued upperResolved,
    List.any_eq_true, List.any_eq_true]
  exact ⟨⟨value, member, both.1⟩, ⟨value, member, both.2⟩⟩

end Comparison

/-! ### Readings -/

namespace Predicate

/-- Whether a document satisfies a predicate whose merged pairs speak of one value. In all
else this is `isMet`. -/
def isMetMerged (options : CompilerOptions) (order : Order) :
    Option Path → Document → Predicate → Bool
  | scope, document, .and left right =>
      match mergedPair options scope left right with
      | .ok (some (lower, upper)) => Comparison.areMetByOne order scope document lower upper
      | _ =>
          isMetMerged options order scope document left &&
            isMetMerged options order scope document right
  | scope, document, .or left right =>
      isMetMerged options order scope document left ||
        isMetMerged options order scope document right
  | scope, document, .not inner => !isMetMerged options order scope document inner
  | scope, document, .any collection inner =>
      match collection.resolveWithin scope with
      | .error _ => false
      | .ok path =>
          if options.isNested path.wire then
            (document.elements path.wire).any fun element =>
              isMetMerged options order (some path) element inner
          else
            isMetMerged options order (some path) document inner
  | scope, document, simple => simple.isMet options order scope document

/-- What is true of a predicate and of each of its parts, below the scope and in the document
that the part speaks of. The sides of a merged pair are no parts, since they are not lowered
on their own. -/
def AtEveryPart (options : CompilerOptions) (claim : Option Path → Document → Predicate → Prop) :
    Option Path → Document → Predicate → Prop
  | scope, document, .and left right =>
      claim scope document (.and left right) ∧
        match mergedPair options scope left right with
        | .ok (some _) => True
        | _ =>
            AtEveryPart options claim scope document left ∧
              AtEveryPart options claim scope document right
  | scope, document, .or left right =>
      claim scope document (.or left right) ∧ AtEveryPart options claim scope document left ∧
        AtEveryPart options claim scope document right
  | scope, document, .not inner =>
      claim scope document (.not inner) ∧ AtEveryPart options claim scope document inner
  | scope, document, .any collection inner =>
      claim scope document (.any collection inner) ∧
        match collection.resolveWithin scope with
        | .error _ => True
        | .ok path =>
            if options.isNested path.wire then
              ∀ element ∈ document.elements path.wire,
                AtEveryPart options claim (some path) element inner
            else
              AtEveryPart options claim (some path) document inner
  | scope, document, simple => claim scope document simple

/-- If a predicate is a pair that merges, no two values of a document divide it between them:
where both comparisons are met, one value meets both. -/
def IsUndivided (options : CompilerOptions) (order : Order) (scope : Option Path)
    (document : Document) : Predicate → Prop
  | .and left right =>
      match mergedPair options scope left right with
      | .ok (some (lower, upper)) =>
          lower.isMet order scope document = true → upper.isMet order scope document = true →
            Comparison.areMetByOne order scope document lower upper = true
      | _ => True
  | _ => True

theorem AtEveryPart.whole {options : CompilerOptions}
    {claim : Option Path → Document → Predicate → Prop} {scope : Option Path}
    {document : Document} {predicate : Predicate}
    (everywhere : AtEveryPart options claim scope document predicate) :
    claim scope document predicate := by
  cases predicate with
  | and _ _ => exact everywhere.1
  | or _ _ => exact everywhere.1
  | not _ => exact everywhere.1
  | any _ _ => exact everywhere.1
  | _ => exact everywhere

/-- What follows for a part from two claims about all parts in it is true of every part. -/
theorem AtEveryPart.imp {options : CompilerOptions}
    {first second third : Option Path → Document → Predicate → Prop}
    (follows : ∀ scope document part, AtEveryPart options first scope document part →
      AtEveryPart options second scope document part → third scope document part)
    {scope : Option Path} {document : Document} {predicate : Predicate}
    (firsts : AtEveryPart options first scope document predicate)
    (seconds : AtEveryPart options second scope document predicate) :
    AtEveryPart options third scope document predicate := by
  induction predicate generalizing scope document with
  | and left right leftHypothesis rightHypothesis =>
      refine ⟨follows _ _ _ firsts seconds, ?_⟩
      obtain ⟨_, firstParts⟩ := firsts
      obtain ⟨_, secondParts⟩ := seconds
      split at firstParts
      · trivial
      · next unmerged =>
          split at secondParts
          · next pair => exact absurd pair (unmerged _)
          · exact ⟨leftHypothesis firstParts.1 secondParts.1,
              rightHypothesis firstParts.2 secondParts.2⟩
  | or left right leftHypothesis rightHypothesis =>
      exact ⟨follows _ _ _ firsts seconds, leftHypothesis firsts.2.1 seconds.2.1,
        rightHypothesis firsts.2.2 seconds.2.2⟩
  | not inner innerHypothesis =>
      exact ⟨follows _ _ _ firsts seconds, innerHypothesis firsts.2 seconds.2⟩
  | any collection inner innerHypothesis =>
      refine ⟨follows _ _ _ firsts seconds, ?_⟩
      obtain ⟨_, firstParts⟩ := firsts
      obtain ⟨_, secondParts⟩ := seconds
      cases resolved : collection.resolveWithin scope with
      | error _ => trivial
      | ok path =>
          simp only [resolved] at firstParts secondParts
          by_cases isNested : options.isNested path.wire = true
          · simp only [isNested, if_true] at firstParts secondParts ⊢
            intro element member
            exact innerHypothesis (firstParts element member) (secondParts element member)
          · simp only [isNested, Bool.false_eq_true, if_false] at firstParts secondParts ⊢
            exact innerHypothesis firstParts secondParts
  | _ => exact follows _ _ _ firsts seconds

/-! ### Where the readings agree -/

/-- If no pair is divided, the reading with one value is the plain reading. -/
theorem isMetMerged_eq_isMet {options : CompilerOptions} {order : Order} {scope : Option Path}
    {document : Document} {predicate : Predicate}
    (undivided : AtEveryPart options (IsUndivided options order) scope document predicate) :
    predicate.isMetMerged options order scope document =
      predicate.isMet options order scope document := by
  induction predicate generalizing scope document with
  | and left right leftHypothesis rightHypothesis =>
      obtain ⟨whole, parts⟩ := undivided
      simp only [isMetMerged, isMet]
      split
      · next lower upper pair =>
          obtain ⟨rfl, rfl, _, merges⟩ := mergedPair_eq_some_iff.mp pair
          simp only [IsUndivided, pair] at whole
          rw [Bool.eq_iff_iff, Bool.and_eq_true]
          constructor
          · exact Comparison.isMet_of_areMetByOne merges
          · exact fun both => whole both.1 both.2
      · next notMerged =>
          split at parts
          · next pair => exact absurd pair (notMerged _ _)
          · rw [leftHypothesis parts.1, rightHypothesis parts.2]
  | or left right leftHypothesis rightHypothesis =>
      simp only [isMetMerged, isMet, leftHypothesis undivided.2.1,
        rightHypothesis undivided.2.2]
  | not inner innerHypothesis =>
      simp only [isMetMerged, isMet, innerHypothesis undivided.2]
  | any collection inner innerHypothesis =>
      obtain ⟨_, parts⟩ := undivided
      simp only [isMetMerged, isMet]
      cases resolved : collection.resolveWithin scope with
      | error error => rfl
      | ok path =>
          simp only [resolved] at parts ⊢
          split at parts
          · next isNested =>
              simp only [isNested, if_true]
              rw [Bool.eq_iff_iff, List.any_eq_true, List.any_eq_true]
              refine exists_congr fun element => and_congr_right fun member => ?_
              rw [innerHypothesis (parts element member)]
          · next notNested =>
              simp only [notNested]
              exact innerHypothesis parts
  | _ => rfl

/-- A claim that is true of every predicate in documents of some kind is true of every part,
if the elements of such documents are of the same kind. -/
theorem atEveryPart_of_forall {options : CompilerOptions}
    {claim : Option Path → Document → Predicate → Prop} (kind : Document → Prop)
    (elements : ∀ document path, kind document → ∀ element ∈ document.elements path, kind element)
    (always : ∀ scope document predicate, kind document → claim scope document predicate)
    (scope : Option Path) (document : Document) (predicate : Predicate)
    (ofKind : kind document) : AtEveryPart options claim scope document predicate := by
  induction predicate generalizing scope document with
  | and left right leftHypothesis rightHypothesis =>
      refine ⟨always _ _ _ ofKind, ?_⟩
      split
      · trivial
      · exact ⟨leftHypothesis _ _ ofKind, rightHypothesis _ _ ofKind⟩
  | or left right leftHypothesis rightHypothesis =>
      exact ⟨always _ _ _ ofKind, leftHypothesis _ _ ofKind, rightHypothesis _ _ ofKind⟩
  | not inner innerHypothesis =>
      exact ⟨always _ _ _ ofKind, innerHypothesis _ _ ofKind⟩
  | any collection inner innerHypothesis =>
      refine ⟨always _ _ _ ofKind, ?_⟩
      split
      · trivial
      · next path _ =>
          split
          · intro element member
            exact innerHypothesis _ _ (elements document path.wire ofKind element member)
          · exact innerHypothesis _ _ ofKind
  | _ => exact always _ _ _ ofKind

/-- Without merging there are no pairs to divide. -/
theorem undivided_of_not_mergeRanges {options : CompilerOptions}
    (disabled : options.mergeRanges = false) (order : Order) (scope : Option Path)
    (document : Document) (predicate : Predicate) :
    AtEveryPart options (IsUndivided options order) scope document predicate := by
  refine atEveryPart_of_forall (fun _ => True) (fun _ _ _ _ _ => trivial) ?_ scope
    document predicate trivial
  intro scope document predicate _
  cases predicate with
  | and left right =>
      simp only [IsUndivided]
      split
      · next lower upper pair =>
          obtain ⟨_, _, enabled, _⟩ := mergedPair_eq_some_iff.mp pair
          rw [disabled] at enabled
          exact absurd enabled Bool.false_ne_true
      · trivial
  | _ => trivial

end Predicate

/-! ### Documents with single values -/

/-- Every path of the document has at most one value, and so have the paths of its elements. -/
inductive Document.SingleValued : Document → Prop where
  | mk {document : Document} (values : ∀ path, (document.values path).length ≤ 1)
      (elements : ∀ path, ∀ element ∈ document.elements path, SingleValued element) :
      SingleValued document

/-- A single value cannot be divided. -/
theorem Predicate.undivided_of_singleValued {document : Document}
    (single : document.SingleValued) (options : CompilerOptions) (order : Order)
    (scope : Option Path) (predicate : Predicate) :
    AtEveryPart options (IsUndivided options order) scope document predicate := by
  refine atEveryPart_of_forall Document.SingleValued ?_ ?_ scope document predicate
    single
  · rintro _ path ⟨_, elements⟩ element member
    exact elements path element member
  · intro scope document predicate ofKind
    cases predicate with
    | and left right =>
        simp only [IsUndivided]
        split
        · next lower upper pair =>
            obtain ⟨_, _, _, merges⟩ := mergedPair_eq_some_iff.mp pair
            obtain ⟨opposite, wire, lowerResolved, upperResolved⟩ :=
              Comparison.merges_eq_ok_true_iff.mp merges
            obtain ⟨lowerValued, upperValued, _⟩ := Comparison.areOpposite_iff.mp opposite
            rw [Comparison.isMet_eq_any lowerValued lowerResolved,
              Comparison.isMet_eq_any upperValued upperResolved,
              Comparison.areMetByOne_eq_any lowerResolved]
            obtain ⟨values, _⟩ := ofKind
            -- One value at most is left to meet either comparison.
            match stored : document.values wire, values wire with
            | [], _ => simp
            | [value], _ => simpa using fun first second => ⟨first, second⟩
        · trivial
    | _ => trivial

end Facet
