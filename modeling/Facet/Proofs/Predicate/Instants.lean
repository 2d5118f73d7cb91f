import Facet.Proofs.Instant.Order
import Facet.Proofs.Predicate.Outline
import Facet.Proofs.Query.DateRange

/-!
Instants in predicates.

In queries and in signatures an instant stands as its text. All such texts are of one length and
of characters that stay as they are. So signatures of predicates that are alike but for their
instants have the same characters around these texts, and are equal exactly if the texts are.

Owns:
- `Predicate.Retimed`, predicates alike but for their instants, with the pairs of these;
- spellings that differ exactly as far as what is written of some pairs of instants does;
- that retimed predicates have signatures together, which are equal exactly if the same is written
  of each pair;
- that regular instants keep their order and identity in queries, also as the bounds of merged
  ranges, and in signatures;
- an excess second that is written as the next one.
-/

namespace Facet

/-! ### Retimed predicates -/

mutual

/-- The same literal with other instants. The pairs are the instants of one place. -/
inductive Literal.Retimed : Literal → Literal → List (Instant × Instant) → Prop where
  | same (literal : Literal) : Retimed literal literal []
  | instant (before after : Instant) :
      Retimed (.instant before) (.instant after) [(before, after)]
  | list {items others : List Literal} {pairs : List (Instant × Instant)}
      (each : RetimedAll items others pairs) : Retimed (.list items) (.list others) pairs

inductive Literal.RetimedAll :
    List Literal → List Literal → List (Instant × Instant) → Prop where
  | nil : RetimedAll [] [] []
  | cons {item other : Literal} {items others : List Literal}
      {pairs further : List (Instant × Instant)} (first : Literal.Retimed item other pairs)
      (rest : RetimedAll items others further) :
      RetimedAll (item :: items) (other :: others) (pairs ++ further)

end

namespace Predicate

/-- The same predicate with other instants as literals. The pairs are the instants of one place,
from left to right. -/
inductive Retimed : Predicate → Predicate → List (Instant × Instant) → Prop where
  | and {left right left₂ right₂ : Predicate} {leftPairs rightPairs : List (Instant × Instant)}
      (lefts : Retimed left left₂ leftPairs) (rights : Retimed right right₂ rightPairs) :
      Retimed (.and left right) (.and left₂ right₂) (leftPairs ++ rightPairs)
  | or {left right left₂ right₂ : Predicate} {leftPairs rightPairs : List (Instant × Instant)}
      (lefts : Retimed left left₂ leftPairs) (rights : Retimed right right₂ rightPairs) :
      Retimed (.or left right) (.or left₂ right₂) (leftPairs ++ rightPairs)
  | not {inner inner₂ : Predicate} {pairs : List (Instant × Instant)}
      (inners : Retimed inner inner₂ pairs) : Retimed (.not inner) (.not inner₂) pairs
  | compare {comparator : Comparator} {field : FieldExpr} {value value₂ : Literal}
      {pairs : List (Instant × Instant)} (values : value.Retimed value₂ pairs) :
      Retimed (.compare ⟨comparator, field, value⟩) (.compare ⟨comparator, field, value₂⟩) pairs
  | equals {field : FieldExpr} {value value₂ : Literal} {pairs : List (Instant × Instant)}
      (values : value.Retimed value₂ pairs) :
      Retimed (.equals field value) (.equals field value₂) pairs
  | notEquals {field : FieldExpr} {value value₂ : Literal} {pairs : List (Instant × Instant)}
      (values : value.Retimed value₂ pairs) :
      Retimed (.notEquals field value) (.notEquals field value₂) pairs
  | flag (field : FieldExpr) : Retimed (.flag field) (.flag field) []
  | present (field : FieldExpr) : Retimed (.present field) (.present field) []
  | holds (field : FieldExpr) : Retimed (.holds field) (.holds field) []
  | any {collection : FieldExpr} {inner inner₂ : Predicate} {pairs : List (Instant × Instant)}
      (inners : Retimed inner inner₂ pairs) :
      Retimed (.any collection inner) (.any collection inner₂) pairs
  | call (target : FieldExpr) (method : String) :
      Retimed (.call target method) (.call target method) []

end Predicate

/-! ### Characters that differ -/

/-- The instants of each pair have years without a sign. -/
def ArePlain (pairs : List (Instant × Instant)) : Prop :=
  ∀ pair ∈ pairs, pair.1.HasPlainYear ∧ pair.2.HasPlainYear

/-- The instants of each pair have excess seconds only as leap seconds. -/
def AreRegular (pairs : List (Instant × Instant)) : Prop :=
  ∀ pair ∈ pairs, pair.1.IsRegular ∧ pair.2.IsRegular

/-- The same is written of the instants of each pair. -/
def AreWrittenAlike (pairs : List (Instant × Instant)) : Prop :=
  ∀ pair ∈ pairs, pair.1.IsWrittenAs pair.2

/-- The instants of each pair are in one millisecond. -/
def AreSame (pairs : List (Instant × Instant)) : Prop :=
  ∀ pair ∈ pairs, pair.1.SameMillisecond pair.2

private theorem areWrittenAlike_iff_areSame {pairs : List (Instant × Instant)}
    (regular : AreRegular pairs) : AreWrittenAlike pairs ↔ AreSame pairs := by
  refine forall₂_congr fun pair member => ?_
  obtain ⟨first, second⟩ := regular pair member
  exact Instant.isWrittenAs_iff_sameMillisecond first second

theorem arePlain_append {first second : List (Instant × Instant)} :
    ArePlain (first ++ second) ↔ ArePlain first ∧ ArePlain second :=
  List.forall_mem_append

theorem areWrittenAlike_append {first second : List (Instant × Instant)} :
    AreWrittenAlike (first ++ second) ↔ AreWrittenAlike first ∧ AreWrittenAlike second :=
  List.forall_mem_append

/-- The characters with those replaced that may not stand in names. -/
def cleaned (chars : List Char) : List Char :=
  chars.map fun char => if Predicate.isRefused char then '_' else char

theorem cleaned_append (first second : List Char) :
    cleaned (first ++ second) = cleaned first ++ cleaned second :=
  List.map_append

private theorem cleaned_of_allowed {chars : List Char} (allowed : Allowed chars) :
    cleaned chars = chars := by
  have kept := congrArg String.toList (Predicate.sanitize_of_allowed allowed)
  rwa [Predicate.sanitize, String.toList_ofList, String.toList_ofList] at kept

/-- Digits may stand in names. -/
theorem isRefused_of_isDigit {char : Char} (digit : char.isDigit = true) :
    Predicate.isRefused char = false := by
  have range : 48 ≤ char.toNat ∧ char.toNat ≤ 57 := by
    simpa [Char.isDigit, UInt32.le_iff_toNat_le] using digit
  have other {mark : Char} (outside : mark.toNat < 48 ∨ 57 < mark.toNat) :
      (char == mark) = false := by
    refine beq_eq_false_iff_ne.mpr ?_
    rintro rfl
    omega
  have visible : Text.isBlank char = false := by
    simp only [Text.isBlank, Bool.or_eq_false_iff, Bool.and_eq_false_iff,
      decide_eq_false_iff_not, beq_eq_false_iff_ne]
    omega
  rw [Predicate.isRefused, other (by decide), other (by decide), other (by decide), visible]
  rfl

/-- All characters in the text of an instant may stand in names. -/
theorem Instant.allowed_chars {instant : Instant} (plain : instant.HasPlainYear) :
    Allowed instant.chars := by
  have marks : Allowed (Instant.columns.map (·.mark)) := by decide
  intro char member
  exact (Instant.of_mem_chars plain member).elim isRefused_of_isDigit (marks char)

/-- Rows of characters of one length, which stay different in names exactly if something else is
written of the instants of a pair. -/
structure DifferBy (pairs : List (Instant × Instant)) (first second : List Char) : Prop where
  length : first.length = second.length
  cleaned_eq_iff : cleaned first = cleaned second ↔ AreWrittenAlike pairs

namespace DifferBy

variable {pairs further : List (Instant × Instant)} {first second third fourth : List Char}

theorem refl (chars : List Char) : DifferBy [] chars chars :=
  ⟨rfl, iff_of_true rfl (List.forall_mem_nil _)⟩

/-- The texts of two instants. -/
theorem instants {before after : Instant} (beforePlain : before.HasPlainYear)
    (afterPlain : after.HasPlainYear) : DifferBy [(before, after)] before.chars after.chars := by
  constructor
  · exact Instant.length_chars_eq beforePlain afterPlain
  · rw [cleaned_of_allowed (Instant.allowed_chars beforePlain),
      cleaned_of_allowed (Instant.allowed_chars afterPlain), AreWrittenAlike,
      List.forall_mem_singleton, ← Instant.text_eq_iff beforePlain afterPlain, Instant.text,
      Instant.text, String.ofList_inj]

theorem append (front : DifferBy pairs first second) (rear : DifferBy further third fourth) :
    DifferBy (pairs ++ further) (first ++ third) (second ++ fourth) := by
  have lengths : (cleaned first).length = (cleaned second).length := by
    rw [cleaned, cleaned, List.length_map, List.length_map, front.length]
  constructor
  · rw [List.length_append, List.length_append, front.length, rear.length]
  · rw [areWrittenAlike_append, ← front.cleaned_eq_iff, ← rear.cleaned_eq_iff, cleaned_append,
      cleaned_append]
    constructor
    · exact fun equal => List.append_inj equal lengths
    · rintro ⟨fronts, rears⟩
      rw [fronts, rears]

/-- The same characters stand in front. -/
theorem prepend (chars : List Char) (rest : DifferBy pairs first second) :
    DifferBy pairs (chars ++ first) (chars ++ second) :=
  (refl chars).append rest

/-- The same characters stand behind. -/
theorem extend (rest : DifferBy pairs first second) (chars : List Char) :
    DifferBy pairs (first ++ chars) (second ++ chars) := by
  have both := rest.append (refl chars)
  rwa [List.append_nil] at both

end DifferBy

/-! ### Outlines that differ -/

/-- Outlines with the same connective, whose characters differ by the instants. -/
structure Outline.DifferBy (pairs : List (Instant × Instant)) (first second : Outline) : Prop where
  connective : first.connective? = second.connective?
  chars : Facet.DifferBy pairs first.chars second.chars

namespace Outline.DifferBy

variable {pairs further : List (Instant × Instant)} {first second left right : Outline}

theorem refl (outline : Outline) : DifferBy [] outline outline :=
  ⟨rfl, .refl _⟩

/-- Parentheses are set alike. -/
theorem grouped (differ : DifferBy pairs first second) :
    Facet.DifferBy pairs (first.grouped first.chars) (second.grouped second.chars) := by
  unfold Outline.grouped
  rw [differ.connective]
  split
  · exact (differ.chars.extend [')']).prepend ['(']
  · exact differ.chars

private theorem chained (differ : DifferBy pairs first second) (connective : Predicate.Connective) :
    Facet.DifferBy pairs (first.chained connective first.chars)
      (second.chained connective second.chars) := by
  unfold Outline.chained
  rw [differ.connective]
  split
  · exact differ.chars
  · exact differ.grouped

private theorem join (lefts : DifferBy pairs first second) (rights : DifferBy further left right)
    (connective : Predicate.Connective) :
    DifferBy (pairs ++ further) (.join connective first left) (.join connective second right) := by
  have rear := (rights.grouped.prepend ['_']).prepend connective.signatureName.toList
  exact ⟨rfl, (lefts.chained connective).append (rear.prepend ['_'])⟩

private theorem negation (inners : DifferBy pairs first second) :
    DifferBy pairs (.negation first) (.negation second) :=
  ⟨rfl, (inners.grouped.prepend ['_']).prepend "Not".toList⟩

private theorem operation {text other : String}
    (texts : Facet.DifferBy pairs text.toList other.toList) (field : String) (operator : Operator) :
    DifferBy pairs (.operation field operator text) (.operation field operator other) := by
  have rear := (texts.prepend ['_']).prepend operator.name.toList
  exact ⟨rfl, (rear.prepend ['_']).prepend field.toList⟩

private theorem any (inners : DifferBy pairs first second) (collection : String) :
    DifferBy pairs (.any collection first) (.any collection second) := by
  have rear := (inners.grouped.prepend ['_']).prepend "Any".toList
  exact ⟨rfl, (rear.prepend ['_']).prepend collection.toList⟩

end Outline.DifferBy

/-! ### Signatures -/

namespace Predicate

/-- A retimed literal has a text where the literal has one. -/
theorem texts_of_retimed {field : FieldExpr} {value value₂ : Literal}
    {pairs : List (Instant × Instant)} (retimed : value.Retimed value₂ pairs)
    (plain : ArePlain pairs) {wire text : String} (texts : Texts field value wire text) :
    ∃ other, Texts field value₂ wire other ∧ DifferBy pairs text.toList other.toList := by
  cases retimed with
  | same => exact ⟨text, texts, .refl _⟩
  | instant before after =>
      obtain ⟨beforePlain, afterPlain⟩ := plain _ (List.mem_singleton_self _)
      obtain rfl : before.text = text := Except.ok.inj texts.value
      refine ⟨after.text, ⟨texts.field, rfl⟩, ?_⟩
      rw [Instant.text, Instant.text, String.toList_ofList, String.toList_ofList]
      exact DifferBy.instants beforePlain afterPlain
  | list => cases texts.value

/-- A retimed predicate has an outline where the predicate has one, and they are spelled alike
but for the texts of the instants. -/
theorem outlines_of_retimed {first second : Predicate} {pairs : List (Instant × Instant)}
    (retimed : Retimed first second pairs) (plain : ArePlain pairs) {outline : Outline}
    (outlines : Outlines first outline) :
    ∃ other, Outlines second other ∧ Outline.DifferBy pairs outline other := by
  induction retimed generalizing outline with
  | and _ _ leftHypothesis rightHypothesis =>
      obtain ⟨leftPlain, rightPlain⟩ := arePlain_append.mp plain
      cases outlines with
      | and left right =>
          obtain ⟨_, left₂, lefts⟩ := leftHypothesis leftPlain left
          obtain ⟨_, right₂, rights⟩ := rightHypothesis rightPlain right
          exact ⟨_, .and left₂ right₂, lefts.join rights .and⟩
  | or _ _ leftHypothesis rightHypothesis =>
      obtain ⟨leftPlain, rightPlain⟩ := arePlain_append.mp plain
      cases outlines with
      | or left right =>
          obtain ⟨_, left₂, lefts⟩ := leftHypothesis leftPlain left
          obtain ⟨_, right₂, rights⟩ := rightHypothesis rightPlain right
          exact ⟨_, .or left₂ right₂, lefts.join rights .or⟩
  | not _ innerHypothesis =>
      cases outlines with
      | not inner =>
          obtain ⟨_, inner₂, inners⟩ := innerHypothesis plain inner
          exact ⟨_, .not inner₂, inners.negation⟩
  | compare values =>
      cases outlines with
      | compare texts =>
          obtain ⟨_, texts₂, differ⟩ := texts_of_retimed values plain texts
          exact ⟨_, .compare texts₂, .operation differ _ _⟩
  | equals values =>
      cases outlines with
      | equals texts =>
          obtain ⟨_, texts₂, differ⟩ := texts_of_retimed values plain texts
          exact ⟨_, .equals texts₂, .operation differ _ _⟩
  | notEquals values =>
      cases outlines with
      | notEquals texts =>
          obtain ⟨_, texts₂, differ⟩ := texts_of_retimed values plain texts
          exact ⟨_, .notEquals texts₂, .operation differ _ _⟩
  | flag | present | holds => exact ⟨outline, outlines, .refl _⟩
  | any _ innerHypothesis =>
      cases outlines with
      | any resolved inner =>
          obtain ⟨_, inner₂, inners⟩ := innerHypothesis plain inner
          exact ⟨_, .any resolved inner₂, inners.any _⟩
  | call => cases outlines

/-- A retimed predicate has a signature where the predicate has one, and it is the same exactly
if the same is written of the instants of each place. -/
theorem signature_of_retimed {first second : Predicate} {pairs : List (Instant × Instant)}
    (retimed : Retimed first second pairs) (plain : ArePlain pairs) {signature : String}
    (signed : first.signature = .ok signature) :
    ∃ other, second.signature = .ok other ∧ (signature = other ↔ AreWrittenAlike pairs) := by
  obtain ⟨outline, outlines, rfl⟩ := signature_eq_ok_iff.mp signed
  obtain ⟨other, outlines₂, differ⟩ := outlines_of_retimed retimed plain outlines
  refine ⟨_, signature_eq_ok_iff.mpr ⟨other, outlines₂, rfl⟩, ?_⟩
  rw [← differ.chars.cleaned_eq_iff, sanitize, sanitize, String.ofList_inj, String.toList_ofList,
    String.toList_ofList]
  rfl

end Predicate

/-! ### Order and identity -/

namespace Instant

/-- Two texts show what is written of two instants: they are equal if it is the same, and ordered
as it is. -/
structure AreShownBy (first second : Instant) (text other : String) : Prop where
  equal : text = other ↔ first.IsWrittenAs second
  less : text < other ↔ first.IsWrittenBefore second

/-- Two texts tell two instants apart as far as milliseconds do: they are equal within one, and
otherwise they are ordered as the instants. -/
structure AreToldBy (first second : Instant) (text other : String) : Prop where
  equal : text = other ↔ first.SameMillisecond second
  less : ¬first.SameMillisecond second → (text < other ↔ first.Precedes second)

private theorem areShownBy_text {first second : Instant} (firstPlain : first.HasPlainYear)
    (secondPlain : second.HasPlainYear) : first.AreShownBy second first.text second.text :=
  ⟨text_eq_iff firstPlain secondPlain, text_lt_iff firstPlain secondPlain⟩

/-- What is written of regular instants tells them apart. -/
theorem AreShownBy.told {first second : Instant} {text other : String}
    (shown : first.AreShownBy second text other) (firstRegular : first.IsRegular)
    (secondRegular : second.IsRegular) : first.AreToldBy second text other := by
  constructor
  · exact shown.equal.trans (isWrittenAs_iff_sameMillisecond firstRegular secondRegular)
  · intro apart
    exact shown.less.trans (isWrittenBefore_iff_precedes firstRegular secondRegular apart)

/-- **Instants keep their order and identity.** Two instants with plain years stand in queries and
signatures as texts that show their minutes and the milliseconds in these, and nothing else. If
whole seconds are in excess only as leap seconds, the texts tell the instants apart as far as
milliseconds do. Each date range of a compiled query that is bounded on both sides comes from two
comparisons side by side, and its bounds are the texts of their instants. If one predicate has a
signature, the same predicate with other instants has one as well, and it is the same exactly if
the same is written of all instants as of those that they replace: without stray excess seconds,
exactly if they are in one millisecond with those. -/
theorem keeps_order_and_identity :
    (∀ first second : Instant, first.HasPlainYear → second.HasPlainYear →
      ∃ text other,
        (∀ context, (Literal.instant first).toJson context = .ok (.string text) ∧
          (Literal.instant first).signatureText context = .ok text) ∧
        (∀ context, (Literal.instant second).toJson context = .ok (.string other) ∧
          (Literal.instant second).signatureText context = .ok other) ∧
        first.AreShownBy second text other ∧
        (first.IsRegular → second.IsRegular → first.AreToldBy second text other)) ∧
    (∀ options predicate query, (Predicate.compile options predicate).outcome = .ok query →
      ∀ range ∈ query.ranges, range.kind = .date → range.isTwoSided = true →
        ∃ below above lower upper,
          (predicate.Conjoins below above ∨ predicate.Conjoins above below) ∧
          range.IsBetween below above lower upper ∧
          (lower.HasPlainYear → upper.HasPlainYear →
            lower.AreShownBy upper lower.text upper.text ∧
            (lower.IsRegular → upper.IsRegular →
              lower.AreToldBy upper lower.text upper.text))) ∧
    (∀ first second pairs, Predicate.Retimed first second pairs → ArePlain pairs →
      ∀ signature, first.signature = .ok signature →
        ∃ other, second.signature = .ok other ∧ (signature = other ↔ AreWrittenAlike pairs) ∧
          (AreRegular pairs → (signature = other ↔ AreSame pairs))) := by
  refine ⟨?_, ?_, ?_⟩
  · intro first second firstPlain secondPlain
    have shown := areShownBy_text firstPlain secondPlain
    exact ⟨first.text, second.text, fun _ => ⟨rfl, rfl⟩, fun _ => ⟨rfl, rfl⟩, shown, shown.told⟩
  · intro options predicate query compiled range member date twoSided
    obtain ⟨_, lowers, rfl⟩ := Predicate.lowers_of_compile compiled
    obtain ⟨below, above, lower, upper, found, between⟩ :=
      Predicate.datesBetween_of_lowers lowers range member date twoSided
    refine ⟨below, above, lower, upper, found, between, ?_⟩
    intro lowerPlain upperPlain
    have shown := areShownBy_text lowerPlain upperPlain
    exact ⟨shown, shown.told⟩
  · intro first second pairs retimed plain signature signed
    obtain ⟨other, otherSigned, alike⟩ := Predicate.signature_of_retimed retimed plain signed
    refine ⟨other, otherSigned, alike, ?_⟩
    intro regular
    exact alike.trans (areWrittenAlike_iff_areSame regular)

/-- The last millisecond of February 1900 is before March, and the leap second at the end of 2016
before the next year. Cars built from March on and before the leap second are found by one range
between both. Its signature is kept by another bound within the same millisecond, and by none in
the next year. -/
theorem carsBuiltBetween_told :
    let february : Instant := ⟨-2203891201, 999999999, by decide⟩
    let march : Instant := ⟨-2203891200, 0, by decide⟩
    let leap : Instant := ⟨1483228799, 1500000000, by decide⟩
    let leapLater : Instant := ⟨1483228799, 1500999999, by decide⟩
    let year : Instant := ⟨1483228800, 0, by decide⟩
    let between (upper : Instant) := Predicate.and
      (.compare ⟨.less, .property "Built", .instant upper⟩)
      (.compare ⟨.greaterOrEqual, .property "Built", .instant march⟩)
    let bounds : Bounds :=
      { Bounds.none with atLeast := some (.string march.text), below := some (.string leap.text) }
    february.text = "1900-02-28T23:59:59.999Z" ∧ leap.text = "2016-12-31T23:59:60.500Z" ∧
      february.text < march.text ∧ leap.text < year.text ∧
      ((between leap).compile .standard).outcome = .ok (.range "built" .date bounds) ∧
      (∃ below above, Query.Range.IsBetween ⟨"built", .date, bounds⟩ below above march leap) ∧
      ∃ signature, (between leap).signature = .ok signature ∧
        (between leapLater).signature = .ok signature ∧
        (between year).signature ≠ .ok signature := by
  intro february march leap leapLater year between bounds
  obtain ⟨texts, ranges, signatures⟩ := keeps_order_and_identity
  obtain ⟨text, other, named, otherNamed, _, told⟩ :=
    texts february march (by decide) (by decide)
  obtain rfl : february.text = text := Except.ok.inj (named "").2
  obtain rfl : march.text = other := Except.ok.inj (otherNamed "").2
  obtain ⟨text, other, named, otherNamed, _, later⟩ := texts leap year (by decide) (by decide)
  obtain rfl : leap.text = text := Except.ok.inj (named "").2
  obtain rfl : year.text = other := Except.ok.inj (otherNamed "").2
  have februaryBefore := ((told (by decide) (by decide)).less (by decide)).mpr (by decide)
  have leapBefore := ((later (by decide) (by decide)).less (by decide)).mpr (by decide)
  have compiled : ((between leap).compile .standard).outcome =
      .ok (.range "built" .date bounds) := rfl
  obtain ⟨below, above, lower, upper, found, merged, _⟩ :=
    ranges .standard (between leap) _ compiled ⟨"built", .date, bounds⟩ (.head _) rfl rfl
  have instants : march = lower ∧ leap = upper := by
    rcases found with found | found
    · cases found with
      | here => cases merged.isLower
      | andLeft found | andRight found => cases found
    · cases found with
      | here =>
          exact ⟨Literal.instant.inj merged.belowValue, Literal.instant.inj merged.aboveValue⟩
      | andLeft found | andRight found => cases found
  obtain ⟨rfl, rfl⟩ := instants
  have retimed (upper : Instant) :
      Predicate.Retimed (between leap) (between upper) [(leap, upper)] :=
    .and (.compare (.instant leap upper)) (.compare (.same _))
  have leapPlain : leap.HasPlainYear := by decide
  have leapRegular : leap.IsRegular := by decide
  have plain {upper : Instant} (upperPlain : upper.HasPlainYear) : ArePlain [(leap, upper)] :=
    List.forall_mem_singleton.mpr ⟨leapPlain, upperPlain⟩
  have regular {upper : Instant} (upperRegular : upper.IsRegular) :
      AreRegular [(leap, upper)] :=
    List.forall_mem_singleton.mpr ⟨leapRegular, upperRegular⟩
  obtain ⟨_, same, _, sameIff⟩ :=
    signatures _ _ _ (retimed leapLater) (plain (by decide)) _ rfl
  obtain ⟨_, different, _, differentIff⟩ :=
    signatures _ _ _ (retimed year) (plain (by decide)) _ rfl
  obtain rfl := (sameIff (regular (by decide))).mpr (List.forall_mem_singleton.mpr (by decide))
  refine ⟨by decide, by decide, februaryBefore, leapBefore, compiled, ⟨below, above, merged⟩, _,
    rfl, same, ?_⟩
  intro equal
  have shared := (differentIff (regular (by decide))).mp
    (Except.ok.inj (equal.symm.trans different))
  exact absurd (List.forall_mem_singleton.mp shared) (by decide)

/-- The milliseconds since the start of 1970. A leap second has none of its own in this count. -/
def unixMillisecond (instant : Instant) : Int :=
  instant.seconds * 1000 + instant.nanos / 10 ^ 6

/-- An excess second in the midst of a minute is written as the second that follows. The two
instants are in different milliseconds, one before the other, and neither a query nor a signature
tells them apart. Texts do not go by the milliseconds since 1970 either: a leap second shares
these with the second behind it, and has another text. -/
theorem excess_second_is_written_as_next :
    let excess : Instant := ⟨1709294404, 1500000000, by decide⟩
    let next : Instant := ⟨1709294405, 500000000, by decide⟩
    let leap : Instant := ⟨1483228799, 1500000000, by decide⟩
    let year : Instant := ⟨1483228800, 500000000, by decide⟩
    let before (upper : Instant) := Predicate.compare ⟨.less, .property "Built", .instant upper⟩
    excess.HasPlainYear ∧ next.HasPlainYear ∧ ¬excess.SameMillisecond next ∧
      excess.Precedes next ∧
      (∀ context,
        (Literal.instant excess).toJson context = .ok (.string "2024-03-01T12:00:05.500Z") ∧
        (Literal.instant next).toJson context = .ok (.string "2024-03-01T12:00:05.500Z")) ∧
      (∃ signature, (before excess).signature = .ok signature ∧
        (before next).signature = .ok signature) ∧
      leap.unixMillisecond = year.unixMillisecond ∧ leap.text = "2016-12-31T23:59:60.500Z" ∧
      year.text = "2017-01-01T00:00:00.500Z" := by
  intro excess next leap year before
  have excessPlain : excess.HasPlainYear := by decide
  have nextPlain : next.HasPlainYear := by decide
  have excessText : excess.text = "2024-03-01T12:00:05.500Z" := by decide
  have nextText : next.text = "2024-03-01T12:00:05.500Z" := by decide
  have retimed : Predicate.Retimed (before excess) (before next) [(excess, next)] :=
    .compare (.instant excess next)
  have plain : ArePlain [(excess, next)] :=
    List.forall_mem_singleton.mpr ⟨excessPlain, nextPlain⟩
  have alike : AreWrittenAlike [(excess, next)] := List.forall_mem_singleton.mpr (by decide)
  obtain ⟨signature, signed, same⟩ := Predicate.signature_of_retimed retimed plain rfl
  obtain rfl := same.mpr alike
  refine ⟨excessPlain, nextPlain, by decide, by decide, ?_, ⟨_, rfl, signed⟩, by decide,
    by decide, by decide⟩
  intro context
  rw [Literal.toJson, Literal.toJson, excessText, nextText]
  exact ⟨rfl, rfl⟩

end Instant

end Facet
