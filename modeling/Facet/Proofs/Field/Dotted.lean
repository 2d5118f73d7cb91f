import Facet.Proofs.Field.Below
import Facet.Proofs.Field.Grammar

/-!
Paths and their dotted texts determine each other.

Segments are checked when a path is made of them, but not again when the path is put below another
one. All rows of segments that come about in this way would pass the check nevertheless. So no
segment ever has a point in it, the points of a text show where its segments end, and a scope in
front of a path is the text of the scope and a point in front of the text of the path.

Owns:
- `Path.Obtained`, the rows of segments that paths come to have, and that they are just the rows
  of one or more plain segments;
- which texts are read as paths, and that reading and writing undo each other;
- paths below any number of scopes, and their texts;
- that a path is determined by what it is below a scope.

Does not own: which paths expressions have.
-/

namespace Facet.Path

/-! ### Rows of segments -/

/-- The rows of segments that paths come to have. Rows that are given, read from a text or found
for a field are checked. A row with the row of a scope in front is not checked as a whole. -/
inductive Obtained : List String → Prop where
  | given {row : List String} {path : Path} (made : ofSegments row = .ok path) :
      Obtained path.segments
  | read {text : String} {path : Path} (parsed : parse text = .ok path) : Obtained path.segments
  | found {field : FieldExpr} {path : Path} (resolved : field.resolve = .ok path) :
      Obtained path.segments
  | under {row scope : List String} (inner : Obtained row) (outer : Obtained scope) :
      Obtained (scope ++ row)

/-- What a path has as its row below a scope would pass the check as a whole. -/
theorem ofSegments_append (path scope : Path) :
    ofSegments (scope.segments ++ path.segments) = .ok (path.under scope) :=
  ofSegments_eq_ok_iff.mpr (segments_under path scope)

/-- Exactly the rows that come about pass the check. -/
theorem obtained_iff {row : List String} : Obtained row ↔ ∃ path, ofSegments row = .ok path := by
  constructor
  · intro obtained
    induction obtained with
    | given _ | read _ | found _ => exact ⟨_, ofSegments_segments _⟩
    | under _ _ innerPasses outerPasses =>
        obtain ⟨path, made⟩ := innerPasses
        obtain ⟨scope, scopeMade⟩ := outerPasses
        rw [← ofSegments_eq_ok_iff.mp made, ← ofSegments_eq_ok_iff.mp scopeMade]
        exact ⟨path.under scope, ofSegments_append path scope⟩
  · rintro ⟨path, made⟩
    rw [← ofSegments_eq_ok_iff.mp made]
    exact .given made

/-- The check lets the rows of one or more plain segments through. -/
theorem ofSegments_succeeds_iff {row : List String} :
    (∃ path, ofSegments row = .ok path) ↔ row ≠ [] ∧ ∀ segment ∈ row, IsPlain segment := by
  simp only [ofSegments_eq_ok_iff, ← isSegment_iff_isPlain]
  constructor
  · rintro ⟨path, rfl⟩
    exact ⟨path.nonempty, path.valid⟩
  · rintro ⟨nonempty, valid⟩
    exact ⟨⟨row, nonempty, valid⟩, rfl⟩

/-! ### Reading and writing -/

/-- The segments of a path are the parts of its text. -/
theorem arePartsOf_wire (path : Path) : ArePartsOf path.segments path.wire :=
  segmentsOf_eq_iff.mp (segmentsOf_wire path)

/-- A text is read as the one path that is written so. -/
theorem parse_eq_ok_iff {text : String} {path : Path} :
    parse text = .ok path ↔ path.wire = text := by
  constructor
  · intro parsed
    have parts : ArePartsOf path.segments text :=
      segmentsOf_eq_iff.mp (ofSegments_eq_ok_iff.mp parsed).symm
    rw [← (arePartsOf_wire path).joined, parts.joined]
  · rintro rfl
    exact parse_wire path

/-- A text is read as a path exactly if its parts are plain, and they become the segments. -/
theorem parse_succeeds_iff {text : String} {row : List String} :
    (∃ path, parse text = .ok path ∧ path.segments = row) ↔
      ArePartsOf row text ∧ ∀ segment ∈ row, IsPlain segment := by
  constructor
  · rintro ⟨path, parsed, rfl⟩
    obtain rfl := parse_eq_ok_iff.mp parsed
    have passes := ofSegments_succeeds_iff.mp ⟨path, ofSegments_segments path⟩
    exact ⟨arePartsOf_wire path, passes.2⟩
  · rintro ⟨parts, plain⟩
    obtain ⟨path, made⟩ := ofSegments_succeeds_iff.mpr ⟨parts.nonempty, plain⟩
    refine ⟨path, ?_, ofSegments_eq_ok_iff.mp made⟩
    rw [parse, segmentsOf_eq_iff.mpr parts, made]

/-! ### Scopes -/

/-- A path below several scopes, the outermost one first. -/
def underAll (path : Path) : List Path → Path
  | [] => path
  | outer :: scopes => (path.underAll scopes).under outer

/-- The text of a path below several scopes begins with their texts, outermost first. -/
theorem wire_underAll (path : Path) (scopes : List Path) :
    (path.underAll scopes).wire = ".".intercalate (scopes.map wire ++ [path.wire]) := by
  induction scopes with
  | nil => exact String.intercalate_singleton.symm
  | cons outer scopes inductionHypothesis =>
      rw [underAll, wire_under, inductionHypothesis, List.map_cons, List.cons_append,
        String.intercalate_cons_of_ne_nil (by simp), enclose]

/-- Two paths below one scope are told apart by what they are without it. -/
theorem under_left_inj {first second scope : Path} :
    first.under scope = second.under scope ↔ first = second := by
  constructor
  · intro same
    have texts : scope.enclose first.wire = scope.enclose second.wire := by
      rw [← wire_under, ← wire_under, same]
    exact wire_injective (enclose_inj.mp texts)
  · rintro rfl
    rfl

/-- **Paths and dotted texts correspond.** The rows of segments that paths come to have, in however
many steps, are just the rows of one or more plain segments, and these are the rows that the check
lets through. A text is read as a path exactly if its parts are plain, they are the segments of the
path, and the text is how the path is written. A path below a scope is the one that the check
would make of both rows, and its text is both texts with a point between; likewise below any number
of scopes. Scopes may be put in front one by one or together, and no two paths are the same below
one scope. -/
theorem paths_correspond_to_texts :
    (∀ row, (Obtained row ↔ row ≠ [] ∧ ∀ segment ∈ row, IsPlain segment) ∧
      (Obtained row ↔ ∃ path, ofSegments row = .ok path ∧ path.segments = row)) ∧
    (∀ text row, (∃ path, parse text = .ok path ∧ path.segments = row) ↔
      ArePartsOf row text ∧ ∀ segment ∈ row, IsPlain segment) ∧
    (∀ text path, parse text = .ok path ↔ path.wire = text) ∧
    (∀ path scope : Path,
      ofSegments (scope.segments ++ path.segments) = .ok (path.under scope) ∧
      (path.under scope).wire = scope.wire ++ "." ++ path.wire) ∧
    (∀ (path : Path) (scopes : List Path),
      (path.underAll scopes).wire = ".".intercalate (scopes.map wire ++ [path.wire])) ∧
    (∀ path inner outer : Path,
      (path.under inner).under outer = path.under (inner.under outer)) ∧
    (∀ first second scope : Path,
      first.under scope = second.under scope ↔ first = second) := by
  refine ⟨fun row => ⟨?_, ?_⟩, ?_, ?_, ?_, wire_underAll, under_under, ?_⟩
  · exact obtained_iff.trans ofSegments_succeeds_iff
  · rw [obtained_iff]
    exact exists_congr fun path => (and_iff_left_of_imp ofSegments_eq_ok_iff.mp).symm
  · intro text row
    exact parse_succeeds_iff
  · intro text path
    exact parse_eq_ok_iff
  · intro path scope
    exact ⟨ofSegments_append path scope, wire_under path scope⟩
  · intro first second scope
    exact under_left_inj

/-- A segment with a point in it could not be told from two segments by its text. It is refused. -/
example :
    ofSegments ["engine.kW"] = .error (.unresolvableField (.invalidSegment "engine.kW")) ∧
      (segments <$> parse "engine.kW") = .ok ["engine", "kW"] :=
  ⟨rfl, rfl⟩

end Facet.Path
