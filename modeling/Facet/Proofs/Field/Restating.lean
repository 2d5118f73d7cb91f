import Facet.Proofs.Field.Resolution

/-!
Fields stated by other expressions.

No segment of a path has a point in it, so the dotted text of the path splits into the segments
again. Nothing else of an expression than this text is left in its path, and the expression that
names the text directly has the same path.

Owns:
- that the dotted text of a path determines the path;
- `FieldExpr.Restated`, expressions with one text, and that they resolve alike below every scope;
- the expression that names the path of another one directly.
-/

namespace Facet

/-! ### Paths -/

namespace Path

/-- The dotted text of a path splits into its segments. -/
theorem segmentsOf_wire (path : Path) : segmentsOf path.wire = path.segments := by
  have nonempty : path.segments.map String.toList ≠ [] := by
    simpa using path.nonempty
  have pointFree : ∀ segment ∈ path.segments.map String.toList, '.' ∉ segment := by
    intro chars member
    obtain ⟨segment, listed, rfl⟩ := List.mem_map.mp member
    have valid := path.valid segment listed
    simp only [isSegment, Bool.and_eq_true, Bool.not_eq_true', List.contains_eq_mem,
      decide_eq_false_iff_not] at valid
    exact valid.1.2
  rw [segmentsOf, wire, String.toList_ofList, Text.Dotted.split_join nonempty pointFree,
    List.map_map]
  simp

/-- The segments of a path make the path. -/
theorem ofSegments_segments (path : Path) : ofSegments path.segments = .ok path := by
  unfold ofSegments
  rw [dif_neg path.nonempty]
  split
  · next bad search =>
      have invalid := List.find?_some search
      have valid := path.valid bad (List.mem_of_find?_eq_some search)
      rw [valid] at invalid
      cases invalid
  · rfl

/-- A path is read back from its dotted text. -/
theorem parse_wire (path : Path) : parse path.wire = .ok path := by
  rw [parse, segmentsOf_wire, ofSegments_segments]

theorem wire_injective {first second : Path} (same : first.wire = second.wire) :
    first = second := by
  have parsed := parse_wire first
  rw [same, parse_wire second] at parsed
  exact (Except.ok.inj parsed).symm

end Path

namespace FieldExpr

/-! ### Expressions with one text -/

/-- Another expression for a field: it has the same dotted text, or is refused for the same
reason, and it names the field directly if the first one does. -/
structure Restated (field other : FieldExpr) : Prop where
  wire : other.wire = field.wire
  named : field.isNamed = true → other.isNamed = true

theorem Restated.refl (field : FieldExpr) : field.Restated field :=
  ⟨rfl, id⟩

variable {field other : FieldExpr}

theorem wire_eq_ok_iff {wire : String} :
    field.wire = .ok wire ↔ ∃ path, field.resolve = .ok path ∧ path.wire = wire := by
  simp only [FieldExpr.wire, Outcome.bind_eq_ok, Outcome.pure_eq_ok]

theorem wire_eq_error_iff {error : Error} :
    field.wire = .error error ↔ field.resolve = .error error :=
  Outcome.bind_pure_eq_error

/-- The path is determined by its text. -/
theorem Restated.resolve (restated : field.Restated other) : other.resolve = field.resolve := by
  have same := restated.wire
  cases resolved : field.resolve with
  | ok path =>
      rw [wire_eq_ok_iff.mpr ⟨path, resolved, rfl⟩, wire_eq_ok_iff] at same
      obtain ⟨otherPath, otherResolved, texts⟩ := same
      rw [otherResolved, Path.wire_injective texts]
  | error error =>
      rw [wire_eq_error_iff.mpr resolved] at same
      exact wire_eq_error_iff.mp same

theorem Restated.resolveWithin (restated : field.Restated other) (scope : Option Path) :
    other.resolveWithin scope = field.resolveWithin scope := by
  rw [FieldExpr.resolveWithin, FieldExpr.resolveWithin, restated.resolve]

theorem Restated.wireWithin (restated : field.Restated other) (scope : Option Path) :
    other.wireWithin scope = field.wireWithin scope := by
  rw [FieldExpr.wireWithin, FieldExpr.wireWithin, restated.resolveWithin]

/-! ### Direct names -/

/-- The expression that names the path of a field directly. An expression without a path is left
as it is. -/
def byWire (field : FieldExpr) : FieldExpr :=
  match field.wire with
  | .ok wire => .ofWire wire
  | .error _ => field

private theorem resolve_ofWire (wire : String) : (ofWire wire).resolve = Path.parse wire := rfl

/-- The direct name of a field is another expression for it. -/
theorem restated_byWire (field : FieldExpr) : field.Restated field.byWire := by
  unfold byWire
  cases text : field.wire with
  | ok wire =>
      obtain ⟨path, _, rfl⟩ := wire_eq_ok_iff.mp text
      refine ⟨?_, fun _ => rfl⟩
      rw [text, wire_eq_ok_iff]
      exact ⟨path, by rw [resolve_ofWire, Path.parse_wire], rfl⟩
  | error error => exact .refl field

end FieldExpr

end Facet
