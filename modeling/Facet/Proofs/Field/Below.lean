import Facet.Proofs.Field.Resolution

/-!
Paths below other paths, and their dotted texts.

Owns:
- the dotted text of a path below another: the text of the outer path, a point and its own text;
- that the outer text can be taken off again, and so tells paths below it apart;
- resolution below a scope that is itself below a path.
-/

namespace Facet

namespace Text.Dotted

/-- A point joins the texts of two rows of segments. -/
theorem join_append {outer inner : List (List Char)} (outerNonempty : outer ≠ [])
    (innerNonempty : inner ≠ []) :
    join (outer ++ inner) = join outer ++ '.' :: join inner := by
  induction outer with
  | nil => exact absurd rfl outerNonempty
  | cons segment others inductionHypothesis =>
      cases others with
      | nil => exact join_cons segment innerNonempty
      | cons next more =>
          rw [List.cons_append, join_cons segment (by simp), join_cons segment (by simp),
            inductionHypothesis (by simp), List.append_assoc, List.cons_append]

end Text.Dotted

namespace Path

/-- A dotted text below a path. -/
def enclose (path : Path) (wire : String) : String :=
  path.wire ++ "." ++ wire

/-- What a dotted text has below a path, if it is below the path. -/
def remainder? (path : Path) (wire : String) : Option String :=
  let outer := path.wire.toList ++ ['.']
  if outer.isPrefixOf wire.toList then some (String.ofList (wire.toList.drop outer.length))
  else none

private theorem toList_enclose (path : Path) (wire : String) :
    (path.enclose wire).toList = path.wire.toList ++ ['.'] ++ wire.toList := by
  simp [enclose]

/-- The texts below a path are told apart by what they have below it. -/
@[simp] theorem enclose_inj {path : Path} {first second : String} :
    path.enclose first = path.enclose second ↔ first = second := by
  rw [← String.toList_inj, toList_enclose, toList_enclose, List.append_cancel_left_eq,
    String.toList_inj]

/-- The texts below a path are ordered as what they have below it. -/
theorem lt_of_enclose_lt {path : Path} {first second : String}
    (less : path.enclose first < path.enclose second) : first < second := by
  have keeps {left right : String} (below : left < right) :
      path.enclose left < path.enclose right := by
    rw [String.lt_iff, toList_enclose, toList_enclose]
    exact List.append_left_lt (String.lt_iff.mp below)
  rcases Std.lt_trichotomy first second with below | rfl | above
  · exact below
  · exact absurd less (String.lt_irrefl _)
  · exact absurd less (String.lt_asymm (keeps above))

theorem remainder?_eq_some_iff {path : Path} {wire rest : String} :
    path.remainder? wire = some rest ↔ wire = path.enclose rest := by
  rw [remainder?, Option.ite_none_right_eq_some, List.isPrefixOf_iff_prefix,
    ← String.toList_inj, toList_enclose]
  constructor
  · rintro ⟨⟨chars, spelled⟩, found⟩
    rw [← spelled, List.drop_left, Option.some.injEq] at found
    rw [← spelled, ← found, String.toList_ofList]
  · intro spelled
    rw [spelled, List.drop_left, String.ofList_toList]
    exact ⟨List.prefix_append _ _, rfl⟩

/-- The dotted text of a path below another. -/
theorem wire_under (path scope : Path) : (path.under scope).wire = scope.enclose path.wire := by
  rw [← String.toList_inj, toList_enclose]
  simp only [wire, segments_under, List.map_append, String.toList_ofList]
  rw [Text.Dotted.join_append (by simpa using scope.nonempty) (by simpa using path.nonempty)]
  simp

/-- A scope below a path. -/
def beneath (outer : Path) : Option Path → Path
  | none => outer
  | some inner => inner.under outer

private theorem within_beneath (path outer : Path) (scope : Option Path) :
    path.within (some (outer.beneath scope)) = (path.within scope).under outer := by
  cases scope with
  | none => rfl
  | some inner => exact (under_under path inner outer).symm

end Path

namespace FieldExpr

variable {scope : Option Path} {field : FieldExpr}

/-- Below a scope that is below a path, a field has its path below that path. -/
theorem resolveWithin_beneath (outer : Path) (scope : Option Path) (field : FieldExpr) :
    field.resolveWithin (some (outer.beneath scope)) =
      (fun path => path.under outer) <$> field.resolveWithin scope := by
  unfold resolveWithin
  cases field.resolve with
  | error _ => rfl
  | ok path => exact congrArg Except.ok (Path.within_beneath path outer scope)

theorem wireWithin_beneath (outer : Path) (scope : Option Path) (field : FieldExpr) :
    field.wireWithin (some (outer.beneath scope)) =
      outer.enclose <$> field.wireWithin scope := by
  unfold wireWithin
  rw [resolveWithin_beneath]
  cases field.resolveWithin scope with
  | error _ => rfl
  | ok path => exact congrArg Except.ok (Path.wire_under path outer)

end FieldExpr

end Facet
