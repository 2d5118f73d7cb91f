import Facet.Error
import Facet.Text.Blank
import Facet.Text.Dotted

/-!
Paths of fields: segments that the engine joins by points.

Owns:
- which segments are valid, and the type of non-empty paths of valid segments;
- paths from segments and from dotted text, and the dotted text of a path;
- paths under other paths.
-/

namespace Facet

/-- Whether a segment may stand in a path: it is not empty and has neither points nor white
space. -/
def isSegment (segment : String) : Bool :=
  !segment.toList.isEmpty && !segment.toList.contains '.' && !segment.toList.any Text.isBlank

/-- A non-empty row of valid segments. -/
structure Path where
  segments : List String
  nonempty : segments ≠ []
  valid : ∀ segment ∈ segments, isSegment segment = true
deriving DecidableEq, Repr

namespace Path

/-- The path of some segments; the first invalid segment is reported. -/
def ofSegments (segments : List String) : Except Error Path :=
  if nonempty : segments = [] then
    .error (.unresolvableField .emptyPath)
  else
    match search : segments.find? (!isSegment ·) with
    | some bad => .error (.unresolvableField (.invalidSegment bad))
    | none =>
        .ok ⟨segments, nonempty, by simpa using List.find?_eq_none.mp search⟩

/-- The segments of a dotted text. -/
def segmentsOf (wire : String) : List String :=
  (Text.Dotted.split wire.toList).map String.ofList

/-- The path of a dotted text. -/
def parse (wire : String) : Except Error Path :=
  ofSegments (segmentsOf wire)

/-- The dotted text of a path, as the engine knows it. -/
def wire (path : Path) : String :=
  String.ofList (Text.Dotted.join (path.segments.map String.toList))

/-- A path below another. -/
def under (path scope : Path) : Path where
  segments := scope.segments ++ path.segments
  nonempty := by simp [path.nonempty]
  valid := by
    intro segment member
    rcases List.mem_append.mp member with inScope | inPath
    · exact scope.valid segment inScope
    · exact path.valid segment inPath

/-- A path below another, if there is one. -/
def within (path : Path) : Option Path → Path
  | none => path
  | some scope => path.under scope

@[simp] theorem segments_under (path scope : Path) :
    (path.under scope).segments = scope.segments ++ path.segments := rfl

theorem under_under (path inner outer : Path) :
    (path.under inner).under outer = path.under (inner.under outer) := by
  simp [under, List.append_assoc]

end Path

end Facet
