import Facet.Field.Resolution
import Facet.Proofs.Outcome

/-!
Paths that begin with a property.

A property contributes its name with a lower-case first letter, so the text of a path that begins
with one does not begin with a capital. Named fields contribute their names as they are.

Owns:
- that no lower-case form of a character begins with a capital of the ASCII alphabet;
- field expressions that begin with a property, and how their texts begin.
-/

namespace Facet

/-! ### Lower-case forms -/

namespace Text

/-- The characters begin with another one than a capital of the ASCII alphabet. -/
def BeginsWithoutCapital (chars : List Char) : Prop :=
  ∃ first rest, chars = first :: rest ∧ first.isUpper = false

theorem BeginsWithoutCapital.append {chars : List Char} (begins : BeginsWithoutCapital chars)
    (more : List Char) : BeginsWithoutCapital (chars ++ more) := by
  obtain ⟨first, rest, rfl, small⟩ := begins
  exact ⟨first, rest ++ more, rfl, small⟩

/-- The capitals of the ASCII alphabet by their codes. -/
theorem isUpper_iff {char : Char} : char.isUpper = true ↔ 65 ≤ char.toNat ∧ char.toNat ≤ 90 := by
  have bounds : char.isUpper = decide (65 ≤ char.val ∧ char.val ≤ 90) := rfl
  rw [bounds]
  simp [UInt32.le_iff_toNat_le, ← Char.toNat_val]

/-- The character of a code has this code, or is the first one if no character has it. -/
theorem toNat_ofNat (code : Nat) :
    (Char.ofNat code).toNat = code ∨ (Char.ofNat code).toNat = 0 := by
  unfold Char.ofNat
  by_cases valid : code.isValidChar
  · left
    rw [dif_pos valid]
    rfl
  · right
    rw [dif_neg valid]
    rfl

private theorem isUpper_ofNat_of_large {code : Nat} (large : 90 < code) :
    (Char.ofNat code).isUpper = false := by
  rw [Bool.eq_false_iff, Ne, isUpper_iff]
  rcases toNat_ofNat code with value | value <;> omega

/-- All single forms are behind the capitals. -/
theorem lowerRuns_large : ∀ run ∈ lowerRuns, 90 < run.target := by
  decide +kernel

/-- The lower-case form of a character begins with no capital. -/
theorem lower_beginsWithoutCapital (char : Char) : BeginsWithoutCapital (lower char) := by
  unfold lower caseForm
  cases single : lowerRuns.findSome? (·.form? char.toNat) with
  | some code =>
      refine ⟨Char.ofNat code, [], rfl, ?_⟩
      obtain ⟨run, member, formed⟩ := List.exists_of_findSome?_eq_some single
      unfold CaseRun.form? at formed
      split at formed
      · cases formed
        have large := lowerRuns_large run member
        exact isUpper_ofNat_of_large (by omega)
      · cases formed
  | none =>
      cases expanded : lowerExpansions.find? (·.source == char.toNat) with
      | some expansion =>
          cases List.mem_singleton.mp (List.mem_of_find?_eq_some expanded)
          exact ⟨_, _, rfl, rfl⟩
      | none =>
          -- All capitals are in one run, so a character without a run is none of them.
          refine ⟨char, [], rfl, ?_⟩
          have unchanged := List.findSome?_eq_none_iff.mp single ⟨0x41, 0x5A, 1, 0x61⟩
            List.mem_cons_self
          cases capital : char.isUpper with
          | false => rfl
          | true =>
              have range : 0x41 ≤ char.toNat ∧ char.toNat ≤ 0x5A := isUpper_iff.mp capital
              simp [CaseRun.form?, range, Nat.mod_one] at unchanged

/-- A text with a lower-case first letter begins with no capital. -/
theorem lowerFirst_beginsWithoutCapital {name : List Char} (nonempty : lowerFirst name ≠ []) :
    BeginsWithoutCapital (lowerFirst name) := by
  cases name with
  | nil => exact absurd rfl nonempty
  | cons char others => exact (lower_beginsWithoutCapital char).append others

/-- The text of a row of segments begins as the first segment does. -/
theorem Dotted.join_beginsWithoutCapital {first : List Char} (begins : BeginsWithoutCapital first)
    (segments : List (List Char)) : BeginsWithoutCapital (join (first :: segments)) := by
  cases segments with
  | nil => exact begins
  | cons next others => exact begins.append _

end Text

/-! ### Paths -/

/-- A path made from segments has these segments. -/
theorem Path.segments_of_ofSegments {segments : List String} {path : Path}
    (made : Path.ofSegments segments = .ok path) : path.segments = segments := by
  unfold Path.ofSegments at made
  split at made
  · cases made
  · split at made
    · cases made
    · cases made
      rfl

private theorem Path.ne_nil_of_mem {path : Path} {segment : String}
    (member : segment ∈ path.segments) : segment.toList ≠ [] := by
  have valid := path.valid segment member
  intro empty
  simp [isSegment, empty] at valid

namespace FieldExpr

/-- The access nearest to the document is a property. -/
def BeginsWithProperty : FieldExpr → Prop
  | .member target _ => target.isRoot = true ∨ target.BeginsWithProperty
  | .named target _ => target.BeginsWithProperty
  | _ => False

/-- The document itself has no access. -/
theorem isRoot_eq_false_of_beginsWithProperty {field : FieldExpr}
    (begins : field.BeginsWithProperty) : field.isRoot = false := by
  cases field with
  | root => exact begins.elim
  | _ => rfl

private theorem segments_of_beginsWithProperty {whole field : FieldExpr} {segments : List String}
    (begins : field.BeginsWithProperty)
    (succeeds : FieldExpr.segments whole field = .ok segments) :
    ∃ name rest, segments = String.ofList (Text.lowerFirst name) :: rest := by
  induction field generalizing segments with
  | member target name targetHypothesis =>
      unfold FieldExpr.segments at succeeds
      split at succeeds
      · cases succeeds
        exact ⟨name.toList, [], rfl⟩
      · next notRoot =>
          obtain ⟨outer, outerSucceeds, joined⟩ := Outcome.bind_eq_ok.mp succeeds
          cases joined
          obtain ⟨first, others, rfl⟩ :=
            targetHypothesis (begins.resolve_left notRoot) outerSucceeds
          exact ⟨first, _, rfl⟩
  | named target name targetHypothesis =>
      have targetBegins : target.BeginsWithProperty := begins
      unfold FieldExpr.segments at succeeds
      split at succeeds
      · next root =>
          rw [isRoot_eq_false_of_beginsWithProperty targetBegins] at root
          cases root
      · obtain ⟨outer, outerSucceeds, rest⟩ := Outcome.bind_eq_ok.mp succeeds
        obtain ⟨inner, _, joined⟩ := Outcome.bind_eq_ok.mp rest
        cases joined
        obtain ⟨first, others, rfl⟩ := targetHypothesis targetBegins outerSucceeds
        exact ⟨first, _, rfl⟩
  | _ => exact begins.elim

/-- The text of a path that begins with a property begins with no capital. -/
theorem wire_beginsWithoutCapital {field : FieldExpr} {wire : String}
    (begins : field.BeginsWithProperty) (resolved : field.wire = .ok wire) :
    Text.BeginsWithoutCapital wire.toList := by
  obtain ⟨path, pathResolved, rest⟩ := Outcome.bind_eq_ok.mp resolved
  cases Outcome.pure_eq_ok.mp rest
  obtain ⟨segments, succeeds, made⟩ := Outcome.bind_eq_ok.mp pathResolved
  obtain ⟨name, others, rfl⟩ := segments_of_beginsWithProperty begins succeeds
  have segmented := Path.segments_of_ofSegments made
  have first : String.ofList (Text.lowerFirst name) ∈ path.segments := by
    rw [segmented]
    exact List.mem_cons_self
  have nonempty := Path.ne_nil_of_mem first
  rw [String.toList_ofList] at nonempty
  rw [Path.wire, segmented, List.map_cons, String.toList_ofList, String.toList_ofList]
  exact Text.Dotted.join_beginsWithoutCapital (Text.lowerFirst_beginsWithoutCapital nonempty) _

end FieldExpr

end Facet
