import Facet.Proofs.Field.Property
import Facet.Proofs.Field.Restating

/-!
The grammar of field expressions.

An expression stands for a field if it is a chain of accesses that begins at the document. Each
access adds its segments behind those of its target: a property its one name, a named field the
parts of a constant text between the points. The segments make a path if each of them is plain.

Owns:
- the leaves of a string expression, and that exactly texts among the leaves make a constant;
- the parts of a text between its points, said by joining;
- `FieldExpr.Spells`, the chains of accesses with the segments that they spell;
- that exactly the chains with plain segments have a path.
-/

namespace Facet

/-! ### String expressions -/

namespace StringExpr

/-- What a string expression is made of in the end: texts, and values known only at run time. -/
inductive Leaf where
  | text (text : String)
  | runtime (name : String)
deriving DecidableEq, Repr

mutual

/-- The leaves of a string expression, at all depths and in order. -/
def leaves : StringExpr → List Leaf
  | .literal text => [.text text]
  | .concat parts => leavesOfParts parts
  | .runtime name => [.runtime name]

def leavesOfParts : List StringExpr → List Leaf
  | [] => []
  | part :: parts => leaves part ++ leavesOfParts parts

end

mutual

/-- A string expression is constant exactly if all of its leaves are texts, and its value is all
of them in order. -/
theorem constant_eq_ok_iff {value : String} : ∀ {name : StringExpr},
    name.constant = .ok value ↔
      ∃ texts, name.leaves = texts.map .text ∧ String.join texts = value
  | .literal text => by
      constructor
      · intro constant
        cases constant
        exact ⟨[value], rfl, by simp⟩
      · rintro ⟨texts, leaves, joined⟩
        obtain ⟨own, rfl, same⟩ := List.map_eq_singleton_iff.mp leaves.symm
        cases same
        rw [← joined]
        simp [constant]
  | .concat parts => constantParts_eq_ok_iff
  | .runtime name => by
      constructor
      · intro constant
        cases constant
      · rintro ⟨texts, leaves, _⟩
        obtain ⟨own, _, same⟩ := List.map_eq_singleton_iff.mp leaves.symm
        cases same

theorem constantParts_eq_ok_iff {value : String} : ∀ {parts : List StringExpr},
    constantParts parts = .ok value ↔
      ∃ texts, leavesOfParts parts = texts.map .text ∧ String.join texts = value
  | [] => by
      constructor
      · intro constant
        cases constant
        exact ⟨[], rfl, by simp⟩
      · rintro ⟨texts, leaves, joined⟩
        cases List.map_eq_nil_iff.mp leaves.symm
        simp [← joined, constantParts]
  | part :: parts => by
      rw [constantParts, leavesOfParts, Outcome.bind_eq_ok]
      constructor
      · rintro ⟨_, firstConstant, others⟩
        obtain ⟨_, restConstant, joined⟩ := Outcome.bind_eq_ok.mp others
        obtain ⟨first, firstLeaves, rfl⟩ := constant_eq_ok_iff.mp firstConstant
        obtain ⟨rest, restLeaves, rfl⟩ := constantParts_eq_ok_iff.mp restConstant
        refine ⟨first ++ rest, ?_, ?_⟩
        · rw [firstLeaves, restLeaves, List.map_append]
        · rw [String.join_append]
          exact Except.ok.inj joined
      · rintro ⟨texts, leaves, joined⟩
        obtain ⟨first, rest, rfl, firstLeaves, restLeaves⟩ :=
          List.append_eq_map_iff.mp leaves
        have firstConstant := constant_eq_ok_iff.mpr ⟨first, firstLeaves.symm, rfl⟩
        have restConstant := constantParts_eq_ok_iff.mpr ⟨rest, restLeaves.symm, rfl⟩
        refine ⟨_, firstConstant, Outcome.bind_eq_ok.mpr ⟨_, restConstant, ?_⟩⟩
        rw [← joined, String.join_append]
        rfl

end

end StringExpr

/-! ### Segments -/

/-- The segments are the parts of a text between its points: there is at least one, none of them
has a point, and with points between them they are the text. -/
structure ArePartsOf (segments : List String) (text : String) : Prop where
  nonempty : segments ≠ []
  pointFree : ∀ segment ∈ segments, '.' ∉ segment.toList
  joined : ".".intercalate segments = text

/-- A segment that can stand in a path: it is not empty and has neither points nor white space. -/
structure IsPlain (segment : String) : Prop where
  nonempty : segment ≠ ""
  pointFree : '.' ∉ segment.toList
  unbroken : ∀ char ∈ segment.toList, Text.isBlank char = false

theorem isSegment_iff_isPlain {segment : String} : isSegment segment = true ↔ IsPlain segment := by
  simp only [isSegment, Bool.and_eq_true, Bool.not_eq_true']
  constructor
  · rintro ⟨⟨nonempty, pointFree⟩, unbroken⟩
    refine ⟨?_, ?_, ?_⟩
    · rintro rfl
      cases nonempty
    · simpa using pointFree
    · simpa using unbroken
  · rintro ⟨nonempty, pointFree, unbroken⟩
    refine ⟨⟨?_, ?_⟩, ?_⟩
    · simpa using nonempty
    · simpa using pointFree
    · simpa using unbroken

namespace Path

private theorem intercalate_eq_join (segments : List String) :
    ".".intercalate segments =
      String.ofList (Text.Dotted.join (segments.map String.toList)) := by
  induction segments with
  | nil => rfl
  | cons segment rest inductionHypothesis =>
      cases rest with
      | nil => simp [Text.Dotted.join]
      | cons next others =>
          rw [String.intercalate_cons_cons, inductionHypothesis, ← String.toList_inj]
          simp [Text.Dotted.join]

/-- A text is split into its parts between the points. -/
theorem segmentsOf_eq_iff {text : String} {segments : List String} :
    segmentsOf text = segments ↔ ArePartsOf segments text := by
  constructor
  · rintro rfl
    refine ⟨?_, ?_, ?_⟩
    · simp [segmentsOf, Text.Dotted.split_ne_nil]
    · intro segment member
      obtain ⟨chars, listed, rfl⟩ := List.mem_map.mp member
      rw [String.toList_ofList]
      exact Text.Dotted.pointFree_of_mem_split listed
    · rw [intercalate_eq_join, segmentsOf, List.map_map]
      simp [Function.comp_def, Text.Dotted.join_split]
  · rintro ⟨nonempty, pointFree, rfl⟩
    have charsPointFree : ∀ chars ∈ segments.map String.toList, '.' ∉ chars := by
      simpa using pointFree
    rw [intercalate_eq_join, segmentsOf, String.toList_ofList,
      Text.Dotted.split_join (by simpa using nonempty) charsPointFree, List.map_map]
    simp

/-- Segments make the path that has them, if there is such a path. -/
theorem ofSegments_eq_ok_iff {segments : List String} {path : Path} :
    ofSegments segments = .ok path ↔ path.segments = segments := by
  constructor
  · exact segments_of_ofSegments
  · rintro rfl
    exact ofSegments_segments path

end Path

/-! ### Chains of accesses -/

namespace FieldExpr

/-- A chain of accesses from the document, with the segments that it spells, the outermost one
first. The document spells none. -/
inductive Spells : FieldExpr → List String → Prop where
  | document : Spells .root []
  | property {target : FieldExpr} {outer : List String} (below : Spells target outer)
      (name : String) :
      Spells (.member target name) (outer ++ [String.ofList (Text.lowerFirst name.toList)])
  | named {target : FieldExpr} {outer inner : List String} (below : Spells target outer)
      {name : StringExpr} {texts : List String} (constant : name.leaves = texts.map .text)
      (parts : ArePartsOf inner (String.join texts)) :
      Spells (.named target name) (outer ++ inner)

/-- The segments of the target of an access. The document has none. -/
def targetSegments (whole target : FieldExpr) : Except Error (List String) :=
  if target.isRoot then .ok [] else segments whole target

private theorem segments_member (whole target : FieldExpr) (name : String) :
    segments whole (.member target name) = do
      let outer ← targetSegments whole target
      return outer ++ [String.ofList (Text.lowerFirst name.toList)] := by
  unfold segments targetSegments
  split <;> rfl

private theorem segments_named (whole target : FieldExpr) (name : StringExpr) :
    segments whole (.named target name) = do
      let outer ← targetSegments whole target
      let inner ← name.constant
      return outer ++ Path.segmentsOf inner := by
  unfold segments targetSegments
  split <;> rfl

/-- The segments of a target are those that it spells, if an expression besides the document has
those that it spells. -/
theorem targetSegments_eq_ok_iff {whole target : FieldExpr}
    (inner : ∀ {row}, segments whole target = .ok row ↔ target ≠ .root ∧ target.Spells row)
    {outer : List String} :
    targetSegments whole target = .ok outer ↔ target.Spells outer := by
  cases target with
  | root =>
      rw [targetSegments, isRoot, if_pos rfl, Except.ok.injEq]
      constructor
      · rintro rfl
        exact .document
      · rintro ⟨⟩
        rfl
  | _ => exact inner.trans (and_iff_right nofun)

/-- The segments of an expression are those that it spells, if it is not the document itself. -/
theorem segments_eq_ok_iff {whole field : FieldExpr} {row : List String} :
    segments whole field = .ok row ↔ field ≠ .root ∧ field.Spells row := by
  induction field generalizing row with
  | root => exact iff_of_false nofun fun spelled => spelled.1 rfl
  | member target name targetHypothesis =>
      simp only [segments_member, Outcome.bind_eq_ok, Outcome.pure_eq_ok,
        targetSegments_eq_ok_iff targetHypothesis]
      constructor
      · rintro ⟨outer, below, rfl⟩
        exact ⟨nofun, .property below name⟩
      · rintro ⟨_, spelled⟩
        cases spelled with
        | property below _ => exact ⟨_, below, rfl⟩
  | named target name targetHypothesis =>
      simp only [segments_named, Outcome.bind_eq_ok, Outcome.pure_eq_ok,
        targetSegments_eq_ok_iff targetHypothesis, StringExpr.constant_eq_ok_iff]
      constructor
      · rintro ⟨outer, below, _, ⟨texts, constant, rfl⟩, rfl⟩
        exact ⟨nofun, .named below constant (Path.segmentsOf_eq_iff.mp rfl)⟩
      · rintro ⟨_, spelled⟩
        cases spelled with
        | named below constant parts =>
            refine ⟨_, below, _, ⟨_, constant, rfl⟩, ?_⟩
            rw [Path.segmentsOf_eq_iff.mpr parts]
  | call target method _ => exact iff_of_false nofun fun spelled => nomatch spelled.2
  | constant value => exact iff_of_false nofun fun spelled => nomatch spelled.2

/-- A chain that is more than the document spells segments. -/
theorem Spells.ne_nil {field : FieldExpr} {row : List String} (spells : field.Spells row)
    (proper : field ≠ .root) : row ≠ [] := by
  cases spells with
  | document => exact absurd rfl proper
  | property _ _ => simp
  | named _ _ parts => simp [parts.nonempty]

/-- **Exactly the chains of accesses with plain segments have a path.** An expression has a path
with certain segments if and only if it is a chain of one or more accesses from the document,
without values known only at run time, that spells these segments, and each of them is plain.
Exactly the other expressions are refused, each of them as a field. -/
theorem resolves_iff_spells (field : FieldExpr) :
    (∀ row, (∃ path, field.resolve = .ok path ∧ path.segments = row) ↔
      field ≠ .root ∧ field.Spells row ∧ ∀ segment ∈ row, IsPlain segment) ∧
    ((∃ fault, field.resolve = .error (.unresolvableField fault)) ↔
      ¬∃ row, field ≠ .root ∧ field.Spells row ∧ ∀ segment ∈ row, IsPlain segment) := by
  have accepted (row : List String) :
      (∃ path, field.resolve = .ok path ∧ path.segments = row) ↔
        field ≠ .root ∧ field.Spells row ∧ ∀ segment ∈ row, IsPlain segment := by
    simp only [resolve, Outcome.bind_eq_ok, segments_eq_ok_iff, Path.ofSegments_eq_ok_iff]
    constructor
    · rintro ⟨path, ⟨_, ⟨proper, spells⟩, rfl⟩, rfl⟩
      refine ⟨proper, spells, ?_⟩
      intro segment member
      exact isSegment_iff_isPlain.mp (path.valid segment member)
    · rintro ⟨proper, spells, plain⟩
      have valid : ∀ segment ∈ row, isSegment segment = true := by
        intro segment member
        exact isSegment_iff_isPlain.mpr (plain segment member)
      exact ⟨⟨row, spells.ne_nil proper, valid⟩, ⟨row, ⟨proper, spells⟩, rfl⟩, rfl⟩
  refine ⟨accepted, ?_⟩
  cases resolved : field.resolve with
  | ok path =>
      have spelled := (accepted path.segments).mp ⟨path, resolved, rfl⟩
      exact iff_of_false nofun fun refused => refused ⟨_, spelled⟩
  | error error =>
      obtain ⟨fault, rfl⟩ := resolve_refused resolved
      refine iff_of_true ⟨fault, rfl⟩ ?_
      rintro ⟨row, spelled⟩
      obtain ⟨path, succeeds, _⟩ := (accepted row).mpr spelled
      cases resolved.symm.trans succeeds

/-- A named field may add several segments, and where its text is cut does not follow how it was
put together. -/
example :
    let field := FieldExpr.named (.property "Engine") (.concat [.literal "po", .literal "wer.kW"])
    (Path.segments <$> field.resolve) = .ok ["engine", "power", "kW"] := rfl

end FieldExpr

end Facet
