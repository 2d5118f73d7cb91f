import Facet.Proofs.Field.Below
import Facet.Proofs.Query.Bracketing
import Facet.Proofs.Query.Decoding

/-!
The form of compiled queries, node by node.

A compiled query has three forms of boolean nodes, one for each connective, ranges with at most
one bound on each side, and nested nodes with only their own fields below them. The rows of
conjunctions are flat, and a query that matches everything is never one of several clauses.

Owns:
- `Query.IsWellFormed`, what is asked of a node;
- the names in a query, and the scope that they all lie in;
- that every node of a compiled query is well formed.

Does not own: what queries match.
-/

namespace Facet

/-! ### Values -/

/-- The values that may bound a range: numbers where numbers are compared, and texts
elsewhere. -/
def RangeKind.Admits : RangeKind → Json → Prop
  | .numeric, .number _ => True
  | .date, .string _ | .term, .string _ => True
  | _, _ => False

/-- The values that a field may be required to have. -/
def Json.IsTermValue : Json → Prop
  | .bool _ | .number _ | .string _ => True
  | _ => False

/-- A range that is compiled with or without merging has bounds of its kind, at most one on each
side, and only with merging on both sides. -/
structure Bounds.IsWellFormed (merges : Bool) (kind : RangeKind) (bounds : Bounds) : Prop where
  bounded : bounds.values ≠ []
  oneLower : bounds.above = .none ∨ bounds.atLeast = .none
  oneUpper : bounds.below = .none ∨ bounds.atMost = .none
  merged : 2 ≤ bounds.values.length → merges = true
  admitted : ∀ value ∈ bounds.values, kind.Admits value

/-! ### Nodes -/

namespace Query

mutual

/-- The fields and the nested paths that a query speaks of. -/
def names : Query → List String
  | .matchAll => []
  | .term field _ | .range field _ _ | .present field => [field]
  | .bool must should mustNot _ => namesAll must ++ namesAll should ++ namesAll mustNot
  | .nested path inner => path :: names inner

def namesAll : List Query → List String
  | [] => []
  | clause :: clauses => names clause ++ namesAll clauses

end

/-- If the query requires clauses itself, it requires just one. -/
def IsFlat : Query → Prop
  | .bool must _ _ _ => must = [] ∨ ∃ clause, must = [clause]
  | _ => True

/-- The three forms of boolean nodes: a row of required clauses, two clauses of which one is
required, and an excluded clause. -/
inductive AreWellFormed : (must should mustNot : List Query) → Option Nat → Prop where
  | all {must : List Query} (nonempty : must ≠ [])
      (alone : .matchAll ∈ must → must = [.matchAll])
      (flat : 2 ≤ must.length → ∀ clause ∈ must, clause.IsFlat) :
      AreWellFormed must [] [] none
  | any (left right : Query) : AreWellFormed [] [left, right] [] (some 1)
  | negation (clause : Query) : AreWellFormed [] [] [clause] none

/-- What is asked of one node of a query. -/
def IsWellFormed (options : CompilerOptions) : Query → Prop
  | .matchAll | .present _ => True
  | .term _ value => value.IsTermValue
  | .range _ kind bounds => bounds.IsWellFormed options.mergeRanges kind
  | .bool must should mustNot minimum => AreWellFormed must should mustNot minimum
  | .nested path inner =>
      path ∈ options.nestedPaths ∧ ∀ name ∈ inner.names, ∃ rest, name = path ++ "." ++ rest

/-- A node without clauses and without an inner query. -/
def IsLeaf : Query → Prop
  | .bool _ _ _ _ | .nested _ _ => False
  | _ => True

/-- A property of every node of a query. -/
def EveryPart (property : Query → Prop) (query : Query) : Prop :=
  ∀ part : Query, part.IsPartOf query → property part

section

variable {property : Query → Prop}

theorem mem_namesAll {name : String} {clauses : List Query} :
    name ∈ namesAll clauses ↔ ∃ clause ∈ clauses, name ∈ clause.names := by
  induction clauses with
  | nil => simp [namesAll]
  | cons clause rest inductionHypothesis => simp [namesAll, inductionHypothesis]

/-- A leaf is the only part of itself. -/
theorem everyPart_of_isLeaf {query : Query} (leaf : query.IsLeaf) (own : property query) :
    query.EveryPart property := by
  intro part within
  cases query with
  | bool _ _ _ _ | nested _ _ => cases leaf
  | _ =>
      cases within
      exact own

private theorem everyPart_bool {must should mustNot : List Query} {minimum : Option Nat}
    (own : property (.bool must should mustNot minimum))
    (clauses : ∀ clause ∈ must ++ should ++ mustNot, clause.EveryPart property) :
    EveryPart property (.bool must should mustNot minimum) := by
  intro part within
  simp only [List.mem_append] at clauses
  cases within with
  | whole => exact own
  | must member below => exact clauses _ (.inl (.inl member)) part below
  | should member below => exact clauses _ (.inl (.inr member)) part below
  | mustNot member below => exact clauses _ (.inr member) part below

private theorem everyPart_nested {path : String} {inner : Query}
    (own : property (.nested path inner)) (below : inner.EveryPart property) :
    EveryPart property (.nested path inner) := by
  intro part within
  cases within with
  | whole => exact own
  | nested further => exact below part further

end

end Query

/-! ### Names within a scope -/

/-- A dotted text lies below the path of a scope. -/
def Path.Covers : Option Path → String → Prop
  | none, _ => True
  | some path, name => ∃ rest, name = path.enclose rest

namespace FieldExpr

variable {scope : Option Path} {field : FieldExpr}

private theorem covers_of_resolveWithin {path : Path}
    (resolved : field.resolveWithin scope = .ok path) : Path.Covers scope path.wire := by
  obtain ⟨own, _, within⟩ := Outcome.bind_eq_ok.mp resolved
  cases scope with
  | none => trivial
  | some outer =>
      cases within
      exact ⟨own.wire, Path.wire_under own outer⟩

private theorem covers_of_wireWithin {wire : String}
    (resolved : field.wireWithin scope = .ok wire) : Path.Covers scope wire := by
  obtain ⟨path, pathed, same⟩ := Outcome.bind_eq_ok.mp resolved
  cases same
  exact covers_of_resolveWithin pathed

end FieldExpr

/-- What lies below a path lies in every scope that the path lies in. -/
theorem Path.Covers.trans {scope : Option Path} {path : Path} {name : String}
    (outer : Path.Covers scope path.wire) (inner : Path.Covers (some path) name) :
    Path.Covers scope name := by
  cases scope with
  | none => trivial
  | some beyond =>
      obtain ⟨rest, named⟩ := inner
      obtain ⟨middle, walked⟩ := outer
      refine ⟨middle ++ "." ++ rest, ?_⟩
      rw [named, enclose, walked, enclose, enclose]
      simp only [String.append_assoc]

/-! ### Bounds of comparisons -/

/-- A literal that is compared has a value that its kind of range admits. -/
theorem Literal.admits_of_toJson {literal : Literal} {kind : RangeKind} {context : String}
    {json : Json} (kinded : Comparison.rangeKind? literal = some kind)
    (valued : literal.toJson context = .ok json) : kind.Admits json := by
  cases literal with
  | float value =>
      cases kinded
      cases value with
      | finite _ _ _ =>
          cases valued
          trivial
      | _ => cases valued
  | integer _ | string _ | instant _ =>
      cases kinded
      cases valued
      trivial
  | _ => cases kinded

/-- A literal other than null has a value that a field may be required to have. -/
theorem Literal.isTermValue_of_toJson {literal : Literal} {context : String} {json : Json}
    (present : literal.isNull = false) (valued : literal.toJson context = .ok json) :
    json.IsTermValue := by
  cases literal with
  | null => cases present
  | float value =>
      cases value with
      | finite _ _ _ =>
          cases valued
          trivial
      | _ => cases valued
  | bytes _ | list _ => cases valued
  | _ =>
      cases valued
      trivial

namespace Comparison

variable {scope : Option Path}

private theorem values_bound (comparator : Comparator) (value : Json) :
    (bound comparator value).values = [value] := by
  cases comparator <;> rfl

/-- One comparison sets one bound. -/
theorem isWellFormed_of_range {comparison : Comparison} {range : Query.Range}
    (ranged : comparison.range scope = .ok range) (merges : Bool) :
    range.bounds.IsWellFormed merges range.kind := by
  obtain ⟨wire, kind, json, _, kinded, valued, rfl⟩ := range_eq_ok_iff.mp ranged
  have values := values_bound comparison.comparator json
  constructor
  case bounded => simp [values]
  case oneLower => cases comparison.comparator <;> simp [bound, Bounds.none]
  case oneUpper => cases comparison.comparator <;> simp [bound, Bounds.none]
  case merged => simp [values]
  case admitted =>
    rw [values, List.forall_mem_singleton]
    exact Literal.admits_of_toJson kinded valued

/-- Bounds from opposite sides do not meet. -/
theorem values_merge {lower upper : Comparator} (opposite : lower.isLower ≠ upper.isLower)
    (first second : Json) :
    let merged := (bound lower first).merge (bound upper second)
    merged.values.Perm [first, second] ∧
      (merged.above = .none ∨ merged.atLeast = .none) ∧
      (merged.below = .none ∨ merged.atMost = .none) := by
  have swapped : [second, first].Perm [first, second] := .swap first second []
  cases lower <;> cases upper <;>
    simp_all [Comparator.isLower, bound, Bounds.merge, Bounds.none, Bounds.values]

/-- Two comparisons that merge set one bound on each side. -/
theorem isWellFormed_of_merges {lower upper : Comparison} {lowerRange upperRange : Query.Range}
    (merging : Comparison.merges scope lower upper = .ok true)
    (lowerRanged : lower.range scope = .ok lowerRange)
    (upperRanged : upper.range scope = .ok upperRange) :
    (lowerRange.bounds.merge upperRange.bounds).IsWellFormed true lowerRange.kind := by
  have kinds := kind_eq_of_merges merging lowerRanged upperRanged
  obtain ⟨opposite, _⟩ := merges_eq_ok_true_iff.mp merging
  obtain ⟨_, _, sides, _⟩ := areOpposite_iff.mp opposite
  have lowerAdmits := (isWellFormed_of_range lowerRanged true).admitted
  have upperAdmits := (isWellFormed_of_range upperRanged true).admitted
  rw [← kinds] at upperAdmits
  obtain ⟨_, _, first, _, _, _, rfl⟩ := range_eq_ok_iff.mp lowerRanged
  obtain ⟨_, _, second, _, _, _, rfl⟩ := range_eq_ok_iff.mp upperRanged
  rw [values_bound, List.forall_mem_singleton] at lowerAdmits upperAdmits
  obtain ⟨values, oneLower, oneUpper⟩ := values_merge sides first second
  constructor
  case bounded =>
    intro none
    have length := values.length_eq
    simp [none] at length
  case oneLower => exact oneLower
  case oneUpper => exact oneUpper
  case merged => exact fun _ => rfl
  case admitted =>
    intro value member
    rcases List.mem_cons.mp (values.mem_iff.mp member) with same | rest
    · rw [same]
      exact lowerAdmits
    · rw [List.mem_singleton.mp rest]
      exact upperAdmits

end Comparison

/-! ### Lowering -/

namespace Predicate

variable {options : CompilerOptions} {scope : Option Path}

/-- A query below a scope: every node of it is well formed, every name in it lies in the scope,
and it can stand in a row of clauses. -/
structure IsSound (options : CompilerOptions) (scope : Option Path) (query : Query) : Prop where
  wellFormed : query.EveryPart (Query.IsWellFormed options)
  covered : ∀ name ∈ query.names, Path.Covers scope name

/-- What lowering keeps: the clauses that a predicate contributes to a conjunction are sound,
flat, and none of them matches everything. -/
structure Lowered.IsSound (options : CompilerOptions) (scope : Option Path)
    (result : Lowered) : Prop where
  query : Predicate.IsSound options scope result.query
  clauses : ∀ clause ∈ result.clauses,
    Predicate.IsSound options scope clause ∧ clause.IsFlat ∧ clause ≠ .matchAll

private theorem isSound_leaf {query : Query} (leaf : query.IsLeaf) {field : String}
    (named : query.names = [field]) (covered : Path.Covers scope field)
    (own : query.IsWellFormed options) : IsSound options scope query := by
  refine ⟨Query.everyPart_of_isLeaf leaf own, ?_⟩
  rw [named, List.forall_mem_singleton]
  exact covered

private theorem isSound_matchAll : IsSound options scope .matchAll := by
  constructor
  · exact Query.everyPart_of_isLeaf trivial trivial
  · intro name member
    cases member

private theorem isSound_bool {must should mustNot : List Query} {minimum : Option Nat}
    (own : Query.AreWellFormed must should mustNot minimum)
    (clauses : ∀ clause ∈ must ++ should ++ mustNot, IsSound options scope clause) :
    IsSound options scope (.bool must should mustNot minimum) := by
  constructor
  · refine Query.everyPart_bool own ?_
    intro clause member
    exact (clauses clause member).wellFormed
  · intro name member
    rw [Query.names] at member
    simp only [List.mem_append, Query.mem_namesAll, ← exists_or, ← or_and_right] at member
    obtain ⟨clause, among, named⟩ := member
    apply (clauses clause _).covered name named
    simpa only [List.mem_append] using among

/-- A query that is flat and sound is so as a clause, too. -/
theorem Lowered.isSound_one {query : Query} (sound : Predicate.IsSound options scope query)
    (flat : query.IsFlat) : (Lowered.one query).IsSound options scope := by
  refine ⟨sound, ?_⟩
  intro clause member
  rw [Lowered.clauses] at member
  by_cases all : query.isMatchAll = true
  · rw [if_pos all] at member
    cases member
  · rw [if_neg all, List.mem_singleton] at member
    rw [member]
    refine ⟨sound, flat, ?_⟩
    intro same
    rw [same] at all
    exact all rfl

/-- A leaf with the name of a field contributes itself, unless it matches everything. -/
theorem Lowered.isSound_leaf {query : Query} (leaf : query.IsLeaf) {field : FieldExpr}
    {wire : String} (named : query.names = [wire]) (resolved : field.wireWithin scope = .ok wire)
    (own : query.IsWellFormed options) : (Lowered.one query).IsSound options scope := by
  apply Lowered.isSound_one
  · exact Predicate.isSound_leaf leaf named (FieldExpr.covers_of_wireWithin resolved) own
  · cases query with
    | bool _ _ _ _ | nested _ _ => cases leaf
    | _ => trivial

private theorem Lowered.isSound_chain {row : List Query}
    (clauses : ∀ clause ∈ row,
      Predicate.IsSound options scope clause ∧ clause.IsFlat ∧ clause ≠ .matchAll) :
    (Lowered.chain row).IsSound options scope := by
  refine ⟨?_, clauses⟩
  cases row with
  | nil => exact isSound_matchAll
  | cons first rest =>
      have notAll : Query.matchAll ∉ first :: rest := by
        intro member
        exact (clauses _ member).2.2 rfl
      have own : Query.AreWellFormed (first :: rest) [] [] none := by
        apply Query.AreWellFormed.all (List.cons_ne_nil first rest)
        · intro member
          exact absurd member notAll
        · intro _ clause member
          exact (clauses clause member).2.1
      apply isSound_bool own
      intro clause member
      rw [List.append_nil, List.append_nil] at member
      exact (clauses clause member).1

private theorem isSound_of_lowerEquals {field : FieldExpr} {value : Literal} {query : Query}
    (lowers : lowerEquals scope field value = .ok query) :
    IsSound options scope query ∧ query.IsFlat := by
  simp only [lowerEquals, Outcome.bind_eq_ok] at lowers
  obtain ⟨wire, resolved, rest⟩ := lowers
  have covered := FieldExpr.covers_of_wireWithin resolved
  cases null : value.isNull with
  | true =>
      simp only [null, if_true] at rest
      cases rest
      refine ⟨isSound_bool (.negation (.present wire)) ?_, .inl rfl⟩
      intro clause member
      rw [List.mem_singleton.mp member]
      exact isSound_leaf trivial rfl covered trivial
  | false =>
      simp only [null, Bool.false_eq_true, if_false, Outcome.bind_eq_ok] at rest
      obtain ⟨json, valued, same⟩ := rest
      cases same
      have termValue := Literal.isTermValue_of_toJson null valued
      exact ⟨isSound_leaf trivial rfl covered termValue, trivial⟩

private theorem isSound_negation {query : Query} (sound : IsSound options scope query) :
    IsSound options scope (.negation query) := by
  apply isSound_bool (.negation query)
  intro clause member
  rw [List.mem_singleton.mp member]
  exact sound

private theorem isSound_anyOf {left right : Query} (leftSound : IsSound options scope left)
    (rightSound : IsSound options scope right) : IsSound options scope (.anyOf [left, right]) := by
  apply isSound_bool (.any left right)
  intro clause member
  rcases List.mem_cons.mp member with same | rest
  · rw [same]
    exact leftSound
  · rw [List.mem_singleton.mp rest]
    exact rightSound

/-- A row of one clause may consist of any clause. -/
theorem isSound_single {query : Query} (sound : IsSound options scope query) :
    IsSound options scope (.allOf [query]) := by
  have own : Query.AreWellFormed [query] [] [] none := by
    apply Query.AreWellFormed.all (List.cons_ne_nil query [])
    · intro member
      rw [← List.mem_singleton.mp member]
    · intro several
      simp at several
  apply isSound_bool own
  intro clause member
  rw [List.mem_singleton.mp member]
  exact sound

/-- What is sound below the path of a collection is sound in the scope of the collection. -/
theorem IsSound.outwards {path : Path} {query : Query}
    (sound : IsSound options (some path) query) (covered : Path.Covers scope path.wire) :
    IsSound options scope query :=
  ⟨sound.wellFormed, fun name member => covered.trans (sound.covered name member)⟩

/-- A nested node names its path, and what is below it. -/
theorem isSound_nested {path : Path} {query : Query} (registered : path.wire ∈ options.nestedPaths)
    (sound : IsSound options (some path) query) (covered : Path.Covers scope path.wire) :
    IsSound options scope (.nested path.wire query) := by
  constructor
  · apply Query.everyPart_nested
    · exact ⟨registered, sound.covered⟩
    · exact sound.wellFormed
  · intro name member
    rcases List.mem_cons.mp member with same | below
    · rw [same]
      exact covered
    · exact (sound.outwards covered).covered name below

/-- Every way of lowering a predicate keeps its result sound. -/
theorem isSound_of_lowers {predicate : Predicate} {result : Lowered}
    (lowers : Lowers options scope predicate result) : result.IsSound options scope := by
  induction lowers with
  | merged pair lowerRanged upperRanged =>
      obtain ⟨rfl, rfl, enabled, merging⟩ := mergedPair_eq_some_iff.mp pair
      have own := Comparison.isWellFormed_of_merges merging lowerRanged upperRanged
      rw [← enabled] at own
      obtain ⟨_, _, _, resolved, _, _, rfl⟩ := Comparison.range_eq_ok_iff.mp lowerRanged
      exact Lowered.isSound_leaf trivial rfl resolved own
  | chain _ _ _ _ _ leftHypothesis rightHypothesis =>
      apply Lowered.isSound_chain
      intro clause member
      rcases List.mem_append.mp member with inLeft | inRight
      · exact leftHypothesis.clauses clause inLeft
      · exact rightHypothesis.clauses clause inRight
  | or _ _ leftHypothesis rightHypothesis =>
      apply Lowered.isSound_one
      · exact isSound_anyOf leftHypothesis.query rightHypothesis.query
      · exact .inl rfl
  | not _ innerHypothesis =>
      exact Lowered.isSound_one (isSound_negation innerHypothesis.query) (.inl rfl)
  | compare lowers =>
      rcases Comparison.lower_eq_ok_iff.mp lowers with ⟨_, rfl, _⟩ | ⟨_, range, ranged, rfl⟩
      · apply Lowered.isSound_one isSound_matchAll
        trivial
      · have own := Comparison.isWellFormed_of_range ranged options.mergeRanges
        obtain ⟨_, _, _, resolved, _, _, rfl⟩ := Comparison.range_eq_ok_iff.mp ranged
        exact Lowered.isSound_leaf trivial rfl resolved own
  | equals lowers =>
      obtain ⟨sound, flat⟩ := isSound_of_lowerEquals lowers
      exact Lowered.isSound_one sound flat
  | notEquals _ lowers =>
      obtain ⟨sound, _⟩ := isSound_of_lowerEquals lowers
      exact Lowered.isSound_one (isSound_negation sound) (.inl rfl)
  | notNull _ resolved | present resolved | flag resolved | holds _ resolved =>
      exact Lowered.isSound_leaf trivial rfl resolved trivial
  | nested resolved isNested _ innerHypothesis =>
      have covered := FieldExpr.covers_of_resolveWithin resolved
      apply Lowered.isSound_one
      · exact isSound_nested (List.contains_iff_mem.mp isNested) innerHypothesis.query covered
      · trivial
  | @inside _ _ _ _ innerLowered resolved _ _ innerHypothesis =>
      have covered := FieldExpr.covers_of_resolveWithin resolved
      apply Lowered.isSound_one
      · exact isSound_single (innerHypothesis.query.outwards covered)
      · exact .inr ⟨innerLowered.query, rfl⟩

/-- **Compiled queries are well formed at every node.** A boolean node is a row of required
clauses, two clauses of which one is required, or an excluded clause, and nothing else; a clause
that matches everything is the only one of its row, and in a row of several clauses each one
requires at most one clause itself. A range is bounded, by values of its kind, at most once on
each side, and on both sides only with merging. A required value is never null. A nested path is
registered, and all that is spoken of below it lies below the path. -/
theorem compile_isWellFormed {predicate : Predicate} {query : Query}
    (compiled : (predicate.compile options).outcome = .ok query) :
    ∀ part : Query, part.IsPartOf query → part.IsWellFormed options := by
  obtain ⟨result, lowers, same⟩ := lowers_of_compile compiled
  rw [← same]
  exact (isSound_of_lowers lowers).query.wellFormed

/-- Cars with a young passenger, which are used or of any price: the merged range stands below the
nested path, and the comparison with null stays one of the two clauses of the disjunction. -/
theorem carsOfYoungPassengers_isWellFormed :
    let young := Predicate.and (.compare ⟨.lessOrEqual, .property "Age", .integer 6⟩)
      (.compare ⟨.greater, .property "Age", .integer 2⟩)
    let predicate := Predicate.and
      (.any (.property "Passengers") (.and young (.flag (.property "Seated"))))
      (.or (.not (.flag (.property "IsNew"))) (.compare ⟨.less, .property "Price", .null⟩))
    let options := CompilerOptions.standard.addNested "passengers"
    let bounds : Bounds :=
      { Bounds.none with above := some (.ofInt 2), atMost := some (.ofInt 6) }
    let query := Query.allOf
      [.nested "passengers"
          (.allOf [.range "passengers.age" .numeric bounds, .flag "passengers.seated"]),
        .anyOf [.negation (.flag "isNew"), .matchAll]]
    (predicate.compile options).outcome = .ok query ∧
      ∀ part : Query, part.IsPartOf query → part.IsWellFormed options := by
  intro young predicate options bounds query
  have compiled : (predicate.compile options).outcome = .ok query := rfl
  exact ⟨compiled, compile_isWellFormed compiled⟩

end Predicate

end Facet
