import Facet.Proofs.Query.Lowering

/-!
Equality of queries as a relation.

Equality is numeric on doubles, so the two zeros are equal and a value that is not a number
equals nothing, not even itself.

Owns:
- that equality is symmetric and transitive, on doubles, numbers, JSON values, bounds and
  queries;
- that a flag equals nothing but itself;
- that every compiled query equals itself: literals that are not numbers have no query.
-/

namespace Facet

/-! ### Numbers -/

theorem Double.same_iff {left right : Double} :
    left.same right = true ↔
      left ≠ .nan ∧ (left = right ∨ left.isZero = true ∧ right.isZero = true) := by
  cases left <;> simp [Double.same]

theorem Double.same_symm {left right : Double} (same : left.same right = true) :
    right.same left = true := by
  obtain ⟨notNan, equal⟩ := same_iff.mp same
  rcases equal with rfl | ⟨leftZero, rightZero⟩
  · exact same
  · refine same_iff.mpr ⟨?_, Or.inr ⟨rightZero, leftZero⟩⟩
    rintro rfl
    cases rightZero

theorem Double.same_trans {first second third : Double} (left : first.same second = true)
    (right : second.same third = true) : first.same third = true := by
  obtain ⟨notNan, leftEqual⟩ := same_iff.mp left
  obtain ⟨_, rightEqual⟩ := same_iff.mp right
  rcases leftEqual with rfl | ⟨firstZero, secondZero⟩
  · exact right
  · rcases rightEqual with rfl | ⟨_, thirdZero⟩
    · exact left
    · exact same_iff.mpr ⟨notNan, Or.inr ⟨firstZero, thirdZero⟩⟩

theorem Number.same_symm {left right : Number} (same : left.same right = true) :
    right.same left = true := by
  cases left <;> cases right <;> simp only [Number.same, beq_iff_eq] at same ⊢
  · exact same.symm
  · cases same
  · cases same
  · exact Double.same_symm same

theorem Number.same_trans {first second third : Number} (left : first.same second = true)
    (right : second.same third = true) : first.same third = true := by
  cases first <;> cases second <;> cases third <;>
    simp only [Number.same, beq_iff_eq] at left right ⊢
  · exact left.trans right
  · cases right
  · cases left
  · cases left
  · cases left
  · cases left
  · cases right
  · exact Double.same_trans left right

/-! ### Values -/

namespace Json

mutual

theorem same_symm : ∀ left right : Json, left.same right = true → right.same left = true
  | .null, right, same => by
      cases right <;> simp_all [Json.same]
  | .bool value, right, same => by
      cases right <;> simp_all [Json.same]
  | .number value, right, same => by
      cases right with
      | number other => exact Number.same_symm same
      | _ => simp [Json.same] at same
  | .string value, right, same => by
      cases right <;> simp_all [Json.same]
  | .array items, right, same => by
      cases right with
      | array others => exact sameItems_symm items others same
      | _ => simp [Json.same] at same
  | .object members, right, same => by
      cases right with
      | object others => exact sameMembers_symm members others same
      | _ => simp [Json.same] at same

theorem sameItems_symm : ∀ left right : List Json,
    sameItems left right = true → sameItems right left = true
  | [], right, same => by
      cases right <;> simp_all [sameItems]
  | first :: rest, right, same => by
      cases right with
      | nil => simp [sameItems] at same
      | cons other others =>
          simp only [sameItems, Bool.and_eq_true] at same ⊢
          exact ⟨same_symm first other same.1, sameItems_symm rest others same.2⟩

theorem sameMembers_symm : ∀ left right : List (String × Json),
    sameMembers left right = true → sameMembers right left = true
  | [], right, same => by
      cases right <;> simp_all [sameMembers]
  | (name, value) :: rest, right, same => by
      cases right with
      | nil => simp [sameMembers] at same
      | cons member others =>
          simp only [sameMembers, Bool.and_eq_true, beq_iff_eq] at same ⊢
          exact ⟨⟨same.1.1.symm, same_symm value member.2 same.1.2⟩,
            sameMembers_symm rest others same.2⟩

end

mutual

theorem same_trans : ∀ first second third : Json,
    first.same second = true → second.same third = true → first.same third = true
  | .null, second, third, left, right => by
      cases second <;> cases third <;> simp_all [Json.same]
  | .bool value, second, third, left, right => by
      cases second <;> cases third <;> simp_all [Json.same]
  | .number value, second, third, left, right => by
      cases second with
      | number _ =>
          cases third with
          | number _ => exact Number.same_trans left right
          | _ => simp [Json.same] at right
      | _ => simp [Json.same] at left
  | .string value, second, third, left, right => by
      cases second <;> cases third <;> simp_all [Json.same]
  | .array items, second, third, left, right => by
      cases second with
      | array _ =>
          cases third with
          | array _ => exact sameItems_trans items _ _ left right
          | _ => simp [Json.same] at right
      | _ => simp [Json.same] at left
  | .object members, second, third, left, right => by
      cases second with
      | object _ =>
          cases third with
          | object _ => exact sameMembers_trans members _ _ left right
          | _ => simp [Json.same] at right
      | _ => simp [Json.same] at left

theorem sameItems_trans : ∀ first second third : List Json,
    sameItems first second = true → sameItems second third = true → sameItems first third = true
  | [], second, third, left, right => by
      cases second <;> cases third <;> simp_all [sameItems]
  | value :: rest, second, third, left, right => by
      cases second with
      | nil => simp [sameItems] at left
      | cons _ _ =>
          cases third with
          | nil => simp [sameItems] at right
          | cons _ _ =>
              simp only [sameItems, Bool.and_eq_true] at left right ⊢
              exact ⟨same_trans value _ _ left.1 right.1,
                sameItems_trans rest _ _ left.2 right.2⟩

theorem sameMembers_trans : ∀ first second third : List (String × Json),
    sameMembers first second = true → sameMembers second third = true →
      sameMembers first third = true
  | [], second, third, left, right => by
      cases second <;> cases third <;> simp_all [sameMembers]
  | (name, value) :: rest, second, third, left, right => by
      cases second with
      | nil => simp [sameMembers] at left
      | cons _ _ =>
          cases third with
          | nil => simp [sameMembers] at right
          | cons _ _ =>
              simp only [sameMembers, Bool.and_eq_true, beq_iff_eq] at left right ⊢
              exact ⟨⟨left.1.1.trans right.1.1, same_trans value _ _ left.1.2 right.1.2⟩,
                sameMembers_trans rest _ _ left.2 right.2⟩

end

end Json

/-! ### Bounds -/

namespace Bounds

theorem sameBound_symm {left right : Option Json} (same : sameBound left right = true) :
    sameBound right left = true := by
  cases left <;> cases right <;> simp only [sameBound] at same ⊢
  · cases same
  · cases same
  · exact Json.same_symm _ _ same

theorem sameBound_trans {first second third : Option Json}
    (left : sameBound first second = true) (right : sameBound second third = true) :
    sameBound first third = true := by
  cases first with
  | none =>
      cases second with
      | none => exact right
      | some _ => cases left
  | some value =>
      cases second with
      | none => cases left
      | some middle =>
          cases third with
          | none => cases right
          | some other => exact Json.same_trans value middle other left right

theorem same_symm {left right : Bounds} (same : left.same right = true) :
    right.same left = true := by
  simp only [Bounds.same, Bool.and_eq_true] at same ⊢
  exact ⟨⟨⟨sameBound_symm same.1.1.1, sameBound_symm same.1.1.2⟩, sameBound_symm same.1.2⟩,
    sameBound_symm same.2⟩

theorem same_trans {first second third : Bounds} (left : first.same second = true)
    (right : second.same third = true) : first.same third = true := by
  simp only [Bounds.same, Bool.and_eq_true] at left right ⊢
  exact ⟨⟨⟨sameBound_trans left.1.1.1 right.1.1.1, sameBound_trans left.1.1.2 right.1.1.2⟩,
    sameBound_trans left.1.2 right.1.2⟩, sameBound_trans left.2 right.2⟩

end Bounds

/-! ### Queries -/

namespace Query

/-- A flag equals nothing but itself. -/
theorem eq_flag_of_same {query : Query} {field : String}
    (same : query.same (.flag field) = true) : query = .flag field := by
  cases query with
  | term other value =>
      simp only [Query.flag, Query.same, Bool.and_eq_true, beq_iff_eq] at same
      obtain ⟨rfl, values⟩ := same
      cases value with
      | bool setting =>
          simp only [Json.same, beq_iff_eq] at values
          rw [values, Query.flag]
      | _ => simp [Json.same] at values
  | _ => simp [Query.flag, Query.same] at same

mutual

theorem same_symm : ∀ left right : Query, left.same right = true → right.same left = true
  | .matchAll, right, same => by
      cases right <;> simp_all [Query.same]
  | .term field value, right, same => by
      cases right with
      | term _ _ =>
          simp only [Query.same, Bool.and_eq_true, beq_iff_eq] at same ⊢
          exact ⟨same.1.symm, Json.same_symm _ _ same.2⟩
      | _ => simp [Query.same] at same
  | .range field kind bounds, right, same => by
      cases right with
      | range _ _ _ =>
          simp only [Query.same, Bool.and_eq_true, beq_iff_eq] at same ⊢
          exact ⟨⟨same.1.1.symm, same.1.2.symm⟩, Bounds.same_symm same.2⟩
      | _ => simp [Query.same] at same
  | .present field, right, same => by
      cases right <;> simp_all [Query.same]
  | .bool must should mustNot minimum, right, same => by
      cases right with
      | bool _ _ _ _ =>
          simp only [Query.same, Bool.and_eq_true, beq_iff_eq] at same ⊢
          exact ⟨⟨⟨sameAll_symm must _ same.1.1.1, sameAll_symm should _ same.1.1.2⟩,
            sameAll_symm mustNot _ same.1.2⟩, same.2.symm⟩
      | _ => simp [Query.same] at same
  | .nested path inner, right, same => by
      cases right with
      | nested _ _ =>
          simp only [Query.same, Bool.and_eq_true, beq_iff_eq] at same ⊢
          exact ⟨same.1.symm, same_symm inner _ same.2⟩
      | _ => simp [Query.same] at same

theorem sameAll_symm : ∀ left right : List Query,
    sameAll left right = true → sameAll right left = true
  | [], right, same => by
      cases right <;> simp_all [sameAll]
  | clause :: clauses, right, same => by
      cases right with
      | nil => simp [sameAll] at same
      | cons other others =>
          simp only [sameAll, Bool.and_eq_true] at same ⊢
          exact ⟨same_symm clause other same.1, sameAll_symm clauses others same.2⟩

end

mutual

theorem same_trans : ∀ first second third : Query,
    first.same second = true → second.same third = true → first.same third = true
  | .matchAll, second, third, left, right => by
      cases second <;> cases third <;> simp_all [Query.same]
  | .term field value, second, third, left, right => by
      cases second with
      | term _ _ =>
          cases third with
          | term _ _ =>
              simp only [Query.same, Bool.and_eq_true, beq_iff_eq] at left right ⊢
              exact ⟨left.1.trans right.1, Json.same_trans _ _ _ left.2 right.2⟩
          | _ => simp [Query.same] at right
      | _ => simp [Query.same] at left
  | .range field kind bounds, second, third, left, right => by
      cases second with
      | range _ _ _ =>
          cases third with
          | range _ _ _ =>
              simp only [Query.same, Bool.and_eq_true, beq_iff_eq] at left right ⊢
              exact ⟨⟨left.1.1.trans right.1.1, left.1.2.trans right.1.2⟩,
                Bounds.same_trans left.2 right.2⟩
          | _ => simp [Query.same] at right
      | _ => simp [Query.same] at left
  | .present field, second, third, left, right => by
      cases second <;> cases third <;> simp_all [Query.same]
  | .bool must should mustNot minimum, second, third, left, right => by
      cases second with
      | bool _ _ _ _ =>
          cases third with
          | bool _ _ _ _ =>
              simp only [Query.same, Bool.and_eq_true, beq_iff_eq] at left right ⊢
              exact ⟨⟨⟨sameAll_trans must _ _ left.1.1.1 right.1.1.1,
                sameAll_trans should _ _ left.1.1.2 right.1.1.2⟩,
                sameAll_trans mustNot _ _ left.1.2 right.1.2⟩, left.2.trans right.2⟩
          | _ => simp [Query.same] at right
      | _ => simp [Query.same] at left
  | .nested path inner, second, third, left, right => by
      cases second with
      | nested _ _ =>
          cases third with
          | nested _ _ =>
              simp only [Query.same, Bool.and_eq_true, beq_iff_eq] at left right ⊢
              exact ⟨left.1.trans right.1, same_trans inner _ _ left.2 right.2⟩
          | _ => simp [Query.same] at right
      | _ => simp [Query.same] at left

theorem sameAll_trans : ∀ first second third : List Query,
    sameAll first second = true → sameAll second third = true → sameAll first third = true
  | [], second, third, left, right => by
      cases second <;> cases third <;> simp_all [sameAll]
  | clause :: clauses, second, third, left, right => by
      cases second with
      | nil => simp [sameAll] at left
      | cons _ _ =>
          cases third with
          | nil => simp [sameAll] at right
          | cons _ _ =>
              simp only [sameAll, Bool.and_eq_true] at left right ⊢
              exact ⟨same_trans clause _ _ left.1 right.1,
                sameAll_trans clauses _ _ left.2 right.2⟩

end

end Query

/-! ### Compiled queries -/

/-- A literal in a query equals itself, since a double has to be finite there. -/
theorem Literal.toJson_same_self {literal : Literal} {context : String} {json : Json}
    (valued : literal.toJson context = .ok json) : json.same json = true := by
  cases literal with
  | float value =>
      cases value with
      | finite negative biased fraction =>
          cases valued
          have self : (Double.finite negative biased fraction).same
              (.finite negative biased fraction) = true := by
            exact Double.same_iff.mpr ⟨Double.noConfusion, Or.inl rfl⟩
          exact self
      | nan => cases valued
      | infinite _ => cases valued
  | bytes _ => cases valued
  | list _ => cases valued
  | _ =>
      cases valued
      simp [Json.same, Json.ofInt, Number.same]

namespace Comparison

theorem bound_same_self (comparator : Comparator) {json : Json}
    (self : json.same json = true) :
    (bound comparator json).same (bound comparator json) = true := by
  cases comparator <;> simp [bound, Bounds.same, Bounds.sameBound, Bounds.none, self]

theorem range_same_self {scope : Option Path} {comparison : Comparison} {range : Query.Range}
    (ranged : comparison.range scope = .ok range) :
    range.bounds.same range.bounds = true := by
  obtain ⟨_, _, _, _, _, valued, rfl⟩ := range_eq_ok_iff.mp ranged
  exact bound_same_self _ (Literal.toJson_same_self valued)

theorem lower_same_self {scope : Option Path} {comparison : Comparison} {query : Query}
    (lowers : comparison.lower scope = .ok query) : query.same query = true := by
  rcases lower_eq_ok_iff.mp lowers with ⟨_, rfl, _⟩ | ⟨_, range, ranged, rfl⟩
  · rfl
  · simp [Query.same, range_same_self ranged]

end Comparison

private theorem Bounds.sameBound_orElse {first later : Option Json}
    (firstSelf : sameBound first first = true) (laterSelf : sameBound later later = true) :
    sameBound (later <|> first) (later <|> first) = true := by
  cases later with
  | none => exact firstSelf
  | some _ => exact laterSelf

theorem Bounds.merge_same_self {first later : Bounds} (firstSelf : first.same first = true)
    (laterSelf : later.same later = true) :
    (first.merge later).same (first.merge later) = true := by
  simp only [Bounds.same, Bool.and_eq_true] at firstSelf laterSelf ⊢
  exact ⟨⟨⟨sameBound_orElse firstSelf.1.1.1 laterSelf.1.1.1,
    sameBound_orElse firstSelf.1.1.2 laterSelf.1.1.2⟩,
    sameBound_orElse firstSelf.1.2 laterSelf.1.2⟩, sameBound_orElse firstSelf.2 laterSelf.2⟩

theorem Query.sameAll_append_self {left right : List Query}
    (leftSelf : sameAll left left = true) (rightSelf : sameAll right right = true) :
    sameAll (left ++ right) (left ++ right) = true := by
  induction left with
  | nil => exact rightSelf
  | cons clause clauses inductionHypothesis =>
      simp only [sameAll, Bool.and_eq_true, List.cons_append] at leftSelf ⊢
      exact ⟨leftSelf.1, inductionHypothesis leftSelf.2⟩

namespace Predicate

/-- The clauses of a query that equals itself do so as well. -/
theorem Lowered.clauses_same_self {result : Lowered}
    (self : result.query.same result.query = true) :
    Query.sameAll result.clauses result.clauses = true := by
  cases result with
  | one query =>
      simp only [clauses]
      split
      · rfl
      · simpa [Query.sameAll, Lowered.query] using self
  | chain clauses =>
      cases clauses with
      | nil => rfl
      | cons first rest =>
          simp only [Lowered.query, Query.allOf, Query.same, Bool.and_eq_true] at self
          exact self.1.1.1

theorem Lowered.chain_same_self {clauses : List Query}
    (self : Query.sameAll clauses clauses = true) :
    (Lowered.chain clauses).query.same (Lowered.chain clauses).query = true := by
  cases clauses with
  | nil => rfl
  | cons first rest =>
      show (Query.allOf (first :: rest)).same (Query.allOf (first :: rest)) = true
      rw [Query.allOf, Query.same, self]
      rfl

theorem lowerEquals_same_self {scope : Option Path} {field : FieldExpr} {value : Literal}
    {query : Query} (lowers : lowerEquals scope field value = .ok query) :
    query.same query = true := by
  simp only [lowerEquals, Outcome.bind_eq_ok] at lowers
  obtain ⟨_, _, rest⟩ := lowers
  cases null : value.isNull with
  | true =>
      simp only [null, if_true, Outcome.pure_eq_ok] at rest
      subst rest
      simp [Query.negation, Query.same, Query.sameAll]
  | false =>
      simp only [null, Bool.false_eq_true, if_false, Outcome.bind_eq_ok,
        Outcome.pure_eq_ok] at rest
      obtain ⟨_, valued, rfl⟩ := rest
      simp [Query.same, Literal.toJson_same_self valued]

private theorem query_same_self_of_lowers {options : CompilerOptions} {scope : Option Path}
    {predicate : Predicate} {result : Lowered}
    (lowers : Lowers options scope predicate result) :
    result.query.same result.query = true := by
  induction lowers with
  | merged _ lowerRanged upperRanged =>
      have merges := Bounds.merge_same_self (Comparison.range_same_self lowerRanged)
        (Comparison.range_same_self upperRanged)
      simp [Lowered.query, Query.same, merges]
  | chain _ _ _ _ _ leftHypothesis rightHypothesis =>
      exact Lowered.chain_same_self
        (Query.sameAll_append_self (Lowered.clauses_same_self leftHypothesis)
          (Lowered.clauses_same_self rightHypothesis))
  | or _ _ leftHypothesis rightHypothesis =>
      simp [Query.anyOf, Query.same, Query.sameAll, leftHypothesis, rightHypothesis]
  | not _ innerHypothesis =>
      simp [Query.negation, Query.same, Query.sameAll, innerHypothesis]
  | compare lowers => exact Comparison.lower_same_self lowers
  | equals lowers => exact lowerEquals_same_self lowers
  | notEquals _ lowers =>
      simp [Query.negation, Query.same, Query.sameAll, lowerEquals_same_self lowers]
  | notNull _ _ | flag _ | present _ | holds _ _ =>
      simp [Query.flag, Query.same, Json.same]
  | nested _ _ _ innerHypothesis => simp [Query.same, innerHypothesis]
  | inside _ _ _ innerHypothesis =>
      simp [Query.allOf, Query.same, Query.sameAll, innerHypothesis]

/-- Every compiled query equals itself. -/
theorem query_same_self_of_compile {options : CompilerOptions} {predicate : Predicate}
    {query : Query} (compiled : (predicate.compile options).outcome = .ok query) :
    query.same query = true := by
  obtain ⟨_, lowers, rfl⟩ := lowers_of_compile compiled
  exact query_same_self_of_lowers lowers

end Predicate

end Facet
