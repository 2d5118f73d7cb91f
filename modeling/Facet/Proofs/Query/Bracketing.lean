import Facet.Proofs.Query.Refusal

/-!
Chains of conjunctions, however they are bracketed.

Without merging, a chain of conjunctions is lowered like the row of its operands: the operands
are lowered one after the other, and those that match everything are left out. Where the brackets
stand has no part in this, neither in the query nor in the error nor in the events, and nor does
the place that the chain has in a larger predicate.

Owns:
- the ways of bracketing a row of operands;
- predicates with a place left open, and the scope there;
- the query of a row of operands, and that every bracketing of the row is lowered to it;
- that bracketings are lowered alike at every place, and that their clauses stand at this place
  in the query of the whole.

Does not own: chains with pairs that merge.
-/

namespace Facet

/-! ### Conjunctions and parts of queries -/

namespace Query

/-- The query that requires some queries. Those that match everything are left out, and if
nothing else is left, everything matches. -/
def conjunction (queries : List Query) : Query :=
  match queries.filter (!·.isMatchAll) with
  | [] => .matchAll
  | clauses => .allOf clauses

/-- A query is another one or stands somewhere in it. -/
inductive IsPartOf (part : Query) : Query → Prop where
  | whole : IsPartOf part part
  | must {clause : Query} {must should mustNot : List Query} {minimum : Option Nat}
      (member : clause ∈ must) (within : IsPartOf part clause) :
      IsPartOf part (.bool must should mustNot minimum)
  | should {clause : Query} {must should mustNot : List Query} {minimum : Option Nat}
      (member : clause ∈ should) (within : IsPartOf part clause) :
      IsPartOf part (.bool must should mustNot minimum)
  | mustNot {clause : Query} {must should mustNot : List Query} {minimum : Option Nat}
      (member : clause ∈ mustNot) (within : IsPartOf part clause) :
      IsPartOf part (.bool must should mustNot minimum)
  | nested {path : String} {inner : Query} (within : IsPartOf part inner) :
      IsPartOf part (.nested path inner)

end Query

namespace Predicate

variable {options : CompilerOptions} {scope : Option Path}

/-! ### Bracketings -/

/-- The predicate is no conjunction itself. -/
def IsOperand : Predicate → Prop
  | .and _ _ => False
  | _ => True

/-- The ways of bracketing a row of operands by conjunctions. -/
inductive Brackets : List Predicate → Predicate → Prop where
  | operand {predicate : Predicate} (single : predicate.IsOperand) :
      Brackets [predicate] predicate
  | and {lefts rights : List Predicate} {left right : Predicate}
      (leftBrackets : Brackets lefts left) (rightBrackets : Brackets rights right) :
      Brackets (lefts ++ rights) (.and left right)

namespace Brackets

variable {row : List Predicate} {predicate : Predicate}

/-- Several operands are bracketed by a conjunction. -/
theorem exists_and (brackets : Brackets row predicate) (several : 2 ≤ row.length) :
    ∃ left right, predicate = .and left right := by
  cases brackets with
  | operand _ =>
      rw [List.length_singleton] at several
      omega
  | and _ _ => exact ⟨_, _, rfl⟩

/-- Without merging, what is collected of a bracketing is its row. -/
theorem operands_eq (disabled : options.mergeRanges = false)
    (brackets : Brackets row predicate) (scope : Option Path) :
    operands options scope predicate = .ok row := by
  induction brackets with
  | @operand predicate single =>
      cases predicate with
      | and _ _ => exact single.elim
      | _ => rfl
  | and _ _ leftHypothesis rightHypothesis =>
      rw [operands, mergedPair_of_not_mergeRanges disabled, Outcome.ok_bind]
      simp only [leftHypothesis, rightHypothesis]
      rfl

/-- No operand of a bracketing is lowered as a pair. -/
theorem mapM_lowerOperand (brackets : Brackets row predicate) :
    row.mapM (lowerOperand options scope) = row.mapM (lower options scope) := by
  induction brackets with
  | @operand predicate single =>
      cases predicate with
      | and _ _ => exact single.elim
      | _ => rfl
  | and _ _ leftHypothesis rightHypothesis =>
      rw [List.mapM_append, List.mapM_append, leftHypothesis, rightHypothesis]

end Brackets

/-- Without merging, a bracketing of several operands contributes the clauses of the row. -/
theorem lowered_of_brackets (disabled : options.mergeRanges = false) {row : List Predicate}
    (several : 2 ≤ row.length) {predicate : Predicate} (brackets : Brackets row predicate) :
    lowered options scope predicate =
      (fun queries => Lowered.chain (queries.filter (!·.isMatchAll))) <$>
        row.mapM (lower options scope) := by
  have clauses := clauses_lowered (brackets.operands_eq disabled scope)
  obtain ⟨left, right, rfl⟩ := brackets.exists_and several
  rw [lowered_eq_chain (mergedPair_of_not_mergeRanges disabled scope left right), clauses,
    brackets.mapM_lowerOperand, ← comp_map]
  rfl

/-! ### Places in larger predicates -/

/-- A predicate with one place left open. -/
inductive Context where
  | hole
  | andLeft (context : Context) (right : Predicate)
  | andRight (left : Predicate) (context : Context)
  | orLeft (context : Context) (right : Predicate)
  | orRight (left : Predicate) (context : Context)
  | not (context : Context)
  | any (collection : FieldExpr) (context : Context)

namespace Context

/-- The predicate with its open place filled. -/
def fill (filling : Predicate) : Context → Predicate
  | .hole => filling
  | .andLeft context right => .and (context.fill filling) right
  | .andRight left context => .and left (context.fill filling)
  | .orLeft context right => .or (context.fill filling) right
  | .orRight left context => .or left (context.fill filling)
  | .not context => .not (context.fill filling)
  | .any collection context => .any collection (context.fill filling)

/-- The scope at the open place: the path of the collections around it. -/
def scopeWithin : Context → Option Path → Except Error (Option Path)
  | .hole, outer => .ok outer
  | .andLeft context _, outer => context.scopeWithin outer
  | .andRight _ context, outer => context.scopeWithin outer
  | .orLeft context _, outer => context.scopeWithin outer
  | .orRight _ context, outer => context.scopeWithin outer
  | .not context, outer => context.scopeWithin outer
  | .any collection context, outer => do
      context.scopeWithin (some (← collection.resolveWithin outer))

/-- The open place is not itself the operand of a conjunction. -/
def StandsAlone : Context → Prop
  | .hole => True
  | .andLeft context _ => context ≠ .hole ∧ context.StandsAlone
  | .andRight _ context => context ≠ .hole ∧ context.StandsAlone
  | .orLeft context _ => context.StandsAlone
  | .orRight _ context => context.StandsAlone
  | .not context => context.StandsAlone
  | .any _ context => context.StandsAlone

end Context

/-- Without merging, the sides of a conjunction are lowered one after the other. -/
theorem lowered_and_of_not_mergeRanges (disabled : options.mergeRanges = false)
    (scope : Option Path) (left right : Predicate) :
    lowered options scope (.and left right) = do
      let leftLowered ← lowered options scope left
      let rightLowered ← lowered options scope right
      return .chain (leftLowered.clauses ++ rightLowered.clauses) := by
  have paired := mergedPair_of_not_mergeRanges disabled scope left right
  have leftExamined := examine_of_not_mergeRanges disabled scope left
  have rightExamined := examine_of_not_mergeRanges disabled scope right
  simp only [lowered, Traced.liftM_of_ok paired, Traced.liftM_of_ok leftExamined,
    Traced.liftM_of_ok rightExamined, pure_bind]

/-- Without merging, predicates that are lowered alike below every scope are lowered alike at
every place of a larger predicate. -/
theorem lowered_fill (disabled : options.mergeRanges = false) {first second : Predicate}
    (alike : ∀ scope, lowered options scope first = lowered options scope second)
    (context : Context) (scope : Option Path) :
    lowered options scope (context.fill first) = lowered options scope (context.fill second) := by
  induction context generalizing scope with
  | hole => exact alike scope
  | andLeft context right contextHypothesis =>
      simp only [Context.fill, lowered_and_of_not_mergeRanges disabled, contextHypothesis]
  | andRight left context contextHypothesis =>
      simp only [Context.fill, lowered_and_of_not_mergeRanges disabled, contextHypothesis]
  | orLeft context right contextHypothesis =>
      simp only [Context.fill, lowered, contextHypothesis]
  | orRight left context contextHypothesis =>
      simp only [Context.fill, lowered, contextHypothesis]
  | not context contextHypothesis =>
      simp only [Context.fill, lowered, contextHypothesis]
  | any collection context contextHypothesis =>
      simp only [Context.fill, lowered, contextHypothesis]

/-- A predicate has a part among the clauses that it contributes to a conjunction. -/
def Lowered.Shows (part : Query) (result : Lowered) : Prop :=
  ∃ clause ∈ result.clauses, part.IsPartOf clause

private theorem Lowered.Shows.isPartOf_query {part : Query} {result : Lowered}
    (shows : result.Shows part) : part.IsPartOf result.query := by
  obtain ⟨clause, member, within⟩ := shows
  cases result with
  | one query =>
      simp only [Lowered.clauses] at member
      split at member
      · cases member
      · rw [List.mem_singleton.mp member] at within
        exact within
  | chain clauses =>
      cases clauses with
      | nil => cases member
      | cons first rest => exact .must member within

private theorem Lowered.shows_one (query : Query) {part : Query}
    (restricts : query.isMatchAll = false) (within : part.IsPartOf query) :
    (Lowered.one query).Shows part :=
  ⟨query, by simp [Lowered.clauses, restricts], within⟩

/-- What a predicate is lowered to stands at the open place of what the whole is lowered to. In a
conjunction its clauses stand between the other ones, and for the other connectives it is one
query. -/
inductive Context.Holds (part : Lowered) : Context → Lowered → Prop where
  | hole : Holds part .hole part
  | andLeft {context : Context} {right : Predicate} {result : Lowered}
      (holds : Holds part context result) (others : List Query) :
      Holds part (.andLeft context right) (.chain (result.clauses ++ others))
  | andRight {left : Predicate} {context : Context} {result : Lowered}
      (holds : Holds part context result) (others : List Query) :
      Holds part (.andRight left context) (.chain (others ++ result.clauses))
  | orLeft {context : Context} {right : Predicate} {result : Lowered}
      (holds : Holds part context result) (other : Query) :
      Holds part (.orLeft context right) (.one (.anyOf [result.query, other]))
  | orRight {left : Predicate} {context : Context} {result : Lowered}
      (holds : Holds part context result) (other : Query) :
      Holds part (.orRight left context) (.one (.anyOf [other, result.query]))
  | not {context : Context} {result : Lowered} (holds : Holds part context result) :
      Holds part (.not context) (.one (.negation result.query))
  | nested {collection : FieldExpr} {context : Context} {result : Lowered}
      (holds : Holds part context result) (path : Path) :
      Holds part (.any collection context) (.one (.nested path.wire result.query))
  | inside {collection : FieldExpr} {context : Context} {result : Lowered}
      (holds : Holds part context result) :
      Holds part (.any collection context) (.one (.allOf [result.query]))

/-- At a place that stands alone, the query is part of the whole. Unless the place is all there
is, the query shows among the clauses. -/
theorem Context.Holds.shows {context : Context} {part result : Lowered}
    (holds : context.Holds part result) (alone : context.StandsAlone) :
    part.query.IsPartOf result.query ∧ (context ≠ .hole → result.Shows part.query) := by
  have of_shows {context : Context} {result : Lowered} (shows : result.Shows part.query) :
      part.query.IsPartOf result.query ∧ (context ≠ .hole → result.Shows part.query) :=
    ⟨shows.isPartOf_query, fun _ => shows⟩
  induction holds with
  | hole => exact ⟨.whole, fun deeper => absurd rfl deeper⟩
  | andLeft _ others holdsHypothesis =>
      obtain ⟨clause, member, within⟩ := (holdsHypothesis alone.2).2 alone.1
      exact of_shows ⟨clause, List.mem_append_left _ member, within⟩
  | andRight _ others holdsHypothesis =>
      obtain ⟨clause, member, within⟩ := (holdsHypothesis alone.2).2 alone.1
      exact of_shows ⟨clause, List.mem_append_right _ member, within⟩
  | orLeft _ other holdsHypothesis =>
      have within := (holdsHypothesis alone).1
      exact of_shows (Lowered.shows_one _ rfl (.should List.mem_cons_self within))
  | @orRight _ _ result _ other holdsHypothesis =>
      have within := (holdsHypothesis alone).1
      have second : result.query ∈ [other, result.query] :=
        List.mem_cons_of_mem _ List.mem_cons_self
      exact of_shows (Lowered.shows_one _ rfl (.should second within))
  | not _ holdsHypothesis =>
      have within := (holdsHypothesis alone).1
      exact of_shows (Lowered.shows_one _ rfl (.mustNot List.mem_cons_self within))
  | nested _ path holdsHypothesis =>
      exact of_shows (Lowered.shows_one _ rfl (.nested (holdsHypothesis alone).1))
  | inside _ holdsHypothesis =>
      have within := (holdsHypothesis alone).1
      exact of_shows (Lowered.shows_one _ rfl (.must List.mem_cons_self within))

/-- Without merging, what fills a place is lowered below the scope there, and stands there in
what the whole is lowered to. -/
theorem exists_holds_of_lowers (disabled : options.mergeRanges = false) {filling : Predicate}
    {context : Context} {result : Lowered}
    (lowers : Lowers options scope (context.fill filling) result) :
    ∃ inner part, context.scopeWithin scope = .ok inner ∧ Lowers options inner filling part ∧
      context.Holds part result := by
  have unpaired {scope : Option Path} {left right : Predicate} {pair : Comparison × Comparison}
      (found : mergedPair options scope left right = .ok (some pair)) : False := by
    rw [mergedPair_of_not_mergeRanges disabled] at found
    cases found
  induction context generalizing scope result with
  | hole => exact ⟨scope, result, rfl, lowers, .hole⟩
  | andLeft context right contextHypothesis =>
      cases lowers with
      | merged pair _ _ => exact (unpaired pair).elim
      | chain _ _ _ leftLowers _ =>
          obtain ⟨inner, part, reached, partLowers, holds⟩ := contextHypothesis leftLowers
          exact ⟨inner, part, reached, partLowers, holds.andLeft _⟩
  | andRight left context contextHypothesis =>
      cases lowers with
      | merged pair _ _ => exact (unpaired pair).elim
      | chain _ _ _ _ rightLowers =>
          obtain ⟨inner, part, reached, partLowers, holds⟩ := contextHypothesis rightLowers
          exact ⟨inner, part, reached, partLowers, holds.andRight _⟩
  | orLeft context right contextHypothesis =>
      cases lowers with
      | or leftLowers _ =>
          obtain ⟨inner, part, reached, partLowers, holds⟩ := contextHypothesis leftLowers
          exact ⟨inner, part, reached, partLowers, holds.orLeft _⟩
  | orRight left context contextHypothesis =>
      cases lowers with
      | or _ rightLowers =>
          obtain ⟨inner, part, reached, partLowers, holds⟩ := contextHypothesis rightLowers
          exact ⟨inner, part, reached, partLowers, holds.orRight _⟩
  | not context contextHypothesis =>
      cases lowers with
      | not innerLowers =>
          obtain ⟨inner, part, reached, partLowers, holds⟩ := contextHypothesis innerLowers
          exact ⟨inner, part, reached, partLowers, holds.not⟩
  | any collection context contextHypothesis =>
      cases lowers with
      | @nested _ _ _ path _ resolved _ innerLowers =>
          obtain ⟨inner, part, reached, partLowers, holds⟩ := contextHypothesis innerLowers
          exact ⟨inner, part, Outcome.bind_eq_ok.mpr ⟨path, resolved, reached⟩, partLowers,
            holds.nested path⟩
      | @inside _ _ _ path _ resolved _ innerLowers =>
          obtain ⟨inner, part, reached, partLowers, holds⟩ := contextHypothesis innerLowers
          exact ⟨inner, part, Outcome.bind_eq_ok.mpr ⟨path, resolved, reached⟩, partLowers,
            holds.inside⟩

/-! ### Bracketings of one row -/

section

variable {row : List Predicate} {predicate : Predicate}

private theorem query_chain (queries : List Query) :
    (Lowered.chain (queries.filter (!·.isMatchAll))).query = Query.conjunction queries := by
  unfold Query.conjunction
  cases queries.filter (!·.isMatchAll) <;> rfl

/-- Without merging, the outcome of a bracketing is the conjunction of the outcomes of the
operands, of which the first error counts. -/
theorem lower_of_brackets (disabled : options.mergeRanges = false) (several : 2 ≤ row.length)
    (brackets : Brackets row predicate) (scope : Option Path) :
    (predicate.lower options scope).outcome =
      Query.conjunction <$> row.mapM fun operand => (operand.lower options scope).outcome := by
  calc (predicate.lower options scope).outcome
      = Lowered.query <$> (lowered options scope predicate).outcome := by
        rw [lower, bind_pure_comp, Traced.outcome_map]
    _ = Lowered.query <$>
          (fun queries => Lowered.chain (queries.filter (!·.isMatchAll))) <$>
            row.mapM fun operand => (operand.lower options scope).outcome := by
        rw [lowered_of_brackets disabled several brackets, Traced.outcome_map,
          Traced.outcome_mapM]
    _ = Query.conjunction <$> row.mapM fun operand => (operand.lower options scope).outcome := by
        rw [← comp_map]
        congr 1
        funext queries
        exact query_chain queries

/-- Two bracketings of one row have the same shape at every place. -/
theorem shape_fill {other : Predicate} (several : 2 ≤ row.length)
    (brackets : Brackets row predicate) (others : Brackets row other) (context : Context) :
    (context.fill other).shape = (context.fill predicate).shape := by
  obtain ⟨_, _, rfl⟩ := brackets.exists_and several
  obtain ⟨_, _, rfl⟩ := others.exists_and several
  cases context <;> rfl

/-- **Bracketing decides nothing.** Without merging, every bracketing of a row of several
operands compiles to the conjunction of the operands' queries, without those that match
everything, and fails with the first operand that does; below a scope it is lowered in the same
way. At no place of a larger predicate can two bracketings be told apart, not even by their
events. The clauses of the row, lowered below the scope of the place, stand at this place in the
query of the whole, and unless it is in a longer chain, their conjunction is part of that. -/
theorem brackets_compile_alike (disabled : options.mergeRanges = false)
    (several : 2 ≤ row.length) (brackets : Brackets row predicate) :
    (predicate.compile options).outcome =
        Query.conjunction <$> row.mapM (fun operand => (operand.compile options).outcome) ∧
      (∀ scope, (predicate.lower options scope).outcome =
        Query.conjunction <$>
          row.mapM fun operand => (operand.lower options scope).outcome) ∧
      (∀ (context : Context) (other : Predicate), Brackets row other →
        (context.fill other).compile options = (context.fill predicate).compile options) ∧
      ∀ (context : Context) (whole : Query),
        ((context.fill predicate).compile options).outcome = .ok whole →
        ∃ scope queries, context.scopeWithin none = .ok scope ∧
          row.mapM (fun operand => (operand.lower options scope).outcome) = .ok queries ∧
          (∃ result, context.Holds (.chain (queries.filter (!·.isMatchAll))) result ∧
            result.query = whole) ∧
          (context.StandsAlone → (Query.conjunction queries).IsPartOf whole) := by
  refine ⟨?_, lower_of_brackets disabled several brackets, ?_, ?_⟩
  · simp only [compile_outcome]
    exact lower_of_brackets disabled several brackets none
  · intro context other others
    have alike (scope : Option Path) :
        lowered options scope other = lowered options scope predicate := by
      rw [lowered_of_brackets disabled several others,
        lowered_of_brackets disabled several brackets]
    rw [compile, compile, lower, lower, lowered_fill disabled alike,
      shape_fill several brackets others]
  · intro context whole compiled
    obtain ⟨result, lowers, rfl⟩ := lowers_of_compile compiled
    obtain ⟨scope, part, reached, partLowers, holds⟩ := exists_holds_of_lowers disabled lowers
    have partLowered := lowered_of_lowers partLowers
    rw [lowered_of_brackets disabled several brackets, Traced.outcome_map,
      Traced.outcome_mapM, Outcome.map_eq_ok] at partLowered
    obtain ⟨queries, rowLowered, rfl⟩ := partLowered
    refine ⟨scope, queries, reached, rowLowered, ⟨result, holds, rfl⟩, ?_⟩
    intro alone
    have within := (holds.shows alone).1
    rwa [query_chain] at within

end

/-- Fast new cars, with a comparison that says nothing between the two conditions, are found by
the same query however the three are bracketed, also as the condition on a nested collection. -/
theorem fastNewCars_compile_alike :
    let fast := Predicate.compare ⟨.greater, .property "Speed", .integer 200⟩
    let anySpeed := Predicate.compare ⟨.less, .property "Speed", .null⟩
    let recent := Predicate.flag (.property "IsNew")
    let leftmost := Predicate.and (.and fast anySpeed) recent
    let rightmost := Predicate.and fast (.and anySpeed recent)
    let owned := Context.not (.any (.property "Cars") .hole)
    let options := CompilerOptions.withoutMerging.addNested "cars"
    options.mergeRanges = false ∧ Brackets [fast, anySpeed, recent] leftmost ∧
      Brackets [fast, anySpeed, recent] rightmost ∧ owned.StandsAlone ∧
      (leftmost.compile options).outcome =
        .ok (.allOf
          [.range "speed" .numeric { Bounds.none with above := some (.ofInt 200) },
            .flag "isNew"]) ∧
      (owned.fill rightmost).compile options = (owned.fill leftmost).compile options ∧
      ∃ whole, ((owned.fill leftmost).compile options).outcome = .ok whole ∧
        Query.IsPartOf
          (.allOf
            [.range "cars.speed" .numeric { Bounds.none with above := some (.ofInt 200) },
              .flag "cars.isNew"]) whole := by
  intro fast anySpeed recent leftmost rightmost owned options
  have disabled : options.mergeRanges = false := rfl
  have several : 2 ≤ [fast, anySpeed, recent].length := by decide
  have leftBrackets : Brackets (([fast] ++ [anySpeed]) ++ [recent]) leftmost :=
    .and (.and (.operand trivial) (.operand trivial)) (.operand trivial)
  have rightBrackets : Brackets ([fast] ++ ([anySpeed] ++ [recent])) rightmost :=
    .and (.operand trivial) (.and (.operand trivial) (.operand trivial))
  obtain ⟨own, _, alike, within⟩ := brackets_compile_alike disabled several leftBrackets
  have compiled : ((owned.fill leftmost).compile options).outcome = .ok _ := rfl
  obtain ⟨scope, queries, reached, rowLowered, _, part⟩ := within owned _ compiled
  cases reached
  cases rowLowered
  exact ⟨disabled, leftBrackets, rightBrackets, trivial, own, alike owned rightmost rightBrackets,
    _, compiled, part trivial⟩

end Predicate

end Facet
