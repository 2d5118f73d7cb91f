import Facet.Proofs.Outcome
import Facet.Query.Compile

/-!
Conjunctions by their operands.

A conjunction that does not merge as a whole is a chain: its operands are collected first, in
order and however they are bracketed, and are lowered one after the other. A conjunction stays
among the operands only if it merges, and this is decided a second time when it is lowered.

Owns:
- the operands of a chain, and the query of an operand and of a conjunction;
- that conjunctions are lowered so, with the same events.
-/

namespace Facet.Predicate

variable {options : CompilerOptions} {scope : Option Path}

/-! ### Operands -/

/-- The operands of a chain of conjunctions, in order. A pair that merges is one operand. -/
def operands (options : CompilerOptions) (scope : Option Path) :
    Predicate → Except Error (List Predicate)
  | .and left right => do
      match ← mergedPair options scope left right with
      | some _ => return [.and left right]
      | none =>
          let lefts ← operands options scope left
          let rights ← operands options scope right
          return lefts ++ rights
  | operand => .ok [operand]

/-- The error for a conjunction that was collected as a pair, but does not merge. -/
def unmergeable : Error :=
  .unsupportedPredicate (.stated "unmergeable range pair")

/-- The query of an operand. -/
def lowerOperand (options : CompilerOptions) (scope : Option Path) : Predicate → Traced Query
  | .and left right => do
      match ← mergedPair options scope left right with
      | some (lower, upper) => Comparison.merged scope lower upper
      | none => Traced.ofExcept (.error unmergeable)
  | operand => lower options scope operand

/-- The query of a conjunction: the one range of a pair that merges, or else the clauses of
all operands that do not match everything. -/
def lowerConjunction (options : CompilerOptions) (scope : Option Path)
    (left right : Predicate) : Traced Query := do
  match ← mergedPair options scope left right with
  | some (lower, upper) => Comparison.merged scope lower upper
  | none =>
      let parts ← operands options scope (.and left right)
      let queries ← parts.mapM (lowerOperand options scope)
      return (Lowered.chain (queries.filter (!·.isMatchAll))).query

/-! ### Conjunctions are lowered by their operands -/

/-- What is examined is what the operands are collected from. -/
theorem examine_eq_operands (predicate : Predicate) :
    examine options scope predicate = (fun _ => ()) <$> operands options scope predicate := by
  induction predicate with
  | and left right leftHypothesis rightHypothesis =>
      unfold examine operands
      cases mergedPair options scope left right with
      | error _ => rfl
      | ok pair =>
          cases pair with
          | some _ => rfl
          | none =>
              simp only [Outcome.ok_bind, leftHypothesis, rightHypothesis]
              cases operands options scope left with
              | error _ => rfl
              | ok _ => cases operands options scope right <;> rfl
  | _ => rfl

private theorem examine_of_operands {predicate : Predicate} {parts : List Predicate}
    (collected : operands options scope predicate = .ok parts) :
    examine options scope predicate = .ok () := by
  rw [examine_eq_operands, collected]
  rfl

/-- A predicate that is no conjunction contributes the one query that it has on its own. -/
theorem lowered_eq_one {predicate : Predicate}
    (single : ∀ left right, predicate ≠ .and left right) :
    lowered options scope predicate = Lowered.one <$> lower options scope predicate := by
  cases predicate with
  | and left right => exact absurd rfl (single left right)
  | notEquals field value =>
      cases null : value.isNull <;> simp [lower, lowered, null, Lowered.query]
  | holds field =>
      cases named : field.isNamed with
      | true => simp [lower, lowered, named, Lowered.query]
      | false =>
          simp only [lower, lowered, named]
          rfl
  | any collection inner =>
      simp only [lower, lowered, bind_assoc, map_bind]
      congr 1
      funext path
      congr 1
      funext innerLowered
      split <;> simp [Lowered.query]
  | call target method => rfl
  | _ => simp [lower, lowered, Lowered.query]

private theorem clauses_one (query : Query) :
    (Lowered.one query).clauses = [query].filter (!·.isMatchAll) := by
  cases query <;> rfl

/-- What a predicate contributes to a conjunction are the queries of its operands, except for
those that match everything. -/
theorem clauses_lowered {predicate : Predicate} {parts : List Predicate}
    (collected : operands options scope predicate = .ok parts) :
    Lowered.clauses <$> lowered options scope predicate =
      (fun queries => queries.filter (!·.isMatchAll)) <$>
        parts.mapM (lowerOperand options scope) := by
  induction predicate generalizing parts with
  | and left right leftHypothesis rightHypothesis =>
      obtain ⟨pair, paired, rest⟩ := Outcome.bind_eq_ok.mp collected
      cases pair with
      | some comparisons =>
          cases Outcome.pure_eq_ok.mp rest
          simp [lowered, lowerOperand, Traced.liftM_of_ok paired, clauses_one]
      | none =>
          obtain ⟨lefts, leftCollected, last⟩ := Outcome.bind_eq_ok.mp rest
          obtain ⟨rights, rightCollected, joined⟩ := Outcome.bind_eq_ok.mp last
          cases Outcome.pure_eq_ok.mp joined
          have leftExamined := Traced.liftM_of_ok (examine_of_operands leftCollected)
          have rightExamined := Traced.liftM_of_ok (examine_of_operands rightCollected)
          calc Lowered.clauses <$> lowered options scope (.and left right)
              = (do
                  let lefts ← Lowered.clauses <$> lowered options scope left
                  let rights ← Lowered.clauses <$> lowered options scope right
                  return lefts ++ rights) := by
                simp [lowered, Traced.liftM_of_ok paired, leftExamined, rightExamined,
                  Lowered.clauses]
            _ = (do
                  let lefts ← lefts.mapM (lowerOperand options scope)
                  let rights ← rights.mapM (lowerOperand options scope)
                  return lefts.filter (!·.isMatchAll) ++ rights.filter (!·.isMatchAll)) := by
                rw [leftHypothesis leftCollected, rightHypothesis rightCollected]
                simp
            _ = _ := by simp
  | _ =>
      cases collected
      rw [lowered_eq_one (by rintro _ _ ⟨⟩)]
      simp [lowerOperand, clauses_one]

/-- A conjunction that does not merge contributes a chain. -/
theorem lowered_eq_chain {left right : Predicate}
    (paired : mergedPair options scope left right = .ok none) :
    lowered options scope (.and left right) =
      Lowered.chain <$> Lowered.clauses <$> lowered options scope (.and left right) := by
  simp [lowered, Traced.liftM_of_ok paired, Lowered.clauses]

/-- **A conjunction is lowered by its operands.** Lowering the sides of a conjunction, each of
them by its own operands, reports and yields the same as collecting all operands first. -/
theorem lower_and (left right : Predicate) :
    lower options scope (.and left right) = lowerConjunction options scope left right := by
  cases paired : mergedPair options scope left right with
  | error error =>
      simp only [lower, lowered, lowerConjunction, paired]
      rfl
  | ok pair =>
      cases pair with
      | some comparisons =>
          simp [lower, lowered, lowerConjunction, Traced.liftM_of_ok paired, Lowered.query]
      | none =>
          cases collected : operands options scope (.and left right) with
          | error error =>
              have examined : examine options scope (.and left right) = .error error := by
                rw [examine_eq_operands, collected]
                rfl
              rw [examine, paired, Outcome.ok_bind] at examined
              rcases Outcome.bind_eq_error.mp examined with leftFails | ⟨_, leftOk, rightFails⟩
              · simp only [lower, lowered, lowerConjunction, Traced.liftM_of_ok paired, pure_bind,
                  leftFails, collected]
                rfl
              · simp only [lower, lowered, lowerConjunction, Traced.liftM_of_ok paired, pure_bind,
                  leftOk, rightFails, collected]
                rfl
          | ok parts =>
              calc lower options scope (.and left right)
                  = (fun clauses => (Lowered.chain clauses).query) <$> Lowered.clauses <$>
                      lowered options scope (.and left right) := by
                    rw [lower, lowered_eq_chain paired]
                    simp [Lowered.clauses]
                _ = (do
                      let queries ← parts.mapM (lowerOperand options scope)
                      return (Lowered.chain (queries.filter (!·.isMatchAll))).query) := by
                    rw [clauses_lowered collected]
                    simp
                _ = lowerConjunction options scope left right := by
                    simp [lowerConjunction, Traced.liftM_of_ok paired,
                      Traced.liftM_of_ok collected]

end Facet.Predicate
