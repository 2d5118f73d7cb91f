import Facet.Proofs.Aggregation.Placement

/-!
How the steps of declaring nest.

A specification is a tower. Its groups stand one inside the other, the one declared last
outermost, and a metric stands inside the groups that are declared after it and no others.

Owns:
- the group keys of some steps, and the declarations that are followed by so many of them;
- that a specification is the tower of its keys and declarations;
- that every level of it has at most one group, in front of the metrics.

Does not own: what is built from a tower.
-/

namespace Facet.Spec

/-! ### Keys and declarations -/

/-- The keys of a step, outermost first. -/
def Step.keys : Step → List GroupKey
  | .declare _ => []
  | .group key => [key]
  | .groupNames names => names.map GroupKey.name

def Step.declarations : Step → List Declaration
  | .declare declaration => [declaration]
  | .group _ => []
  | .groupNames _ => []

/-- The keys of some steps: those of the last step first, and so outermost first. -/
def groupKeys (steps : List Step) : List GroupKey :=
  steps.reverse.flatMap Step.keys

/-- The declarations that are followed by so many group keys, in order. -/
def declaredAt (depth : Nat) : List Step → List Declaration
  | [] => []
  | step :: later =>
      if (groupKeys later).length = depth then step.declarations ++ declaredAt depth later
      else declaredAt depth later

@[simp] theorem groupKeys_append (first later : List Step) :
    groupKeys (first ++ later) = groupKeys later ++ groupKeys first := by
  rw [groupKeys, List.reverse_append, List.flatMap_append]
  rfl

theorem length_groupKeys_concat (steps : List Step) (last : Step) :
    (groupKeys (steps ++ [last])).length = last.keys.length + (groupKeys steps).length := by
  rw [groupKeys_append, List.length_append]
  simp [groupKeys]

/-- One more step takes the declarations before it as much deeper as it has keys. -/
theorem declaredAt_concat (depth : Nat) (steps : List Step) (last : Step) :
    declaredAt depth (steps ++ [last]) =
      (if last.keys.length ≤ depth then declaredAt (depth - last.keys.length) steps else []) ++
        if depth = 0 then last.declarations else [] := by
  induction steps with
  | nil => simp [declaredAt, groupKeys, eq_comm]
  | cons step later inductionHypothesis =>
      rw [List.cons_append, declaredAt, declaredAt, inductionHypothesis, length_groupKeys_concat]
      by_cases here : last.keys.length + (groupKeys later).length = depth
      · have reaches : last.keys.length ≤ depth := by omega
        have followed : (groupKeys later).length = depth - last.keys.length := by omega
        rw [if_pos here, if_pos reaches, if_pos reaches, if_pos followed, List.append_assoc]
      · rw [if_neg here]
        by_cases reaches : last.keys.length ≤ depth
        · have followed : (groupKeys later).length ≠ depth - last.keys.length := by omega
          rw [if_pos reaches, if_pos reaches, if_neg followed]
        · rw [if_neg reaches, if_neg reaches]

/-! ### Towers -/

/-- Groups one inside the other, each in front of the metrics of its level. -/
def tower : List GroupKey → (Nat → List Declaration) → List Entry
  | [], rows => (rows 0).map .metric
  | key :: keys, rows =>
      .group key (tower keys fun depth => rows (depth + 1)) :: (rows 0).map .metric

/-- Metrics are declared at the end of the outermost level. -/
theorem tower_declare (keys : List GroupKey) (rows : Nat → List Declaration)
    (declarations : List Declaration) :
    tower keys rows ++ declarations.map .metric =
      tower keys fun depth => rows depth ++ if depth = 0 then declarations else [] := by
  cases keys with
  | nil => simp [tower]
  | cons key keys => simp [tower]

/-- Keys are put around a tower, with no metrics beside them. -/
theorem tower_wrap (outer keys : List GroupKey) (rows : Nat → List Declaration) :
    outer.foldr (fun key inner => [.group key inner]) (tower keys rows) =
      tower (outer ++ keys) fun depth =>
        if outer.length ≤ depth then rows (depth - outer.length) else [] := by
  induction outer with
  | nil => simp
  | cons key others inductionHypothesis =>
      rw [List.foldr_cons, inductionHypothesis, List.cons_append, tower]
      simp

/-- A step puts its keys around everything, outermost first, and adds its declaration. -/
theorem entries_apply (spec : Spec) (step : Step) :
    (spec.apply step).entries =
      step.keys.foldr (fun key inner => [.group key inner]) spec.entries ++
        step.declarations.map .metric := by
  cases step with
  | declare declaration => rfl
  | group key => rfl
  | groupNames names =>
      show (spec.groupByNames names).entries = _
      rw [groupByNames, List.foldl_reverse, Step.declarations, List.map_nil, List.append_nil,
        Step.keys, List.foldr_map]
      induction names with
      | nil => rfl
      | cons name others inductionHypothesis =>
          rw [List.foldr_cons, List.foldr_cons, ← inductionHypothesis]
          rfl

/-- **A specification is a tower.** Whatever the steps, their keys stand one inside the other, the
last one outermost, and every declaration stands at the depth of the keys that follow it. -/
theorem entries_ofSteps (steps : List Step) :
    (ofSteps steps).entries = tower (groupKeys steps) fun depth => declaredAt depth steps := by
  -- by induction on the steps from the last one back, since the last one decides the outermost
  rw [← steps.reverse_reverse]
  induction steps.reverse with
  | nil => rfl
  | cons last earlier inductionHypothesis =>
      rw [List.reverse_cons, ofSteps, List.foldl_append, List.foldl_cons, List.foldl_nil,
        ← ofSteps, entries_apply, inductionHypothesis, tower_wrap, tower_declare,
        groupKeys_append]
      simp only [declaredAt_concat]
      simp [groupKeys]

/-- A declaration is at the depth of the keys that follow it. -/
theorem mem_declaredAt {before after : List Step} {declaration : Declaration} :
    declaration ∈
      declaredAt (groupKeys after).length (before ++ .declare declaration :: after) := by
  induction before with
  | nil =>
      rw [List.nil_append, declaredAt, if_pos rfl]
      exact List.mem_cons_self
  | cons step others inductionHypothesis =>
      rw [List.cons_append, declaredAt]
      split
      · exact List.mem_append_right _ inductionHypothesis
      · exact inductionHypothesis

/-! ### Levels -/

/-- A level with at most one group, in front of its metrics. -/
inductive GroupFirst : List Entry → Prop where
  | metrics (declarations : List Declaration) : GroupFirst (declarations.map .metric)
  | group (key : GroupKey) (inner : List Entry) (declarations : List Declaration) :
      GroupFirst (.group key inner :: declarations.map .metric)

/-- Every level of a tower has at most one group, in front. -/
theorem groupFirst_of_hasLevel {keys : List GroupKey} {rows : Nat → List Declaration}
    {level : List Entry} (reached : HasLevel (tower keys rows) level) : GroupFirst level := by
  induction keys generalizing rows with
  | nil =>
      cases reached with
      | whole => exact .metrics _
      | inner member _ => simp [tower] at member
  | cons key keys inductionHypothesis =>
      cases reached with
      | whole => exact .group _ _ _
      | inner member below =>
          simp only [tower, List.mem_cons, Entry.group.injEq, List.mem_map, reduceCtorEq,
            and_false, exists_false, or_false] at member
          rw [member.2] at below
          exact inductionHypothesis below

end Facet.Spec
