import Facet.Log.Record
import Facet.Proofs.Query.Decoding

/-!
What compiling reports.

Two comparisons that merge are reported once, when their range takes its place in the query. So
the reports can be read off the query: they are those of its ranges with bounds on both sides, in
the order in which the query is written. The outcome is reported last, and once.

Owns:
- ranges that are bounded on both sides, and the reports of merges in a query;
- computations that report only events of one kind;
- the events that lowering and compiling report, whatever the outcome;
- the lines of these events on the standard streams, if nothing is below the threshold.
-/

namespace Facet

/-! ### Reports -/

namespace Emission

/-- Two comparisons of a field have merged. -/
def merge (field : String) : Emission :=
  ⟨.rangeMerged, [("field", field)]⟩

/-- The event is the report of a merge. -/
def IsMerge (emission : Emission) : Prop :=
  ∃ field, emission = merge field

/-- A predicate was compiled to a query of some kind. -/
def compiled (kind : String) : Emission :=
  ⟨.filterCompiled, [("root", kind)]⟩

/-- A predicate of some shape was rejected. -/
def rejected (code shape : String) : Emission :=
  ⟨.filterRejected, [("code", code), ("shape", shape)]⟩

/-- The line that an event has in the log. -/
def line (emission : Emission) : String :=
  (Log.Record.ofEmission emission).line

end Emission

/-- With the least threshold nothing is lost: failures go to the standard error stream and
everything else to the standard output, each in its order. -/
theorem Log.deliver_trace (emissions : List Emission) :
    deliver .trace (emissions.map Record.ofEmission) =
      ⟨(emissions.filter (!·.event.isFailure)).map Emission.line,
        (emissions.filter (·.event.isFailure)).map Emission.line⟩ := by
  have passes (emission : Emission) :
      (Record.ofEmission emission).severity.passes .trace = true := by
    simp [Severity.passes, Severity.rank]
  have warns (emission : Emission) :
      (Record.ofEmission emission).severity.passes .warn = emission.event.isFailure := by
    unfold Record.ofEmission
    cases emission.event.isFailure <;> rfl
  simp [deliver, List.filter_map, Function.comp_def, passes, warns, Emission.line]

/-- Merges and what is reported after them: the last event decides on its own stream. -/
theorem Log.deliver_merges {merges : List Emission}
    (areMerges : ∀ emission ∈ merges, emission.IsMerge) (last : Emission) :
    deliver .trace ((merges ++ [last]).map Record.ofEmission) =
      if last.event.isFailure then ⟨merges.map Emission.line, [last.line]⟩
      else ⟨(merges ++ [last]).map Emission.line, []⟩ := by
  have succeed : ∀ emission ∈ merges, emission.event.isFailure = false := by
    intro emission member
    obtain ⟨field, rfl⟩ := areMerges emission member
    rfl
  have kept : merges.filter (!·.event.isFailure) = merges := by
    rw [List.filter_eq_self]
    intro emission member
    rw [succeed emission member]
    rfl
  have none : merges.filter (·.event.isFailure) = [] := by
    rw [List.filter_eq_nil_iff]
    intro emission member
    rw [succeed emission member]
    exact Bool.false_ne_true
  rw [deliver_trace, List.filter_append, List.filter_append, kept, none]
  cases failure : last.event.isFailure <;> simp [failure]

/-! ### Merges in queries -/

namespace Query

/-- The range is bounded on both sides. -/
def Range.isTwoSided (range : Range) : Bool :=
  range.bounds.hasLower && range.bounds.hasUpper

/-- The fields of the ranges with bounds on both sides, in their order. -/
def mergedFields (ranges : List Range) : List String :=
  (ranges.filter Range.isTwoSided).map Range.field

@[simp] theorem mergedFields_append (first second : List Range) :
    mergedFields (first ++ second) = mergedFields first ++ mergedFields second := by
  simp [mergedFields]

/-- The reports of the merges in a query, in the order of its ranges. -/
def merges (query : Query) : List Emission :=
  (mergedFields query.ranges).map Emission.merge

private theorem isMerge_of_mem_merges {query : Query} {emission : Emission}
    (member : emission ∈ query.merges) : emission.IsMerge := by
  obtain ⟨field, _, same⟩ := List.mem_map.mp member
  exact ⟨field, same.symm⟩

theorem merges_of_ranges_eq_nil {query : Query} (none : query.ranges = []) :
    query.merges = [] := by
  rw [merges, none]
  rfl

@[simp] theorem merges_anyOf (left right : Query) :
    (anyOf [left, right]).merges = left.merges ++ right.merges := by
  simp [merges]

@[simp] theorem merges_negation (clause : Query) : (negation clause).merges = clause.merges := by
  simp [merges]

@[simp] theorem merges_nested (path : String) (inner : Query) :
    (nested path inner).merges = inner.merges := rfl

@[simp] theorem merges_single (clause : Query) : (allOf [clause]).merges = clause.merges := by
  simp [merges]

end Query

/-- A chain has the merges of both of its sides. -/
@[simp] theorem Predicate.Lowered.merges_chain (left right : Lowered) :
    (Lowered.chain (left.clauses ++ right.clauses)).query.merges =
      left.query.merges ++ right.query.merges := by
  simp [Query.merges, Lowered.ranges_query, Lowered.clauses]

namespace Comparison

variable {scope : Option Path}

/-- A single comparison bounds one side only. -/
theorem isTwoSided_of_range {comparison : Comparison} {range : Query.Range}
    (ranged : comparison.range scope = .ok range) : range.isTwoSided = false := by
  obtain ⟨_, _, _, _, _, _, rfl⟩ := range_eq_ok_iff.mp ranged
  cases comparison.comparator <;> rfl

private theorem merges_of_lower {comparison : Comparison} {query : Query}
    (lowers : comparison.lower scope = .ok query) : query.merges = [] := by
  rcases lower_eq_ok_iff.mp lowers with ⟨_, rfl, _⟩ | ⟨_, range, ranged, rfl⟩
  · rfl
  · have oneSided := isTwoSided_of_range ranged
    simp [Query.merges, Query.mergedFields, Query.ranges, oneSided]

/-- Two comparisons that merge bound both sides. -/
theorem merges_of_merges {lower upper : Comparison} {lowerRange upperRange : Query.Range}
    (merging : Comparison.merges scope lower upper = .ok true)
    (lowerRanged : lower.range scope = .ok lowerRange)
    (upperRanged : upper.range scope = .ok upperRange) :
    (Query.range lowerRange.field lowerRange.kind
        (lowerRange.bounds.merge upperRange.bounds)).merges =
      [Emission.merge lowerRange.field] := by
  obtain ⟨opposite, _⟩ := merges_eq_ok_true_iff.mp merging
  obtain ⟨_, _, sides, _⟩ := areOpposite_iff.mp opposite
  obtain ⟨_, _, _, _, _, _, rfl⟩ := range_eq_ok_iff.mp lowerRanged
  obtain ⟨_, _, _, _, _, _, rfl⟩ := range_eq_ok_iff.mp upperRanged
  revert sides
  cases lower.comparator <;> cases upper.comparator <;> intro sides <;>
    first
      | rfl
      | exact absurd rfl sides

end Comparison

/-! ### Computations and their reports -/

namespace Traced

variable {α β : Type} {among : Emission → Prop}

/-- What follows a success adds its reports behind those that there are. -/
@[simp] theorem succeeded_bind (emissions : List Emission) (value : α) (next : α → Traced β) :
    (⟨emissions, .ok value⟩ : Traced α) >>= next =
      ⟨emissions ++ (next value).emissions, (next value).outcome⟩ := rfl

@[simp] theorem succeeded_map (emissions : List Emission) (value : α) (change : α → β) :
    change <$> (⟨emissions, .ok value⟩ : Traced α) = ⟨emissions, .ok (change value)⟩ := by
  rw [← bind_pure_comp, succeeded_bind, emissions_pure, outcome_pure, List.append_nil]

/-- All events that the computation reports are of one kind, whether it succeeds or fails. -/
def ReportsOnly (among : Emission → Prop) (run : Traced α) : Prop :=
  ∀ emission ∈ run.emissions, among emission

namespace ReportsOnly

private theorem pure (value : α) : ReportsOnly among (Pure.pure value : Traced α) :=
  List.forall_mem_nil _

private theorem liftM (outcome : Except Error α) :
    ReportsOnly among (MonadLiftT.monadLift outcome : Traced α) :=
  List.forall_mem_nil _

private theorem bind {first : Traced α} {next : α → Traced β} (starts : first.ReportsOnly among)
    (goesOn : ∀ value, (next value).ReportsOnly among) :
    (first >>= next).ReportsOnly among := by
  rw [ReportsOnly, emissions_bind, List.forall_mem_append]
  refine ⟨starts, ?_⟩
  cases first.outcome with
  | ok value => exact goesOn value
  | error error => exact List.forall_mem_nil _

end ReportsOnly

end Traced

/-! ### Lowering -/

namespace Predicate

variable {options : CompilerOptions} {scope : Option Path}

/-- **Lowering reports the merges of its query.** Whatever is lowered reports each range with
bounds on both sides once, in the order of the query, and nothing else. -/
theorem lowered_eq_of_lowers {predicate : Predicate} {result : Lowered}
    (lowers : Lowers options scope predicate result) :
    lowered options scope predicate = ⟨result.query.merges, .ok result⟩ := by
  induction lowers with
  | merged pair lowerRanged upperRanged =>
      obtain ⟨rfl, rfl, _, merging⟩ := mergedPair_eq_some_iff.mp pair
      rw [Lowered.query_one, Comparison.merges_of_merges merging lowerRanged upperRanged]
      simp only [lowered, Comparison.merged, Traced.liftM_of_ok pair,
        Traced.liftM_of_ok lowerRanged, Traced.liftM_of_ok upperRanged, pure_bind]
      rfl
  | chain pair leftExamined rightExamined _ _ leftHypothesis rightHypothesis =>
      simp [lowered, Traced.liftM_of_ok pair, Traced.liftM_of_ok leftExamined,
        Traced.liftM_of_ok rightExamined, leftHypothesis, rightHypothesis]
  | or _ _ leftHypothesis rightHypothesis => simp [lowered, leftHypothesis, rightHypothesis]
  | not _ innerHypothesis => simp [lowered, innerHypothesis]
  | compare lowers =>
      rw [Lowered.query_one, Comparison.merges_of_lower lowers, lowered,
        Traced.liftM_of_ok lowers, pure_bind]
      rfl
  | equals lowers =>
      rw [Lowered.query_one, Query.merges_of_ranges_eq_nil (ranges_of_lowerEquals lowers),
        lowered, Traced.liftM_of_ok lowers, pure_bind]
      rfl
  | notNull null resolved =>
      rw [lowered, null, if_pos rfl, Traced.liftM_of_ok resolved, pure_bind]
      rfl
  | notEquals valued lowers =>
      rw [Lowered.query_one, Query.merges_negation,
        Query.merges_of_ranges_eq_nil (ranges_of_lowerEquals lowers), lowered, valued,
        if_neg Bool.false_ne_true, Traced.liftM_of_ok lowers, pure_bind]
      rfl
  | flag resolved | present resolved =>
      rw [lowered, Traced.liftM_of_ok resolved, pure_bind]
      rfl
  | holds named resolved =>
      rw [lowered, named, if_pos rfl, Traced.liftM_of_ok resolved, pure_bind]
      rfl
  | nested resolved isNested _ innerHypothesis =>
      simp [lowered, Traced.liftM_of_ok resolved, innerHypothesis, isNested]
  | inside resolved notNested _ innerHypothesis =>
      simp [lowered, Traced.liftM_of_ok resolved, innerHypothesis, notNested]

private theorem merged_reportsOnly (lower upper : Comparison) :
    (Comparison.merged scope lower upper).ReportsOnly Emission.IsMerge := by
  unfold Comparison.merged
  refine (Traced.ReportsOnly.liftM _).bind fun lowerRange => ?_
  refine (Traced.ReportsOnly.liftM _).bind fun upperRange => ?_
  have reported :
      (Traced.emit .rangeMerged [("field", lowerRange.field)]).ReportsOnly Emission.IsMerge :=
    List.forall_mem_singleton.mpr ⟨lowerRange.field, rfl⟩
  exact reported.bind fun _ => .pure _

/-- Lowering reports merges only, also if it fails later. -/
theorem lowered_reportsOnly (predicate : Predicate) :
    (lowered options scope predicate).ReportsOnly Emission.IsMerge := by
  -- for every scope at once, since the elements of a collection have a scope of their own
  induction predicate generalizing scope with
  | and left right leftHypothesis rightHypothesis =>
      refine (Traced.ReportsOnly.liftM _).bind fun pair => ?_
      cases pair with
      | some comparisons => exact (merged_reportsOnly _ _).bind fun _ => .pure _
      | none =>
          refine (Traced.ReportsOnly.liftM _).bind fun _ => ?_
          refine (Traced.ReportsOnly.liftM _).bind fun _ => ?_
          refine leftHypothesis.bind fun _ => ?_
          exact rightHypothesis.bind fun _ => .pure _
  | or left right leftHypothesis rightHypothesis =>
      refine leftHypothesis.bind fun _ => ?_
      exact rightHypothesis.bind fun _ => .pure _
  | not inner innerHypothesis => exact innerHypothesis.bind fun _ => .pure _
  | any collection inner innerHypothesis =>
      refine (Traced.ReportsOnly.liftM _).bind fun path => ?_
      refine innerHypothesis.bind fun innerLowered => ?_
      split <;> exact .pure _
  | notEquals field value =>
      rw [lowered]
      split <;> exact (Traced.ReportsOnly.liftM _).bind fun _ => .pure _
  | holds field =>
      rw [lowered]
      split
      · exact (Traced.ReportsOnly.liftM _).bind fun _ => .pure _
      · exact List.forall_mem_nil _
  | compare _ | equals _ _ | flag _ | present _ =>
      exact (Traced.ReportsOnly.liftM _).bind fun _ => .pure _
  | call target method => exact List.forall_mem_nil _

/-! ### Compiling -/

/-- A predicate that compiles reports the merges in its query and then its success. -/
theorem emissions_of_compile_ok {predicate : Predicate} {query : Query}
    (compiled : (predicate.compile options).outcome = .ok query) :
    (predicate.compile options).emissions = query.merges ++ [.compiled query.kind] := by
  obtain ⟨result, lowers, rfl⟩ := lowers_of_compile compiled
  have lowered : lower options none predicate = ⟨result.query.merges, .ok result.query⟩ := by
    simp [lower, lowered_eq_of_lowers lowers]
  rw [compile, lowered]
  rfl

/-- A predicate that is rejected reports merges, if anything, and then its rejection. -/
theorem emissions_of_compile_error {predicate : Predicate} {error : Error}
    (rejected : (predicate.compile options).outcome = .error error) :
    ∃ merges : List Emission, (∀ emission ∈ merges, emission.IsMerge) ∧
      (predicate.compile options).emissions =
        merges ++ [.rejected error.code predicate.shape] := by
  have merges : (lower options none predicate).ReportsOnly Emission.IsMerge :=
    (lowered_reportsOnly predicate).bind fun _ => .pure _
  refine ⟨(lower options none predicate).emissions, merges, ?_⟩
  rw [compile, Traced.outcome_conclude] at rejected
  rw [compile, Traced.conclude, rejected]
  rfl

/-- **Compiling reports its outcome exactly.** A predicate that compiles reports one merge for
each range of its query with bounds on both sides, with the field and in the order of the query,
and then its success with the kind of the query; all of it goes to the standard output. A
predicate that is rejected may report merges, and then reports its rejection with the code of the
error and its own shape, which alone goes to the standard error stream. -/
theorem compile_reports_outcome (options : CompilerOptions) (predicate : Predicate) :
    let run := predicate.compile options
    let delivery := Log.deliver .trace (run.emissions.map Log.Record.ofEmission)
    (∀ query, run.outcome = .ok query →
      let reports := query.merges ++ [.compiled query.kind]
      run.emissions = reports ∧ delivery = ⟨reports.map Emission.line, []⟩) ∧
    (∀ error, run.outcome = .error error →
      ∃ merges : List Emission, (∀ emission ∈ merges, emission.IsMerge) ∧
        let rejection := Emission.rejected error.code predicate.shape
        run.emissions = merges ++ [rejection] ∧
          delivery = ⟨merges.map Emission.line, [rejection.line]⟩) := by
  intro run delivery
  have delivered {reports : List Emission} (emissions : run.emissions = reports) :
      delivery = Log.deliver .trace (reports.map Log.Record.ofEmission) := by
    rw [← emissions]
  constructor
  · intro query compiled reports
    have emissions : run.emissions = reports := emissions_of_compile_ok compiled
    refine ⟨emissions, ?_⟩
    rw [delivered emissions]
    exact Log.deliver_merges (fun _ => Query.isMerge_of_mem_merges) (.compiled query.kind)
  · intro error rejected
    obtain ⟨merges, areMerges, emissions⟩ := emissions_of_compile_error rejected
    refine ⟨merges, areMerges, emissions, ?_⟩
    rw [delivered emissions]
    exact Log.deliver_merges areMerges (.rejected error.code predicate.shape)

/-- Young passengers or a middling price: the merge among the passengers comes before the one of
the second side. If a method call is asked for as well, the merge of the price is still reported,
and then the rejection. -/
theorem carsByAgeOrPrice_reported :
    let between (name : String) := Predicate.and
      (.compare ⟨.greater, .property name, .integer 2⟩)
      (.compare ⟨.lessOrEqual, .property name, .integer 6⟩)
    let accepted := Predicate.or (.any (.property "Passengers") (between "Age")) (between "Price")
    let refused := Predicate.and (between "Price") (.call (.property "Name") "StartsWith")
    let reports : List Emission :=
      [.merge "passengers.age", .merge "price", .compiled "bool"]
    let rejection := Emission.rejected "AGG_UNSUPPORTED_PREDICATE" "and"
    (accepted.compile .standard).emissions = reports ∧
      Log.deliver .trace ((accepted.compile .standard).emissions.map .ofEmission) =
        ⟨reports.map Emission.line, []⟩ ∧
      (refused.compile .standard).emissions = [.merge "price", rejection] ∧
      Log.deliver .trace ((refused.compile .standard).emissions.map .ofEmission) =
        ⟨[(Emission.merge "price").line], [rejection.line]⟩ := by
  intro between accepted refused reports rejection
  obtain ⟨emissions, delivery⟩ := (compile_reports_outcome .standard accepted).1 _ rfl
  obtain ⟨merges, _, refusedEmissions, refusedDelivery⟩ :=
    (compile_reports_outcome .standard refused).2 _ rfl
  have all : (refused.compile .standard).emissions = [.merge "price"] ++ [rejection] := rfl
  obtain rfl := List.append_cancel_right (refusedEmissions.symm.trans all)
  exact ⟨emissions, delivery, refusedEmissions, refusedDelivery⟩

end Predicate

end Facet
