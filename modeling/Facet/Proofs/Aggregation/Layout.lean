import Facet.Proofs.Aggregation.Level

/-!
What a level consists of.

Owns:
- the names of a level, in the order in which placements first take them;
- that a level holds every placement once, and nothing else;
- that a filter holds all that is placed below it, in order;
- `LaidOut`, the description of a level that does not tell how it comes about.
-/

namespace Facet

/-! ### Names -/

/-- The names that placements take on a level whose filters have been placed in part. -/
def newNames (seen : List String) (placements : List Placement) : List String :=
  (placements.map Placement.name).filter fun name => !seen.contains name

theorem newNames_plain_cons {seen : List String} {node : Node} (new : node.name ∉ seen)
    (rest : List Placement) :
    newNames seen (.plain node :: rest) = node.name :: newNames seen rest := by
  show ((node.name :: rest.map Placement.name).filter _) = _
  rw [List.filter_cons_of_pos (by simpa using new)]
  rfl

private theorem newNames_of_seen {seen : List String} {metric : Restricted}
    (known : metric.signature ∈ seen) (rest : List Placement) :
    newNames seen (.restricted metric :: rest) = newNames seen rest := by
  show ((metric.signature :: rest.map Placement.name).filter _) = _
  rw [List.filter_cons_of_neg (by simpa using known)]
  rfl

private theorem newNames_of_new {seen : List String} {metric : Restricted}
    (new : metric.signature ∉ seen) (rest : List Placement) :
    newNames seen (.restricted metric :: rest) = metric.signature :: newNames seen rest := by
  show ((metric.signature :: rest.map Placement.name).filter _) = _
  rw [List.filter_cons_of_pos (by simpa using new)]
  rfl

private theorem newNames_cons_seen (name : String) (seen : List String)
    (placements : List Placement) :
    newNames (name :: seen) placements =
      (newNames seen placements).filter fun other => !other == name := by
  rw [newNames, newNames, List.filter_filter]
  congr 1
  funext other
  rw [List.contains_cons, Bool.not_or]

/-- The names of a level come in the order in which placements first take them. -/
theorem names_arrange_of_seen {seen : List String} {placements : List Placement}
    (separate : Separate placements)
    (free : ∀ node, Placement.plain node ∈ placements → node.name ∉ seen) :
    (arrange seen placements).map Node.name = (newNames seen placements).eraseDups := by
  induction placements generalizing seen with
  | nil => rfl
  | cons placement rest inductionHypothesis =>
      have restFree : ∀ node, Placement.plain node ∈ rest → node.name ∉ seen :=
        fun node member => free node (List.mem_cons_of_mem _ member)
      cases placement with
      | plain node =>
          obtain ⟨apart, restSeparate⟩ := separate_plain_cons.mp separate
          have fresh : ∀ name ∈ newNames seen rest, (!name == node.name) = true := by
            intro name member
            obtain ⟨other, placed, rfl⟩ := List.mem_map.mp (List.mem_filter.mp member).1
            have apartOther := apart other placed
            have different : node.name ≠ other.name := by
              cases other with
              | plain _ => exact apartOther
              | restricted _ => exact apartOther
            simpa using different.symm
          rw [newNames_plain_cons (free node List.mem_cons_self), List.eraseDups_cons,
            List.filter_eq_self.mpr fresh, ← inductionHypothesis restSeparate restFree]
          rfl
      | restricted metric =>
          obtain ⟨apart, restSeparate⟩ := separate_restricted_cons.mp separate
          by_cases known : metric.signature ∈ seen
          · rw [arrange_of_seen known, newNames_of_seen known]
            exact inductionHypothesis restSeparate restFree
          · have freeBelow : ∀ node, Placement.plain node ∈ rest →
                node.name ∉ metric.signature :: seen := by
              intro node member
              exact List.not_mem_cons_of_ne_of_not_mem (Ne.symm (apart _ member))
                (restFree node member)
            rw [arrange_of_new known, newNames_of_new known, List.eraseDups_cons,
              ← newNames_cons_seen, ← inductionHypothesis restSeparate freeBelow]
            rfl

private theorem names_arrange {placements : List Placement} (separate : Separate placements) :
    (arrange [] placements).map Node.name = (placements.map Placement.name).eraseDups := by
  rw [names_arrange_of_seen separate fun _ _ => List.not_mem_nil, newNames]
  congr 1
  exact List.filter_eq_self.mpr fun _ _ => rfl

/-- No two nodes of a level share a name. -/
theorem nodup_names_arrange {seen : List String} {placements : List Placement}
    (separate : Separate placements) : ((arrange seen placements).map Node.name).Nodup := by
  induction placements generalizing seen with
  | nil => exact .nil
  | cons placement rest inductionHypothesis =>
      cases placement with
      | plain node =>
          obtain ⟨apart, restSeparate⟩ := separate_plain_cons.mp separate
          show (node.name :: (arrange seen rest).map Node.name).Nodup
          refine List.nodup_cons.mpr ⟨?_, inductionHypothesis restSeparate⟩
          intro taken
          obtain ⟨other, member, same⟩ := List.mem_map.mp taken
          obtain ⟨found, placed, named, _⟩ := placement_of_mem_arrange member
          have apartFound := apart found placed
          cases found with
          | plain _ => exact apartFound (named.trans same).symm
          | restricted _ => exact apartFound (named.trans same).symm
      | restricted metric =>
          obtain ⟨apart, restSeparate⟩ := separate_restricted_cons.mp separate
          by_cases known : metric.signature ∈ seen
          · rw [arrange_of_seen known]
            exact inductionHypothesis restSeparate
          · rw [arrange_of_new known, List.map_cons]
            refine List.nodup_cons.mpr ⟨?_, inductionHypothesis restSeparate⟩
            intro taken
            obtain ⟨other, member, same⟩ := List.mem_map.mp taken
            obtain ⟨found, placed, named, new⟩ := placement_of_mem_arrange member
            cases found with
            | plain node => exact apart _ placed (named.trans same).symm
            | restricted second =>
                have sameSignature : second.signature = metric.signature := named.trans same
                exact new second rfl (sameSignature ▸ List.mem_cons_self)

/-! ### What a level holds -/

/-- The node that is placed, under the signature that it is placed below. -/
def Placement.held : Placement → Option String × Node
  | .plain node => (none, node)
  | .restricted metric => (some metric.signature, metric.node)

/-- What a node of a level holds: what is below it for a filter, and otherwise itself. -/
def Node.held : Node → List (Option String × Node)
  | .mk signature (.filter _) children => children.map (some signature, ·)
  | node => [(none, node)]

private theorem Node.held_of_unfiltered {node : Node}
    (unfiltered : ∀ query, node.operation ≠ .filter query) : node.held = [(none, node)] := by
  obtain ⟨name, operation, children⟩ := node
  cases operation with
  | filter query => exact absurd rfl (unfiltered query)
  | _ => rfl

/-- The placements that are not under a signature seen before. -/
def unseen (seen : List String) (placements : List Placement) : List Placement :=
  placements.filter fun
    | .plain _ => true
    | .restricted metric => !seen.contains metric.signature

private theorem unseen_of_seen {seen : List String} {metric : Restricted}
    (known : metric.signature ∈ seen) (rest : List Placement) :
    unseen seen (.restricted metric :: rest) = unseen seen rest :=
  List.filter_cons_of_neg (by simpa using known)

private theorem unseen_of_new {seen : List String} {metric : Restricted}
    (new : metric.signature ∉ seen) (rest : List Placement) :
    unseen seen (.restricted metric :: rest) = .restricted metric :: unseen seen rest :=
  List.filter_cons_of_pos (by simpa using new)

/-- What is below one filter and what is placed besides make up what is not yet placed. -/
theorem held_below_perm {seen : List String} {signature : String} (new : signature ∉ seen)
    (placements : List Placement) :
    ((restrictedTo signature placements).map (some signature, ·) ++
        (unseen (signature :: seen) placements).map Placement.held).Perm
      ((unseen seen placements).map Placement.held) := by
  induction placements with
  | nil => exact .nil
  | cons placement rest inductionHypothesis =>
      cases placement with
      | plain node => exact List.perm_middle.trans (inductionHypothesis.cons _)
      | restricted metric =>
          by_cases same : metric.signature = signature
          · subst same
            rw [restrictedTo_cons_same, unseen_of_seen List.mem_cons_self, unseen_of_new new]
            exact inductionHypothesis.cons _
          · rw [restrictedTo_cons_other same]
            by_cases known : metric.signature ∈ seen
            · rw [unseen_of_seen known, unseen_of_seen (List.mem_cons_of_mem _ known)]
              exact inductionHypothesis
            · have unknown : metric.signature ∉ signature :: seen :=
              List.not_mem_cons_of_ne_of_not_mem same known
              rw [unseen_of_new known, unseen_of_new unknown]
              exact List.perm_middle.trans (inductionHypothesis.cons _)

private theorem held_arrange_perm {seen : List String} {placements : List Placement}
    (proper : ∀ placement ∈ placements, placement.IsProper) :
    ((arrange seen placements).flatMap Node.held).Perm
      ((unseen seen placements).map Placement.held) := by
  induction placements generalizing seen with
  | nil => exact .nil
  | cons placement rest inductionHypothesis =>
      obtain ⟨firstProper, restProper⟩ := List.forall_mem_cons.mp proper
      cases placement with
      | plain node =>
          show (node.held ++ (arrange seen rest).flatMap Node.held).Perm _
          rw [Node.held_of_unfiltered firstProper]
          exact (inductionHypothesis restProper).cons _
      | restricted metric =>
          by_cases known : metric.signature ∈ seen
          · rw [arrange_of_seen known, unseen_of_seen known]
            exact inductionHypothesis restProper
          · rw [arrange_of_new known, unseen_of_new known, List.flatMap_cons]
            refine List.Perm.cons _ (.trans ?_ (held_below_perm known rest))
            exact (inductionHypothesis restProper).append_left _

/-! ### Filters -/

/-- Every filter of a level has the query of one of its placements, and holds all of them. -/
theorem filter_of_mem_arrange {seen : List String} {placements : List Placement}
    {signature : String} {query : Query} {children : List Node}
    (proper : ∀ placement ∈ placements, placement.IsProper)
    (member : .mk signature (.filter query) children ∈ arrange seen placements) :
    signature ∉ seen ∧ children = restrictedTo signature placements ∧
      ∃ node, Placement.restricted ⟨signature, query, node⟩ ∈ placements := by
  induction placements generalizing seen with
  | nil => cases member
  | cons placement rest inductionHypothesis =>
      obtain ⟨firstProper, restProper⟩ := List.forall_mem_cons.mp proper
      cases placement with
      | plain node =>
          rcases List.mem_cons.mp member with rfl | later
          · exact absurd rfl (firstProper query)
          · obtain ⟨new, held, first, placed⟩ := inductionHypothesis restProper later
            exact ⟨new, held, first, List.mem_cons_of_mem _ placed⟩
      | restricted metric =>
          by_cases known : metric.signature ∈ seen
          · rw [arrange_of_seen known] at member
            obtain ⟨new, held, first, placed⟩ := inductionHypothesis restProper member
            have different : metric.signature ≠ signature := fun same => new (same ▸ known)
            rw [restrictedTo_cons_other different]
            exact ⟨new, held, first, List.mem_cons_of_mem _ placed⟩
          · rw [arrange_of_new known] at member
            rcases List.mem_cons.mp member with same | later
            · cases same
              rw [restrictedTo_cons_same]
              exact ⟨known, rfl, metric.node, List.mem_cons_self⟩
            · obtain ⟨new, held, first, placed⟩ := inductionHypothesis restProper later
              rw [List.mem_cons, not_or] at new
              rw [restrictedTo_cons_other (Ne.symm new.1)]
              exact ⟨new.2, held, first, List.mem_cons_of_mem _ placed⟩

/-! ### Levels as declared -/

/-- A level as its placements describe it: it has their names in the order of their first
occurrence, it holds every placement once, with the signature it belongs to, and a filter holds
what is placed below it in order. -/
structure LaidOut (placements : List Placement) (level : List Node) : Prop where
  names : level.map Node.name = (placements.map Placement.name).eraseDups
  held : (level.flatMap Node.held).Perm (placements.map Placement.held)
  filters : ∀ signature query children, .mk signature (.filter query) children ∈ level →
    children = restrictedTo signature placements

theorem laidOut_arrange {placements : List Placement} (separate : Separate placements)
    (proper : ∀ placement ∈ placements, placement.IsProper) :
    LaidOut placements (arrange [] placements) where
  names := names_arrange separate
  held := by
    have all : unseen [] placements = placements := by
      refine List.filter_eq_self.mpr fun placement _ => ?_
      cases placement <;> rfl
    have holds : ((arrange [] placements).flatMap Node.held).Perm
        ((unseen [] placements).map Placement.held) := held_arrange_perm proper
    rw [all] at holds
    exact holds
  filters _ _ _ member := (filter_of_mem_arrange proper member).2.1

end Facet
