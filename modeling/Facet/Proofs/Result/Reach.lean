import Facet.Proofs.Result.Nodes
import Facet.Proofs.Result.SubTree

/-!
Reaching results below groups.

A reader goes down one bucket after the other and takes a sub-tree each time. It reaches
whatever the engine returned, at every depth, as long as nothing below a group has a reserved
name. Otherwise the result of that name is lost.

Owns:
- what the engine may return for a level, and the way through its groups and buckets;
- the way that a reader takes, step by step and as a whole;
- the exact condition under which sub-trees keep the results of what was declared;
- results that are reached below a bucket, and a group that is lost because of its name.
-/

namespace Facet

/-! ### Answers of the engine -/

/-- What the engine may return for a level: results for its nodes, and below the results of
filters results for their children. -/
structure LevelAnswer (nodes : List Node) (members : Members) : Prop extends
    IsAnswer nodes members where
  filters : ∀ node ∈ nodes, ∀ query, node.operation = .filter query →
    ∃ inside, Members.find? members node.name = some (.object inside) ∧
      IsAnswer node.children inside

/-- What the engine returns for the levels of a specification: on a way through groups, into
one bucket of each, every level has an answer. -/
inductive Spec.Returned : List Entry → List Node → Members → List (GroupKey × Nat) →
    List Entry → List Node → Members → Prop where
  | here {level : List Entry} {nodes : List Node} {members : Members}
      (answer : LevelAnswer nodes members) : Returned level nodes members [] level nodes members
  | bucket {entries inner level : List Entry} {nodes levelNodes : List Node}
      {members inside final : Members} {key : GroupKey} {target : Target} {node : Node}
      {body : Json} {items : List Json} {index : Nat} {way : List (GroupKey × Nat)}
      (answer : LevelAnswer nodes members) (member : .group key inner ∈ entries)
      (keyed : key.target = .ok target) (found : node ∈ nodes) (named : node.name = target.name)
      (result : Members.find? members target.name = some body)
      (listed : (body.get? "buckets").bind Json.asArray? = some items)
      (readable : ∀ item ∈ items, ∃ members raw,
        item = .object members ∧ Members.find? members "key" = some raw)
      (entered : items[index]? = some (.object inside))
      (further : Returned inner node.children inside way level levelNodes final) :
      Returned entries nodes members ((key, index) :: way) level levelNodes final

private theorem Spec.Returned.answer {entries level : List Entry} {nodes levelNodes : List Node}
    {members final : Members} {way : List (GroupKey × Nat)}
    (returned : Spec.Returned entries nodes members way level levelNodes final) :
    LevelAnswer nodes members := by
  cases returned with
  | here answer => exact answer
  | bucket answer => exact answer

private theorem Spec.Returned.matching {entries level : List Entry} {nodes levelNodes : List Node}
    {members final : Members} {way : List (GroupKey × Nat)}
    (returned : Spec.Returned entries nodes members way level levelNodes final) :
    Spec.Matching entries nodes level levelNodes := by
  induction returned with
  | here => exact .whole _ _
  | bucket _ member keyed found named _ _ _ _ _ furtherHypothesis =>
      exact .inner member keyed found named furtherHypothesis

/-! ### Ways of a reader -/

/-- The tree that a reader comes to on a way through groups, into one bucket of each. -/
inductive Tree.Enters : Tree → List (GroupKey × Nat) → Tree → Prop where
  | here (tree : Tree) : Enters tree [] tree
  | bucket {tree last : Tree} {key : GroupKey} {index : Nat} {buckets : List Bucket}
      {bucket : Bucket} {way : List (GroupKey × Nat)}
      (read : (tree.readBuckets key).outcome = .ok buckets)
      (entered : buckets[index]? = some bucket) (further : Enters bucket.tree way last) :
      Enters tree ((key, index) :: way) last

/-- A tree has the results of some nodes as the engine returned them. -/
def Tree.Shows (tree : Tree) (nodes : List Node) (members : Members) : Prop :=
  ∀ node ∈ nodes, tree.find? node.name = Members.find? members node.name

/-- The sub-tree of an answer has the results of all children with free names. -/
theorem Tree.shows_subResults {children : List Node} {members : Members}
    (answer : IsAnswer children members)
    (free : ∀ child ∈ children, isReserved child.name = false) :
    (Tree.mk (Members.subResults members)).Shows children members := by
  intro child member
  obtain ⟨result, found⟩ := answer.results child member
  rw [found]
  exact Members.find?_subResults_of_free found (free child member)

/-- Readable buckets are read, each with its sub-tree. -/
theorem Bucket.mapM_ofJson {name : String} {items : List Json}
    (readable : ∀ item ∈ items, ∃ members raw,
      item = .object members ∧ Members.find? members "key" = some raw) :
    ∃ buckets, items.mapM (Bucket.ofJson name) = .ok buckets ∧
      ∀ (index : Nat) (inside : Members), items[index]? = some (.object inside) →
        ∃ bucket, buckets[index]? = some bucket ∧
          bucket.tree = ⟨Members.subResults inside⟩ := by
  induction items with
  | nil => exact ⟨[], rfl, fun index inside entered => by simp at entered⟩
  | cons item rest inductionHypothesis =>
      obtain ⟨⟨members, raw, rfl, keyed⟩, restReadable⟩ := List.forall_mem_cons.mp readable
      obtain ⟨others, succeeds, entered⟩ := inductionHypothesis restReadable
      obtain ⟨bucket, first, taken⟩ : ∃ bucket, ofJson name (.object members) = .ok bucket ∧
          bucket.tree = ⟨Members.subResults members⟩ :=
        ⟨_, ofJson_object_eq_ok.mpr ⟨raw, keyed, rfl⟩, rfl⟩
      refine ⟨bucket :: others, ?_, ?_⟩
      · rw [List.mapM_cons, first, Outcome.ok_bind, succeeds]
        rfl
      · intro index inside at_
        cases index with
        | zero =>
            simp only [List.getElem?_cons_zero, Option.some.injEq, Json.object.injEq] at at_
            subst at_
            exact ⟨bucket, rfl, taken⟩
        | succ index => exact entered index inside at_

private theorem Tree.buckets_of_found {tree : Tree} {name : String} {body : Json}
    (found : tree.find? name = some body) :
    (tree.buckets name).outcome = body.buckets name := by
  have looked : tree.lookup name = pure body := Members.lookup_of_found found
  rw [Tree.buckets, looked, pure_bind, Traced.outcome_liftM]

/-- One step of a reader: where the result of a group is shown, each of its buckets can be
entered, and has the sub-tree of what the engine returned for it. -/
theorem Tree.readBuckets_of_found {tree : Tree} {key : GroupKey} {target : Target} {body : Json}
    {items : List Json} (keyed : key.target = .ok target)
    (found : tree.find? target.name = some body)
    (listed : (body.get? "buckets").bind Json.asArray? = some items)
    (readable : ∀ item ∈ items, ∃ members raw,
      item = .object members ∧ Members.find? members "key" = some raw) :
    ∃ buckets, (tree.readBuckets key).outcome = .ok buckets ∧
      ∀ (index : Nat) (inside : Members), items[index]? = some (.object inside) →
        ∃ bucket, buckets[index]? = some bucket ∧
          bucket.tree = ⟨Members.subResults inside⟩ := by
  obtain ⟨buckets, succeeds, entered⟩ := Bucket.mapM_ofJson readable
  refine ⟨buckets, ?_, entered⟩
  rw [GroupKey.isReadAt_of_target keyed tree, Tree.buckets_of_found found, Json.buckets, listed]
  exact succeeds

/-- A whole way of a reader: it comes to a tree with everything that the engine returned for
the last level, if no name below a group is reserved. -/
theorem Tree.enters_of_returned {entries level : List Entry} {nodes levelNodes : List Node}
    {members final : Members} {way : List (GroupKey × Nat)}
    (returned : Spec.Returned entries nodes members way level levelNodes final)
    (free : ∀ node, Node.Within nodes node →
      ∀ child ∈ node.children, isReserved child.name = false)
    {tree : Tree} (shows : tree.Shows nodes members) :
    ∃ last, tree.Enters way last ∧ last.Shows levelNodes final ∧
      LevelAnswer levelNodes final := by
  induction returned generalizing tree with
  | here answer => exact ⟨tree, .here tree, shows, answer⟩
  | bucket _ _ keyed found named result listed readable entered further furtherHypothesis =>
      have shown := shows _ found
      rw [named, result] at shown
      obtain ⟨buckets, read, enter⟩ := Tree.readBuckets_of_found keyed shown listed readable
      obtain ⟨bucket, at_, taken⟩ := enter _ _ entered
      have subShows :=
        Tree.shows_subResults further.answer.toIsAnswer (free _ (.here found))
      obtain ⟨last, enters, lastShows, lastAnswer⟩ :=
        furtherHypothesis (fun other within => free other (.deeper found within)) subShows
      rw [← taken] at enters
      exact ⟨last, .bucket read at_ enters, lastShows, lastAnswer⟩

/-! ### Reading declarations -/

/-- The result of a declaration among the members of an answer: under its name, below the
filter of its condition if it has one. -/
def Members.HasResult (members : Members) (address : Address) (body : Json) : Prop :=
  match address.filter with
  | none => find? members address.name = some body
  | some signature =>
      ∃ inside, find? members signature = some (.object inside) ∧
        find? inside address.name = some body

/-- The name of an address on its level. -/
def Address.outermost (address : Address) : String :=
  address.filter.getD address.name

/-- Whatever shows the same under the name on the level has the same result. -/
theorem Members.HasResult.of_outermost {members others : Members} {address : Address}
    {body : Json} (result : members.HasResult address body)
    (same : find? others address.outermost = find? members address.outermost) :
    others.HasResult address body := by
  obtain ⟨filter, name⟩ := address
  cases filter with
  | none => exact same.trans result
  | some signature =>
      obtain ⟨inside, found, below⟩ := result
      exact ⟨inside, same.trans found, below⟩

private theorem Tree.locate_of_hasResult {tree : Tree} {address : Address} {body : Json}
    (result : Members.HasResult tree.members address body) : tree.locate address = pure body := by
  obtain ⟨filter, name⟩ := address
  cases filter with
  | none =>
      have looked : tree.lookup name = pure body := Members.lookup_of_found result
      exact looked
  | some signature =>
      obtain ⟨inside, found, foundInside⟩ := result
      have looked : tree.lookup signature = pure (.object inside) :=
        Members.lookup_of_found found
      have opened : (liftM ((Json.object inside).results signature) : Traced Members) =
          pure inside := rfl
      simp only [Tree.locate, looked, pure_bind]
      rw [opened, pure_bind]
      exact Members.lookup_of_found foundInside

theorem Node.mem_of_filter_name_eq {nodes : List Node} {name : String} {node : Node}
    (only : nodes.filter (·.name == name) = [node]) : node ∈ nodes := by
  have member : node ∈ nodes.filter (·.name == name) := by
    rw [only]
    exact List.mem_singleton_self node
  exact (List.mem_filter.mp member).1

/-- Every answer has the results of addressed declarations, under the names of nodes. -/
theorem LevelAnswer.hasResult {options : BuilderOptions} {nodes : List Node} {members : Members}
    {declaration : Declaration} (answer : LevelAnswer nodes members)
    (addressed : declaration.IsAddressed options nodes) :
    ∃ address body, declaration.address = .ok address ∧ declaration.IsReadAt address ∧
      members.HasResult address body ∧ ∃ node ∈ nodes, node.name = address.outermost := by
  obtain ⟨address, operation, computed, readAt, _, only⟩ := addressed
  cases restriction : declaration.condition with
  | none =>
      simp only [restriction] at only
      obtain ⟨unfiltered, onlyNode⟩ := only
      have member := Node.mem_of_filter_name_eq onlyNode
      obtain ⟨result, found⟩ := answer.results _ member
      have held : members.HasResult address (.object result) := by
        rw [Members.HasResult, unfiltered]
        exact found
      have named : address.name = address.outermost := by
        rw [Address.outermost, unfiltered]
        rfl
      exact ⟨address, _, computed, readAt, held, _, member, named⟩
  | some condition =>
      simp only [restriction] at only
      obtain ⟨signature, _, shared, children, _, _, filtered, onlyFilter, _, onlyNode⟩ := only
      have member := Node.mem_of_filter_name_eq onlyFilter
      obtain ⟨inside, found, insideAnswer⟩ := answer.filters _ member shared rfl
      obtain ⟨result, foundInside⟩ :=
        insideAnswer.results _ (Node.mem_of_filter_name_eq onlyNode)
      have held : members.HasResult address (.object result) := by
        rw [Members.HasResult, filtered]
        exact ⟨inside, found, foundInside⟩
      have named : signature = address.outermost := by
        rw [Address.outermost, filtered]
        rfl
      exact ⟨address, _, computed, readAt, held, _, member, named⟩

/-- Where a tree shows an answer, the readers of an addressed declaration read its result. -/
theorem Tree.read_of_shows {options : BuilderOptions} {tree : Tree} {nodes : List Node}
    {members : Members} {declaration : Declaration} (shows : tree.Shows nodes members)
    (answer : LevelAnswer nodes members) (addressed : declaration.IsAddressed options nodes) :
    ∃ address body, declaration.address = .ok address ∧ members.HasResult address body ∧
      ∀ (α : Type) (run : Traced α) (next : String → Json → Traced α),
        tree.IsReader α declaration run next → run = next address.name body := by
  obtain ⟨address, body, computed, readAt, result, node, member, named⟩ :=
    answer.hasResult addressed
  have shown := shows node member
  rw [named] at shown
  have inTree : tree.members.HasResult address body := result.of_outermost shown
  refine ⟨address, body, computed, result, ?_⟩
  intro α run next reader
  rw [readAt tree α run next reader, Tree.locate_of_hasResult inTree, pure_bind]

/-- Where a tree shows an answer, the readers of an addressed group read its buckets. -/
theorem Tree.readBuckets_of_shows {options : BuilderOptions} {tree : Tree} {nodes : List Node}
    {members : Members} {key : GroupKey} (shows : tree.Shows nodes members)
    (answer : LevelAnswer nodes members) (addressed : key.IsAddressed options nodes) :
    ∃ target body, key.target = .ok target ∧ Members.find? members target.name = some body ∧
      (tree.readBuckets key).outcome = body.buckets target.name := by
  obtain ⟨target, operation, children, computed, readAt, _, only⟩ := addressed
  have member := Node.mem_of_filter_name_eq only
  obtain ⟨result, found⟩ := answer.results _ member
  have shown := shows _ member
  rw [found] at shown
  refine ⟨target, .object result, computed, found, ?_⟩
  rw [readAt tree]
  exact Tree.buckets_of_found shown

/-- A tree reaches what the engine returned for a level: the readers of every declaration come
to its result, and those of every group to its buckets. -/
structure Tree.Reaches (tree : Tree) (level : List Entry) (members : Members) : Prop where
  declarations : ∀ declaration, .metric declaration ∈ level →
    ∃ address body, declaration.address = .ok address ∧ members.HasResult address body ∧
      ∀ (α : Type) (run : Traced α) (next : String → Json → Traced α),
        tree.IsReader α declaration run next → run = next address.name body
  groups : ∀ key inner, .group key inner ∈ level →
    ∃ target body, key.target = .ok target ∧ Members.find? members target.name = some body ∧
      (tree.readBuckets key).outcome = body.buckets target.name

/-! ### What sub-trees keep -/

/-- No node below another one has a reserved name. -/
def Node.AreFreeBelow (nodes : List Node) : Prop :=
  ∀ node, Node.Within nodes node → ∀ child ∈ node.children, isReserved child.name = false

theorem Node.areFreeBelow_nil : Node.AreFreeBelow [] := by
  intro node within
  cases within with
  | here member => cases member
  | deeper member _ => cases member

theorem Node.areFreeBelow_cons {first : Node} {rest : List Node} :
    Node.AreFreeBelow (first :: rest) ↔
      (∀ child ∈ first.children, isReserved child.name = false) ∧
        Node.AreFreeBelow first.children ∧ Node.AreFreeBelow rest := by
  constructor
  · intro free
    exact ⟨free first (.here List.mem_cons_self),
      fun node within => free node (.deeper List.mem_cons_self within),
      fun node within => free node (within.cons first)⟩
  · rintro ⟨free, inside, others⟩ node within
    cases within with
    | here member =>
        rcases List.mem_cons.mp member with rfl | later
        · exact free
        · exact others node (.here later)
    | deeper member within =>
        rcases List.mem_cons.mp member with rfl | later
        · exact inside node within
        · exact others node (.deeper later within)

/-- The engine may return an answer for any nodes with distinct names. -/
theorem exists_isAnswer {children : List Node} (unique : (children.map Node.name).Nodup) :
    ∃ members, IsAnswer children members := by
  have names : Members.names (children.map fun child => (child.name, .object [])) =
      children.map Node.name := by
    rw [Members.names, List.map_map]
    rfl
  refine ⟨children.map fun child => (child.name, .object []), ?_, ?_, ?_⟩
  · rw [names]
    exact unique
  · intro child member
    refine ⟨[], Members.find?_of_mem ?_ ?_⟩
    · rw [names]
      exact unique
    · exact List.mem_map.mpr ⟨child, member, rfl⟩
  · intro member placed
    obtain ⟨child, declared, rfl⟩ := List.mem_map.mp placed
    exact Or.inl ⟨child, declared, rfl⟩

/-- **What sub-trees keep of what was declared.** In a built request, all sub-trees of all
answers of the engine have exactly the results of their nodes' children, unchanged and in
order, if and only if no name below another node is reserved. A sub-tree hides just the
children with reserved names, and those of a filter never. If no name is reserved, readers
come by every way to the results of everything that was declared, at every depth. -/
theorem Spec.subTrees_keep_results {options : BuilderOptions} {spec : Spec}
    {built : Aggregations} (succeeds : (spec.build options).outcome = .ok built) :
    ((∀ node, Node.Within built.nodes node → ∀ members, IsAnswer node.children members →
          ∀ tree, Tree.TakenFrom members tree →
            tree.members = resultsOf node.children members) ↔
        Node.AreFreeBelow built.nodes) ∧
      (∀ node, Node.Within built.nodes node → ∀ members, IsAnswer node.children members →
        ∀ tree, Tree.TakenFrom members tree → ∀ child ∈ node.children,
          tree.find? child.name =
            if isReserved child.name then none else Members.find? members child.name) ∧
      (∀ node, Node.Within built.nodes node → ∀ query, node.operation = .filter query →
        ∀ child ∈ node.children, isReserved child.name = false) ∧
      (Node.AreFreeBelow built.nodes →
        ∀ members way level nodes final,
          Spec.Returned spec.entries built.nodes members way level nodes final →
            ∃ tree, Tree.Enters ⟨members⟩ way tree ∧ tree.Reaches level final) := by
  obtain ⟨placed, placing, separate, same⟩ := Spec.placements_of_build succeeds
  have levelPlaced : Spec.LevelPlaced options spec.entries built.nodes := by
    rw [same]
    exact Spec.levelPlaced_of_separate placing separate
  have sound : ∀ node, Node.Within built.nodes node → node.IsSound :=
    fun node within => Spec.isSound_of_within levelPlaced separate within
  refine ⟨⟨?_, ?_⟩, ?_, fun node within => (sound node within).filters, ?_⟩
  · intro keeps node within
    obtain ⟨members, answer⟩ := exists_isAnswer (sound node within).unique
    obtain ⟨tree, taken⟩ := Tree.exists_takenFrom members
    have kept := keeps node within members answer tree taken
    rw [Tree.members_of_takenFrom taken] at kept
    exact (subResults_eq_resultsOf_iff answer).mp kept
  · intro free node within members answer tree taken
    rw [Tree.members_of_takenFrom taken]
    exact (subResults_eq_resultsOf_iff answer).mpr (free node within)
  · intro node _ members answer tree taken child member
    rw [Tree.find?, Tree.members_of_takenFrom taken]
    cases reserved : isReserved child.name with
    | true => exact Members.find?_subResults_of_reserved reserved members
    | false =>
        obtain ⟨result, found⟩ := answer.results child member
        rw [found]
        exact Members.find?_subResults_of_free found reserved
  · intro free members way level nodes final returned
    have whole : (Tree.mk members).Shows built.nodes members := fun _ _ => rfl
    obtain ⟨tree, enters, shows, answer⟩ := Tree.enters_of_returned returned free whole
    have lastPlaced := Spec.levelPlaced_of_matching levelPlaced separate returned.matching
    refine ⟨tree, enters, ?_, ?_⟩
    · intro declaration member
      exact Tree.read_of_shows shows answer (Spec.declaration_isAddressed lastPlaced member)
    · intro key inner member
      exact Tree.readBuckets_of_shows shows answer (Spec.group_isAddressed lastPlaced member)

/-! ### An answer below the type of cars -/

namespace Spec

/-- What the engine returns for the weights of one type of car. -/
def sedanWeights : Members :=
  [("key", .string "Sedan"), ("doc_count", .number (.integer 2)),
    ("SumWeight", .object [("value", .number (.integer 3000))]),
    ("isNew", .object [("doc_count", .number (.integer 1)),
      ("SumWeight", .object [("value", .number (.integer 1400))]),
      ("MaxWeight", .object [("value", .number (.integer 1400))])])]

/-- What the engine returns for the weights by the type of car. -/
def weightsByType : Members :=
  [("carType", .object [("buckets", .array [.object sedanWeights])])]

/-- The nodes of the weights. -/
def weightNodes : List Node :=
  [.leaf "SumWeight" (.metric .sum "weight"),
    .mk "isNew" (.filter (.term "isNew" (.bool true)))
      [.leaf "SumWeight" (.metric .sum "weight"), .leaf "MaxWeight" (.metric .max "weight")]]

/-- The node of the types of cars. -/
def carTypeNode : Node :=
  .mk "carType" (.terms "carType" 10000) weightNodes

theorem sedanWeights_levelAnswer : LevelAnswer weightNodes sedanWeights := by
  refine ⟨⟨by decide, ?_, by decide⟩, ?_⟩
  · exact List.forall_mem_cons.mpr ⟨⟨_, rfl⟩, List.forall_mem_singleton.mpr ⟨_, rfl⟩⟩
  · refine List.forall_mem_cons.mpr ⟨nofun, List.forall_mem_singleton.mpr ?_⟩
    intro query _
    refine ⟨_, rfl, by decide, ?_, by decide⟩
    exact List.forall_mem_cons.mpr ⟨⟨_, rfl⟩, List.forall_mem_singleton.mpr ⟨_, rfl⟩⟩

private theorem weightsByType_levelAnswer : LevelAnswer [carTypeNode] weightsByType :=
  ⟨⟨by decide, List.forall_mem_singleton.mpr ⟨_, rfl⟩, by decide⟩,
    List.forall_mem_singleton.mpr nofun⟩

private theorem carTypeNode_areFreeBelow : Node.AreFreeBelow [carTypeNode] := by
  simp only [carTypeNode, weightNodes, Node.leaf, Node.children, Node.areFreeBelow_cons,
    Node.areFreeBelow_nil]
  decide

/-- The weights of the first type of car are reached, below the filter of new cars as well. -/
theorem weightByType_reached :
    (weightByType.build .standard).outcome = .ok ⟨[carTypeNode]⟩ ∧
      Node.AreFreeBelow [carTypeNode] ∧
      Returned weightByType.entries [carTypeNode] weightsByType
        [(.field (.property "CarType"), 0)] weights weightNodes sedanWeights ∧
      ∃ tree, Tree.Enters ⟨weightsByType⟩ [(.field (.property "CarType"), 0)] tree ∧
        tree.Reaches weights sedanWeights := by
  have succeeds : (weightByType.build .standard).outcome = .ok ⟨[carTypeNode]⟩ := rfl
  have free : Node.AreFreeBelow [carTypeNode] := carTypeNode_areFreeBelow
  have returned : Returned weightByType.entries [carTypeNode] weightsByType
      [(.field (.property "CarType"), 0)] weights weightNodes sedanWeights :=
    .bucket weightsByType_levelAnswer List.mem_cons_self rfl List.mem_cons_self rfl rfl rfl
      (List.forall_mem_singleton.mpr ⟨sedanWeights, _, rfl, rfl⟩) rfl
      (.here sedanWeights_levelAnswer)
  exact ⟨succeeds, free, returned,
    (subTrees_keep_results succeeds).2.2.2 free _ _ _ _ _ returned⟩

/-! ### A group that is lost -/

/-- The weight by a property that has the name of the engine's metadata, by the type of car. -/
def weightByMeta : Spec :=
  ((Spec.mk [.metric (.measure .sum (.property "Weight") none)]).groupBy
    (.field (.property "Meta"))).groupBy (.field (.property "CarType"))

/-- What the engine returns for one type of car, with a group for one value of the property. -/
def sedanByMeta : Members :=
  [("key", .string "Sedan"), ("doc_count", .number (.integer 1)),
    ("meta", .object [("buckets", .array [.object [("key", .string "a"),
      ("doc_count", .number (.integer 1)),
      ("SumWeight", .object [("value", .number (.integer 1400))])]])])]

/-- The sub-tree of a bucket has lost a group that is named like the engine's metadata, and no
reader comes to it. -/
theorem group_named_meta_is_lost :
    ∃ built node bucket, (weightByMeta.build .standard).outcome = .ok built ∧
      Node.Within built.nodes node ∧ node.children.map Node.name = ["meta"] ∧
      IsAnswer node.children sedanByMeta ∧
      Bucket.ofJson "carType" (.object sedanByMeta) = .ok bucket ∧
      bucket.tree.members = [] ∧ resultsOf node.children sedanByMeta ≠ [] ∧
      (bucket.tree.readBuckets (.field (.property "Meta"))).outcome =
        .error (.noAggregations "meta") := by
  refine ⟨_, _, _, rfl, .here List.mem_cons_self, rfl, ?_, rfl, rfl, ?_, rfl⟩
  · exact ⟨by decide, List.forall_mem_singleton.mpr ⟨_, rfl⟩, by decide⟩
  · exact List.cons_ne_nil _ _

end Spec

end Facet
