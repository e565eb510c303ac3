import Elspeth.Regions.Validation

/-!
# Single entry, single exit

What the checks on each region mean for the paths of an accepted graph.  A success path that
starts behind an opener comes to the closer before any sink, and a success path from a source
comes to a member of the region through the opener.

The checks look at sets of reachable nodes and at single edges; the induction over a path turns
them into facts about all paths.  The one edge that may enter a region beside the fork's
branches is the builder's fallthrough edge, which is drawn next to a branch edge.
-/

namespace Elspeth.Regions

open Semantics ExecutionGraph Finset

variable {graph : ExecutionGraph} {region : BoundRegion}

/-! ## The checks -/

/-- An edge by which a group's rows leave the opener, or the fallthrough edge beside one. -/
def Enters (graph : ExecutionGraph) (binding : GroupBinding) (edge : EdgeInfo) : Prop :=
  edge.fromNode = binding.openerNodeId ∧
    (binding.kind = .fork → edge.label ∈ binding.memberRoster ∨
      edge.label = "continue" ∧ edge.toNode ∈ legitimateTargets graph binding)

/-- What the validation of one region checks. -/
structure Sese (graph : ExecutionGraph) (region : BoundRegion) : Prop where
  sinkless : ∀ node ∈ forwardOnly graph region.binding, graph.nodeType node ≠ .sink
  returns : ∀ node ∈ forwardOnly graph region.binding,
    node ∈ graph.backwardReach region.binding.closerNodeId region.binding.openerNodeId
  routes : ∀ edge ∈ graph.edges, edge.mode ≠ .divert →
    edge.fromNode = region.binding.openerNodeId → edge.toNode ∈ region.inRegion →
      Enters graph region.binding edge
  origins : ∀ edge ∈ graph.edges, edge.mode ≠ .divert →
    edge.toNode ∈ region.memberNodeIds ∪ {region.binding.closerNodeId} →
      edge.fromNode ∈ region.inRegion

variable {node target source : NodeID} {edge : EdgeInfo} {binding : GroupBinding}
  {regions : List BoundRegion} {registry : GroupBindingRegistry} {maxDepth : Nat}
  {edges : List EdgeInfo}

theorem mem_getOutgoingEdges :
    edge ∈ graph.getOutgoingEdges node ↔ edge ∈ graph.edges ∧ edge.fromNode = node := by
  simp [getOutgoingEdges]

theorem mem_getIncomingEdges :
    edge ∈ graph.getIncomingEdges node ↔ edge ∈ graph.edges ∧ edge.toNode = node := by
  simp [getIncomingEdges]

theorem checkSinks_eq_ok :
    checkSinks graph binding = .ok () ↔
      ∀ node ∈ forwardOnly graph binding, graph.nodeType node ≠ .sink := by
  simp only [checkSinks, forM_eq_ok, mem_sort, refuse_eq_ok, ne_eq]

theorem checkReturns_eq_ok :
    checkReturns graph binding = .ok () ↔ ∀ node ∈ forwardOnly graph binding,
      node ∈ graph.backwardReach binding.closerNodeId binding.openerNodeId := by
  simp only [checkReturns, forM_eq_ok, mem_sort, refuse_eq_ok, not_not]

theorem checkRoutes_eq_ok :
    checkRoutes graph region = .ok () ↔ ∀ edge ∈ graph.edges, edge.mode ≠ .divert →
      edge.fromNode = region.binding.openerNodeId → edge.toNode ∈ region.inRegion →
        Enters graph region.binding edge := by
  unfold checkRoutes
  split
  · rename_i fork
    simp only [forM_eq_ok, List.mem_mergeSort, mem_getOutgoingEdges, refuse_eq_ok, Enters]
    constructor
    · intro checked edge mem live here inside
      refine ⟨here, fun _ => ?_⟩
      by_contra neither
      exact checked edge ⟨mem, here⟩
        ⟨live, fun named => neither (.inl named), fun beside => neither (.inr beside), inside⟩
    · rintro entered edge ⟨mem, here⟩ ⟨live, unnamed, notBeside, inside⟩
      rcases (entered edge mem live here inside).2 fork with named | beside
      · exact unnamed named
      · exact notBeside beside
  · rename_i expand
    exact ⟨fun _ edge _ _ here _ => ⟨here, fun fork => absurd fork expand⟩, fun _ => rfl⟩

theorem checkOrigins_eq_ok :
    checkOrigins graph region = .ok () ↔ ∀ edge ∈ graph.edges, edge.mode ≠ .divert →
      edge.toNode ∈ region.memberNodeIds ∪ {region.binding.closerNodeId} →
        edge.fromNode ∈ region.inRegion := by
  simp only [checkOrigins, forM_eq_ok, mem_sort, mem_getIncomingEdges, refuse_eq_ok]
  constructor
  · intro checked edge mem live entered
    by_contra outside
    exact checked edge.toNode entered edge ⟨mem, rfl⟩ ⟨live, outside⟩
  · rintro origins member entered edge ⟨mem, rfl⟩ ⟨live, outside⟩
    exact outside (origins edge mem live entered)

theorem validateSeseRegion_eq_ok :
    validateSeseRegion graph region = .ok () ↔ Sese graph region := by
  unfold validateSeseRegion
  rw [then_eq_ok, then_eq_ok, then_eq_ok, checkSinks_eq_ok, checkReturns_eq_ok, checkRoutes_eq_ok,
    checkOrigins_eq_ok]
  exact ⟨fun ⟨sinkless, returns, routes, origins⟩ => ⟨sinkless, returns, routes, origins⟩,
    fun sese => ⟨sese.sinkless, sese.returns, sese.routes, sese.origins⟩⟩

theorem validateSeseRegions_eq_ok :
    validateSeseRegions graph regions = .ok () ↔ ∀ region ∈ regions, Sese graph region := by
  simp only [validateSeseRegions, forM_eq_ok, validateSeseRegion_eq_ok]

/-! ## Regions as computed -/

theorem computeBoundRegions_eq_ok :
    computeBoundRegions graph registry maxDepth = .ok regions ↔
      firstOverlap (spansOf graph registry) = none ∧
        (∀ region ∈ regionsOf graph registry, region.depth ≤ maxDepth) ∧
          regionsOf graph registry = regions := by
  unfold computeBoundRegions
  split
  · rename_i overlap
    exact ⟨by rintro ⟨⟩, fun both => by rw [overlap] at both; cases both.1⟩
  · rename_i nested
    have shallow : ((regionsOf graph registry).filter fun region =>
        maxDepth < region.depth).argmax BoundRegion.depth = none ↔
          ∀ region ∈ regionsOf graph registry, region.depth ≤ maxDepth := by
      simp
    simp only
    split
    · rename_i worst deepest
      refine ⟨by rintro ⟨⟩, fun both => ?_⟩
      rw [shallow.mpr both.2.1] at deepest
      cases deepest
    · rename_i within
      exact ⟨by rintro ⟨⟩; exact ⟨nested, shallow.mp within, rfl⟩, fun both => by rw [both.2.2]⟩

theorem members_of_computed (computed : computeBoundRegions graph registry maxDepth = .ok regions)
    (mem : region ∈ regions) :
    region.binding ∈ registry.bindings ∧ region.memberNodeIds = membersOf graph region.binding := by
  rw [← (computeBoundRegions_eq_ok.mp computed).2.2] at mem
  obtain ⟨span, listed, rfl⟩ := List.mem_map.mp mem
  obtain ⟨binding, inside, rfl⟩ := List.mem_map.mp listed
  exact ⟨inside, rfl⟩

theorem mem_membersOf :
    node ∈ membersOf graph binding ↔
      node ∈ graph.forwardReach binding.openerNodeId binding.closerNodeId ∧
        node ∈ graph.backwardReach binding.closerNodeId binding.openerNodeId ∧
          node ≠ binding.openerNodeId ∧ node ≠ binding.closerNodeId := by
  simp [membersOf, and_assoc]

theorem mem_inRegion :
    node ∈ region.inRegion ↔ node ∈ region.memberNodeIds ∨
      node = region.binding.openerNodeId ∨ node = region.binding.closerNodeId := by
  simp only [BoundRegion.inRegion, spanOf, mem_union, mem_insert,
    mem_singleton]

/-! ## Paths out -/

/-- Where the rows of a group start: behind a branch edge of a fork, or at an expanding
transform. -/
def BranchEntry (graph : ExecutionGraph) (binding : GroupBinding) (node : NodeID) : Prop :=
  if binding.kind = .fork then node ∈ legitimateTargets graph binding
  else node = binding.openerNodeId

theorem mem_legitimateTargets :
    node ∈ legitimateTargets graph binding ↔
      ∃ edge ∈ graph.edges, edge.fromNode = binding.openerNodeId ∧ edge.mode ≠ .divert ∧
        edge.label ∈ binding.memberRoster ∧ edge.toNode = node := by
  simp [legitimateTargets, mem_getOutgoingEdges, and_assoc]

theorem mem_forkBranchStarts {closerReachable : Finset NodeID}
    (entry : BranchEntry graph binding node) :
    node ∈ forkBranchStarts graph binding closerReachable := by
  unfold BranchEntry at entry
  unfold forkBranchStarts
  split at entry
  · rename_i fork
    obtain ⟨edge, mem, here, live, named, rfl⟩ := mem_legitimateTargets.mp entry
    rw [if_neg (by simp [fork])]
    refine List.mem_map.mpr ⟨edge, List.mem_filter.mpr ⟨mem_getOutgoingEdges.mpr ⟨mem, here⟩, ?_⟩,
      rfl⟩
    exact decide_eq_true ⟨live, .inl named⟩
  · rename_i expand
    rw [if_pos expand, entry]
    exact List.mem_singleton_self _

/-- A path from a branch either has come to the closer or has not left the walk. -/
theorem closer_or_forwardOnly {entry : NodeID} (start : BranchEntry graph region.binding entry)
    (path : graph.Path entry edges target) :
    region.binding.closerNodeId ∈ visited entry edges ∨
      target ∈ forwardOnly graph region.binding := by
  have walked : ∀ {node : NodeID}, node ∈ graph.forwardReachFrom
      (forkBranchStarts graph region.binding (graph.backwardReach region.binding.closerNodeId
        region.binding.openerNodeId)) region.binding.closerNodeId →
      node ≠ region.binding.closerNodeId → node ∈ forwardOnly graph region.binding :=
    fun reached other => mem_erase.mpr ⟨other, reached⟩
  induction path with
  | nil =>
    by_cases closed : entry = region.binding.closerNodeId
    · exact .inl (closed ▸ List.mem_cons_self)
    · exact .inr (walked (mem_forwardReachFrom.mpr (.root (mem_forkBranchStarts start))) closed)
  | @snoc middle edges path edge mem live here ih =>
    rcases ih with passed | inside
    · refine .inl ?_
      simp only [visited, List.map_append, ← List.cons_append]
      exact List.mem_append_left _ passed
    · obtain ⟨other, reached⟩ := mem_erase.mp inside
      by_cases closed : edge.toNode = region.binding.closerNodeId
      · refine .inl ?_
        simp [visited, closed]
      · exact .inr (walked (forwardReachFrom_step reached other mem live here) closed)

/-! ## Paths in -/

/-- The edge into a member, or into the closer, comes from the opener or from a member. -/
theorem origin_of_entered (acyclic : graph.Acyclic) (sese : Sese graph region)
    (members : region.memberNodeIds = membersOf graph region.binding) (mem : edge ∈ graph.edges)
    (live : edge.mode ≠ .divert)
    (entered : edge.toNode ∈ region.memberNodeIds ∪ {region.binding.closerNodeId}) :
    Enters graph region.binding edge ∨ edge.fromNode ∈ region.memberNodeIds := by
  have within : edge.toNode ∈ region.inRegion := by
    rcases mem_union.mp entered with member | closer
    · exact mem_inRegion.mpr (.inl member)
    · exact mem_inRegion.mpr (.inr (.inr (mem_singleton.mp closer)))
  rcases mem_inRegion.mp (sese.origins edge mem live entered) with member | opener | closer
  · exact .inr member
  · exact .inl (sese.routes edge mem live opener within)
  -- An edge out of the closer would close a cycle.
  · refine absurd ?_ (acyclic region.binding.closerNodeId)
    have out : graph.Adjacent region.binding.closerNodeId edge.toNode := ⟨edge, mem, closer, rfl⟩
    rcases mem_union.mp entered with member | same
    · rw [members] at member
      exact .head out (transGen_of_mem_backwardReach (mem_membersOf.mp member).2.1)
    · rw [mem_singleton.mp same] at out
      exact .single out

theorem source_not_mem (members : region.memberNodeIds = membersOf graph region.binding)
    (isSource : graph.nodeType source = .source) : source ∉ region.memberNodeIds := by
  intro inside
  rw [members] at inside
  obtain ⟨edge, mem, rfl⟩ := exists_edge_of_mem_forwardReach (mem_membersOf.mp inside).1
  exact graph.into_source edge mem isSource

theorem enters_of_path (acyclic : graph.Acyclic) (sese : Sese graph region)
    (members : region.memberNodeIds = membersOf graph region.binding)
    (isSource : graph.nodeType source = .source) (path : graph.Path source edges target)
    (inside : target ∈ region.memberNodeIds) :
    ∃ edge ∈ edges, Enters graph region.binding edge := by
  induction path with
  | nil => exact absurd inside (source_not_mem members isSource)
  | @snoc middle edges path edge mem live here ih =>
    rcases origin_of_entered acyclic sese members mem live (mem_union_left _ inside) with
      enters | member
    · exact ⟨edge, List.mem_append_right _ (List.mem_singleton_self _), enters⟩
    · obtain ⟨found, listed, enters⟩ := ih (here ▸ member)
      exact ⟨found, List.mem_append_left _ listed, enters⟩

/-! ## Both -/

/-- The paths of an accepted region. -/
structure SingleEntryExit (graph : ExecutionGraph) (region : BoundRegion) : Prop where
  leave : ∀ entry edges sink, BranchEntry graph region.binding entry →
    graph.Path entry edges sink → graph.nodeType sink = .sink →
      region.binding.closerNodeId ∈ visited entry edges
  enter : ∀ source edges target, graph.nodeType source = .source →
    graph.Path source edges target →
    target ∈ region.memberNodeIds ∨ target = region.binding.closerNodeId ∧
      (∃ node ∈ visited source edges, node ∈ region.memberNodeIds) →
      ∃ edge ∈ edges, Enters graph region.binding edge

/-- Every region of an accepted graph is left through its closer and entered through its
opener. -/
theorem regions_single_entry_exit (graph : ExecutionGraph) (acyclic : graph.Acyclic)
    (registry : GroupBindingRegistry) (maxDepth : Nat) (regions : List BoundRegion)
    (computed : computeBoundRegions graph registry maxDepth = .ok regions)
    (valid : validateSeseRegions graph regions = .ok ()) :
    ∀ region ∈ regions, SingleEntryExit graph region := by
  intro region mem
  have sese := validateSeseRegions_eq_ok.mp valid region mem
  have members := (members_of_computed computed mem).2
  refine ⟨?_, ?_⟩
  · intro entry edges sink start path isSink
    rcases closer_or_forwardOnly start path with passed | inside
    · exact passed
    · exact absurd isSink (sese.sinkless sink inside)
  · intro source edges target isSource path inside
    rcases inside with member | ⟨closer, node, onPath, member⟩
    · exact enters_of_path acyclic sese members isSource path member
    · cases path with
      | nil =>
        rw [List.mem_singleton.mp onPath] at member
        exact absurd member (source_not_mem members isSource)
      | @snoc middle edges path edge mem live here =>
        have entered : edge.toNode ∈ region.memberNodeIds ∪ {region.binding.closerNodeId} :=
          mem_union_right _ (mem_singleton.mpr closer)
        rcases origin_of_entered acyclic sese members mem live entered with enters | before
        · exact ⟨edge, List.mem_append_right _ (List.mem_singleton_self _), enters⟩
        · obtain ⟨found, listed, enters⟩ :=
            enters_of_path acyclic sese members isSource path (here ▸ before)
          exact ⟨found, List.mem_append_left _ listed, enters⟩

/-! ## A pipeline with a fork and a scope -/

theorem acyclic_of_rank (rank : NodeID → Nat)
    (rises : ∀ edge ∈ graph.edges, rank edge.fromNode < rank edge.toNode) : graph.Acyclic := by
  have climbs : ∀ {node next}, Relation.TransGen graph.Adjacent node next →
      rank node < rank next := by
    intro node next later
    induction later with
    | single step =>
      obtain ⟨edge, mem, rfl, rfl⟩ := step
      exact rises edge mem
    | tail _ step ih =>
      obtain ⟨edge, mem, rfl, rfl⟩ := step
      exact ih.trans (rises edge mem)
  exact fun node cycle => absurd (climbs cycle) (Nat.lt_irrefl _)

/-- A fork of two branches that a coalesce joins, then a transform that expands each row into a
scope that a collector closes.  The builder has drawn its fallthrough edge beside the first
branch. -/
def forkAndScope : ExecutionGraph where
  nodeType node :=
    if node = "source" then .source else if node = "sink" then .sink
    else if node = "fork" then .gate else if node = "join" then .coalesce
    else if node = "collect" then .collector else .transform
  edges := [⟨"source", "fork", "continue", .move⟩, ⟨"fork", "left", "a", .copy⟩,
    ⟨"fork", "right", "b", .copy⟩, ⟨"fork", "left", "continue", .move⟩,
    ⟨"left", "join", "a", .move⟩, ⟨"right", "join", "b", .move⟩,
    ⟨"join", "expand", "continue", .move⟩, ⟨"expand", "each", "continue", .move⟩,
    ⟨"each", "collect", "continue", .move⟩, ⟨"collect", "sink", "on_success", .move⟩]
  into_source := by decide

def forkBinding : GroupBinding :=
  ⟨.fork, "fork", "fork", "join", "join", .coalesce, "require_all", ["a", "b"]⟩

def scopeBinding : GroupBinding :=
  ⟨.expand, "expand", "expand", "collect", "collect", .collector, "require_all", []⟩

def forkAndScopeRegistry : GroupBindingRegistry :=
  ⟨[forkBinding, scopeBinding], by decide, by decide, by decide⟩

def forkAndScopeRank (node : NodeID) : Nat :=
  if node = "source" then 0 else if node = "fork" then 1
  else if node = "left" then 2 else if node = "right" then 2 else if node = "join" then 3
  else if node = "expand" then 4 else if node = "each" then 5
  else if node = "collect" then 6 else 7

def forkAndScopeRegions : List BoundRegion := regionsOf forkAndScope forkAndScopeRegistry

theorem forkAndScope_acyclic : forkAndScope.Acyclic :=
  acyclic_of_rank forkAndScopeRank (by decide)

theorem forkAndScope_computed :
    computeBoundRegions forkAndScope forkAndScopeRegistry 5 = .ok forkAndScopeRegions := by
  rw [computeBoundRegions_eq_ok]
  refine ⟨?_, ?_, rfl⟩
  · decide +kernel
  · decide +kernel

theorem forkAndScope_valid : validateSeseRegions forkAndScope forkAndScopeRegions = .ok () := by
  rw [validateSeseRegions_eq_ok]
  have checked : ∀ region ∈ forkAndScopeRegions,
      (∀ node ∈ forwardOnly forkAndScope region.binding, forkAndScope.nodeType node ≠ .sink) ∧
      (∀ node ∈ forwardOnly forkAndScope region.binding, node ∈
        forkAndScope.backwardReach region.binding.closerNodeId region.binding.openerNodeId) ∧
      (∀ edge ∈ forkAndScope.edges, edge.mode ≠ .divert →
        edge.fromNode = region.binding.openerNodeId → edge.toNode ∈ region.inRegion →
          edge.fromNode = region.binding.openerNodeId ∧
            (region.binding.kind = .fork → edge.label ∈ region.binding.memberRoster ∨
              edge.label = "continue" ∧
                edge.toNode ∈ legitimateTargets forkAndScope region.binding)) ∧
      ∀ edge ∈ forkAndScope.edges, edge.mode ≠ .divert →
        edge.toNode ∈ region.memberNodeIds ∪ {region.binding.closerNodeId} →
          edge.fromNode ∈ region.inRegion := by
    decide +kernel
  intro region mem
  obtain ⟨sinkless, returns, routes, origins⟩ := checked region mem
  exact ⟨sinkless, returns, routes, origins⟩

theorem forkAndScope_paths : forkAndScopeRegions.length = 2 ∧
    ∀ region ∈ forkAndScopeRegions, SingleEntryExit forkAndScope region :=
  ⟨rfl, regions_single_entry_exit forkAndScope forkAndScope_acyclic forkAndScopeRegistry 5
    forkAndScopeRegions forkAndScope_computed forkAndScope_valid⟩

/-- The success path to the fork's first branch by the fallthrough edge. -/
theorem forkAndScope_fallthrough :
    forkAndScope.Path "source"
      [⟨"source", "fork", "continue", .move⟩, ⟨"fork", "left", "continue", .move⟩] "left" :=
  .snoc (.snoc .nil ⟨"source", "fork", "continue", .move⟩ (by decide) (by decide) rfl)
    ⟨"fork", "left", "continue", .move⟩ (by decide) (by decide) rfl

/-- The success path through the fork and the join into the scope. -/
theorem forkAndScope_expanded :
    forkAndScope.Path "source"
      [⟨"source", "fork", "continue", .move⟩, ⟨"fork", "left", "continue", .move⟩,
        ⟨"left", "join", "a", .move⟩, ⟨"join", "expand", "continue", .move⟩,
        ⟨"expand", "each", "continue", .move⟩] "each" :=
  .snoc (.snoc (.snoc forkAndScope_fallthrough ⟨"left", "join", "a", .move⟩ (by decide)
    (by decide) rfl) ⟨"join", "expand", "continue", .move⟩ (by decide) (by decide) rfl)
      ⟨"expand", "each", "continue", .move⟩ (by decide) (by decide) rfl

/-- Both regions of the accepted pipeline have a path in that takes no roster edge: the fork's by
the fallthrough edge, the scope's because a scope has no roster. -/
theorem forkAndScope_enters_off_roster :
    computeBoundRegions forkAndScope forkAndScopeRegistry 5 = .ok forkAndScopeRegions ∧
      validateSeseRegions forkAndScope forkAndScopeRegions = .ok () ∧ forkAndScope.Acyclic ∧
      ∀ region ∈ forkAndScopeRegions, ∃ edges target, forkAndScope.Path "source" edges target ∧
        target ∈ region.memberNodeIds ∧ ∀ edge ∈ edges,
          edge.fromNode = region.binding.openerNodeId →
              edge.label ∉ region.binding.memberRoster := by
  refine ⟨forkAndScope_computed, forkAndScope_valid, forkAndScope_acyclic, ?_⟩
  rintro region (_ | ⟨_, _ | ⟨_, ⟨⟩⟩⟩)
  · exact ⟨_, _, forkAndScope_fallthrough, by decide +kernel, by decide +kernel⟩
  · exact ⟨_, _, forkAndScope_expanded, by decide +kernel, by decide +kernel⟩

end Elspeth.Regions
