import Mathlib.Data.List.MinMax
import Elspeth.Regions.Bindings
import Elspeth.Semantics.Traced

/-!
# Bound regions

The region of a bound group: the nodes between its opener and its closer, on success paths.
`computeBoundRegions` computes every region and refuses two that overlap without nesting;
`validateSeseRegions` refuses a region with a second way in or out; and
`validateOpenersBoundInRegion` refuses a node inside a region that multiplies rows without a
group of its own.
-/

namespace Elspeth.Regions

open Semantics

/-! ## Errors -/

/-- What the validation of bound regions raises. -/
inductive RegionError where
  | partialOverlap (first second : GroupBinding)
  | tooDeep (binding : GroupBinding) (depth maxDepth : Nat)
  | sinkInside (binding : GroupBinding) (sink : NodeID)
  | noPathToCloser (binding : GroupBinding) (node : NodeID)
  | routeReenters (binding : GroupBinding) (label : String) (target : NodeID)
  | originOutside (binding : GroupBinding) (member origin : NodeID)
  | unboundFork (binding : GroupBinding) (gateName : String)
  | rowUnionInside (binding inner : GroupBinding) (gateName : String)
  | undeclaredMultiRow (binding : GroupBinding) (transformName : String)
  | closesOutside (binding inner : GroupBinding) (transformName : String)
  deriving DecidableEq, Repr

/-! ## Regions -/

/-- One bound group's region.  The opener and the closer are no members. -/
structure BoundRegion where
  binding : GroupBinding
  memberNodeIds : Finset NodeID
  depth : Nat
  deriving DecidableEq

section

variable (graph : ExecutionGraph)

/-- The nodes between a group's opener and its closer. -/
def membersOf (binding : GroupBinding) : Finset NodeID :=
  (graph.forwardReach binding.openerNodeId binding.closerNodeId ∩
    graph.backwardReach binding.closerNodeId binding.openerNodeId) \
      {binding.openerNodeId, binding.closerNodeId}

/-- A region with its opener and its closer. -/
def spanOf (binding : GroupBinding) (members : Finset NodeID) : Finset NodeID :=
  members ∪ {binding.openerNodeId, binding.closerNodeId}

abbrev Span : Type := GroupBinding × Finset NodeID

/-- Two regions apart, or one with its ends among the members of the other. -/
def wellNested (first second : Span) : Bool :=
  Disjoint (spanOf first.1 first.2) (spanOf second.1 second.2) ∨
    spanOf second.1 second.2 ⊆ first.2 ∨ spanOf first.1 first.2 ⊆ second.2

/-- The first two regions, in the order of the bindings, that overlap. -/
def firstOverlap : List Span → Option (Span × Span)
  | [] => none
  | first :: rest =>
    match rest.find? fun second => !wellNested first second with
    | some second => some (first, second)
    | none => firstOverlap rest

/-- One more than the number of regions that a region lies in. -/
def depthIn (spans : List Span) (span : Span) : Nat :=
  1 + (spans.filter fun outer => outer.1 ≠ span.1 ∧ spanOf span.1 span.2 ⊆ outer.2).length

section

variable (registry : GroupBindingRegistry)

/-- The regions of a build, in the order of the bindings. -/
def spansOf : List Span :=
  registry.bindings.map fun binding => (binding, membersOf graph binding)

def regionsOf : List BoundRegion :=
  (spansOf graph registry).map fun span => ⟨span.1, span.2, depthIn (spansOf graph registry) span⟩

def computeBoundRegions
    (maxDepth : Nat) : Except RegionError (List BoundRegion) :=
  match firstOverlap (spansOf graph registry) with
  | some (first, second) => .error (.partialOverlap first.1 second.1)
  | none =>
    let tooDeep := (regionsOf graph registry).filter fun region => maxDepth < region.depth
    match tooDeep.argmax BoundRegion.depth with
    | some worst => .error (.tooDeep worst.binding worst.depth maxDepth)
    | none => .ok (regionsOf graph registry)

end

/-! ## Single entry, single exit -/

section

variable (binding : GroupBinding)

/-- Where the forward walk of a group starts: after the fork's branch edges and after the
edges that lead back into the region, or at an expanding transform itself. -/
def forkBranchStarts
    (closerReachable : Finset NodeID) : List NodeID :=
  if binding.kind ≠ .fork then [binding.openerNodeId]
  else
    ((graph.getOutgoingEdges binding.openerNodeId).filter fun edge =>
      edge.mode ≠ .divert ∧
        (edge.label ∈ binding.memberRoster ∨ edge.toNode ∈ closerReachable)).map EdgeInfo.toNode

/-- The order in which the opener's edges are looked at. -/
def edgeOrder (first second : EdgeInfo) : Bool :=
  first.label < second.label ∨ first.label = second.label ∧ first.toNode ≤ second.toNode

/-- A region's nodes with its opener and its closer. -/
def BoundRegion.inRegion (region : BoundRegion) : Finset NodeID :=
  spanOf region.binding region.memberNodeIds

/-- The targets of a fork's branch edges. -/
def legitimateTargets : List NodeID :=
  ((graph.getOutgoingEdges binding.openerNodeId).filter fun edge =>
    edge.mode ≠ .divert ∧ edge.label ∈ binding.memberRoster).map EdgeInfo.toNode

/-- The nodes a forward walk from the group's branches comes to before the closer. -/
def forwardOnly : Finset NodeID :=
  (graph.forwardReachFrom (forkBranchStarts graph binding
    (graph.backwardReach binding.closerNodeId binding.openerNodeId))
      binding.closerNodeId).erase binding.closerNodeId

def checkSinks : Except RegionError Unit :=
  (forwardOnly graph binding).sort.forM fun member =>
    refuse (graph.nodeType member = .sink) (.sinkInside binding member)

def checkReturns : Except RegionError Unit :=
  (forwardOnly graph binding).sort.forM fun member =>
    refuse (member ∉ graph.backwardReach binding.closerNodeId binding.openerNodeId)
      (.noPathToCloser binding member)

end

/-- A route outside the fork's branches carries no frame of the group and may not enter the
region.  The builder's fallthrough edge, labelled "continue" and never taken, may stand beside
a branch edge. -/
def checkRoutes (region : BoundRegion) : Except RegionError Unit :=
  if region.binding.kind = .fork then
    ((graph.getOutgoingEdges region.binding.openerNodeId).mergeSort edgeOrder).forM fun edge =>
      refuse (edge.mode ≠ .divert ∧ edge.label ∉ region.binding.memberRoster ∧
        ¬ (edge.label = "continue" ∧ edge.toNode ∈ legitimateTargets graph region.binding) ∧
          edge.toNode ∈ region.inRegion)
        (.routeReenters region.binding edge.label edge.toNode)
  else .ok ()

def checkOrigins (region : BoundRegion) : Except RegionError Unit :=
  (region.memberNodeIds ∪ {region.binding.closerNodeId}).sort.forM fun member =>
    (graph.getIncomingEdges member).forM fun edge =>
      refuse (edge.mode ≠ .divert ∧ edge.fromNode ∉ region.inRegion)
        (.originOutside region.binding member edge.fromNode)

def validateSeseRegion (region : BoundRegion) :
    Except RegionError Unit := do
  checkSinks graph region.binding
  checkReturns graph region.binding
  checkRoutes graph region
  checkOrigins graph region

def validateSeseRegions (regions : List BoundRegion) :
    Except RegionError Unit :=
  regions.forM (validateSeseRegion graph)

end

/-! ## Openers inside a region -/

/-- The build's gates with a fork, and its nodes that create rows, by name. -/
structure Census where
  gateName : NodeID → String
  forkGates : Finset NodeID
  multiRow : Finset NodeID
  transformName : NodeID → String

def checkForkGate (registry : GroupBindingRegistry) (census : Census) (region : BoundRegion)
    (gate : NodeID) : Except RegionError Unit :=
  if gate ∈ region.memberNodeIds then
    match registry.byOpenerNode gate with
    | none => .error (.unboundFork region.binding (census.gateName gate))
    | some inner =>
      refuse (inner.closerKind = .rowUnion)
        (.rowUnionInside region.binding inner (census.gateName gate))
  else .ok ()

def checkMultiRow (registry : GroupBindingRegistry) (census : Census) (region : BoundRegion)
    (node : NodeID) : Except RegionError Unit :=
  if node ∈ region.memberNodeIds then
    match registry.byOpenerNode node with
    | none => .error (.undeclaredMultiRow region.binding (census.transformName node))
    | some inner =>
      refuse (inner.closerNodeId ∉ region.memberNodeIds)
        (.closesOutside region.binding inner (census.transformName node))
  else .ok ()

def validateOpenersBoundInRegion (regions : List BoundRegion) (registry : GroupBindingRegistry)
    (census : Census) : Except RegionError Unit :=
  regions.forM fun region => do
    census.forkGates.sort.forM (checkForkGate registry census region)
    census.multiRow.sort.forM (checkMultiRow registry census region)

end Elspeth.Regions
