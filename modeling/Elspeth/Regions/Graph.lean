import Mathlib.Data.Finset.Sort
import Elspeth.Collections.Dict
import Elspeth.Graph.Worklist
import Elspeth.Landscape.Schema

/-!
# Execution graphs

The graph a pipeline is built into: nodes of one type each, and labelled edges with a routing
mode, several of which may join the same two nodes.  An edge in mode `divert` is taken when a
row fails; the walks over a graph follow the other edges, the success paths.
-/

namespace Elspeth.Regions

open List

abbrev NodeID : Type := String

inductive RoutingMode where
  | move
  | copy
  | divert
  deriving DecidableEq, Repr

structure EdgeInfo where
  fromNode : NodeID
  toNode : NodeID
  label : String
  mode : RoutingMode
  deriving DecidableEq, Repr

/-- No edge the builder draws enters a source. -/
structure ExecutionGraph where
  nodeType : NodeID → NodeType
  edges : List EdgeInfo
  into_source : ∀ edge ∈ edges, nodeType edge.toNode ≠ .source

namespace ExecutionGraph

variable (graph : ExecutionGraph)

def getOutgoingEdges (node : NodeID) : List EdgeInfo :=
  graph.edges.filter fun edge => edge.fromNode = node

def getIncomingEdges (node : NodeID) : List EdgeInfo :=
  graph.edges.filter fun edge => edge.toNode = node

/-! ## Walks -/

/-- The nodes one success edge after a node. -/
def targets (node : NodeID) : List NodeID :=
  ((graph.getOutgoingEdges node).filter fun edge => edge.mode ≠ .divert).map EdgeInfo.toNode

/-- The nodes one success edge before a node. -/
def origins (node : NodeID) : List NodeID :=
  ((graph.getIncomingEdges node).filter fun edge => edge.mode ≠ .divert).map EdgeInfo.fromNode

/-- The next nodes of a walk that does not go on from `stop`. -/
def stopAt (next : NodeID → List NodeID) (stop node : NodeID) : List NodeID :=
  if node = stop then [] else next node

/-- The nodes reachable from any of `starts`, not expanding through `stop`. -/
def forwardReachFrom (starts : List NodeID) (stop : NodeID) : Finset NodeID :=
  (Worklist.close (stopAt graph.targets stop) (starts.length + graph.edges.length) starts
    starts).toFinset

/-- The nodes reachable from `start`, not expanding through `stop`.  The walk begins with what
follows `start`, so `start` itself belongs to it only where a cycle leads back. -/
def forwardReach (start stop : NodeID) : Finset NodeID :=
  graph.forwardReachFrom (graph.targets start) stop

/-- The nodes that reach `start`, not expanding through `stop`. -/
def backwardReach (start stop : NodeID) : Finset NodeID :=
  (Worklist.close (stopAt graph.origins stop)
    ((graph.origins start).length + graph.edges.length) (graph.origins start)
    (graph.origins start)).toFinset

variable {graph}

variable {node stop start : NodeID} {starts : List NodeID}

theorem mem_targets {target : NodeID} :
    target ∈ graph.targets node ↔
      ∃ edge ∈ graph.edges, edge.mode ≠ .divert ∧ edge.fromNode = node ∧ edge.toNode = target := by
  constructor
  · intro mem
    obtain ⟨edge, listed, there⟩ := mem_map.mp mem
    obtain ⟨outgoing, live⟩ := mem_filter.mp listed
    obtain ⟨inside, here⟩ := mem_filter.mp outgoing
    exact ⟨edge, inside, of_decide_eq_true live, of_decide_eq_true here, there⟩
  · rintro ⟨edge, inside, live, here, there⟩
    exact mem_map.mpr ⟨edge, mem_filter.mpr ⟨mem_filter.mpr
      ⟨inside, decide_eq_true here⟩, decide_eq_true live⟩, there⟩

theorem mem_origins {origin : NodeID} :
    origin ∈ graph.origins node ↔
      ∃ edge ∈ graph.edges, edge.mode ≠ .divert ∧ edge.fromNode = origin ∧ edge.toNode = node := by
  constructor
  · intro mem
    obtain ⟨edge, listed, here⟩ := mem_map.mp mem
    obtain ⟨incoming, live⟩ := mem_filter.mp listed
    obtain ⟨inside, there⟩ := mem_filter.mp incoming
    exact ⟨edge, inside, of_decide_eq_true live, here, of_decide_eq_true there⟩
  · rintro ⟨edge, inside, live, here, there⟩
    exact mem_map.mpr ⟨edge, mem_filter.mpr ⟨mem_filter.mpr
      ⟨inside, decide_eq_true there⟩, decide_eq_true live⟩, here⟩

theorem mem_stopAt {next : NodeID → List NodeID} {other : NodeID} :
    other ∈ stopAt next stop node ↔ node ≠ stop ∧ other ∈ next node := by
  unfold stopAt
  split
  · rename_i same
    exact ⟨fun mem => absurd mem not_mem_nil, fun both => absurd same both.1⟩
  · rename_i other
    exact ⟨fun mem => ⟨other, mem⟩, And.right⟩

theorem mem_forwardReachFrom :
    node ∈ graph.forwardReachFrom starts stop ↔
      Worklist.Reaches (stopAt graph.targets stop) starts node := by
  have inside : ∀ source, ∀ target ∈ stopAt graph.targets stop source,
      target ∈ graph.edges.map EdgeInfo.toNode := by
    intro source target mem
    obtain ⟨edge, listed, -, -, there⟩ := mem_targets.mp (mem_stopAt.mp mem).2
    exact mem_map.mpr ⟨edge, listed, there⟩
  rw [forwardReachFrom, mem_toFinset]
  exact Worklist.mem_close inside (by rw [length_map])

theorem mem_forwardReach :
    node ∈ graph.forwardReach start stop ↔
      Worklist.Reaches (stopAt graph.targets stop) (graph.targets start) node :=
  mem_forwardReachFrom

theorem mem_backwardReach :
    node ∈ graph.backwardReach start stop ↔
      Worklist.Reaches (stopAt graph.origins stop) (graph.origins start) node := by
  have inside : ∀ source, ∀ target ∈ stopAt graph.origins stop source,
      target ∈ graph.edges.map EdgeInfo.fromNode := by
    intro source target mem
    obtain ⟨edge, listed, -, here, -⟩ := mem_origins.mp (mem_stopAt.mp mem).2
    exact mem_map.mpr ⟨edge, listed, here⟩
  rw [backwardReach, mem_toFinset]
  exact Worklist.mem_close inside (by rw [length_map])

/-- A walk goes on from every node but `stop`. -/
theorem forwardReachFrom_step {edge : EdgeInfo}
    (reached : node ∈ graph.forwardReachFrom starts stop) (before : node ≠ stop)
    (mem : edge ∈ graph.edges) (live : edge.mode ≠ .divert) (here : edge.fromNode = node) :
    edge.toNode ∈ graph.forwardReachFrom starts stop := by
  rw [mem_forwardReachFrom] at reached ⊢
  exact reached.step (mem_stopAt.mpr ⟨before, mem_targets.mpr ⟨edge, mem, live, here, rfl⟩⟩)

/-- A node a walk comes to has a success edge into it. -/
theorem exists_edge_of_mem_forwardReach (reached : node ∈ graph.forwardReach start stop) :
    ∃ edge ∈ graph.edges, edge.toNode = node := by
  have entered : ∀ {source target}, target ∈ graph.targets source →
      ∃ edge ∈ graph.edges, edge.toNode = target := by
    intro source target step
    obtain ⟨edge, mem, -, -, there⟩ := mem_targets.mp step
    exact ⟨edge, mem, there⟩
  exact (mem_forwardReach.mp reached).least (fun _ first => entered first)
    fun _ _ _ step => entered (mem_stopAt.mp step).2

/-! ## Paths -/

variable (graph) in
/-- A success path from one node to another, as the list of its edges. -/
inductive Path (start : NodeID) : List EdgeInfo → NodeID → Prop where
  | nil : Path start [] start
  | snoc {middle : NodeID} {edges : List EdgeInfo} (path : Path start edges middle)
      (edge : EdgeInfo) (mem : edge ∈ graph.edges) (live : edge.mode ≠ .divert)
      (here : edge.fromNode = middle) : Path start (edges ++ [edge]) edge.toNode

/-- The nodes of a path, its start first. -/
def visited (start : NodeID) (edges : List EdgeInfo) : List NodeID :=
  start :: edges.map EdgeInfo.toNode

variable (graph) in
/-- One node has an edge to another. -/
def Adjacent (node next : NodeID) : Prop :=
  ∃ edge ∈ graph.edges, edge.fromNode = node ∧ edge.toNode = next

variable (graph) in
/-- No edges lead from a node back to it. -/
def Acyclic : Prop := ∀ node, ¬ Relation.TransGen graph.Adjacent node node

/-- A node that reaches another comes before it. -/
theorem transGen_of_mem_backwardReach (reached : node ∈ graph.backwardReach start stop) :
    Relation.TransGen graph.Adjacent node start := by
  have adjacent : ∀ {later origin}, origin ∈ graph.origins later →
      graph.Adjacent origin later := by
    intro later origin step
    obtain ⟨edge, mem, -, here, there⟩ := mem_origins.mp step
    exact ⟨edge, mem, here, there⟩
  have first : ∀ item ∈ graph.origins start, Relation.TransGen graph.Adjacent item start :=
    fun _ step => .single (adjacent step)
  exact (mem_backwardReach.mp reached).least first
    fun _ later _ step => .head (adjacent (mem_stopAt.mp step).2) later

end ExecutionGraph

end Elspeth.Regions
