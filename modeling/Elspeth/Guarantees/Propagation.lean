import Mathlib.Data.List.ReduceOption
import Mathlib.Logic.Relation
import Elspeth.Graph.Memo
import Elspeth.Guarantees.CoalesceSchema
import Elspeth.Regions.Graph

/-!
# Propagating guarantees through a graph

Before a run, the builder asks for every node which fields its rows carry.  A node answers with
its own declarations, with those of its predecessors as well if it forwards its input, or with
what all of its predecessors agree on if it only collects their rows.  The answer is a vote: the
fields that are there, whether anyone vouched for them, and whether the list is complete.
-/

namespace Elspeth.Guarantees

open Collections (Dict)
open Contracts Coalesce Regions ExecutionGraph List

/-! ## Graphs with contracts -/

/-- What a node declares about the rows it emits. -/
structure NodeInfo where
  outputSchemaConfig : Option SchemaConfig := none
  passesThroughInput : Bool := false
  forwardsInputFields : Bool := false
  removedInputFields : Finset String := ∅

/-- A coalesce and the producers of its branches. -/
structure CoalescePlan where
  settings : CoalesceSettings
  policy : CollisionPolicy
  producers : Dict String NodeID
  covers : ∀ branch, branch ∈ producers.keys ↔ branch ∈ settings.branches

/-- Only plugins that transform rows forward their input, and only what forwards can remove. -/
structure ContractGraph extends ExecutionGraph where
  info : NodeID → NodeInfo
  plans : NodeID → Option CoalescePlan
  forwarders : ∀ node, (info node).passesThroughInput ∨ (info node).forwardsInputFields →
    nodeType node = .transform ∨ nodeType node = .aggregation ∨ nodeType node = .collector
  removers : ∀ node, (info node).removedInputFields ≠ ∅ → (info node).forwardsInputFields

/-! ## Votes -/

structure EffectiveGuaranteeVote where
  fields : Finset String
  participated : Bool
  closed : Bool
  deriving DecidableEq

inductive GuaranteeError where
  | unwired (node : NodeID)
  | recursionLimit
  deriving DecidableEq, Repr

/-- Intersect the predecessors that vouch for anything, and add the node's own fields. -/
def composePropagation (selfFields : Finset String)
    (predecessorGuarantees : List (Option (Finset String))) : Finset String :=
  match predecessorGuarantees.reduceOption with
  | [] => selfFields
  | first :: rest => selfFields ∪ rest.foldl (· ∩ ·) first

namespace ContractGraph

variable (graph : ContractGraph) (node : NodeID)

def predecessors : List NodeID := ((graph.getIncomingEdges node).map EdgeInfo.fromNode).dedup

def ownParticipates : Bool :=
  ((graph.info node).outputSchemaConfig.map SchemaConfig.participatesInPropagation).getD false

def ownFields : Finset String :=
  ((graph.info node).outputSchemaConfig.map SchemaConfig.getEffectiveGuaranteedFields).getD ∅

def ownClosed : Bool :=
  ((graph.info node).outputSchemaConfig.map fun schema => !schema.allowsExtraFields).getD false

def ownTyped : Bool :=
  ((graph.info node).outputSchemaConfig.map SchemaConfig.isTyped).getD false

def ownVote : EffectiveGuaranteeVote :=
  ⟨graph.ownFields node, graph.ownParticipates node, graph.ownClosed node⟩

/-- A queue or a row union: each row comes unchanged from one predecessor. -/
def fansIn : Bool := graph.nodeType node = .queue || graph.nodeType node = .rowUnion

def transparentGate : Bool := graph.nodeType node = .gate

/-- Whether the fields of an input row stay on the row.  A closed schema stops forwarding. -/
def forwards : Bool :=
  (graph.info node).passesThroughInput ||
    ((graph.info node).forwardsInputFields && !graph.ownClosed node) || graph.transparentGate node

/-- The fields that are not forwarded. -/
def removals : Finset String :=
  if (graph.info node).passesThroughInput then ∅ else (graph.info node).removedInputFields

/-- Whether an error edge ends here. -/
def diverted : Bool := (graph.getIncomingEdges node).any fun edge => edge.mode = .divert

/-- The predecessors whose votes a node asks for. -/
def voters : List NodeID :=
  match graph.nodeType node with
  | .queue => graph.predecessors node
  | .rowUnion => if graph.diverted node then [] else graph.predecessors node
  | _ => if graph.forwards node then graph.predecessors node else []

/-- The vote of a node that collects: a field counts if every arm vouches for it, and one arm
that abstains silences all. -/
def fanInVote (votes : List EffectiveGuaranteeVote) : EffectiveGuaranteeVote :=
  match votes with
  | [] => ⟨∅, false, false⟩
  | first :: rest =>
    if votes.all EffectiveGuaranteeVote.participated then
      ⟨(rest.map EffectiveGuaranteeVote.fields).foldl (· ∩ ·) first.fields, true,
        votes.all EffectiveGuaranteeVote.closed⟩
    else ⟨∅, false, false⟩

/-- The vote of a node that forwards. -/
def composedVote (votes : List EffectiveGuaranteeVote) : EffectiveGuaranteeVote where
  fields := composePropagation (graph.ownFields node) (votes.map fun vote =>
    if vote.participated then some (vote.fields \ graph.removals node) else none)
  participated := graph.ownParticipates node || votes.any EffectiveGuaranteeVote.participated
  closed := graph.ownClosed node

/-- The vote of a node, from the votes of the predecessors it asked. -/
def castVote (votes : List EffectiveGuaranteeVote) :
    Except GuaranteeError EffectiveGuaranteeVote :=
  match graph.nodeType node with
  | .queue =>
    .ok (if graph.predecessors node = [] then graph.ownVote node else fanInVote votes)
  | .rowUnion =>
    .ok (if graph.getIncomingEdges node = [] then graph.ownVote node
      -- An error envelope is not the row of its producer.
      else if graph.diverted node then ⟨∅, false, false⟩
      else fanInVote votes)
  | _ =>
    if graph.forwards node then
      if graph.predecessors node = [] then
        if graph.transparentGate node then .ok (graph.ownVote node) else .error (.unwired node)
      else .ok (graph.composedVote node votes)
    else .ok (graph.ownVote node)

/-- The vote of a node and the cache after it.  `depth` bounds the call stack. -/
def walkEffectiveGuaranteeVote (depth : Nat) (cache : Dict NodeID EffectiveGuaranteeVote) :
    Except GuaranteeError (EffectiveGuaranteeVote × Dict NodeID EffectiveGuaranteeVote) :=
  Memo.walk graph.voters graph.castVote .recursionLimit depth node cache

/-! ## The schema of a coalesce node -/

/-- The graph without its error edges. -/
def success : ContractGraph :=
  { graph with
    edges := graph.edges.filter fun edge => edge.mode ≠ .divert
    into_source := fun edge mem => graph.into_source edge (mem_filter.mp mem).1 }

/-- A vote as a schema that only guarantees. -/
def voteSchema (vote : EffectiveGuaranteeVote) : SchemaConfig :=
  observedSchema (if vote.participated then some (sorted vote.fields) else none) none

variable (plan : CoalescePlan)

def branchToSchema : Dict String SchemaConfig :=
  plan.producers.filterMap fun producer => (graph.info producer).outputSchemaConfig

def guaranteeBranchSchemas (depth : Nat) : Dict String SchemaConfig :=
  plan.producers.filterMap fun producer =>
    match graph.success.walkEffectiveGuaranteeVote producer depth Dict.empty with
    | .ok (vote, _) => some (voteSchema vote)
    | .error _ => none

/-- The schema the builder assigns a coalesce: typed fields from the producers' own schemas,
guarantees from their votes. -/
def coalesceNodeSchema (depth : Nat) : Except SchemaMergeError SchemaConfig :=
  mergeCoalesceSchema (graph.branchToSchema plan) plan.settings.hasAllBranchSemantics
    plan.settings.merge plan.policy (some plan.settings.branches) plan.settings.selectBranch
    (some node) (some (graph.guaranteeBranchSchemas plan depth))

/-! ## Basic facts -/

variable {graph node}

theorem mem_predecessors {origin : NodeID} :
    origin ∈ graph.predecessors node ↔
      ∃ edge ∈ graph.edges, edge.fromNode = origin ∧ edge.toNode = node := by
  unfold predecessors getIncomingEdges
  rw [mem_dedup, mem_map]
  constructor
  · rintro ⟨edge, incoming, rfl⟩
    obtain ⟨mem, there⟩ := mem_filter.mp incoming
    exact ⟨edge, mem, rfl, of_decide_eq_true there⟩
  · rintro ⟨edge, mem, rfl, there⟩
    exact ⟨edge, mem_filter.mpr ⟨mem, decide_eq_true there⟩, rfl⟩

theorem mem_predecessors_of_mem_origins {origin : NodeID} (mem : origin ∈ graph.origins node) :
    origin ∈ graph.predecessors node := by
  obtain ⟨edge, inside, -, here, there⟩ := mem_origins.mp mem
  exact mem_predecessors.mpr ⟨edge, inside, here, there⟩

theorem voters_subset {origin : NodeID} (mem : origin ∈ graph.voters node) :
    origin ∈ graph.predecessors node := by
  unfold voters at mem
  split at mem
  · exact mem
  · split at mem
    · cases mem
    · exact mem
  · split at mem
    · exact mem
    · cases mem

theorem origins_success : graph.success.origins node = graph.origins node := by
  unfold success origins getIncomingEdges
  simp only [filter_filter]
  congr 1
  refine filter_congr fun edge _ => ?_
  cases decide (edge.mode ≠ .divert) <;> simp

theorem ownTyped_iff :
    graph.ownTyped node ↔
      ∃ schema, (graph.info node).outputSchemaConfig = some schema ∧ schema.isTyped := by
  unfold ownTyped
  cases (graph.info node).outputSchemaConfig <;> simp

/-- Over success edges a queue or a row union asks all of its producers. -/
theorem mem_voters_success {origin : NodeID} (fans : graph.fansIn node)
    (mem : origin ∈ graph.origins node) : origin ∈ graph.success.voters node := by
  have asked : origin ∈ graph.success.predecessors node :=
    mem_predecessors_of_mem_origins (origins_success.symm ▸ mem)
  have live : graph.success.diverted node = false := by
    refine any_eq_false.mpr fun edge incoming => ?_
    simpa using (mem_filter.mp (mem_filter.mp incoming).1).2
  unfold voters
  rcases (Bool.or_eq_true _ _).mp fans with queue | union
  · rw [show graph.success.nodeType node = .queue from of_decide_eq_true queue]
    exact asked
  · rw [show graph.success.nodeType node = .rowUnion from of_decide_eq_true union]
    simpa [live] using asked

end ContractGraph

/-- What a composition reports is declared here, or by every predecessor that vouches. -/
theorem mem_composePropagation {selfFields : Finset String} {field : String}
    {guarantees : List (Option (Finset String))} :
    field ∈ composePropagation selfFields guarantees ↔
      field ∈ selfFields ∨ (∃ guarantee, some guarantee ∈ guarantees) ∧
        ∀ guarantee, some guarantee ∈ guarantees → field ∈ guarantee := by
  simp only [← reduceOption_mem_iff]
  unfold composePropagation
  split <;> rename_i votes <;> rw [votes]
  · simp
  · rw [Finset.mem_union, mem_foldl_inter, forall_mem_cons]
    exact or_congr_right (and_iff_right ⟨_, mem_cons_self⟩).symm

/-! ## Built graphs -/

namespace ContractGraph

/-- A node that forwards its input has one producer: rows of several meet only in a join.  A
queue or a row union declares nothing. -/
structure Wired (graph : ContractGraph) : Prop where
  one_origin : ∀ node, graph.forwards node → ∀ first ∈ graph.origins node,
    ∀ second ∈ graph.origins node, first = second
  some_origin : ∀ node, graph.forwards node → graph.origins node ≠ []
  bare : ∀ node, graph.fansIn node →
    (graph.info node).outputSchemaConfig = some (observedSchema none none)

/-- What the builder ensures: the graph is wired and has a topological order, a gate inherits the
schema of its producer, and a coalesce is given its schema from those of its branches. -/
structure Built (graph : ContractGraph) where
  wired : graph.Wired
  rank : NodeID → Nat
  rank_lt : ∀ edge ∈ graph.edges, rank edge.fromNode < rank edge.toNode
  gate_schema : ∀ node, graph.transparentGate node → ∀ origin ∈ graph.origins node,
    (graph.info node).outputSchemaConfig = (graph.info origin).outputSchemaConfig
  branch_edge : ∀ node plan, graph.plans node = some plan → ∀ producer ∈ plan.producers.values,
    producer ∈ graph.origins node
  branch_schema : ∀ node plan, graph.plans node = some plan → ∀ producer ∈ plan.producers.values,
    (graph.info producer).outputSchemaConfig ≠ none
  coalesced : ∀ node plan, graph.nodeType node = .coalesce → graph.plans node = some plan →
    ∃ depth schema, rank node ≤ depth ∧ graph.coalesceNodeSchema node plan depth = .ok schema ∧
      (graph.info node).outputSchemaConfig = some schema

theorem Wired.success {graph : ContractGraph} (wired : graph.Wired) : graph.success.Wired where
  one_origin node forwards := by
    rw [origins_success]
    exact wired.one_origin node forwards
  some_origin node forwards := by
    rw [origins_success]
    exact wired.some_origin node forwards
  bare := wired.bare

/-! ## How a vote is cast -/

section Cast

variable (graph : ContractGraph) (node : NodeID) (votes : List EffectiveGuaranteeVote)

/-- The three ways a node of a wired graph votes. -/
inductive Cast : EffectiveGuaranteeVote → Prop where
  | collects (fans : graph.fansIn node) : Cast (fanInVote votes)
  | forwards (ordinary : graph.fansIn node = false) (forwards : graph.forwards node)
      (asks : graph.voters node = graph.predecessors node) : Cast (graph.composedVote node votes)
  | declares (ordinary : graph.fansIn node = false) (asks : graph.voters node = []) :
      Cast (graph.ownVote node)

variable {graph node votes}

/-- A queue or a row union that asks nobody abstains. -/
theorem ownVote_of_fansIn (wired : graph.Wired) (fans : graph.fansIn node) :
    graph.ownVote node = ⟨∅, false, false⟩ := by
  unfold ownVote ownFields ownParticipates ownClosed
  rw [wired.bare node fans]
  rfl

theorem voters_of_fansIn (fans : graph.fansIn node) :
    graph.voters node = [] ∨ graph.voters node = graph.predecessors node := by
  unfold voters
  rcases (Bool.or_eq_true _ _).mp fans with queue | union
  · rw [of_decide_eq_true queue]
    exact .inr rfl
  · rw [of_decide_eq_true union]
    cases graph.diverted node
    · exact .inr rfl
    · exact .inl rfl

theorem castVote_cast (wired : graph.Wired) (asked : votes.length = (graph.voters node).length) :
    ∃ vote, graph.castVote node votes = .ok vote ∧ graph.Cast node votes vote := by
  have alone (fans : graph.fansIn node) (nobody : graph.voters node = []) :
      graph.Cast node votes ⟨∅, false, false⟩ := by
    rw [nobody, length_nil, length_eq_zero_iff] at asked
    subst asked
    exact .collects fans
  unfold castVote
  split
  · rename_i queue
    have fans : graph.fansIn node := by simp [fansIn, queue]
    refine ⟨_, rfl, ?_⟩
    split
    · rename_i none
      rw [ownVote_of_fansIn wired fans]
      exact alone fans (by simpa [voters, queue] using none)
    · exact .collects fans
  · rename_i union
    have fans : graph.fansIn node := by simp [fansIn, union]
    refine ⟨_, rfl, ?_⟩
    split
    · rename_i none
      rw [ownVote_of_fansIn wired fans]
      exact alone fans (by simp [voters, union, predecessors, none])
    · split
      · rename_i diverted
        exact alone fans (by simp [voters, union, diverted])
      · exact .collects fans
  · rename_i notQueue notUnion
    have ordinary : graph.fansIn node = false := by simpa [fansIn] using ⟨notQueue, notUnion⟩
    split
    · rename_i forwards
      obtain ⟨origin, mem⟩ := exists_mem_of_ne_nil _ (wired.some_origin node forwards)
      rw [if_neg (ne_nil_of_mem (mem_predecessors_of_mem_origins mem))]
      refine ⟨_, rfl, .forwards ordinary forwards ?_⟩
      unfold voters
      split <;> simp_all
    · rename_i stops
      refine ⟨_, rfl, .declares ordinary ?_⟩
      unfold voters
      split <;> simp_all

end Cast

section FanIn

variable {votes : List EffectiveGuaranteeVote} {field : String}

theorem participated_fanInVote :
    (fanInVote votes).participated ↔ votes ≠ [] ∧ ∀ vote ∈ votes, vote.participated := by
  unfold fanInVote
  split
  · simp
  · split <;> rename_i all
    · exact iff_of_true rfl ⟨cons_ne_nil _ _, all_eq_true.mp all⟩
    · exact iff_of_false nofun fun both => all (all_eq_true.mpr both.2)

theorem mem_fanInVote :
    field ∈ (fanInVote votes).fields ↔
      (fanInVote votes).participated ∧ ∀ vote ∈ votes, field ∈ vote.fields := by
  unfold fanInVote
  split
  · simp
  · split
    · rw [mem_foldl_inter, forall_mem_cons, forall_mem_map]
      exact (and_iff_right rfl).symm
    · simp

theorem closed_fanInVote (closed : (fanInVote votes).closed) :
    (fanInVote votes).participated ∧ ∀ vote ∈ votes, vote.closed := by
  unfold fanInVote at closed ⊢
  split at closed
  · cases closed
  · split at closed <;> rename_i all
    · exact ⟨by simp [all], all_eq_true.mp closed⟩
    · cases closed

end FanIn

/-! ## What a vote reports -/

/-- A node and those its walk visits. -/
def Asks (graph : ContractGraph) : NodeID → NodeID → Prop :=
  Relation.ReflTransGen fun node voter => voter ∈ graph.voters node

/-- A node takes part in the vote if it declares something, or if one of those it asks does; a
node that collects rows needs all of these to take part. -/
inductive Speaks (graph : ContractGraph) : NodeID → Prop where
  | own {node : NodeID} (declares : graph.ownParticipates node) : Speaks graph node
  | heard {node voter : NodeID} (ordinary : graph.fansIn node = false)
      (mem : voter ∈ graph.voters node) (speaks : Speaks graph voter) : Speaks graph node
  | agreed {node : NodeID} (fans : graph.fansIn node) (asks : graph.voters node ≠ [])
      (all : ∀ voter ∈ graph.voters node, Speaks graph voter) : Speaks graph node

/-- A field that is declared on every way to a node: by the node, or by all it takes rows from
and then kept. -/
inductive Declared (graph : ContractGraph) (field : String) : NodeID → Prop where
  | own {node : NodeID} (mem : field ∈ graph.ownFields node) : Declared graph field node
  | kept {node : NodeID} (stays : field ∉ graph.removals node) (asks : graph.voters node ≠ [])
      (all : ∀ voter ∈ graph.voters node, Declared graph field voter) : Declared graph field node

/-- The node whose rows reach another through queues and row unions only. -/
inductive Feeds (graph : ContractGraph) (feeder : NodeID) : NodeID → Prop where
  | here (ordinary : graph.fansIn feeder = false) : Feeds graph feeder feeder
  | through {origin node : NodeID} (feeds : Feeds graph feeder origin)
      (mem : origin ∈ graph.predecessors node) (fans : graph.fansIn node) : Feeds graph feeder node

/-- A vote tells whether the node takes part, names what is declared on every way to it, and is
closed only if the schemas are from which the rows come. -/
structure Reports (graph : ContractGraph) (node : NodeID) (vote : EffectiveGuaranteeVote) :
    Prop where
  speaks : vote.participated ↔ graph.Speaks node
  declared : ∀ field, graph.Declared field node → field ∈ vote.fields
  closed : vote.closed → (graph.fansIn node → graph.Speaks node) ∧
    ∀ feeder, graph.Feeds feeder node → graph.ownClosed feeder

section Reports

variable {graph : ContractGraph} {node : NodeID} {votes : List EffectiveGuaranteeVote}

theorem Feeds.eq_of_ordinary {feeder : NodeID} (feeds : graph.Feeds feeder node)
    (ordinary : graph.fansIn node = false) : feeder = node := by
  cases feeds with
  | here _ => rfl
  | through _ _ fans =>
    rw [ordinary] at fans
    cases fans

theorem ownParticipates_of_mem {field : String} (mem : field ∈ graph.ownFields node) :
    graph.ownParticipates node := by
  unfold ownFields at mem
  unfold ownParticipates
  cases declared : (graph.info node).outputSchemaConfig with
  | none => simp [declared] at mem
  | some schema =>
    rw [declared] at mem
    show (schema.guaranteedFields.isSome || schema.fields.isSome)
    rcases SchemaConfig.mem_getEffectiveGuaranteedFields.mp mem with ⟨_, given, -⟩ | required
    · simp [given]
    · obtain ⟨_, lists, -⟩ := SchemaConfig.mem_declaredRequired.mp required
      simp [lists]

theorem Declared.speaks {field : String} (declared : graph.Declared field node) :
    graph.Speaks node := by
  induction declared with
  | own mem => exact .own (ownParticipates_of_mem mem)
  | @kept node _ asks _ ih =>
    cases fans : graph.fansIn node with
    | true => exact .agreed fans asks ih
    | false =>
      obtain ⟨voter, mem⟩ := exists_mem_of_ne_nil _ asks
      exact .heard fans mem (ih voter mem)

theorem reports_fanIn (wired : graph.Wired) (fans : graph.fansIn node)
    (asked : Forall₂ graph.Reports (graph.voters node) votes) :
    graph.Reports node (fanInVote votes) := by
  have own := ownVote_of_fansIn wired fans
  have speaks : (fanInVote votes).participated ↔ graph.Speaks node := by
    rw [participated_fanInVote]
    constructor
    · rintro ⟨some_vote, all⟩
      refine .agreed fans (fun none => ?_) fun voter mem => ?_
      · rw [none, forall₂_nil_left_iff] at asked
        exact some_vote asked
      · obtain ⟨vote, listed, report⟩ := Collections.exists_of_forall₂ asked mem
        exact report.speaks.mp (all vote listed)
    · intro speaks
      cases speaks with
      | own declares => cases (congrArg EffectiveGuaranteeVote.participated own).symm.trans declares
      | heard ordinary => exact absurd fans (by simp [ordinary])
      | agreed _ asks all =>
        refine ⟨fun none => ?_, fun vote listed => ?_⟩
        · rw [none, forall₂_nil_right_iff] at asked
          exact asks asked
        · obtain ⟨voter, mem, report⟩ := Collections.exists_of_forall₂ asked.flip listed
          exact report.speaks.mpr (all voter mem)
  refine ⟨speaks, fun field declared => mem_fanInVote.mpr ⟨speaks.mpr declared.speaks, ?_⟩,
    fun closed => ?_⟩
  · intro vote listed
    obtain ⟨voter, mem, report⟩ := Collections.exists_of_forall₂ asked.flip listed
    cases declared with
    | own inside =>
      have none : graph.ownFields node = ∅ := congrArg EffectiveGuaranteeVote.fields own
      rw [none] at inside
      cases inside
    | kept _ _ all => exact report.declared field (all voter mem)
  · obtain ⟨participated, all⟩ := closed_fanInVote closed
    refine ⟨fun _ => speaks.mp participated, fun feeder feeds => ?_⟩
    cases feeds with
    | here ordinary => exact absurd fans (by simp [ordinary])
    | through above mem _ =>
      -- The node asks somebody, hence all of its predecessors.
      have asks : graph.voters node = graph.predecessors node := by
        refine (voters_of_fansIn fans).resolve_left fun none => ?_
        rw [none, forall₂_nil_left_iff] at asked
        exact (participated_fanInVote.mp participated).1 asked
      rw [← asks] at mem
      obtain ⟨vote, listed, report⟩ := Collections.exists_of_forall₂ asked mem
      exact (report.closed (all vote listed)).2 feeder above

theorem reports_composed (ordinary : graph.fansIn node = false)
    (asked : Forall₂ graph.Reports (graph.voters node) votes) :
    graph.Reports node (graph.composedVote node votes) := by
  refine ⟨?_, fun field declared => mem_composePropagation.mpr ?_, fun closed => ?_⟩
  · show (graph.ownParticipates node || votes.any _) ↔ _
    rw [Bool.or_eq_true, any_eq_true]
    constructor
    · rintro (declares | ⟨vote, listed, participated⟩)
      · exact .own declares
      · obtain ⟨voter, mem, report⟩ := Collections.exists_of_forall₂ asked.flip listed
        exact .heard ordinary mem (report.speaks.mp participated)
    · intro speaks
      cases speaks with
      | own declares => exact .inl declares
      | heard _ mem speaks =>
        obtain ⟨vote, listed, report⟩ := Collections.exists_of_forall₂ asked mem
        exact .inr ⟨vote, listed, report.speaks.mpr speaks⟩
      | agreed fans => exact absurd fans (by simp [ordinary])
  · cases declared with
    | own mem => exact .inl mem
    | kept stays asks all =>
      have each : ∀ vote ∈ votes, vote.participated ∧ field ∈ vote.fields := by
        intro vote listed
        obtain ⟨voter, mem, report⟩ := Collections.exists_of_forall₂ asked.flip listed
        exact ⟨report.speaks.mpr (all voter mem).speaks, report.declared field (all voter mem)⟩
      obtain ⟨voter, mem⟩ := exists_mem_of_ne_nil _ asks
      obtain ⟨vote, listed, -⟩ := Collections.exists_of_forall₂ asked mem
      refine .inr ⟨⟨_, mem_map.mpr ⟨vote, listed, if_pos (each vote listed).1⟩⟩, ?_⟩
      intro guarantee given
      obtain ⟨other, listed', same⟩ := mem_map.mp given
      rw [if_pos (each other listed').1] at same
      cases same
      exact Finset.mem_sdiff.mpr ⟨(each other listed').2, stays⟩
  · refine ⟨fun fans => absurd fans (by simp [ordinary]), fun feeder feeds => ?_⟩
    rw [feeds.eq_of_ordinary ordinary]
    exact closed

theorem reports_own (ordinary : graph.fansIn node = false) (asks : graph.voters node = []) :
    graph.Reports node (graph.ownVote node) := by
  refine ⟨⟨.own, fun speaks => ?_⟩, fun field declared => ?_, fun closed => ?_⟩
  · cases speaks with
    | own declares => exact declares
    | heard _ mem => simp [asks] at mem
    | agreed fans => exact absurd fans (by simp [ordinary])
  · cases declared with
    | own mem => exact mem
    | kept _ some_voter => exact absurd asks some_voter
  · refine ⟨fun fans => absurd fans (by simp [ordinary]), fun feeder feeds => ?_⟩
    rw [feeds.eq_of_ordinary ordinary]
    exact closed

theorem Cast.reports (wired : graph.Wired) {vote : EffectiveGuaranteeVote}
    (cast : graph.Cast node votes vote)
    (asked : Forall₂ graph.Reports (graph.voters node) votes) : graph.Reports node vote := by
  cases cast with
  | collects fans => exact reports_fanIn wired fans asked
  | forwards ordinary => exact reports_composed ordinary asked
  | declares ordinary asks => exact reports_own ordinary asks

variable {rank : NodeID → Nat}

theorem rank_voters_lt
    (rank_lt : ∀ edge ∈ graph.edges, rank edge.fromNode < rank edge.toNode) :
    ∀ node, ∀ voter ∈ graph.voters node, rank voter < rank node := by
  intro node voter mem
  obtain ⟨edge, inside, rfl, rfl⟩ := mem_predecessors.mp (voters_subset mem)
  exact rank_lt edge inside

theorem Asks.rank_le (rank_lt : ∀ edge ∈ graph.edges, rank edge.fromNode < rank edge.toNode)
    {other : NodeID} (asks : graph.Asks node other) : rank other ≤ rank node := by
  induction asks with
  | refl => exact le_rfl
  | tail _ voter ih => exact (rank_voters_lt rank_lt _ _ voter).le.trans ih

/-- A walk with enough depth returns a vote that reports the declarations, and meets besides what
every way to cast a vote preserves. -/
theorem walk_spec (wired : graph.Wired)
    (rank_lt : ∀ edge ∈ graph.edges, rank edge.fromNode < rank edge.toNode)
    {spec : NodeID → EffectiveGuaranteeVote → Prop}
    (casts : ∀ node votes vote, graph.Cast node votes vote →
      Forall₂ (fun voter vote => graph.Reports voter vote ∧ spec voter vote)
        (graph.voters node) votes → spec node vote)
    {depth : Nat} (deep : rank node < depth) :
    ∃ vote cache, graph.walkEffectiveGuaranteeVote node depth Dict.empty = .ok (vote, cache) ∧
      graph.Reports node vote ∧ spec node vote := by
  have combines : ∀ node votes, Forall₂ (fun voter vote => graph.Reports voter vote ∧
      spec voter vote) (graph.voters node) votes →
        ∃ vote, graph.castVote node votes = .ok vote ∧ graph.Reports node vote ∧
            spec node vote := by
    intro node votes asked
    obtain ⟨vote, ran, cast⟩ := castVote_cast wired asked.length_eq.symm
    exact ⟨vote, ran, cast.reports wired (asked.imp fun _ _ => And.left),
      casts node votes vote cast asked⟩
  obtain ⟨vote, cache, ran, met, -⟩ :=
    Memo.walk_spec (rank_voters_lt rank_lt) combines deep Memo.Remembers.empty
  exact ⟨vote, cache, ran, met⟩

end Reports

end ContractGraph

end Elspeth.Guarantees
