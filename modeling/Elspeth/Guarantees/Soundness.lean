import Elspeth.Guarantees.Propagation

/-!
# What a vote says about the rows

Rows travel along the success edges of a graph, and each node honours what it declares.  The
fields of a vote are then on every row that leaves the node, but for two cases.  A node that
forwards its input also hears the votes of the error edges into it, which may be the only ones
(`Vouched` excludes that); and a coalesce may require fields of which some branches know
nothing (`TypedAlike` excludes that).

A closed vote claims more: that a row carries nothing else.  Two things break that claim.  A
schema that forbids extras may still list optional fields, which the vote leaves out; and a
node that collects from closed arms reports what all arms carry, while a row carries what its
own arm does.  Where neither occurs (`Complete`), closed votes are exact.
-/

namespace Elspeth.Guarantees

open Collections (Dict)
open Contracts Coalesce Regions ContractGraph List ExecutionGraph SchemaConfig Collections

namespace ContractGraph

/-- A node and those its vote rests on.  Where the walk ends in a coalesce, these are the nodes
that the builder asked over success edges, to give the coalesce its schema. -/
def RestsOn (graph : ContractGraph) : NodeID → NodeID → Prop :=
  Relation.ReflTransGen fun node other =>
    other ∈ graph.voters node ∨ other ∈ graph.success.voters node ∨
      graph.nodeType node = .coalesce ∧ ∃ plan, graph.plans node = some plan ∧
        other ∈ plan.producers.values

section RestsOn

variable {graph : ContractGraph} {node other : NodeID}

theorem Asks.restsOn (asks : graph.Asks node other) : graph.RestsOn node other := by
  induction asks with
  | refl => exact .refl
  | tail _ voter ih => exact ih.tail (.inl voter)

theorem Asks.restsOn_of_success (asks : graph.success.Asks node other) :
    graph.RestsOn node other := by
  induction asks with
  | refl => exact .refl
  | tail _ voter ih => exact ih.tail (.inr (.inl voter))

end RestsOn

end ContractGraph

/-! ## Rows on edges -/

variable {V : Type}

/-- A row that keeps to a node's schema: what it guarantees is there, and under a closed schema
nothing else is. -/
def Declares (row : RowData V) (info : NodeInfo) : Prop :=
  ∀ schema, info.outputSchemaConfig = some schema → Honours row schema ∧
    ∀ names, schema.closedFieldNames = some names → ∀ field ∈ row.keys, field ∈ names

section Flow

variable (graph : ContractGraph) (flow : EdgeInfo → RowData V → Prop)

/-- The rows a node sends along its success edges. -/
def Leaves (node : NodeID) (row : RowData V) : Prop :=
  ∃ edge ∈ graph.edges, edge.mode ≠ .divert ∧ edge.fromNode = node ∧ flow edge row

/-- The rows a node receives along success edges. -/
def Enters (node : NodeID) (row : RowData V) : Prop :=
  ∃ edge ∈ graph.edges, edge.mode ≠ .divert ∧ edge.toNode = node ∧ flow edge row

/-- A row that a coalesce merges from rows of its branches, by a decision of its policy. -/
def Coalesced (nest : RowData V → V) (plan : CoalescePlan) (row : RowData V) : Prop :=
  ∃ (arrivals : Arrivals plan.settings V) (event : CoalesceEvent) (lost : List String)
    (groupId : String) (data : MergedData V),
    (∀ branch input, arrivals.rows.get branch = some input →
      ∃ producer, plan.producers.get branch = some producer ∧ Leaves graph flow producer input) ∧
    decideCoalesce plan.settings event arrivals.rows.size lost groupId = .ok .merge ∧
    (event = .arrival → 0 < arrivals.rows.size) ∧
    mergeData nest plan.settings arrivals.rows = .ok data ∧ data.merged = row

/-- The rows a node may emit. -/
def Emits (nest : RowData V → V) (node : NodeID) (row : RowData V) : Prop :=
  match graph.nodeType node with
  | .source => Declares row (graph.info node)
  | .transform | .aggregation | .collector =>
    Declares row (graph.info node) ∧ (graph.forwards node → ∃ input, Enters graph flow node input ∧
      ∀ field ∈ input.keys, field ∉ graph.removals node → field ∈ row.keys)
  | .gate | .queue | .rowUnion => Enters graph flow node row
  | .coalesce => ∃ plan, graph.plans node = some plan ∧ Coalesced graph flow nest plan row
  | .sink => False

/-- Every node honours its contract. -/
def Honouring (nest : RowData V → V) : Prop :=
  ∀ node row, Leaves graph flow node row → Emits graph flow nest node row

end Flow

/-! ## What honouring gives each kind of node -/

section Kinds

variable {graph : ContractGraph} {flow : EdgeInfo → RowData V → Prop} {nest : RowData V → V}
  {node : NodeID} {row : RowData V}

theorem Enters.leaves (enters : Enters graph flow node row) :
    ∃ origin ∈ graph.origins node, Leaves graph flow origin row := by
  obtain ⟨edge, mem, live, there, carried⟩ := enters
  exact ⟨edge.fromNode, mem_origins.mpr ⟨edge, mem, live, rfl, there⟩,
    edge, mem, live, rfl, carried⟩

/-- A node that forwards keeps the fields of a row that some predecessor sent. -/
theorem Honouring.forwarded (honouring : Honouring graph flow nest) (forwards : graph.forwards node)
    (notFan : graph.fansIn node = false) (leaves : Leaves graph flow node row) :
    ∃ origin ∈ graph.origins node, ∃ input, Leaves graph flow origin input ∧
      ∀ field ∈ input.keys, field ∉ graph.removals node → field ∈ row.keys := by
  have emits := honouring node row leaves
  have plugin : (graph.info node).passesThroughInput ∨ (graph.info node).forwardsInputFields →
      graph.nodeType node = .transform ∨ graph.nodeType node = .aggregation ∨
        graph.nodeType node = .collector := graph.forwarders node
  unfold Emits at emits
  unfold ContractGraph.forwards at forwards
  unfold fansIn at notFan
  unfold transparentGate at forwards
  cases kind : graph.nodeType node with
  | gate =>
    rw [kind] at emits
    obtain ⟨origin, mem, sent⟩ := Enters.leaves emits
    exact ⟨origin, mem, row, sent, fun _ here _ => here⟩
  | transform | aggregation | collector =>
    rw [kind] at emits
    obtain ⟨input, enters, kept⟩ := emits.2 (by
      exact forwards)
    obtain ⟨origin, mem, sent⟩ := Enters.leaves enters
    exact ⟨origin, mem, input, sent, kept⟩
  | queue | rowUnion => simp [kind] at notFan
  | source | coalesce | sink => simp_all

/-- What a queue or a row union emits is a row of one of its predecessors. -/
theorem Honouring.collected (honouring : Honouring graph flow nest) (fans : graph.fansIn node)
    (leaves : Leaves graph flow node row) :
    ∃ origin ∈ graph.origins node, Leaves graph flow origin row := by
  have emits := honouring node row leaves
  unfold Emits at emits
  unfold fansIn at fans
  cases kind : graph.nodeType node <;> simp only [kind] at emits fans
  case queue | rowUnion => exact Enters.leaves emits
  all_goals simp at fans

end Kinds

/-! ## The fields of a vote -/

/-- What the walk needs to know of the rows: where a forwarded or collected row comes from. -/
structure Flows (graph : ContractGraph) (leaves : NodeID → RowData V → Prop) : Prop where
  forwarded : ∀ node row, graph.forwards node → graph.fansIn node = false → leaves node row →
    ∃ origin ∈ graph.origins node, ∃ input, leaves origin input ∧
      ∀ field ∈ input.keys, field ∉ graph.removals node → field ∈ row.keys
  collected : ∀ node row, graph.fansIn node → leaves node row →
    ∃ origin ∈ graph.origins node, leaves origin row

theorem Honouring.flows {graph : ContractGraph} {flow : EdgeInfo → RowData V → Prop}
    {nest : RowData V → V} (honouring : Honouring graph flow nest) :
    Flows graph (Leaves graph flow) :=
  ⟨fun _ _ => honouring.forwarded, fun _ _ => honouring.collected⟩

/-- Where an error edge enters a node that forwards rows, the producer of these rows takes part
in the vote, and the error edge is not heard alone. -/
def Vouched (graph : ContractGraph) (leaves : NodeID → RowData V → Prop) (node : NodeID) : Prop :=
  ∀ row, leaves node row → graph.forwards node → graph.diverted node →
    ∀ origin ∈ graph.origins node, graph.Speaks origin

/-- Every row of the node carries the fields of the vote. -/
def LowerBound (leaves : NodeID → RowData V → Prop) (node : NodeID)
    (vote : EffectiveGuaranteeVote) : Prop :=
  ∀ row, leaves node row → ∀ field ∈ vote.fields, field ∈ row.keys

/-- The rows of a node keep to its schema. -/
def Honest (graph : ContractGraph) (leaves : NodeID → RowData V → Prop) (node : NodeID) : Prop :=
  ∀ row, leaves node row → Declares row (graph.info node)

section Walk

variable {graph : ContractGraph} {leaves : NodeID → RowData V → Prop} {node : NodeID}

variable {origin : NodeID} {votes : List EffectiveGuaranteeVote}

theorem mem_origins_of_undiverted (undiverted : graph.diverted node = false)
    (mem : origin ∈ graph.predecessors node) : origin ∈ graph.origins node := by
  obtain ⟨edge, inside, here, there⟩ := mem_predecessors.mp mem
  have incoming : edge ∈ graph.getIncomingEdges node :=
    mem_filter.mpr ⟨inside, decide_eq_true there⟩
  have live := any_eq_false.mp undiverted edge incoming
  exact mem_origins.mpr
    ⟨edge, inside, fun same => live (decide_eq_true same), here, there⟩

theorem lowerBound_own (honest : Honest graph leaves node) :
    LowerBound leaves node (graph.ownVote node) := by
  intro row left field mem
  have own : field ∈ graph.ownFields node := mem
  unfold ownFields at own
  cases declared : (graph.info node).outputSchemaConfig with
  | none => simp [declared] at own
  | some schema => exact (honest row left schema declared).1 field (by simpa [declared] using own)

variable (graph leaves) in
/-- What is known of the vote of a node that was asked. -/
def Bounds (node : NodeID) (vote : EffectiveGuaranteeVote) : Prop :=
  graph.Reports node vote ∧ LowerBound leaves node vote

theorem lowerBound_fanIn (flows : Flows graph leaves) (fans : graph.fansIn node)
    (bounds : Forall₂ (Bounds graph leaves) (graph.voters node) votes) :
    LowerBound leaves node (fanInVote votes) := by
  intro row left field mem
  obtain ⟨participated, all⟩ := mem_fanInVote.mp mem
  obtain ⟨origin, here, sent⟩ := flows.collected node row fans left
  have asks : graph.voters node = graph.predecessors node := by
    refine (voters_of_fansIn fans).resolve_left fun none => ?_
    rw [none, forall₂_nil_left_iff] at bounds
    exact (participated_fanInVote.mp participated).1 bounds
  rw [asks] at bounds
  obtain ⟨vote, listed, -, bound⟩ :=
    exists_of_forall₂ bounds (mem_predecessors_of_mem_origins here)
  exact bound row sent field (all vote listed)

theorem lowerBound_composed (wired : graph.Wired) (flows : Flows graph leaves)
    (forwards : graph.forwards node) (notFan : graph.fansIn node = false)
    (honest : Honest graph leaves node) (vouched : Vouched graph leaves node)
    (bounds : Forall₂ (Bounds graph leaves) (graph.predecessors node) votes) :
    LowerBound leaves node (graph.composedVote node votes) := by
  intro row left field mem
  rcases mem_composePropagation.mp mem with own | ⟨⟨guarantee, given⟩, all⟩
  · exact lowerBound_own honest row left field own
  · obtain ⟨sender, here, input, sent, keeps⟩ := flows.forwarded node row forwards notFan left
    -- The vote of the row's sender is among those that were intersected.
    obtain ⟨vote, listed, bound, participated⟩ : ∃ vote ∈ votes, LowerBound leaves sender vote ∧
        vote.participated := by
      cases diverted : graph.diverted node with
      | true =>
        obtain ⟨vote, listed, report, bound⟩ :=
          exists_of_forall₂ bounds (mem_predecessors_of_mem_origins here)
        exact ⟨vote, listed, bound,
          report.speaks.mpr (vouched row left forwards diverted sender here)⟩
      | false =>
        obtain ⟨vote, listed, same⟩ := mem_map.mp given
        obtain ⟨origin, asked, -, bound⟩ := exists_of_forall₂ bounds.flip listed
        obtain rfl := wired.one_origin node forwards origin
          (mem_origins_of_undiverted diverted asked) sender here
        refine ⟨vote, listed, bound, ?_⟩
        by_contra abstains
        rw [if_neg abstains] at same
        cases same
    obtain ⟨held, kept⟩ :=
      Finset.mem_sdiff.mp (all _ (mem_map.mpr ⟨vote, listed, if_pos participated⟩))
    exact keeps field (bound input sent field held) kept

/-- Asked votes that bound the rows from below give such a vote. -/
theorem ContractGraph.Cast.lowerBound (wired : graph.Wired) (flows : Flows graph leaves)
    {vote : EffectiveGuaranteeVote} (cast : graph.Cast node votes vote)
    (honest : Honest graph leaves node) (vouched : Vouched graph leaves node)
    (bounds : Forall₂ (Bounds graph leaves) (graph.voters node) votes) :
    LowerBound leaves node vote := by
  cases cast with
  | collects fans => exact lowerBound_fanIn flows fans bounds
  | forwards ordinary forwards asks =>
    rw [asks] at bounds
    exact lowerBound_composed wired flows forwards ordinary honest vouched bounds
  | declares => exact lowerBound_own honest

/-- A walk with enough depth returns.  Its vote reports the declarations, and bounds the rows from
below if the nodes it visits are honest. -/
theorem walk_bounds (wired : graph.Wired) (flows : Flows graph leaves) {rank : NodeID → Nat}
    (rank_lt : ∀ edge ∈ graph.edges, rank edge.fromNode < rank edge.toNode) {depth : Nat}
    (deep : rank node < depth) :
    ∃ vote cache, graph.walkEffectiveGuaranteeVote node depth Dict.empty = .ok (vote, cache) ∧
      graph.Reports node vote ∧ ((∀ other, graph.Asks node other →
        Honest graph leaves other ∧ Vouched graph leaves other) → LowerBound leaves node vote) := by
  let sound : NodeID → Prop := fun node => ∀ other, graph.Asks node other →
    Honest graph leaves other ∧ Vouched graph leaves other
  let spec : NodeID → EffectiveGuaranteeVote → Prop := fun node vote =>
    sound node → LowerBound leaves node vote
  suffices casts : ∀ node votes vote, graph.Cast node votes vote →
      Forall₂ (fun voter vote => graph.Reports voter vote ∧ spec voter vote)
        (graph.voters node) votes → spec node vote from walk_spec wired rank_lt casts deep
  intro node votes vote cast asked below
  obtain ⟨honest, vouched⟩ := below node .refl
  refine cast.lowerBound wired flows honest vouched ?_
  -- What the walk of a voter visits, the walk of the node visits.
  have members : Forall₂ (fun voter vote => voter ∈ graph.voters node ∧
      graph.Reports voter vote ∧ spec voter vote) (graph.voters node) votes :=
    (forall₂_and_left _ _).mpr ⟨fun _ => id, asked⟩
  refine members.imp ?_
  rintro voter vote ⟨mem, report, bound⟩
  exact ⟨report, bound fun other asks => below other (.head mem asks)⟩

end Walk

/-! ## Rows keep to the schemas of their nodes -/

section Success

variable {graph : ContractGraph} {leaves : NodeID → RowData V → Prop}

theorem Flows.success (flows : Flows graph leaves) : Flows graph.success leaves where
  forwarded node row forwards notFan left := by
    rw [origins_success]
    exact flows.forwarded node row forwards notFan left
  collected node row fans left := by
    rw [origins_success]
    exact flows.collected node row fans left

theorem vouched_success (node : NodeID) : Vouched graph.success leaves node := by
  intro _ _ _ diverted
  obtain ⟨edge, incoming, divert⟩ := any_eq_true.mp diverted
  obtain ⟨mem, -⟩ := mem_filter.mp incoming
  exact absurd (of_decide_eq_true divert) (of_decide_eq_true (mem_filter.mp mem).2)

end Success

/-- Only a coalesce that selects a branch can have a closed schema, the one of that branch. -/
theorem selected_of_closed {branchSchemas : Dict String SchemaConfig} {requireAll : Bool}
    {strategy : MergeStrategy} {policy : CollisionPolicy} {order : Option (List String)}
    {selectBranch coalesceId : Option String} {votes : Option (Dict String SchemaConfig)}
    {schema : SchemaConfig} {names : Finset String}
    (built : mergeCoalesceSchema branchSchemas requireAll strategy policy order selectBranch
      coalesceId votes = .ok schema)
    (closed : schema.closedFieldNames = some names) :
    strategy = .select ∧ ∃ branch, selectBranch = some branch ∧
      branchSchemas.get branch = some schema := by
  unfold mergeCoalesceSchema at built
  split at built
  · unfold mergeUnionFields at built
    simp only at built
    split at built
    · cases built
      cases closed
    · split at built
      · cases built
      · split at built
        · cases built
        · split at built <;> cases built <;> cases closed
  · split at built
    · cases built
    · split at built
      · cases built
      · rename_i found
        cases built
        exact ⟨rfl, _, rfl, found⟩
  · cases built
    cases closed

section Honesty

variable {graph : ContractGraph} {flow : EdgeInfo → RowData V → Prop} {nest : RowData V → V}
  {node : NodeID}

theorem honours_voteSchema {vote : EffectiveGuaranteeVote} {row : RowData V}
    (carries : ∀ field ∈ vote.fields, field ∈ row.keys) :
    Honours row (voteSchema vote) := by
  intro field mem
  rcases mem_getEffectiveGuaranteedFields.mp mem with ⟨names, same, listed⟩ | required
  · have guaranteed : (if vote.participated then some (sorted vote.fields) else none) =
        some names := same
    split at guaranteed
    · cases guaranteed
      exact carries field (mem_sorted.mp listed)
    · cases guaranteed
  · obtain ⟨_, unlisted, -⟩ := mem_declaredRequired.mp required
    cases unlisted

/-- One schema for each branch, from its producer. -/
def CoalescePlan.branchSchemas (plan : CoalescePlan) (schemaOf : NodeID → Option SchemaConfig)
    (all : ∀ producer ∈ plan.producers.values, schemaOf producer ≠ none) :
    BranchSchemas plan.settings where
  schemas := plan.producers.filterMap schemaOf
  covers branch := by
    rw [← plan.covers, Dict.mem_keys, Dict.mem_keys, Dict.get_filterMap]
    constructor
    · rintro ⟨schema, bound⟩
      obtain ⟨producer, found, -⟩ := Option.bind_eq_some_iff.mp bound
      exact ⟨producer, found⟩
    · rintro ⟨producer, found⟩
      obtain ⟨schema, has⟩ := Option.ne_none_iff_exists'.mp
        (all producer (Dict.mem_values.mpr ⟨branch, found⟩))
      exact ⟨schema, Option.bind_eq_some_iff.mpr ⟨producer, found, has⟩⟩

/-- Rows that keep to the schemas of their producers keep to those of their branches. -/
theorem allHonour_branchSchemas {plan : CoalescePlan} {arrivals : Arrivals plan.settings V}
    {schemaOf : NodeID → Option SchemaConfig}
    (all : ∀ producer ∈ plan.producers.values, schemaOf producer ≠ none)
    (sent : ∀ branch input, arrivals.rows.get branch = some input →
      ∃ producer, plan.producers.get branch = some producer ∧ Leaves graph flow producer input)
    (honour : ∀ producer ∈ plan.producers.values, ∀ row schema, Leaves graph flow producer row →
      schemaOf producer = some schema → Honours row schema) :
    AllHonour arrivals (plan.branchSchemas schemaOf all) := by
  intro branch row schema arrived found
  obtain ⟨producer, known, left⟩ := sent branch row arrived
  have bound : (plan.producers.filterMap schemaOf).get branch = some schema := found
  rw [Dict.get_filterMap, known] at bound
  exact honour producer (Dict.mem_values.mpr ⟨branch, known⟩) row schema left bound

/-- A producer's vote, as the schema it gives its branch. -/
def votesOf (graph : ContractGraph) (depth : Nat) (producer : NodeID) : Option SchemaConfig :=
  match graph.success.walkEffectiveGuaranteeVote producer depth Dict.empty with
  | .ok (vote, _) => some (voteSchema vote)
  | .error _ => none

/-- A union that may merge without some of its branches takes typed fields from all of them or
from none. -/
def ContractGraph.TypedAlike (graph : ContractGraph) (node : NodeID) : Prop :=
  ∀ plan, graph.nodeType node = .coalesce → graph.plans node = some plan →
    plan.settings.merge = .union → plan.settings.hasAllBranchSemantics = false →
      ∀ first ∈ plan.producers.values, ∀ second ∈ plan.producers.values,
        graph.ownTyped first → graph.ownTyped second

/-- If all branches have typed fields, so has one that arrived. -/
theorem typedArrives_branchSchemas {plan : CoalescePlan} {arrivals : Arrivals plan.settings V}
    (all : ∀ producer ∈ plan.producers.values, (graph.info producer).outputSchemaConfig ≠ none)
    (admits : plan.settings.Admits arrivals.rows.size)
    (alike : plan.settings.merge = .union → plan.settings.hasAllBranchSemantics = false →
      ∀ first ∈ plan.producers.values, ∀ second ∈ plan.producers.values,
        graph.ownTyped first → graph.ownTyped second) :
    TypedArrives arrivals (plan.branchSchemas _ all) := by
  rintro union partly ⟨branch, schema, found, typed⟩
  have bound : (plan.producers.filterMap fun producer =>
    (graph.info producer).outputSchemaConfig).get branch = some schema := found
  rw [Dict.get_filterMap] at bound
  obtain ⟨producer, known, declared⟩ := Option.bind_eq_some_iff.mp bound
  obtain ⟨arrived, expected, row, there⟩ := Arrivals.exists_arrived admits
  obtain ⟨other, known'⟩ := Dict.mem_keys.mp ((plan.covers arrived).mpr expected)
  obtain ⟨schema', declared', typed'⟩ := ownTyped_iff.mp
    (alike union partly producer (Dict.mem_values.mpr ⟨branch, known⟩) other
      (Dict.mem_values.mpr ⟨arrived, known'⟩) (ownTyped_iff.mpr ⟨schema, declared, typed⟩))
  refine ⟨arrived, row, schema', there, ?_, typed'⟩
  show (plan.producers.filterMap _).get arrived = _
  rw [Dict.get_filterMap, known']
  exact declared'

/-- The merged rows of a coalesce keep to the schema the builder gave it. -/
theorem honest_coalesce (built : graph.Built) (honouring : Honouring graph flow nest)
    (kind : graph.nodeType node = .coalesce)
    (alike : ∀ row, Leaves graph flow node row → graph.TypedAlike node)
    (below : ∀ other, graph.RestsOn node other → built.rank other < built.rank node →
      Honest graph (Leaves graph flow) other) :
    Honest graph (Leaves graph flow) node := by
  intro row left schema declared
  have emits := honouring node row left
  unfold Emits at emits
  rw [kind] at emits
  obtain ⟨plan, planned, arrivals, event, lost, groupId, data, sent, merges, arrives, ran, rfl⟩ :=
    emits
  obtain ⟨depth, _, deep, made, assigned⟩ := built.coalesced node plan kind planned
  rw [declared] at assigned
  cases assigned
  have lower : ∀ producer ∈ plan.producers.values, built.rank producer < built.rank node := by
    intro producer mem
    obtain ⟨edge, inside, -, rfl, rfl⟩ :=
      mem_origins.mp (built.branch_edge node plan planned producer mem)
    exact built.rank_lt edge inside
  have branch : ∀ producer ∈ plan.producers.values, graph.RestsOn node producer :=
    fun producer mem => .single (.inr (.inr ⟨kind, plan, planned, mem⟩))
  have kept : ∀ producer ∈ plan.producers.values, ∀ row, Leaves graph flow producer row →
      Declares row (graph.info producer) := fun producer mem row =>
    below producer (branch producer mem) (lower producer mem) row
  -- The votes of the producers, taken before the error edges are added, bound their rows.
  have voted : ∀ producer ∈ plan.producers.values, ∃ vote cache,
      graph.success.walkEffectiveGuaranteeVote producer depth Dict.empty = .ok (vote, cache) ∧
        LowerBound (Leaves graph flow) producer vote := by
    intro producer mem
    have less := lower producer mem
    have ordered : ∀ edge ∈ graph.success.edges,
        built.rank edge.fromNode < built.rank edge.toNode := fun edge inside =>
      built.rank_lt edge (mem_filter.mp inside).1
    obtain ⟨vote, cache, walked, -, bound⟩ := walk_bounds built.wired.success
      honouring.flows.success ordered (show built.rank producer < depth by omega)
    refine ⟨vote, cache, walked, bound fun other asks => ⟨?_, vouched_success other⟩⟩
    have rests : graph.RestsOn producer other := asks.restsOn_of_success
    have ranked := asks.rank_le ordered
    exact below other ((branch producer mem).trans rests) (by omega)
  have all_voted : ∀ producer ∈ plan.producers.values, votesOf graph depth producer ≠ none := by
    intro producer mem
    obtain ⟨vote, cache, walked, -⟩ := voted producer mem
    simp [votesOf, walked]
  have honour := allHonour_branchSchemas (built.branch_schema node plan planned) sent
    fun producer mem row schema left has => (kept producer mem row left schema has).1
  have vouched := allHonour_branchSchemas all_voted sent fun producer mem row schema left has => by
    obtain ⟨vote, cache, walked, bound⟩ := voted producer mem
    simp only [votesOf, walked] at has
    cases has
    exact honours_voteSchema (bound row left)
  have given : coalesceSchema plan.settings plan.policy (some node)
      (plan.branchSchemas _ (built.branch_schema node plan planned))
      (some (plan.branchSchemas _ all_voted)) = .ok schema := made
  have admits := admits_of_merge merges arrives
  have survives := honours_merged given admits honour
    (fun votes same => by cases same; exact vouched) ran
    (typedArrives_branchSchemas _ admits (alike _ left plan kind planned))
  refine ⟨survives, fun names closed field mem => ?_⟩
  obtain ⟨select, branch, selected, found⟩ := selected_of_closed made closed
  unfold mergeData at ran
  rw [select, selected] at ran
  simp only at ran
  split at ran
  · cases ran
  · rename_i row arrived
    cases ran
    obtain ⟨producer, known, left⟩ := sent branch row arrived
    have has : (plan.producers.filterMap fun producer =>
      (graph.info producer).outputSchemaConfig).get branch = some schema := found
    rw [Dict.get_filterMap, known] at has
    exact (kept producer (Dict.mem_values.mpr ⟨branch, known⟩) row left schema has).2 names closed
      field mem

/-- The rows of every node that a vote rests on keep to its schema. -/
theorem honest_of_honouring (built : graph.Built) (honouring : Honouring graph flow nest)
    {start : NodeID} (alike : ∀ node row, graph.RestsOn start node → Leaves graph flow node row →
      graph.TypedAlike node) (rests : graph.RestsOn start node) :
    Honest graph (Leaves graph flow) node := by
  induction bound : built.rank node using Nat.strong_induction_on generalizing node with
  | h rank ih =>
    have below : ∀ other, graph.RestsOn node other → built.rank other < built.rank node →
        Honest graph (Leaves graph flow) other := fun other further less =>
      ih (built.rank other) (bound ▸ less) (rests.trans further) rfl
    by_cases merges : graph.nodeType node = .coalesce
    · exact honest_coalesce built honouring merges (fun row => alike node row rests) below
    · intro row left
      have emits := honouring node row left
      unfold Emits at emits
      cases kind : graph.nodeType node with
      | source => rwa [kind] at emits
      | transform | aggregation | collector =>
        rw [kind] at emits
        exact emits.1
      | gate =>
        rw [kind] at emits
        obtain ⟨origin, mem, sent⟩ := Enters.leaves emits
        obtain ⟨edge, inside, -, rfl, rfl⟩ := mem_origins.mp mem
        have gate : graph.transparentGate edge.toNode := by simp [transparentGate, kind]
        have same := built.gate_schema edge.toNode gate edge.fromNode mem
        have asked : edge.fromNode ∈ graph.voters edge.toNode := by
          simpa [voters, kind, forwards, gate] using mem_predecessors_of_mem_origins mem
        intro schema declared
        rw [same] at declared
        exact below edge.fromNode (.single (.inl asked)) (built.rank_lt edge inside) row sent
          schema declared
      | queue | rowUnion =>
        have bare := built.wired.bare node (by simp [fansIn, kind])
        intro schema declared
        rw [bare] at declared
        cases declared
        refine ⟨fun field mem => absurd mem (Finset.notMem_empty field), fun names listed => ?_⟩
        cases listed
      | coalesce => exact absurd kind merges
      | sink =>
        rw [kind] at emits
        exact emits.elim

end Honesty

/-! ## Votes and rows -/

/-- Where all producers of a node's rows have closed schemas, each one whose row leaves the node
lists its fields, and lists only such as are declared on every way to the node.  A node that
collects rows and abstains is not asked. -/
def Complete (graph : ContractGraph) (flow : EdgeInfo → RowData V → Prop) (node : NodeID) : Prop :=
  (∀ feeder, graph.Feeds feeder node → graph.ownClosed feeder) →
    (graph.fansIn node → graph.Speaks node) →
      ∀ feeder row, graph.Feeds feeder node → Leaves graph flow feeder row →
        Leaves graph flow node row → ∃ schema names,
          (graph.info feeder).outputSchemaConfig = some schema ∧
            schema.closedFieldNames = some names ∧ ∀ field ∈ names, graph.Declared field node

section Sound

variable {graph : ContractGraph} {flow : EdgeInfo → RowData V → Prop} {nest : RowData V → V}

/-- Every row that leaves a node left a producer that feeds it. -/
theorem exists_feeder (built : graph.Built) (flows : Flows graph (Leaves graph flow))
    {node : NodeID} {row : RowData V} (left : Leaves graph flow node row) :
    ∃ feeder, graph.Feeds feeder node ∧ graph.RestsOn node feeder ∧
      Leaves graph flow feeder row := by
  induction bound : built.rank node using Nat.strong_induction_on generalizing node with
  | h rank ih =>
    cases fans : graph.fansIn node with
    | false => exact ⟨node, .here fans, .refl, left⟩
    | true =>
      obtain ⟨origin, mem, sent⟩ := flows.collected node row fans left
      obtain ⟨edge, inside, -, rfl, rfl⟩ := mem_origins.mp mem
      obtain ⟨feeder, feeds, rests, source⟩ :=
        ih _ (bound ▸ built.rank_lt edge inside) sent rfl
      exact ⟨feeder, feeds.through (mem_predecessors_of_mem_origins mem) fans,
        .head (.inr (.inl (mem_voters_success fans mem))) rests, source⟩

end Sound

/-! ### Two closed sources in one queue -/

section Inbox

/-- Two sources with closed schemas that meet in a queue before a sink. -/
def inbox (orders refunds : List FieldDefinition) : ContractGraph where
  nodeType node :=
    if node = "orders" ∨ node = "refunds" then .source else if node = "inbox" then .queue else .sink
  edges := [⟨"orders", "inbox", "continue", .move⟩, ⟨"refunds", "inbox", "continue", .move⟩,
    ⟨"inbox", "out", "on_success", .move⟩]
  into_source := by decide
  info node :=
    if node = "orders" then { outputSchemaConfig := some ⟨.fixed, some orders, none, none⟩ }
    else if node = "refunds" then
      { outputSchemaConfig := some ⟨.fixed, some refunds, none, none⟩ }
    else { outputSchemaConfig := some (observedSchema none none) }
  plans _ := none
  forwarders node := by
    split
    · simp
    · split <;> simp
  removers node := by
    split
    · simp
    · split <;> simp

variable (orders refunds : List FieldDefinition)

theorem forwards_inbox (node : NodeID) : (inbox orders refunds).forwards node = false := by
  unfold forwards transparentGate inbox
  simp only
  split <;> split <;> simp_all
  all_goals (split <;> simp_all)

def inboxBuilt : (inbox orders refunds).Built where
  wired :=
    { one_origin := fun node forwards => by simp [forwards_inbox] at forwards
      some_origin := fun node forwards => by simp [forwards_inbox] at forwards
      bare := fun node fans => by
        unfold fansIn inbox at fans
        unfold inbox
        simp only at fans ⊢
        split at fans <;> simp_all }
  rank node := if node = "inbox" then 1 else if node = "out" then 2 else 0
  rank_lt := by
    show ∀ edge ∈ [_, _, _], _
    simp
  gate_schema node gate := by
    unfold transparentGate inbox at gate
    simp only at gate
    split at gate
    · cases gate
    · split at gate <;> cases gate
  branch_edge _ _ planned := nomatch planned
  branch_schema _ _ planned := nomatch planned
  coalesced _ _ _ planned := nomatch planned

/-- Each source emits one row with all of its fields, and the queue passes both on. -/
def inboxRow (fields : List FieldDefinition) : RowData Unit :=
  Dict.ofList (fields.map fun field => (field.name, ()))

def inboxFlow (edge : EdgeInfo) (row : RowData Unit) : Prop :=
  (edge.fromNode ≠ "refunds" ∧ row = inboxRow orders) ∨
    (edge.fromNode ≠ "orders" ∧ row = inboxRow refunds)

variable {orders refunds}

variable {fields : List FieldDefinition}

theorem mem_keys_inboxRow {name : String} :
    name ∈ (inboxRow fields).keys ↔ ∃ field ∈ fields, field.name = name := by
  unfold inboxRow
  rw [Dict.mem_keys_ofList, map_map]
  exact mem_map

theorem declares_inboxRow {info : NodeInfo}
    (closed : info.outputSchemaConfig = some ⟨.fixed, some fields, none, none⟩) :
    Declares (inboxRow fields) info := by
  intro schema declared
  rw [closed] at declared
  cases declared
  refine ⟨fun name mem => ?_, fun names lists name mem => ?_⟩
  · rcases mem_getEffectiveGuaranteedFields.mp mem with ⟨_, none, -⟩ | required
    · cases none
    · obtain ⟨_, same, field, inside, -, named⟩ := mem_declaredRequired.mp required
      cases same
      exact mem_keys_inboxRow.mpr ⟨field, inside, named⟩
  · cases lists
    refine Finset.mem_union_left _ (mem_toFinset.mpr (mem_map.mpr ?_))
    exact mem_keys_inboxRow.mp mem

theorem inboxFlow_honouring {nest : RowData Unit → Unit} :
    Honouring (inbox orders refunds) (inboxFlow orders refunds) nest := by
  rintro node row ⟨edge, mem, -, rfl, carried⟩
  have edges : edge = ⟨"orders", "inbox", "continue", .move⟩ ∨
      edge = ⟨"refunds", "inbox", "continue", .move⟩ ∨
          edge = ⟨"inbox", "out", "on_success", .move⟩ := by
    have three : edge ∈ [_, _, _] := mem
    simpa using three
  rcases edges with rfl | rfl | rfl <;> rcases carried with ⟨apart, rfl⟩ | ⟨apart, rfl⟩
  · exact declares_inboxRow rfl
  · exact absurd rfl apart
  · exact absurd rfl apart
  · exact declares_inboxRow rfl
  · exact ⟨_, mem_cons_self, by simp, rfl, .inl ⟨by simp, rfl⟩⟩
  · exact ⟨_, mem_cons_of_mem _ mem_cons_self, by simp, rfl, .inr ⟨by simp, rfl⟩⟩

theorem leaves_inbox : Leaves (inbox orders refunds) (inboxFlow orders refunds) "inbox"
    (inboxRow orders) :=
  ⟨⟨"inbox", "out", "on_success", .move⟩, by simp [inbox], by simp, rfl, .inl ⟨by simp, rfl⟩⟩

def idField : FieldDefinition := ⟨"id", .int, true, false⟩

def noteField : FieldDefinition := ⟨"note", .str, true, false⟩

theorem feeds_inbox {feeder : NodeID} (feeds : (inbox orders refunds).Feeds feeder "inbox") :
    feeder = "orders" ∨ feeder = "refunds" := by
  cases feeds with
  | here ordinary => cases ordinary
  | through above mem _ =>
    have producers : _ ∈ ["orders", "refunds"] := mem
    rcases mem_cons.mp producers with rfl | other
    · exact .inl (above.eq_of_ordinary rfl)
    · obtain rfl := mem_singleton.mp other
      exact .inr (above.eq_of_ordinary rfl)

end Inbox

end Elspeth.Guarantees
