import Elspeth.Regions.SingleEntry

/-!
# Nesting

Two regions of an accepted graph lie apart, or one of them lies, with its opener and its
closer, among the members of the other.  A region's depth counts the regions around it and the
region itself.
-/

namespace Elspeth.Regions

open Semantics List

variable {graph : ExecutionGraph} {registry : GroupBindingRegistry} {maxDepth : Nat}
  {regions : List BoundRegion}

/-- A region that lies, with its ends, among the members of another. -/
def BoundRegion.Inside (inner outer : BoundRegion) : Prop :=
  inner.inRegion ⊆ outer.memberNodeIds

/-! ## Pairs -/

instance : Std.Symm fun first second : Span => wellNested first second = true where
  symm first second nested := by
    rcases of_decide_eq_true nested with apart | within | around
    · exact decide_eq_true (.inl apart.symm)
    · exact decide_eq_true (.inr (.inr within))
    · exact decide_eq_true (.inr (.inl around))

theorem pairwise_of_firstOverlap {spans : List Span} (none : firstOverlap spans = none) :
    spans.Pairwise fun first second => wellNested first second = true := by
  induction spans with
  | nil => exact .nil
  | cons first rest ih =>
    unfold firstOverlap at none
    split at none
    · cases none
    · rename_i apart
      refine .cons (fun second mem => ?_) (ih none)
      simpa using find?_eq_none.mp apart second mem

variable {region first second : BoundRegion}

theorem mem_spansOf (mem : region ∈ regionsOf graph registry) :
    (region.binding, region.memberNodeIds) ∈ spansOf graph registry := by
  obtain ⟨span, listed, rfl⟩ := mem_map.mp mem
  exact listed

/-- The members of a region exclude its ends. -/
theorem ends_not_mem (mem : region ∈ regionsOf graph registry) :
    region.binding.openerNodeId ∉ region.memberNodeIds ∧
      region.binding.closerNodeId ∉ region.memberNodeIds := by
  obtain ⟨span, listed, rfl⟩ := mem_map.mp mem
  obtain ⟨binding, inside, rfl⟩ := mem_map.mp listed
  exact ⟨fun opener => (mem_membersOf.mp opener).2.2.1 rfl,
    fun closer => (mem_membersOf.mp closer).2.2.2 rfl⟩

/-- Regions of different bindings lie apart or inside each other. -/
theorem apart_or_inside (nested : firstOverlap (spansOf graph registry) = none)
    (mem : first ∈ regionsOf graph registry) (mem' : second ∈ regionsOf graph registry)
    (other : first.binding ≠ second.binding) :
    Disjoint first.inRegion second.inRegion ∨ first.Inside second ∨ second.Inside first := by
  have distinct : (first.binding, first.memberNodeIds) ≠ (second.binding, second.memberNodeIds) :=
    fun same => other (congrArg Prod.fst same)
  have pair : wellNested (first.binding, first.memberNodeIds)
      (second.binding, second.memberNodeIds) = true :=
    (pairwise_of_firstOverlap nested).forall (mem_spansOf mem) (mem_spansOf mem') distinct
  rcases of_decide_eq_true pair with apart | within | around
  · exact .inl apart
  · exact .inr (.inr within)
  · exact .inr (.inl around)

/-- Two regions of one binding are one. -/
theorem eq_of_binding (mem : first ∈ regionsOf graph registry)
    (mem' : second ∈ regionsOf graph registry) (same : first.binding = second.binding) :
    first = second := by
  obtain ⟨_, listed, rfl⟩ := mem_map.mp mem
  obtain ⟨_, listed', rfl⟩ := mem_map.mp mem'
  obtain ⟨binding, -, rfl⟩ := mem_map.mp listed
  obtain ⟨binding', -, rfl⟩ := mem_map.mp listed'
  cases same
  rfl

theorem members_subset_inRegion (region : BoundRegion) : region.memberNodeIds ⊆ region.inRegion :=
  Finset.subset_union_left

theorem opener_mem_inRegion (region : BoundRegion) :
    region.binding.openerNodeId ∈ region.inRegion :=
  mem_inRegion.mpr (.inr (.inl rfl))

theorem closer_mem_inRegion (region : BoundRegion) :
    region.binding.closerNodeId ∈ region.inRegion :=
  mem_inRegion.mpr (.inr (.inr rfl))

/-- A region inside another is strictly contained in it, with or without the ends. -/
theorem BoundRegion.Inside.ssubset {inner outer : BoundRegion} (inside : inner.Inside outer)
    (memInner : inner ∈ regionsOf graph registry) (memOuter : outer ∈ regionsOf graph registry) :
    inner.inRegion ⊂ outer.inRegion ∧ inner.memberNodeIds ⊂ outer.memberNodeIds := by
  constructor
  · refine ⟨inside.trans (members_subset_inRegion outer), fun back => ?_⟩
    exact (ends_not_mem memOuter).1 (inside (back (opener_mem_inRegion outer)))
  · refine ⟨(members_subset_inRegion inner).trans inside, fun back => ?_⟩
    exact (ends_not_mem memInner).1 (back (inside (opener_mem_inRegion inner)))

section

variable (nested : firstOverlap (spansOf graph registry) = none)
include nested

/-- A region whose opener is a member of another lies inside it. -/
theorem inside_of_opener {inner outer : BoundRegion} (memInner : inner ∈ regionsOf graph registry)
    (memOuter : outer ∈ regionsOf graph registry)
    (opener : inner.binding.openerNodeId ∈ outer.memberNodeIds) : inner.Inside outer := by
  have other : inner.binding ≠ outer.binding := by
    intro same
    rw [same] at opener
    exact (ends_not_mem memOuter).1 opener
  rcases apart_or_inside nested memInner memOuter other with apart | inside | around
  · exact absurd (members_subset_inRegion outer opener)
      (Finset.disjoint_left.mp apart (opener_mem_inRegion inner))
  · exact inside
  -- An opener in the outer region cannot lie around it.
  · exact absurd (around (members_subset_inRegion outer opener)) (ends_not_mem memInner).1

/-! ## Depth -/

/-- A region lies inside another exactly when it is strictly contained in it. -/
theorem inside_iff_ssubset {inner outer : BoundRegion}
    (memInner : inner ∈ regionsOf graph registry) (memOuter : outer ∈ regionsOf graph registry) :
    outer.binding ≠ inner.binding ∧ inner.Inside outer ↔ inner.inRegion ⊂ outer.inRegion := by
  constructor
  · exact fun inside => (inside.2.ssubset memInner memOuter).1
  · intro within
    have other : outer.binding ≠ inner.binding := by
      intro same
      rw [eq_of_binding memOuter memInner same] at within
      exact within.2 within.1
    refine ⟨other, ?_⟩
    rcases apart_or_inside nested memInner memOuter other.symm with apart | inside | around
    · exact absurd (within.1 (opener_mem_inRegion inner))
        (Finset.disjoint_left.mp apart (opener_mem_inRegion inner))
    · exact inside
    · exact absurd (around.trans (members_subset_inRegion inner)) within.2

theorem depth_eq {region : BoundRegion} (mem : region ∈ regionsOf graph registry) :
    region.depth = 1 + ((regionsOf graph registry).filter fun outer =>
      region.inRegion ⊂ outer.inRegion).length := by
  have counted : region.depth =
      depthIn (spansOf graph registry) (region.binding, region.memberNodeIds) := by
    obtain ⟨span, listed, rfl⟩ := mem_map.mp mem
    rfl
  rw [counted, depthIn, regionsOf, filter_map, length_map]
  congr 2
  refine filter_congr fun span listed => decide_eq_decide.mpr ?_
  exact inside_iff_ssubset nested mem (mem_map_of_mem listed)

end

/-! ## The refusal that never fires -/

/-- Laminarity of the accepted regions. -/
structure Laminar (registry : GroupBindingRegistry) (regions : List BoundRegion) : Prop where
  nested : ∀ first ∈ regions, ∀ second ∈ regions, first ≠ second →
    Disjoint first.inRegion second.inRegion ∨
      first.inRegion ⊂ second.inRegion ∧ first.memberNodeIds ⊂ second.memberNodeIds ∨
        second.inRegion ⊂ first.inRegion ∧ second.memberNodeIds ⊂ first.memberNodeIds
  closers : ∀ region ∈ regions, ∀ binding ∈ registry.bindings,
    binding.openerNodeId ∈ region.memberNodeIds → binding.closerNodeId ∈ region.memberNodeIds
  refusal : ∀ census binding inner name,
    validateOpenersBoundInRegion regions registry census ≠
      .error (.closesOutside binding inner name)
  depth : ∀ region ∈ regions, region.depth =
    1 + (regions.filter fun outer => region.inRegion ⊂ outer.inRegion).length

theorem exists_region {binding : GroupBinding} (mem : binding ∈ registry.bindings) :
    ∃ region ∈ regionsOf graph registry, region.binding = binding :=
  ⟨_, mem_map.mpr ⟨_, mem_map.mpr ⟨binding, mem, rfl⟩, rfl⟩, rfl⟩

/-- The regions of an accepted graph nest. -/
theorem regions_laminar (graph : ExecutionGraph) (registry : GroupBindingRegistry)
    (maxDepth : Nat) (regions : List BoundRegion)
    (computed : computeBoundRegions graph registry maxDepth = .ok regions) :
    Laminar registry regions := by
  obtain ⟨nested, -, rfl⟩ := computeBoundRegions_eq_ok.mp computed
  have closers : ∀ region ∈ regionsOf graph registry, ∀ binding ∈ registry.bindings,
      binding.openerNodeId ∈ region.memberNodeIds →
        binding.closerNodeId ∈ region.memberNodeIds := by
    intro region mem binding bound opener
    obtain ⟨inner, memInner, rfl⟩ : ∃ inner ∈ regionsOf graph registry, inner.binding = binding :=
      exists_region bound
    exact inside_of_opener nested memInner mem opener (closer_mem_inRegion inner)
  refine ⟨?_, closers, ?_, fun region => depth_eq nested⟩
  · intro first mem second mem' distinct
    have other : first.binding ≠ second.binding :=
      fun same => distinct (eq_of_binding mem mem' same)
    rcases apart_or_inside nested mem mem' other with apart | inside | around
    · exact .inl apart
    · exact .inr (.inl (inside.ssubset mem mem'))
    · exact .inr (.inr (around.ssubset mem' mem))
  · intro census binding inner name raised
    obtain ⟨region, mem, raised⟩ := forM_eq_error raised
    rcases then_eq_error raised with gates | nodes
    · obtain ⟨gate, -, refused⟩ := forM_eq_error gates
      unfold checkForkGate at refused
      split at refused
      · split at refused
        · cases refused
        · cases (refuse_eq_error.mp refused).2
      · cases refused
    · obtain ⟨node, -, refused⟩ := forM_eq_error nodes
      unfold checkMultiRow at refused
      split at refused
      · rename_i member
        split at refused
        · cases refused
        · rename_i found opened
          obtain ⟨bound, rfl⟩ := GroupBindingRegistry.byOpenerNode_eq_some opened
          exact (refuse_eq_error.mp refused).1 (closers region mem found bound member)
      · cases refused

theorem forkAndScope_laminar : Laminar forkAndScopeRegistry forkAndScopeRegions :=
  regions_laminar forkAndScope forkAndScopeRegistry 5 forkAndScopeRegions forkAndScope_computed

def forkAndScopeCensus : Census := ⟨id, {"fork"}, {"expand"}, id⟩

/-- The two regions of the accepted pipeline lie in no other, at depth one. -/
theorem forkAndScope_depth :
    computeBoundRegions forkAndScope forkAndScopeRegistry 5 = .ok forkAndScopeRegions ∧
      validateSeseRegions forkAndScope forkAndScopeRegions = .ok () ∧
      validateOpenersBoundInRegion forkAndScopeRegions forkAndScopeRegistry forkAndScopeCensus =
        .ok () ∧
      ∀ region ∈ forkAndScopeRegions, region.depth ≠
        (forkAndScopeRegions.filter fun outer => region.inRegion ⊂ outer.inRegion).length := by
  refine ⟨forkAndScope_computed, forkAndScope_valid, ?_, ?_⟩
  · have outside : ∀ region ∈ forkAndScopeRegions,
        "fork" ∉ region.memberNodeIds ∧ "expand" ∉ region.memberNodeIds := by
      decide +kernel
    refine forM_eq_ok.mpr fun region mem => then_eq_ok.mpr ⟨?_, ?_⟩
    · refine forM_eq_ok.mpr fun gate listed => if_neg ?_
      rw [Finset.mem_singleton.mp ((Finset.mem_sort _).mp listed)]
      exact (outside region mem).1
    · refine forM_eq_ok.mpr fun node listed => if_neg ?_
      rw [Finset.mem_singleton.mp ((Finset.mem_sort _).mp listed)]
      exact (outside region mem).2
  · intro region mem
    have counted : region.depth = 1 + (forkAndScopeRegions.filter fun outer =>
        region.inRegion ⊂ outer.inRegion).length :=
      depth_eq (computeBoundRegions_eq_ok.mp forkAndScope_computed).1 mem
    omega

end Elspeth.Regions
