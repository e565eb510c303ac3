import Elspeth.Regions.Graph

/-!
# Group bindings

Which groups of a pipeline are bound: a fork's branches to a coalesce or a row union, an
expanding transform's rows to a collector.  The group's opener and closer are nodes of the
graph; a fork's roster is the list of its branches, which label the opener's edges.
-/

namespace Elspeth.Regions

open List

inductive CloserKind where
  | coalesce
  | rowUnion
  | collector
  deriving DecidableEq, Repr

/-- One bound group. -/
structure GroupBinding where
  kind : FrameKind
  openerNodeId : NodeID
  openerName : String
  closerNodeId : NodeID
  closerName : String
  closerKind : CloserKind
  policy : String
  memberRoster : List String
  deriving DecidableEq, Repr

/-- The branches of the bound forks, one after the other. -/
def forkMembers (bindings : List GroupBinding) : List String :=
  (bindings.filter fun binding => binding.kind = .fork).flatMap GroupBinding.memberRoster

/-- All bound groups of one build.  Each opener is bound to one closer, each closer closes one
group, and no branch belongs to two forks. -/
structure GroupBindingRegistry where
  bindings : List GroupBinding
  nodup_openers : (bindings.map GroupBinding.openerNodeId).Nodup
  nodup_closers : (bindings.map GroupBinding.closerNodeId).Nodup
  nodup_members : (forkMembers bindings).Nodup

inductive RegistryError where
  | openersBoundTwice (openers : List NodeID)
  | closersBoundTwice (closers : List NodeID)
  | branchInTwoRosters (branch : String)
  deriving DecidableEq, Repr

/-- The items that occur more than once, sorted. -/
def repeatedItems (items : List String) : List String :=
  (items.dedup.filter fun item => 1 < items.count item).mergeSort

/-- The first item that occurs before. -/
def firstRepeated : List String → List String → Option String
  | _, [] => none
  | seen, item :: items => if item ∈ seen then some item else firstRepeated (item :: seen) items

theorem nodup_of_repeatedItems {items : List String} (none : repeatedItems items = []) :
    items.Nodup := by
  rw [nodup_iff_count_le_one]
  intro item
  by_contra many
  have mem : item ∈ repeatedItems items := by
    rw [repeatedItems, mem_mergeSort, mem_filter, mem_dedup]
    exact ⟨count_pos_iff.mp (by omega), by simpa using by omega⟩
  rw [none] at mem
  exact not_mem_nil mem

theorem nodup_of_firstRepeated {seen items : List String}
    (none : firstRepeated seen items = none) : items.Nodup ∧ ∀ item ∈ items, item ∉ seen := by
  induction items generalizing seen with
  | nil => exact ⟨nodup_nil, fun _ mem => absurd mem not_mem_nil⟩
  | cons item items ih =>
    unfold firstRepeated at none
    split at none
    · cases none
    · rename_i new
      obtain ⟨nodup, unseen⟩ := ih none
      refine ⟨nodup_cons.mpr ⟨fun mem => unseen item mem mem_cons_self, nodup⟩, ?_⟩
      exact forall_mem_cons.mpr
        ⟨new, fun other mem seen => unseen other mem (mem_cons_of_mem _ seen)⟩

/-- `GroupBindingRegistry(bindings)`, with the checks of its construction. -/
def GroupBindingRegistry.new (bindings : List GroupBinding) :
    Except RegistryError GroupBindingRegistry :=
  if openers : repeatedItems (bindings.map GroupBinding.openerNodeId) = [] then
    if closers : repeatedItems (bindings.map GroupBinding.closerNodeId) = [] then
      match members : firstRepeated [] (forkMembers bindings) with
      | none => .ok ⟨bindings, nodup_of_repeatedItems openers, nodup_of_repeatedItems closers,
          (nodup_of_firstRepeated members).1⟩
      | some branch => .error (.branchInTwoRosters branch)
    else .error (.closersBoundTwice (repeatedItems (bindings.map GroupBinding.closerNodeId)))
  else .error (.openersBoundTwice (repeatedItems (bindings.map GroupBinding.openerNodeId)))

namespace GroupBindingRegistry

variable (registry : GroupBindingRegistry)

/-- The binding that a node opens. -/
def byOpenerNode (node : NodeID) : Option GroupBinding :=
  registry.bindings.find? fun binding => binding.openerNodeId = node

variable {registry}

theorem byOpenerNode_eq_some {node : NodeID} {binding : GroupBinding}
    (found : registry.byOpenerNode node = some binding) :
    binding ∈ registry.bindings ∧ binding.openerNodeId = node := by
  have opens := find?_some (show registry.bindings.find? _ = some binding from found)
  exact ⟨mem_of_find?_eq_some found, of_decide_eq_true opens⟩

end GroupBindingRegistry

end Elspeth.Regions
