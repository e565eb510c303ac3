import Mathlib.Data.List.Perm.Basic
import Mathlib.Data.List.Nodup

/-!
# Orders that respect dependencies

A list of nodes is in a linear order of its dependencies if every dependency of a node
comes before it.  A sorter returns such an order, or nothing when it finds a cycle; which
of several orders it returns is its own affair, and nothing is proved about it here.
-/

namespace DependencyOrder

variable {α : Type} [DecidableEq α]

/-- The nodes, each preceded by what it depends on. -/
structure Linear (nodes : List α) (dependsOn : α → List α) (order : List α) : Prop where
  nodes : order.Perm nodes
  before : ∀ earlier node later, order = earlier ++ node :: later →
    ∀ dependency ∈ dependsOn node, dependency ∈ earlier

/-- A topological sorter: every order it returns is linear. -/
structure Sorter (α : Type) where
  staticOrder : List α → (α → List α) → Option (List α)
  linear : ∀ {nodes dependsOn order}, nodes.Nodup →
    staticOrder nodes dependsOn = some order → Linear nodes dependsOn order

/-- Peel off the nodes whose dependencies are all done, layer by layer. -/
def layered (dependsOn : α → List α) : Nat → List α → List α → Option (List α)
  | _, [], _ => some []
  | 0, _ :: _, _ => none
  | fuel + 1, node :: nodes, done =>
    let ready := (node :: nodes).filter fun item => (dependsOn item).all (· ∈ done)
    let waiting := (node :: nodes).filter fun item => !(dependsOn item).all (· ∈ done)
    if ready = [] then none
    else (layered dependsOn fuel waiting (done ++ ready)).map (ready ++ ·)

theorem layered_linear {dependsOn : α → List α} {fuel : Nat} {nodes done order : List α}
    (sorted : layered dependsOn fuel nodes done = some order) :
    order.Perm nodes ∧ ∀ earlier node later, order = earlier ++ node :: later →
      ∀ dependency ∈ dependsOn node, dependency ∈ done ++ earlier := by
  induction fuel generalizing nodes done order with
  | zero =>
    cases nodes with
    | nil =>
      cases sorted
      exact ⟨.refl _, fun earlier node later split => by simp at split⟩
    | cons => cases sorted
  | succ fuel ih =>
    cases nodes with
    | nil =>
      cases sorted
      exact ⟨.refl _, fun earlier node later split => by simp at split⟩
    | cons node nodes =>
      simp only [layered] at sorted
      split at sorted
      · cases sorted
      · obtain ⟨rest, restSorted, rfl⟩ := Option.map_eq_some_iff.mp sorted
        obtain ⟨perm, before⟩ := ih restSorted
        refine ⟨?_, ?_⟩
        · refine (List.Perm.append_left _ perm).trans ?_
          simpa using List.filter_append_perm
            (fun item => (dependsOn item).all (· ∈ done)) (node :: nodes)
        · intro earlier item later split dependency depends
          -- The item lies in this layer, or in one of the layers after it.
          rcases List.append_eq_append_iff.mp split with
            ⟨middle, rfl, tail⟩ | ⟨middle, layer, tail⟩
          · have earlierDone := before middle item later tail dependency depends
            simpa [List.append_assoc] using earlierDone
          · cases middle with
            | nil =>
              have earlierDone := before [] item later (by simpa using tail.symm) dependency
                depends
              simp only [List.append_nil] at earlierDone layer
              rw [← layer]
              exact earlierDone
            | cons head middle =>
              obtain ⟨rfl, -⟩ : item = head ∧ later = middle ++ rest := by
                simpa using tail
              have isReady : item ∈ (node :: nodes).filter
                  fun entry => (dependsOn entry).all (· ∈ done) := by
                rw [layer]
                simp
              have all := (List.mem_filter.mp isReady).2
              have here := List.all_eq_true.mp all dependency depends
              exact List.mem_append_left _ (of_decide_eq_true here)

/-- The layered sorter. -/
def Sorter.layered : Sorter α where
  staticOrder nodes dependsOn := DependencyOrder.layered dependsOn nodes.length nodes []
  linear _ sorted := by
    obtain ⟨perm, before⟩ := layered_linear sorted
    exact ⟨perm, by simpa using before⟩

end DependencyOrder
