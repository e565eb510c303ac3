import Mathlib.Data.List.Dedup
import Mathlib.Logic.Relation

/-!
# Closing a set under successors

A set is closed under a relation by a worklist: take a pending element, add those of
its successors that are not in the set yet, and put them on the list.  Every element is
put on the list at most once, so a bound on the number of elements that are not in the
set bounds the number of rounds.

`mem_close` says that what comes out is exactly what can be reached, for every order in
which the list is worked off.
-/

namespace Worklist

open List

variable {α : Type} [DecidableEq α]

/-- Those of the successors that are new, each once. -/
def fresh (successors : List α) (visited : List α) : List α :=
  (successors.filter fun item => item ∉ visited).dedup

/-- At most `fuel` rounds of the worklist. -/
def close (successors : α → List α) : Nat → List α → List α → List α
  | 0, _, visited => visited
  | _ + 1, [], visited => visited
  | fuel + 1, item :: pending, visited =>
    let added := fresh (successors item) visited
    close successors fuel (added ++ pending) (added ++ visited)

/-- One element is a successor of another. -/
def Edge (successors : α → List α) (source target : α) : Prop :=
  target ∈ successors source

/-- The elements some roots reach. -/
def Reaches (successors : α → List α) (roots : List α) (target : α) : Prop :=
  ∃ root ∈ roots, Relation.ReflTransGen (Edge successors) root target

variable {visited roots pending universe_ : List α} {item : α} {successors : α → List α}
  {fuel : Nat}

theorem mem_fresh {successors : List α} :
    item ∈ fresh successors visited ↔ item ∈ successors ∧ item ∉ visited := by
  simp [fresh]

theorem nodup_fresh (successors visited : List α) : (fresh successors visited).Nodup :=
  nodup_dedup _

omit [DecidableEq α] in
theorem Reaches.root (root : item ∈ roots) : Reaches successors roots item :=
  ⟨item, root, .refl⟩

omit [DecidableEq α] in
theorem Reaches.step {source target : α} (reached : Reaches successors roots source)
    (edge : target ∈ successors source) : Reaches successors roots target := by
  obtain ⟨root, isRoot, path⟩ := reached
  exact ⟨root, isRoot, path.tail edge⟩

omit [DecidableEq α] in
/-- **Reachability is the least closed set.** -/
theorem Reaches.least {closed : α → Prop} (starts : ∀ item ∈ roots, closed item)
    (steps : ∀ source, closed source → ∀ target ∈ successors source, closed target)
    {item : α} (reached : Reaches successors roots item) : closed item := by
  obtain ⟨root, isRoot, path⟩ := reached
  induction path with
  | refl => exact starts root isRoot
  | tail _ edge ih => exact steps _ ih _ edge

/-- What the worklist keeps: it only holds what has been visited, and the successors of
a visited element that is not on it are visited. -/
structure Invariant (successors : α → List α) (roots pending visited : List α) : Prop where
  starts : ∀ item ∈ roots, item ∈ visited
  waiting : ∀ item ∈ pending, item ∈ visited
  sound : ∀ item ∈ visited, Reaches successors roots item
  done : ∀ item ∈ visited, item ∉ pending → ∀ target ∈ successors item, target ∈ visited

omit [DecidableEq α] in
theorem Invariant.initial (successors : α → List α) (roots : List α) :
    Invariant successors roots roots roots where
  starts _ root := root
  waiting _ root := root
  sound _ root := .root root
  done _ root waits := absurd root waits

theorem Invariant.round (kept : Invariant successors roots (item :: pending) visited) :
    Invariant successors roots (fresh (successors item) visited ++ pending)
      (fresh (successors item) visited ++ visited) where
  starts root isRoot := mem_append_right _ (kept.starts root isRoot)
  waiting queued listed := by
    rcases mem_append.mp listed with new | old
    · exact mem_append_left _ new
    · exact mem_append_right _ (kept.waiting queued (mem_cons_of_mem _ old))
  sound reached listed := by
    rcases mem_append.mp listed with new | old
    · have here := kept.sound item (kept.waiting item mem_cons_self)
      exact here.step (mem_fresh.mp new).1
    · exact kept.sound reached old
  done source listed waits target edge := by
    have old : source ∈ visited := by
      rcases mem_append.mp listed with new | old
      · exact absurd (mem_append_left _ new) waits
      · exact old
    by_cases here : source = item
    · subst here
      by_cases seen : target ∈ visited
      · exact mem_append_right _ seen
      · exact mem_append_left _ (mem_fresh.mpr ⟨edge, seen⟩)
    · refine mem_append_right _ (kept.done source old ?_ target edge)
      intro queued
      rcases mem_cons.mp queued with same | rest
      · exact here same
      · exact waits (mem_append_right _ rest)

/-- The elements of a universe that are not visited yet. -/
def unvisited (universe_ visited : List α) : Nat :=
  (fresh universe_ visited).length

/-- Visiting new elements of the universe uses it up. -/
theorem unvisited_append {added : List α} (once : added.Nodup)
    (inside : ∀ item ∈ added, item ∈ universe_) (new : ∀ item ∈ added, item ∉ visited) :
    unvisited universe_ (added ++ visited) + added.length = unvisited universe_ visited := by
  have parts : (fresh universe_ visited).Perm (fresh universe_ (added ++ visited) ++ added) := by
    refine (perm_ext_iff_of_nodup (nodup_fresh _ _) ?_).mpr fun item => ?_
    · refine Nodup.append (nodup_fresh _ _) once ?_
      intro item left right
      exact (mem_fresh.mp left).2 (mem_append_left _ right)
    · simp only [mem_fresh, mem_append, not_or]
      constructor
      · rintro ⟨inUniverse, unseen⟩
        by_cases isAdded : item ∈ added
        · exact Or.inr isAdded
        · exact Or.inl ⟨inUniverse, isAdded, unseen⟩
      · rintro (⟨inUniverse, -, unseen⟩ | isAdded)
        · exact ⟨inUniverse, unseen⟩
        · exact ⟨inside item isAdded, new item isAdded⟩
  have lengths := parts.length_eq
  rw [length_append] at lengths
  exact lengths.symm

/-- With enough fuel the list runs empty. -/
theorem close_invariant (inside : ∀ source, ∀ target ∈ successors source, target ∈ universe_)
    (kept : Invariant successors roots pending visited)
    (enough : pending.length + unvisited universe_ visited ≤ fuel) :
    Invariant successors roots [] (close successors fuel pending visited) := by
  induction fuel generalizing pending visited with
  | zero =>
    obtain rfl : pending = [] := length_eq_zero_iff.mp (by omega)
    exact kept
  | succ fuel ih =>
    cases pending with
    | nil => exact kept
    | cons item pending =>
      refine ih kept.round ?_
      have used := unvisited_append (nodup_fresh (successors item) visited)
        (fun target new => inside item target (mem_fresh.mp new).1)
        fun target new => (mem_fresh.mp new).2
      simp only [length_cons, length_append] at enough ⊢
      omega

theorem unvisited_le (universe_ visited : List α) :
    unvisited universe_ visited ≤ universe_.length :=
  Nat.le_trans (dedup_sublist _).length_le (length_filter_le _ _)

/-- **The worklist computes reachability.** -/
theorem mem_close (inside : ∀ source, ∀ target ∈ successors source, target ∈ universe_)
    (enough : roots.length + universe_.length ≤ fuel) :
    item ∈ close successors fuel roots roots ↔ Reaches successors roots item := by
  have bound := unvisited_le universe_ roots
  have closed := close_invariant inside (Invariant.initial successors roots)
    (show roots.length + unvisited universe_ roots ≤ fuel by omega)
  constructor
  · exact closed.sound item
  · intro reached
    refine reached.least closed.starts ?_
    intro source visited
    exact closed.done source visited not_mem_nil

end Worklist
