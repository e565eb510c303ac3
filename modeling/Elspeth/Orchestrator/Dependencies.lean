import Elspeth.Semantics.Traced
import Mathlib.Data.List.Chain

/-!
# Dependencies between settings files

Before a pipeline runs, the settings files it depends on are walked depth first.  The walk
refuses a file that is on its own stack, and a file below the depth limit, and it does not go
into a file again that it has finished.
-/

namespace Elspeth.Dependencies

open List Semantics Relation

variable {Path : Type}

/-! ## The walk -/

/-- An entry of `depends_on`, with the path that its settings resolve to from its file. -/
structure Dependency (Path : Type) where
  name : String
  settings : String
  absolute : Bool
  resolved : Path

inductive DetectError (Path : Type) where
  | invalidSettings (path : Path) (fault : String)
  | absolutePath (name settings : String)
  | escapesRoot (name settings : String) (resolved : Path)
  | depthLimit (maxDepth : Nat) (chain : List Path)
  | circular (cycle : List Path)
  deriving DecidableEq

def resolveDependencySettingsPath (underRoot : Path → Bool) (dependency : Dependency Path) :
    Except (DetectError Path) Path :=
  if dependency.absolute then .error (.absolutePath dependency.name dependency.settings)
  else if underRoot dependency.resolved then .ok dependency.resolved
  else .error (.escapesRoot dependency.name dependency.settings dependency.resolved)

section

variable [DecidableEq Path]
  (loadDependsOn : Path → Except (DetectError Path) (List (Dependency Path)))
  (underRoot : Path → Bool) (maxDepth : Nat)

/-- The finished files after a walk from a file, with the depth that is left. -/
def detectCycles : Nat → Path → List Path → List Path → Except (DetectError Path) (List Path)
  | 0, path, stack, _ => .error (.depthLimit maxDepth (stack ++ [path]))
  | depth + 1, path, stack, visited =>
    if path ∈ stack then .error (.circular (stack.drop (stack.idxOf path) ++ [path]))
    else if path ∈ visited then .ok visited
    else do
      let dependencies ← loadDependsOn path
      let finished ← dependencies.foldlM (fun visited dependency => do
        let target ← resolveDependencySettingsPath underRoot dependency
        detectCycles depth target (stack ++ [path]) visited) visited
      pure (path :: finished)

end

/-- Settings files that can be read, with relative dependencies under the root. -/
structure SettingsGraph (Path : Type) where
  dependsOn : Path → List (Dependency Path)
  underRoot : Path → Bool
  relative : ∀ path, ∀ dependency ∈ dependsOn path, dependency.absolute = false
  inside : ∀ path, ∀ dependency ∈ dependsOn path, underRoot dependency.resolved = true

namespace SettingsGraph

variable (graph : SettingsGraph Path)

def targets (path : Path) : List Path := (graph.dependsOn path).map Dependency.resolved

def Edge (source target : Path) : Prop := target ∈ graph.targets source

def Reaches : Path → Path → Prop := ReflTransGen graph.Edge

/-- No file on a cycle is reached. -/
def Acyclic (root : Path) : Prop := ∀ path, graph.Reaches root path → ¬TransGen graph.Edge path path

/-- No chain of dependencies has more files than the limit. -/
def Bounded (root : Path) (maxDepth : Nat) : Prop :=
  ∀ chain, IsChain graph.Edge (root :: chain) → (root :: chain).length ≤ maxDepth

/-- No file of the chain before its last can be reached from a dependency that is listed
before the one the chain goes on with. -/
def Leftmost : List Path → Prop
  | path :: target :: chain =>
    (∃ before after, graph.targets path = before ++ target :: after ∧
      ∀ earlier ∈ before, ∀ later ∈ (target :: chain).dropLast, ¬graph.Reaches earlier later) ∧
    Leftmost (target :: chain)
  | _ => True

/-- The files list the same dependencies, in another order. -/
def Reorders (other : SettingsGraph Path) : Prop :=
  ∀ path, (other.dependsOn path).Perm (graph.dependsOn path)

variable {graph} {maxDepth depth : Nat} {path root : Path} {stack visited finished : List Path}

theorem Leftmost.isChain {chain : List Path} (leftmost : graph.Leftmost chain) :
    IsChain graph.Edge chain := by
  induction chain with
  | nil => exact .nil
  | cons path chain ih =>
    cases chain with
    | nil => exact .singleton path
    | cons target chain =>
      obtain ⟨⟨before, after, split, _⟩, rest⟩ := leftmost
      exact .cons_cons (split ▸ by simp : target ∈ graph.targets path) (ih rest)

theorem Reorders.edge_iff {other : SettingsGraph Path} (reorders : graph.Reorders other)
    (source target : Path) :
    other.Edge source target ↔ graph.Edge source target :=
  ((reorders source).map _).mem_iff

/-! ## Walks in turn -/

/-- The finished files are closed under dependencies and on no cycle, and none is on the stack. -/
structure Fresh (graph : SettingsGraph Path) (stack visited : List Path) : Prop where
  closed : ∀ path ∈ visited, ∀ target ∈ graph.targets path, target ∈ visited
  acyclic : ∀ path ∈ visited, ¬TransGen graph.Edge path path
  off : ∀ path ∈ stack, path ∉ visited

/-- A walk from some files has finished what they reach. -/
structure Finishes (graph : SettingsGraph Path) (stack visited roots finished : List Path) : Prop
    extends Fresh graph stack finished where
  mem : ∀ path, path ∈ finished ↔ path ∈ visited ∨ ∃ root ∈ roots, graph.Reaches root path

theorem Fresh.reaches (fresh : Fresh graph stack visited) (listed : root ∈ visited)
    (reached : graph.Reaches root path) : path ∈ visited := by
  induction reached with
  | refl => exact listed
  | tail _ edge ih => exact fresh.closed _ ih _ edge

theorem Fresh.push (fresh : Fresh graph stack visited) (unknown : path ∉ visited) :
    Fresh graph (stack ++ [path]) visited := by
  refine ⟨fresh.closed, fresh.acyclic, fun other listed => ?_⟩
  rcases mem_append.mp listed with old | new
  · exact fresh.off other old
  · exact mem_singleton.mp new ▸ unknown

theorem Reaches.cases_head (reached : graph.Reaches root path) :
    path = root ∨ ∃ target ∈ graph.targets root, graph.Reaches target path :=
  (ReflTransGen.cases_head reached).imp_left Eq.symm

/-- A chain that goes on from a file is bounded, if it avoids the finished files. -/
def Limits (graph : SettingsGraph Path) (visited : Path → Prop) (path : Path) (depth : Nat) :
    Prop :=
  ∀ chain, graph.Leftmost (path :: chain) → (∀ other ∈ (path :: chain).dropLast, ¬visited other) →
    (path :: chain).length ≤ depth

section

variable {step : List Path → Path → Except (DetectError Path) (List Path)} {targets : List Path}
  (finishes : ∀ target visited finished, Fresh graph stack visited →
    step visited target = .ok finished →
    Finishes graph stack visited [target] finished) (fresh : Fresh graph stack visited)
include finishes fresh

/-- Walks from some files in turn finish what all of them reach. -/
theorem foldlM_finishes (ran : targets.foldlM step visited = .ok finished) :
    Finishes graph stack visited targets finished := by
  induction targets generalizing visited with
  | nil =>
    cases ran
    exact ⟨fresh, fun _ => by simp⟩
  | cons target targets ih =>
    obtain ⟨middle, first, rest⟩ := bind_eq_ok.mp ran
    have here := finishes target visited middle fresh first
    have later := ih here.toFresh rest
    refine ⟨later.toFresh, fun path => ?_⟩
    rw [later.mem, here.mem, or_assoc]
    simp

/-- Walks from some files in turn return when each of them does after those before it. -/
theorem foldlM_returns_iff (each : ∀ target ∈ targets, ∀ visited, Fresh graph stack visited →
      ((∃ finished, step visited target = .ok finished) ↔
        graph.Limits (· ∈ visited) target depth)) :
    (∃ finished, targets.foldlM step visited = .ok finished) ↔
      ∀ before target after, targets = before ++ target :: after →
        graph.Limits (fun path => path ∈ visited ∨ ∃ earlier ∈ before, graph.Reaches earlier path)
          target depth := by
  induction targets generalizing visited with
  | nil => exact iff_of_true ⟨visited, rfl⟩ fun before target after split => by simp at split
  | cons first targets ih =>
    obtain ⟨here, others⟩ := forall_mem_cons.mp each
    constructor
    · rintro ⟨finished, ran⟩ before target after split
      obtain ⟨middle, walked, rest⟩ := bind_eq_ok.mp ran
      have done := finishes first visited middle fresh walked
      cases before with
      | nil =>
        cases split
        simpa using (here visited fresh).mp ⟨middle, walked⟩
      | cons _ before =>
        cases split
        have limits := (ih done.toFresh others).mp ⟨finished, rest⟩ before target after rfl
        simpa [done.mem, or_assoc] using limits
    · intro limits
      obtain ⟨middle, walked⟩ := (here visited fresh).mpr
        (by simpa using limits [] first targets rfl)
      have done := finishes first visited middle fresh walked
      obtain ⟨finished, rest⟩ := (ih done.toFresh others).mpr fun before target after split => by
        simpa [done.mem, or_assoc] using limits (first :: before) target after (by rw [split]; rfl)
      exact ⟨finished, bind_eq_ok.mpr ⟨middle, walked, rest⟩⟩

end

/-! ## The walk of a graph -/

theorem foldlM_congr {α σ ε : Type} {first second : σ → α → Except ε σ} {items : List α}
    (same : ∀ item ∈ items, ∀ state, first state item = second state item) (state : σ) :
    items.foldlM first state = items.foldlM second state := by
  induction items generalizing state with
  | nil => rfl
  | cons item items ih =>
    obtain ⟨here, rest⟩ := forall_mem_cons.mp same
    rw [foldlM_cons, foldlM_cons, here]
    exact bind_congr (ih rest)

variable [DecidableEq Path]

/-- The walk from a file of the graph. -/
def walk (graph : SettingsGraph Path) (maxDepth depth : Nat) (path : Path)
    (stack visited : List Path) :
    Except (DetectError Path) (List Path) :=
  detectCycles (fun path => .ok (graph.dependsOn path)) graph.underRoot maxDepth depth path stack
    visited

def Accepts (graph : SettingsGraph Path) (maxDepth : Nat) (root : Path) : Prop :=
  ∃ finished, graph.walk maxDepth maxDepth root [] [] = .ok finished

/-- In a graph every dependency resolves to its target. -/
theorem walk_succ : graph.walk maxDepth (depth + 1) path stack visited =
    if path ∈ stack then .error (.circular (stack.drop (stack.idxOf path) ++ [path]))
    else if path ∈ visited then .ok visited
    else ((graph.targets path).foldlM (fun visited target =>
      graph.walk maxDepth depth target (stack ++ [path]) visited) visited).map (path :: ·) := by
  have resolves : ∀ dependency ∈ graph.dependsOn path,
      resolveDependencySettingsPath graph.underRoot dependency = .ok dependency.resolved := by
    intro dependency listed
    simp [resolveDependencySettingsPath, graph.relative path dependency listed,
      graph.inside path dependency listed]
  unfold walk targets
  rw [detectCycles, foldlM_map]
  refine ite_congr rfl (fun _ => rfl) fun _ => ite_congr rfl (fun _ => rfl) fun _ => ?_
  have walks := foldlM_congr (fun dependency listed visited =>
    congrArg (· >>= fun target =>
      detectCycles (fun path => .ok (graph.dependsOn path)) graph.underRoot
      maxDepth depth target (stack ++ [path]) visited) (resolves dependency listed)) visited
  exact congrArg (· >>= fun finished => pure (path :: finished)) walks

/-- A walk that returns has met no cycle. -/
theorem walk_finishes (fresh : Fresh graph stack visited)
    (ran : graph.walk maxDepth depth path stack visited = .ok finished) :
    Finishes graph stack visited [path] finished := by
  induction depth generalizing path stack visited finished with
  | zero => cases ran
  | succ depth ih =>
    rw [walk_succ] at ran
    split at ran
    · cases ran
    · next unstacked =>
      split at ran
      · next known =>
        cases ran
        refine ⟨fresh, fun other => ⟨.inl, ?_⟩⟩
        rintro (old | ⟨_, here, reached⟩)
        · exact old
        · exact fresh.reaches (mem_singleton.mp here ▸ known) reached
      · next unknown =>
        obtain ⟨before, walked, rfl⟩ := map_eq_ok.mp ran
        have done := foldlM_finishes (fun _ _ _ => ih) (fresh.push unknown) walked
        have outside : path ∉ before := done.off path (by simp)
        have targets : ∀ target ∈ graph.targets path, target ∈ before := fun target edge =>
          (done.mem target).mpr (.inr ⟨target, edge, .refl⟩)
        refine ⟨⟨?_, ?_, ?_⟩, ?_⟩
        · refine forall_mem_cons.mpr ⟨fun target edge => .tail _ (targets target edge), ?_⟩
          exact fun other listed target edge => .tail _ (done.closed other listed target edge)
        · refine forall_mem_cons.mpr ⟨fun cycle => ?_, done.acyclic⟩
          obtain ⟨target, edge, back⟩ := TransGen.head'_iff.mp cycle
          exact outside (done.reaches (targets target edge) back)
        · intro other listed
          rintro (_ | ⟨_, old⟩)
          · exact unstacked listed
          · exact done.off other (mem_append_left _ listed) old
        · intro other
          rw [mem_cons, done.mem]
          constructor
          · rintro (rfl | old | ⟨target, edge, reached⟩)
            · exact .inr ⟨other, by simp, .refl⟩
            · exact .inl old
            · exact .inr ⟨path, by simp, .head edge reached⟩
          · rintro (old | ⟨root, here, reached⟩)
            · exact .inr (.inl old)
            · rw [mem_singleton.mp here] at reached
              exact reached.cases_head.imp_right .inr

/-- Where no cycle is reached, a walk returns when no leftmost chain is too long for it. -/
theorem walk_returns_iff (acyclic : graph.Acyclic path)
    (off : ∀ other ∈ stack, ¬graph.Reaches path other)
    (fresh : Fresh graph stack visited) :
    (∃ finished, graph.walk maxDepth depth path stack visited = .ok finished) ↔
      graph.Limits (· ∈ visited) path depth := by
  induction depth generalizing path stack visited with
  | zero =>
    refine iff_of_false (fun ⟨_, ran⟩ => nomatch ran) fun limits => ?_
    exact absurd (limits [] trivial (by simp)) (by simp)
  | succ depth ih =>
    rw [walk_succ, if_neg fun stacked => off path stacked .refl]
    split
    · next known =>
      refine iff_of_true ⟨visited, rfl⟩ fun chain leftmost avoids => ?_
      cases chain with
      | nil => simp
      | cons => exact absurd known (avoids path (by simp))
    · next unknown =>
      have each : ∀ target ∈ graph.targets path, ∀ visited, Fresh graph (stack ++ [path]) visited →
          ((∃ finished, graph.walk maxDepth depth target (stack ++ [path]) visited = .ok finished) ↔
            graph.Limits (· ∈ visited) target depth) := by
        intro target edge visited fresh
        refine ih (fun other reached => acyclic other (.head edge reached))
          (fun other listed reached => ?_) fresh
        rcases mem_append.mp listed with old | new
        · exact off other old (.head edge reached)
        · rw [mem_singleton.mp new] at reached
          exact acyclic path .refl (TransGen.head' edge reached)
      have folds := foldlM_returns_iff (fun _ _ _ => walk_finishes) (fresh.push unknown) each
      simp only [map_eq_ok, exists_comm, exists_and_left, exists_eq', and_true]
      rw [folds]
      constructor
      · rintro limits (_ | ⟨target, chain⟩) leftmost avoids
        · simp
        · obtain ⟨⟨before, after, split, apart⟩, rest⟩ := leftmost
          refine Nat.succ_le_succ (limits before target after split chain rest fun other
            listed => ?_)
          rintro (old | ⟨earlier, first, reached⟩)
          · exact avoids other (.tail _ listed) old
          · exact apart earlier first other listed reached
      · intro limits before target after split chain leftmost avoids
        have apart : ∀ earlier ∈ before, ∀ later ∈ (target :: chain).dropLast,
          ¬graph.Reaches earlier later :=
          fun earlier first later listed reached =>
            avoids later listed (.inr ⟨earlier, first, reached⟩)
        refine Nat.le_of_succ_le_succ (limits (target :: chain)
          ⟨⟨before, after, split, apart⟩, leftmost⟩ ?_)
        exact forall_mem_cons.mpr ⟨unknown, fun other listed old => avoids other listed (.inl old)⟩

/-- The check accepts when it reaches no cycle and no leftmost chain is too long. -/
theorem accepts_iff : graph.Accepts maxDepth root ↔
    graph.Acyclic root ∧ ∀ chain, graph.Leftmost (root :: chain) →
        (root :: chain).length ≤ maxDepth := by
  have fresh : Fresh graph [] [] := ⟨by simp, by simp, by simp⟩
  have returns : graph.Acyclic root → (graph.Accepts maxDepth root ↔ _) := fun acyclic =>
    walk_returns_iff acyclic (by simp) fresh
  constructor
  · rintro ⟨finished, ran⟩
    have done := walk_finishes fresh ran
    have acyclic : graph.Acyclic root := fun path reached =>
      done.acyclic path ((done.mem path).mpr (.inr ⟨root, by simp, reached⟩))
    exact ⟨acyclic, fun chain leftmost => (returns acyclic).mp ⟨finished, ran⟩ chain leftmost
      (by simp)⟩
  · rintro ⟨acyclic, limits⟩
    exact (returns acyclic).mpr fun chain leftmost _ => limits chain leftmost

/-- The check is exact, in every order of the dependencies, where an overlong chain of a graph
without cycles shows in a leftmost one. -/
theorem dependency_check_exact_iff (graph : SettingsGraph Path) (root : Path) (maxDepth : Nat) :
    (∀ other, graph.Reorders other →
      (other.Accepts maxDepth root ↔ graph.Acyclic root ∧ graph.Bounded root maxDepth) ∧
      (other.Accepts maxDepth root ↔ graph.Accepts maxDepth root)) ↔
    (graph.Acyclic root → ¬graph.Bounded root maxDepth → ∀ other, graph.Reorders other →
      ∃ chain, other.Leftmost (root :: chain) ∧ maxDepth < (root :: chain).length) := by
  have edges : ∀ other, graph.Reorders other → other.Edge = graph.Edge := fun other reorders =>
    funext fun source => funext fun target => propext (reorders.edge_iff source target)
  have verdict : ∀ other, graph.Reorders other → (other.Accepts maxDepth root ↔ graph.Acyclic root ∧
      ∀ chain, other.Leftmost (root :: chain) → (root :: chain).length ≤ maxDepth) := by
    intro other reorders
    rw [accepts_iff, Acyclic, Acyclic, Reaches, Reaches, edges other reorders]
  have bounded : graph.Bounded root maxDepth → ∀ other, graph.Reorders other →
      ∀ chain, other.Leftmost (root :: chain) → (root :: chain).length ≤ maxDepth :=
    fun bounded other reorders chain leftmost =>
      bounded chain (edges other reorders ▸ leftmost.isChain)
  constructor
  · intro exact acyclic overlong other reorders
    by_contra none
    push Not at none
    have accepts := (verdict other reorders).mpr ⟨acyclic, none⟩
    exact overlong (((exact other reorders).1.mp accepts).2)
  · intro shows
    have decides : ∀ other, graph.Reorders other →
        (other.Accepts maxDepth root ↔ graph.Acyclic root ∧ graph.Bounded root maxDepth) := by
      intro other reorders
      rw [verdict other reorders]
      refine and_congr_right fun acyclic => ⟨fun limits => ?_, fun limit =>
        bounded limit other reorders⟩
      by_contra overlong
      obtain ⟨chain, leftmost, long⟩ := shows acyclic overlong other reorders
      exact absurd (limits chain leftmost) (Nat.not_le.mpr long)
    intro other reorders
    exact ⟨decides other reorders, (decides other reorders).trans
      (decides graph fun _ => .refl _).symm⟩

end SettingsGraph

/-- Settings files by number. -/
def numbered (targets : Nat → List Nat) : SettingsGraph Nat where
  dependsOn path := (targets path).map fun target =>
    { name := toString target
      settings := toString target ++ ".yaml"
      absolute := false
      resolved := target }
  underRoot _ := true
  relative := by simp
  inside := by simp

/-- A file that the root shares with another of its dependencies. -/
def shared (order : List Nat) : SettingsGraph Nat :=
  numbered fun path =>
    if path = 0 then order else if path = 1 then [3] else if path = 2 then [1] else []

/-- The shared file is finished before the longer chain through it is met: the limit of three
files is passed, and in the other order it is not. -/
theorem shared_dependency_hides_depth :
    (shared [1, 2]).Accepts 3 0 ∧ ¬(shared [1, 2]).Bounded 0 3 ∧
      (shared [1, 2]).Reorders (shared [2, 1]) ∧ ¬(shared [2, 1]).Accepts 3 0 := by
  refine ⟨⟨[0, 2, 1, 3], rfl⟩, fun bounded => ?_, fun path => ?_, fun ⟨_, ran⟩ => nomatch ran⟩
  · refine absurd (bounded [2, 1, 3] ?_) (by decide)
    simp [SettingsGraph.Edge, SettingsGraph.targets, shared, numbered]
  · refine List.Perm.map _ ?_
    by_cases root : path = 0
    · simp only [root, if_true]
      exact .swap 1 2 []
    · simp only [root, if_false]
      exact .refl _

end Elspeth.Dependencies
