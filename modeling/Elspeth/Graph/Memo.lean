import Elspeth.Collections.Dict
import Elspeth.Semantics.Traced

/-!
# Memoised walks over an acyclic graph

The result at a node is combined from the results at its inputs, and each result is computed
once and remembered.  The walk recurses into the inputs, so it needs as much depth as the
longest chain of inputs.

`walk_spec` is the rule for such a walk: what combining preserves holds of every result, also
of the remembered ones, and a walk with enough depth returns.
-/

namespace Memo

open Collections (Dict)
open List

variable {ν β ε : Type} [DecidableEq ν] (inputs : ν → List ν)
  (combine : ν → List β → Except ε β) (tooDeep : ε)

/-- Visit some nodes in turn, each with what is remembered so far. -/
def collect (visit : ν → Dict ν β → Except ε (β × Dict ν β)) (nodes : List ν) (memo : Dict ν β) :
    Except ε (List β × Dict ν β) :=
  nodes.foldlM (fun visited node => do
    let here ← visit node visited.2
    pure (visited.1 ++ [here.1], here.2)) ([], memo)

/-- The result at a node, and what is remembered after it. -/
def walk : Nat → ν → Dict ν β → Except ε (β × Dict ν β)
  | 0, _, _ => .error tooDeep
  | depth + 1, node, memo =>
    match memo.get node with
    | some result => .ok (result, memo)
    | none => do
        let visited ← collect (walk depth) (inputs node) memo
        let result ← combine node visited.1
        pure (result, visited.2.set node result)

/-- What is remembered meets the specification. -/
def Remembers (spec : ν → β → Prop) (memo : Dict ν β) : Prop :=
  ∀ node result, memo.get node = some result → spec node result

variable {spec : ν → β → Prop}

theorem Remembers.empty : Remembers spec (Dict.empty : Dict ν β) := nofun

variable {memo : Dict ν β} {node : ν}

theorem Remembers.set (remembers : Remembers spec memo) {result : β} (meets : spec node result) :
    Remembers spec (memo.set node result) := by
  intro other found held
  rw [Dict.get_set] at held
  split at held
  · rename_i here
    cases held
    exact here ▸ meets
  · exact remembers other found held

/-- If each visit meets the specification, so do all of them in turn. -/
theorem collect_spec {visit : ν → Dict ν β → Except ε (β × Dict ν β)} {nodes : List ν}
    (remembers : Remembers spec memo)
    (each : ∀ node ∈ nodes, ∀ memo, Remembers spec memo → ∃ result later,
      visit node memo = .ok (result, later) ∧ spec node result ∧ Remembers spec later) :
    ∃ results later, collect visit nodes memo = .ok (results, later) ∧
      Forall₂ spec nodes results ∧ Remembers spec later := by
  induction nodes using reverseRecOn with
  | nil => exact ⟨[], memo, rfl, .nil, remembers⟩
  | append_singleton nodes node ih =>
    obtain ⟨results, middle, ran, met, kept⟩ := ih fun other mem =>
      each other (mem_append_left _ mem)
    obtain ⟨result, later, last, meets, kept_after⟩ := each node (by simp) middle kept
    refine ⟨results ++ [result], later, ?_, rel_append met (.cons meets .nil), kept_after⟩
    unfold collect at ran ⊢
    rw [foldlM_append, ran]
    show ((visit node middle >>= _) >>= _) = _
    rw [last]
    rfl

variable {inputs combine tooDeep}

/-- A walk with enough depth returns a result that meets what combining preserves. -/
theorem walk_spec {rank : ν → Nat}
    (acyclic : ∀ node, ∀ input ∈ inputs node, rank input < rank node)
    (combines : ∀ node results, Forall₂ spec (inputs node) results →
      ∃ result, combine node results = .ok result ∧ spec node result) {depth : Nat}
    (deep : rank node < depth) (remembers : Remembers spec memo) :
    ∃ result later, walk inputs combine tooDeep depth node memo = .ok (result, later) ∧
      spec node result ∧ Remembers spec later := by
  induction depth generalizing node memo with
  | zero => exact absurd deep (Nat.not_lt_zero _)
  | succ depth ih =>
    unfold walk
    cases known : memo.get node with
    | some result => exact ⟨result, memo, rfl, remembers node result known, remembers⟩
    | none =>
      obtain ⟨results, later, visited, met, kept⟩ :=
        collect_spec remembers fun input mem _ => by
          have lower := acyclic node input mem
          exact ih (by omega)
      obtain ⟨result, combined, meets⟩ := combines node results met
      refine ⟨result, later.set node result, ?_, meets, kept.set meets⟩
      exact Semantics.bind_eq_ok.mpr ⟨_, visited, Semantics.bind_eq_ok.mpr ⟨_, combined, rfl⟩⟩

end Memo
