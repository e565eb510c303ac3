import Elspeth.Coalesce.TypeSoundness

/-!
# Original names of a merged row

The builder's contract of a union takes the original name of a field from the contract of the
branch that wins it.  Who wins is read off the rows, and a row that is not fixed may carry fields
its contract does not describe.  Planning such a merge raises a missing key.
-/

namespace Elspeth.Coalesce

open Collections (Dict)
open Contracts List

/-- A merge plan, or one of the errors of a union. -/
def Planned : Except BuildMergeError PipelineRow → Prop
  | .ok _ | .error (.collision ..) | .error (.contracts (.typeConflict ..)) => True
  | .error _ => False

section Names

variable (settings : CoalesceSettings) (branches : Dict String TokenRow) (field : String)

/-- The arrived branches whose rows carry a field, in the declared order. -/
def carriers : List String :=
  settings.branches.filter fun branch =>
    ((branches.get branch).bind fun row => row.data.get field).isSome

def declares (branch : String) : Bool :=
  ((branches.get branch).bind fun row => row.contract.bind (·.findField field)).isSome

/-- The last branch to carry a field of the precomputed contract describes it.  Under first wins
so does the first. -/
def WinnersDeclare (policy : CollisionPolicy) (precomputed : SchemaContract) : Prop :=
  (∀ field ∈ precomputed.normalizedNames,
    ∀ branch ∈ (carriers settings branches field).getLast?, declares branches field branch) ∧
  (policy = .firstWins → ∀ field ∈ precomputed.normalizedNames,
    ∀ branch ∈ (carriers settings branches field).head?, declares branches field branch)

end Names

section Planning

variable {settings : CoalesceSettings} {branches : Dict String TokenRow}
  {branchContracts : Dict String SchemaContract} {origins : Dict String String}
  {precomputed : SchemaContract} {policy : CollisionPolicy}
  {given : List (String × String × RowValue)} {data : MergedData RowValue}

theorem renameFields_cases {ε : Type} (nameOf : String → Except ε String)
    (fields : List FieldContract) :
    ((∃ renamed, renameFields nameOf fields = .ok renamed) ∧
        ∀ field ∈ fields, ∃ original, nameOf field.normalizedName = .ok original) ∨
      ∃ field ∈ fields, ∃ error, nameOf field.normalizedName = .error error ∧
        renameFields nameOf fields = .error error := by
  induction fields with
  | nil => exact .inl ⟨⟨_, rfl⟩, nofun⟩
  | cons field fields ih =>
    unfold renameFields
    cases named : nameOf field.normalizedName with
    | error error => exact .inr ⟨field, mem_cons_self, error, named, rfl⟩
    | ok original =>
      rcases ih with ⟨⟨renamed, ran⟩, all⟩ | ⟨other, listed, error, failed, ran⟩
      · rw [ran]
        exact .inl ⟨⟨_, rfl⟩, forall_mem_cons.mpr ⟨⟨original, named⟩, all⟩⟩
      · rw [ran]
        exact .inr ⟨other, mem_cons_of_mem _ listed, error, failed, rfl⟩

/-- Every origin of a field of the precomputed contract describes it. -/
def Sourced (branchContracts : Dict String SchemaContract) (origins : String → Option String)
    (precomputed : SchemaContract) : Prop :=
  ∀ field ∈ precomputed.normalizedNames, ∀ branch ∈ origins field,
    ((branchContracts.get branch).bind (·.findField field)).isSome

theorem mergeWithOriginalNames_cases :
    (∃ contract, mergeWithOriginalNames precomputed branchContracts origins = .ok contract) ∧
        Sourced branchContracts origins.get precomputed ∨
      (∃ field branch, mergeWithOriginalNames precomputed branchContracts origins =
        .error (.unknownOriginalName field branch)) ∧
        ¬Sourced branchContracts origins.get precomputed := by
  unfold mergeWithOriginalNames
  rcases renameFields_cases (originalNameOf branchContracts origins) precomputed.fields with
    ⟨⟨renamed, ran⟩, all⟩ | ⟨field, listed, error, failed, ran⟩
  · rw [ran]
    refine .inl ⟨⟨_, rfl⟩, ?_⟩
    intro name mem branch origin
    obtain ⟨field, listed, rfl⟩ := mem_map.mp mem
    obtain ⟨original, named⟩ := all field listed
    unfold originalNameOf at named
    simp only [Option.mem_def.mp origin] at named
    split at named
    · next found => rw [found]; rfl
    · cases named
  · rw [ran]
    unfold originalNameOf at failed
    split at failed
    next branch origin =>
      split at failed
      · cases failed
      next missing =>
        cases failed
        refine .inr ⟨⟨_, _, rfl⟩, fun sourced => ?_⟩
        have := sourced _ (mem_map_of_mem listed) branch origin
        rw [missing] at this
        cases this
    · cases failed

/-- Where the precomputed contract is used, a merge is planned if every origin it asks describes
its field: the last carrier, and under first wins the first. -/
theorem planned_buildUnion (typed : precomputed.mode ≠ .observed) (gathered : Gathered given data) :
    Planned (buildUnion settings policy (some precomputed) data branchContracts) ↔
      Sourced branchContracts (fun field => (carriersIn given field).getLast?.map Prod.fst)
          precomputed ∧
        (policy = .firstWins →
          Sourced branchContracts (fun field => (carriersIn given field).head?.map Prod.fst)
            precomputed) := by
  rw [← funext gathered.origins]
  unfold buildUnion usedSchema unionContract
  simp only [ne_eq, typed, not_false_eq_true, if_true, bind, Except.bind, pure, Except.pure]
  rcases mergeWithOriginalNames_cases with ⟨⟨contract, ran⟩, sourced⟩ |
    ⟨⟨field, branch, ran⟩, missing⟩
  · rw [ran]
    simp only [sourced, true_and]
    by_cases quiet : data.collisions.entries = []
    · simp only [if_pos quiet, Planned, true_iff]
      intro _
      rw [funext gathered.origins] at sourced
      simpa only [gathered.head?_of_quiet quiet] using sourced
    · simp only [if_neg quiet]
      cases policy with
      | fail | lastWins => exact ⟨by simp, fun _ => trivial⟩
      | firstWins =>
        obtain ⟨resolved, first, won⟩ := gathered.resolveFirstWins
        rw [← funext fun field => (Prod.mk.inj (won field)).2]
        simp only [first, Except.mapError, true_imp_iff]
        rcases mergeWithOriginalNames_cases with
          ⟨⟨contract, again⟩, sourced⟩ | ⟨⟨field, branch, again⟩, missing⟩
        · rw [again]
          exact ⟨fun _ => sourced, fun _ => trivial⟩
        · rw [again]
          exact ⟨False.elim, missing⟩
  · rw [ran]
    exact ⟨False.elim, fun both => missing both.1⟩

/-- Where the arrived contracts are merged, nothing else is raised. -/
theorem planned_of_observed (observed : precomputed.mode = .observed)
    (gathered : Gathered given data)
    (arrived : orderedContracts branchContracts settings.branches ≠ []) :
    Planned (buildUnion settings policy (some precomputed) data branchContracts) := by
  unfold buildUnion usedSchema unionContract
  simp only [observed, ne_eq, not_true_eq_false, if_false, bind, Except.bind, pure, Except.pure]
  rcases @mergeUnionContracts_cases _ settings.hasAllBranchSemantics policy _ (some settings.name)
    arrived with ⟨merged, ran⟩ | ⟨field, typeA, typeB, ran⟩
  · simp only [ran, Except.mapError]
    by_cases quiet : data.collisions.entries = []
    · simp only [if_pos quiet, Planned]
    · simp only [if_neg quiet]
      cases policy with
      | fail | lastWins => trivial
      | firstWins =>
        obtain ⟨resolved, first, -⟩ := gathered.resolveFirstWins
        simp only [first, Planned]
  · simp only [ran, Except.mapError, Planned]

theorem map_fst_carriersIn (field : String) :
    (carriersIn (contributions settings (branches.mapValues TokenRow.data)) field).map Prod.fst =
      carriers settings branches field := by
  rw [carriersIn_contributions, map_filterMap]
  unfold carriers
  rw [← filterMap_eq_filter]
  refine filterMap_congr fun branch _ => ?_
  rw [Dict.get_mapValues, Option.guard]
  cases branches.get branch with
  | none => rfl
  | some row => cases held : row.data.get field <;> simp [held]

/-- A union with a precomputed contract is planned, or refused with one of the errors of a union,
if and only if the contract says only that rows are observed or the winners describe the fields
they win. -/
theorem union_planned_iff {nest : RowData RowValue → RowValue} (union : settings.merge = .union)
    (arrived : branches.entries ≠ []) (expected : ∀ branch ∈ branches.keys,
      branch ∈ settings.branches)
    (complete : ∀ branch row, branches.get branch = some row → row.contract ≠ none) :
    Planned (buildCoalesceMerge nest settings policy (some precomputed) branches) ↔
      precomputed.mode = .observed ∨ WinnersDeclare settings branches policy precomputed := by
  have gathered := gathered_foldl (contributions settings (branches.mapValues TokenRow.data))
  unfold buildCoalesceMerge mergeData
  simp only [union, branchContractsOf_eq_ok.mpr ⟨complete, rfl⟩]
  by_cases typed : precomputed.mode = .observed
  · simp only [typed, true_or, iff_true]
    refine planned_of_observed typed gathered fun none => ?_
    obtain ⟨entry, listed⟩ := exists_mem_of_ne_nil _ arrived
    have held := Dict.get_eq_some.mpr listed
    have silent := filterMap_eq_nil_iff.mp none entry.1 (expected _ (Dict.mem_keys_of_get held))
    rw [Dict.get_filterMap, held] at silent
    exact complete entry.1 entry.2 held silent
  · simp only [typed, false_or]
    refine (planned_buildUnion typed gathered).trans ?_
    unfold Sourced WinnersDeclare declares
    simp only [← getLast?_map, ← head?_map, map_fst_carriersIn, Dict.get_filterMap,
      Option.bind_assoc]

/-- The raw branch is flexible and carries a score its contract does not describe.  It is the last
to carry one. -/
theorem undeclared_score_unnamed :
    let raw : SchemaContract := ⟨.flexible, [], false, .nil, .nil⟩
    let arrivals := scoreArrivals ⟨scoreOf (.typed (.known .int) "8"), some raw⟩
    (∀ entry ∈ arrivals.entries,
      ∃ contract, entry.2.contract = some contract ∧ contract.validate entry.2.data = []) ∧
    buildCoalesceMerge (fun _ => .null) scoreJoin .lastWins
      (some { scoredContract with mode := .flexible }) arrivals =
        .error (.unknownOriginalName "score" "raw") := by
  refine ⟨?_, rfl⟩
  intro entry mem
  rcases mem_pair.mp mem with rfl | rfl
  · exact ⟨scoredContract, rfl, by decide⟩
  · exact ⟨_, rfl, by decide⟩

/-- Where the raw branch describes its score, the merge is planned. -/
theorem union_planned_iff_declared :
    Planned (buildCoalesceMerge (fun _ => .null) scoreJoin .lastWins
      (some { scoredContract with mode := .flexible })
      (scoreArrivals ⟨scoreOf (.typed (.known .int) "8"), some scoredContract⟩)) := by
  refine (union_planned_iff rfl (cons_ne_nil _ _) (by decide) ?_).mpr (.inr ⟨by decide, nofun⟩)
  intro branch row held
  rcases mem_pair.mp (Dict.get_eq_some.mp held) with same | same <;> cases same <;> nofun

end Planning

end Elspeth.Coalesce
