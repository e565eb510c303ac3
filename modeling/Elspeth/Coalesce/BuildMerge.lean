import Elspeth.Coalesce.Merge
import Elspeth.Contracts.UnionContracts
import Elspeth.Contracts.Validation

/-!
# Building a merged row

A merge gives the merged data a contract.  Under the union strategy the contract is the one
the builder computed, with the original names of the branches that won, or, where the builder
could only say that the schema is observed, the merge of the contracts that arrived.
-/

namespace Elspeth.Coalesce

open Collections (Dict)
open Contracts FieldContract

/-- A row with its contract. -/
structure PipelineRow where
  data : RowData RowValue
  contract : SchemaContract

/-- The row of an arrived token, whose contract may be missing. -/
structure TokenRow where
  data : RowData RowValue
  contract : Option SchemaContract

inductive BuildMergeError where
  | data (error : MergeDataError)
  | noContract (branch : String)
  | typedWithoutSchema (name : String)
  | contracts (error : MergeContractsError)
  | collision (name : String) (fields : List String)
  | malformed (error : MalformedCollision)
  | unknownOriginalName (field branch : String)
  deriving DecidableEq, Repr

/-! ## Original names -/

/-- The original name of a field of the builder's contract: from the branch that won it, else
from the first branch that describes it, else its own. -/
def originalNameOf (branchContracts : Dict String SchemaContract)
    (fieldOrigins : Dict String String) (name : String) : Except BuildMergeError String :=
  match fieldOrigins.get name with
  | some branch =>
    match (branchContracts.get branch).bind fun contract => contract.findField name with
    | some field => .ok field.originalName
    | none => .error (.unknownOriginalName name branch)
  | none =>
    .ok (((branchContracts.values.filterMap fun contract => contract.findField name).head?.map
      originalName).getD name)

/-- The fields with original names given by `nameOf`. -/
def renameFields {ε : Type} (nameOf : String → Except ε String) :
    (fields : List FieldContract) → Except ε { renamed : List FieldContract //
      renamed.map normalizedName = fields.map normalizedName }
  | [] => .ok ⟨[], rfl⟩
  | field :: fields => do
      let original ← nameOf field.normalizedName
      let rest ← renameFields nameOf fields
      pure ⟨{ field with originalName := original } :: rest.1, by
        rw [List.map_cons, List.map_cons, rest.2]⟩

def mergeWithOriginalNames (precomputed : SchemaContract)
    (branchContracts : Dict String SchemaContract) (fieldOrigins : Dict String String) :
    Except BuildMergeError SchemaContract := do
  let renamed ← renameFields (originalNameOf branchContracts fieldOrigins) precomputed.fields
  have distinct : (renamed.1.map normalizedName).Nodup := by
    rw [renamed.2]
    exact precomputed.nodup_normalized
  pure {
    mode := precomputed.mode
    fields := resolveOriginalNameCollisions renamed.1
    locked := precomputed.locked
    nodup_normalized := by
      rw [resolveOriginalNameCollisions,
        map_normalizedName_of_sameField (resolveRounds_sameField _ _)]
      exact distinct
    nodup_original := nodup_original_resolve distinct }

/-! ## The merged row -/

/-- The contracts of the arrived rows; a row without one is refused. -/
def branchContractsOf (branches : Dict String TokenRow) :
    Except BuildMergeError (Dict String SchemaContract) :=
  match branches.entries.find? fun entry => entry.2.contract.isNone with
  | some entry => .error (.noContract entry.1)
  | none => .ok (branches.filterMap TokenRow.contract)

section

variable (settings : CoalesceSettings)

/-- One field per branch; those of the arrived branches are required. -/
def nestedContract (arrived : List String) : SchemaContract where
  mode := .fixed
  fields := settings.branches.map fun branch =>
    ⟨branch, branch, .object, branch ∈ arrived, .declared, false⟩
  locked := true
  nodup_normalized := by
    rw [List.map_map]
    exact settings.nodup_branches.map Function.injective_id
  nodup_original := by
    rw [List.map_map]
    exact settings.nodup_branches.map Function.injective_id

/-- The builder's contract if it says more than that rows are observed.  Branches with a typed
contract need one. -/
def usedSchema (outputSchema : Option SchemaContract)
    (branchContracts : Dict String SchemaContract) :
    Except BuildMergeError (Option SchemaContract) :=
  match outputSchema with
  | some precomputed => .ok (if precomputed.mode ≠ .observed then some precomputed else none)
  | none =>
    if branchContracts.values.all fun contract => contract.mode = .observed then .ok none
    else .error (.typedWithoutSchema settings.name)

/-- The contract of a union: the builder's, or the merge of the arrived ones. -/
def unionContract (policy : CollisionPolicy)
    (used : Option SchemaContract) (branchContracts : Dict String SchemaContract)
    (fieldOrigins : Dict String String) : Except BuildMergeError SchemaContract :=
  match used with
  | some precomputed => mergeWithOriginalNames precomputed branchContracts fieldOrigins
  | none => (mergeUnionContracts branchContracts settings.hasAllBranchSemantics policy
      (some settings.branches) (some settings.name)).mapError .contracts

/-- The merged row of a union.  A type conflict is reported before a collision. -/
def buildUnion (policy : CollisionPolicy)
    (outputSchema : Option SchemaContract) (data : MergedData RowValue)
    (branchContracts : Dict String SchemaContract) : Except BuildMergeError PipelineRow := do
  let used ← usedSchema settings outputSchema branchContracts
  let contract ← unionContract settings policy used branchContracts data.fieldOrigins
  if data.collisions.entries = [] then
    pure ⟨data.merged, contract⟩
  else
    match policy with
    | .fail => .error (.collision settings.name (data.collisions.keys.mergeSort (· ≤ ·)))
    | .firstWins =>
      let resolved ← (resolveFirstWins data).mapError .malformed
      match used with
      | some precomputed =>
        let contract ← mergeWithOriginalNames precomputed branchContracts resolved.2
        pure ⟨resolved.1, contract⟩
      | none => pure ⟨resolved.1, contract⟩
    | .lastWins => pure ⟨data.merged, contract⟩

end

/-- The merged row of the arrived branches, by the strategy of the coalesce. -/
def buildCoalesceMerge (nest : RowData RowValue → RowValue) (settings : CoalesceSettings)
    (policy : CollisionPolicy) (outputSchema : Option SchemaContract)
    (branches : Dict String TokenRow) : Except BuildMergeError PipelineRow := do
  let data ← (mergeData nest settings (branches.mapValues TokenRow.data)).mapError .data
  let branchContracts ← branchContractsOf branches
  match settings.merge with
  | .union => buildUnion settings policy outputSchema data branchContracts
  | .nested => pure ⟨data.merged, nestedContract settings branches.keys⟩
  | .select =>
    match settings.selectBranch.bind branchContracts.get with
    | some contract => pure ⟨data.merged, contract⟩
    | none => .error (.noContract (settings.selectBranch.getD ""))

end Elspeth.Coalesce
