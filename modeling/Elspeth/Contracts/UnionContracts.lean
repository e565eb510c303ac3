import Mathlib.Data.List.Duplicate
import Elspeth.Contracts.SchemaContract
import Elspeth.Contracts.UnionMerge

/-!
# Merging contracts at a union

The executor merges the contracts of the arrived branches into one.  Type, requiredness and
nullability of a field come from the shared flag algorithm, the mode is the most restrictive
one, and a field keeps the name the source gave it unless two fields would share one.
-/

namespace Elspeth.Contracts

open SchemaContract FieldContract List

open Collections (Dict)

/-! ## Original names -/

/-- Give up the original name of every field that shares it. -/
def resolvePass (fields : List FieldContract) : List FieldContract :=
  fields.map fun field =>
    if 1 < (fields.map originalName).count field.originalName then
      { field with originalName := field.normalizedName }
    else field

/-- Repeat the pass while original names collide. -/
def resolveRounds : Nat → List FieldContract → List FieldContract
  | 0, fields => fields
  | rounds + 1, fields =>
    if (fields.map originalName).Nodup then fields
    else resolveRounds rounds (resolvePass fields)

section

variable (fields : List FieldContract)

/-- Every pass leaves fewer original names that differ from the normalized one, so there are no
more passes than fields. -/
def resolveOriginalNameCollisions : List FieldContract :=
  resolveRounds fields.length fields

/-- The same field up to its original name. -/
def SameField (first second : FieldContract) : Prop :=
  second = { first with originalName := second.originalName }

theorem SameField.refl (field : FieldContract) : SameField field field := rfl

theorem SameField.trans {first second third : FieldContract} (left : SameField first second)
    (right : SameField second third) : SameField first third := by
  unfold SameField at *
  rw [right, left]

theorem sameFields_trans {first second third : List FieldContract}
    (left : Forall₂ SameField first second) (right : Forall₂ SameField second third) :
    Forall₂ SameField first third := by
  induction left generalizing third with
  | nil => exact right
  | cons here _ ih =>
    obtain ⟨field, rest, there, others, rfl⟩ := forall₂_cons_left_iff.mp right
    exact .cons (here.trans there) (ih others)

theorem resolvePass_sameField :
    Forall₂ SameField fields (resolvePass fields) := by
  unfold resolvePass
  rw [forall₂_map_right_iff]
  refine forall₂_same.mpr fun field _ => ?_
  split
  · rfl
  · exact SameField.refl field

theorem resolveRounds_sameField (rounds : Nat) (fields : List FieldContract) :
    Forall₂ SameField fields (resolveRounds rounds fields) := by
  induction rounds generalizing fields with
  | zero => exact forall₂_same.mpr fun field _ => SameField.refl field
  | succ rounds ih =>
    unfold resolveRounds
    split
    · exact forall₂_same.mpr fun field _ => SameField.refl field
    · exact sameFields_trans (resolvePass_sameField fields) (ih _)

theorem map_normalizedName_of_sameField {first second : List FieldContract}
    (same : Forall₂ SameField first second) :
    second.map normalizedName = first.map normalizedName := by
  induction same with
  | nil => rfl
  | cons here _ ih =>
    rw [map_cons, map_cons, ih, show _ = _ from here]

/-- The fields whose original name is not the normalized one. -/
def renamed : List FieldContract :=
  fields.filter fun field => field.originalName ≠ field.normalizedName

end

variable {fields : List FieldContract} {contracts : List SchemaContract} {name : String}
  {contract : SchemaContract}

section

variable (distinct : (fields.map normalizedName).Nodup)
include distinct

/-- Where original names collide, some field of the collision has a name of its own. -/
theorem exists_renamed_collision (collides : ¬ (fields.map originalName).Nodup) :
    ∃ field ∈ renamed fields,
      1 < (fields.map originalName).count field.originalName := by
  obtain ⟨name, twice⟩ := exists_duplicate_iff_not_nodup.mpr collides
  have many := duplicate_iff_two_le_count.mp twice
  by_contra none
  push Not at none
  -- Otherwise the normalized names would collide as well.
  have fewer : (fields.map originalName).count name ≤
      (fields.map normalizedName).count name := by
    rw [count_eq_countP, count_eq_countP, countP_map, countP_map]
    refine countP_mono_left fun field mem same => ?_
    have original : field.originalName = name := by simpa using same
    have identity : field.originalName = field.normalizedName := by
      by_contra apart
      have few := none field (mem_filter.mpr ⟨mem, decide_eq_true apart⟩)
      rw [original] at few
      omega
    simp [← identity, original]
  have once := nodup_iff_count_le_one.mp distinct name
  omega

theorem length_renamed_resolvePass (collides : ¬ (fields.map originalName).Nodup) :
    (renamed (resolvePass fields)).length < (renamed fields).length := by
  have kept : (renamed (resolvePass fields)).length = ((renamed fields).filter fun field =>
      ¬ 1 < (fields.map originalName).count field.originalName).length := by
    unfold renamed resolvePass
    rw [filter_map, length_map, filter_filter]
    congr 1
    refine filter_congr fun field _ => ?_
    by_cases shared : 1 < (fields.map originalName).count field.originalName <;>
      simp [shared]
  rw [kept, length_filter_lt_length_iff_exists]
  obtain ⟨field, mem, shared⟩ := exists_renamed_collision distinct collides
  exact ⟨field, mem, by simpa using shared⟩

theorem nodup_original_resolveRounds {rounds : Nat} (enough : (renamed fields).length ≤ rounds) :
    ((resolveRounds rounds fields).map originalName).Nodup := by
  induction rounds generalizing fields with
  | zero =>
    by_contra collides
    have fewer := length_renamed_resolvePass distinct collides
    omega
  | succ rounds ih =>
    unfold resolveRounds
    split
    · assumption
    · rename_i collides
      refine ih ?_ ?_
      · rw [map_normalizedName_of_sameField (resolvePass_sameField fields)]
        exact distinct
      · have fewer := length_renamed_resolvePass distinct collides
        omega

theorem nodup_original_resolve :
    ((resolveOriginalNameCollisions fields).map originalName).Nodup :=
  nodup_original_resolveRounds distinct (length_filter_le _ _)

end

/-- Once original names are distinct, further rounds change nothing. -/
theorem resolveRounds_stable {rounds more : Nat} (enough : rounds ≤ more)
    (ended : ((resolveRounds rounds fields).map originalName).Nodup) :
    resolveRounds more fields = resolveRounds rounds fields := by
  induction rounds generalizing fields more with
  | zero =>
    cases more with
    | zero => rfl
    | succ more => exact if_pos ended
  | succ rounds ih =>
    obtain ⟨more, rfl⟩ := Nat.exists_eq_add_of_le' enough
    unfold resolveRounds at ended ⊢
    split at ended
    · next done => rw [if_pos done, if_pos done]
    next collides =>
      rw [if_neg collides, if_neg collides]
      exact ih (Nat.le_add_left _ _) ended

/-- A field is left as it is, or falls back to its normalized name. -/
def FallsBack (before after : FieldContract) : Prop :=
  after = before ∨ after = { before with originalName := before.normalizedName }

theorem FallsBack.trans {first second third : FieldContract} (left : FallsBack first second)
    (right : FallsBack second third) : FallsBack first third := by
  rcases left with rfl | rfl
  · exact right
  · rcases right with rfl | rfl <;> exact .inr rfl

/-- What becomes of a field depends on the fields beside it and not on their order. -/
theorem resolveRounds_perm (rounds : Nat) (fields : List FieldContract) :
    ∃ change, (∀ field, FallsBack field (change field)) ∧
      ∀ other, other.Perm fields → resolveRounds rounds other = other.map change := by
  induction rounds generalizing fields with
  | zero => exact ⟨id, fun _ => .inl rfl, fun other _ => other.map_id.symm⟩
  | succ rounds ih =>
    by_cases done : (fields.map originalName).Nodup
    · refine ⟨id, fun _ => .inl rfl, fun other shuffled => ?_⟩
      rw [resolveRounds, if_pos ((shuffled.map _).nodup_iff.mpr done), map_id]
    · let pass := fun field : FieldContract =>
        if 1 < (fields.map originalName).count field.originalName then
          { field with originalName := field.normalizedName }
        else field
      obtain ⟨change, falls, rest⟩ := ih (fields.map pass)
      have passes : ∀ field, FallsBack field (pass field) := by
        intro field
        unfold pass
        split
        · exact .inr rfl
        · exact .inl rfl
      refine ⟨change ∘ pass, fun field => (passes field).trans (falls (pass field)), ?_⟩
      intro other shuffled
      have counts := (shuffled.map originalName).count_eq
      have passed : resolvePass other = other.map pass := by
        simp only [resolvePass, pass, counts]
      rw [resolveRounds, if_neg fun ended => done ((shuffled.map _).nodup_iff.mp ended), passed,
        rest _ (shuffled.map pass), map_map]

/-- The rounds end with distinct original names; a field whose name changes falls back to its
normalized name; and the fields change in the same way in whatever order they are listed. -/
theorem resolve_collisions_confluent (distinct : (fields.map normalizedName).Nodup) :
    ∃ change, (∀ field, FallsBack field (change field)) ∧
      ∀ other, other.Perm fields →
        resolveOriginalNameCollisions other = other.map change ∧
        ((resolveOriginalNameCollisions other).map originalName).Nodup ∧
        ∀ rounds, other.length ≤ rounds →
          resolveRounds rounds other = resolveOriginalNameCollisions other := by
  obtain ⟨change, falls, changed⟩ := resolveRounds_perm fields.length fields
  refine ⟨change, falls, fun other shuffled => ?_⟩
  have ended := nodup_original_resolve ((shuffled.map _).nodup_iff.mpr distinct)
  refine ⟨?_, ended, fun rounds enough => resolveRounds_stable enough ended⟩
  rw [resolveOriginalNameCollisions, shuffled.length_eq, changed other shuffled]

/-- Two fields that share a name fall back, and the first then meets the name of a third. -/
theorem resolve_collisions_confluent_cascade :
    ∃ fields : List FieldContract, (fields.map originalName = ["x", "x", "a"]) ∧
      ((resolveOriginalNameCollisions fields).map originalName).Nodup := by
  let field := fun normalized original => mk normalized original .int true .declared false
  obtain ⟨_, -, confluent⟩ := @resolve_collisions_confluent
    [field "a" "x", field "b" "x", field "c" "a"] (by decide)
  exact ⟨_, rfl, (confluent _ (.refl _)).2.1⟩

/-! ## Contracts -/

inductive MergeContractsError where
  | noContracts (coalesceId : Option String)
  | noOrderedContracts
  | typeConflict (field typeA typeB : String)
  deriving DecidableEq, Repr

/-- The name of a conflicting type in the schema vocabulary. -/
def unionTypeLabel : ContractType → String
  | .object => "any"
  | .int => "int"
  | .str => "str"
  | .float => "float"
  | .bool => "bool"
  | .noneType => "NoneType"
  | .datetime => "datetime"

def SchemaMode.order : SchemaMode → Nat
  | .fixed => 0
  | .flexible => 1
  | .observed => 2

section

variable (contracts : List SchemaContract)

/-- The most restrictive mode. -/
def mergedMode : SchemaMode :=
  (contracts.map mode).foldl
    (fun best mode => if mode.order < best.order then mode else best) .observed

def FieldContract.flags (field : FieldContract) : FieldFlags ContractType :=
  ⟨field.normalizedName, field.pythonType, field.required, field.nullable⟩

/-- The descriptions of a field by some contracts, in their order. -/
def declarers (name : String) : List FieldContract :=
  contracts.filterMap fun contract => contract.findField name

/-- The field of the merged contract with the given flags. -/
def mergedField (entry : String × MergedFlags ContractType) :
    FieldContract where
  normalizedName := entry.1
  originalName :=
    ((declarers contracts entry.1).head?.map originalName).getD entry.1
  pythonType := entry.2.typeKey
  required := entry.2.required
  source :=
    if (declarers contracts entry.1).any fun field => field.source = .declared then .declared
    else .inferred
  nullable := entry.2.nullable

variable (merged : Dict String (MergedFlags ContractType))

/-- The fields of the merged contract, by name. -/
def mergedFields : List FieldContract :=
  (merged.entries.mergeSort fun first second => first.1 ≤ second.1).map (mergedField contracts)

theorem nodup_mergedFields : ((mergedFields contracts merged).map normalizedName).Nodup := by
  unfold mergedFields
  rw [map_map]
  exact (((mergeSort_perm _ _).map Prod.fst).nodup_iff).mpr merged.nodup

/-- The merged contract.  Its names are distinct, so building it is never refused. -/
def mergedContract : SchemaContract where
  mode := mergedMode contracts
  fields := resolveOriginalNameCollisions (mergedFields contracts merged)
  locked := contracts.any locked
  nodup_normalized := by
    rw [resolveOriginalNameCollisions, map_normalizedName_of_sameField
      (resolveRounds_sameField _ _)]
    exact nodup_mergedFields contracts merged
  nodup_original := nodup_original_resolve (nodup_mergedFields contracts merged)

end

section

variable (branchContracts : Dict String SchemaContract)

/-- The contracts of the branches, in the order of the merge. -/
def orderedContracts (order : List String) :
    List SchemaContract :=
  order.filterMap branchContracts.get

def contractFlags :
    Dict String (List (FieldFlags ContractType)) :=
  branchContracts.mapValues fun contract => contract.fields.map flags

def mergeUnionContracts (requireAll : Bool)
    (policy : CollisionPolicy) (branchOrder : Option (List String)) (coalesceId : Option String) :
    Except MergeContractsError SchemaContract :=
  if branchContracts.entries = [] then .error (.noContracts coalesceId)
  else
    let ordered := (branchOrder.getD branchContracts.keys).filter fun branch =>
      branch ∈ branchContracts.keys
    match orderedContracts branchContracts ordered with
    -- There is no mode to take the most restrictive of.
    | [] => .error .noOrderedContracts
    | [only] => .ok only
    | contracts =>
      match mergeUnionFieldFlags (contractFlags branchContracts) requireAll policy
        (some ordered) with
      | .error conflict =>
        .error (.typeConflict conflict.field (unionTypeLabel conflict.typeA)
          (unionTypeLabel conflict.typeB))
      | .ok merged => .ok (mergedContract contracts merged)

/-! ## What a merged contract says -/

theorem order_foldl_le (modes : List SchemaMode) (best : SchemaMode) :
    (modes.foldl (fun best mode => if mode.order < best.order then mode else best) best).order ≤
        best.order ∧
      ∀ mode ∈ modes, (modes.foldl (fun best mode => if mode.order < best.order then mode else best)
        best).order ≤ mode.order := by
  induction modes generalizing best with
  | nil => exact ⟨le_rfl, nofun⟩
  | cons mode modes ih =>
    obtain ⟨least, all⟩ := ih (if mode.order < best.order then mode else best)
    have both : (if mode.order < best.order then mode else best).order ≤ best.order ∧
        (if mode.order < best.order then mode else best).order ≤ mode.order := by
      split <;> omega
    refine ⟨least.trans both.1, fun other mem => ?_⟩
    rcases mem_cons.mp mem with rfl | later
    · exact least.trans both.2
    · exact all other later

theorem foldl_mem (modes : List SchemaMode) (best : SchemaMode) :
    modes.foldl (fun best mode => if mode.order < best.order then mode else best) best = best ∨
      modes.foldl (fun best mode => if mode.order < best.order then mode else best)
          best ∈ modes := by
  induction modes generalizing best with
  | nil => exact .inl rfl
  | cons mode modes ih =>
    rw [foldl_cons]
    rcases ih (if mode.order < best.order then mode else best) with same | later
    · rw [same]
      split
      · exact .inr mem_cons_self
      · exact .inl rfl
    · exact .inr (mem_cons_of_mem _ later)

/-- The merged contract is fixed if one of the contracts is. -/
theorem mergedMode_eq_fixed :
    mergedMode contracts = .fixed ↔ ∃ contract ∈ contracts, contract.mode = .fixed := by
  unfold mergedMode
  constructor
  · intro fixed
    rcases foldl_mem (contracts.map mode) .observed with same | mem
    · rw [fixed] at same
      cases same
    · rw [fixed] at mem
      exact mem_map.mp mem
  · rintro ⟨contract, mem, fixed⟩
    have least := (order_foldl_le (contracts.map mode) .observed).2 contract.mode
      (mem_map.mpr ⟨contract, mem, rfl⟩)
    rw [fixed] at least
    generalize (contracts.map mode).foldl _ _ = mode at least
    cases mode with
    | fixed => rfl
    | flexible | observed => simp [SchemaMode.order] at least

theorem mem_declarers {field : FieldContract} :
    field ∈ declarers contracts name ↔
      ∃ contract ∈ contracts, contract.findField name = some field :=
  mem_filterMap

theorem SchemaContract.filter_fields (contract : SchemaContract) (name : String) :
    contract.fields.filter (fun field => field.normalizedName = name) =
      (contract.findField name).toList := by
  have distinct := contract.nodup_normalized
  unfold findField
  generalize contract.fields = fields at distinct
  induction fields with
  | nil => rfl
  | cons field fields ih =>
    obtain ⟨new, rest⟩ := nodup_cons.mp distinct
    rw [filter_cons, find?_cons]
    by_cases here : field.normalizedName = name
    · have absent : fields.filter (fun field => field.normalizedName = name) = [] :=
        filter_eq_nil_iff.mpr fun other mem same =>
          new (mem_map.mpr ⟨other, mem, (of_decide_eq_true same).trans here.symm⟩)
      simp only [here, decide_true, if_true, absent]
      rfl
    · simp only [here, decide_false, Bool.false_eq_true, if_false]
      exact ih rest

/-- The flags of a field are folded over its descriptions. -/
theorem map_carriersFor (order : List String)
    (name : String) :
    (carriersFor (contractFlags branchContracts) order name).map Prod.snd =
      (declarers (orderedContracts branchContracts order) name).map flags := by
  unfold carriersFor carriersOf contractFlags orderedContracts declarers
  induction order with
  | nil => rfl
  | cons branch order ih =>
    rw [flatMap_cons, filter_append, map_append, ih, filterMap_cons,
      Dict.get_mapValues]
    cases branchContracts.get branch with
    | none => rfl
    | some contract =>
      have here : ((contract.fields.map flags).map fun field =>
          (branch, field)).filter (fun carrier => carrier.2.name = name) =
          (contract.findField name).toList.map fun field => (branch, field.flags) := by
        rw [← contract.filter_fields, map_map, filter_map]
        rfl
      simp only [Option.map_some, Option.getD_some, here, filterMap_cons]
      cases contract.findField name <;> rfl

end

/-- A field of the merged contract, in terms of its descriptions. -/
structure FieldSpec (requireAll : Bool) (policy : CollisionPolicy) (contracts : List SchemaContract)
    (field : FieldContract) : Prop where
  typed : ∀ described ∈ declarers contracts field.normalizedName,
    described.pythonType = field.pythonType
  any_required : requireAll → (field.required ↔
    ∃ described ∈ declarers contracts field.normalizedName, described.required)
  all_required : ¬ requireAll → field.required → ∀ contract ∈ contracts,
    ∃ described, contract.findField field.normalizedName = some described ∧ described.required
  first_nullable : requireAll → policy = .firstWins →
    (declarers contracts field.normalizedName).head?.map nullable =
      some field.nullable
  last_nullable : requireAll → policy = .lastWins →
    (declarers contracts field.normalizedName).getLast?.map nullable =
      some field.nullable
  any_nullable : ¬ requireAll → ∀ described ∈ declarers contracts field.normalizedName,
    described.nullable → field.nullable

variable {branchContracts : Dict String SchemaContract} {requireAll : Bool}
  {policy : CollisionPolicy} {ordered : List String}
  {merged : Dict String (MergedFlags ContractType)}

theorem findField_of_flags {flags : FieldFlags ContractType}
    (mem : flags ∈ contract.fields.map FieldContract.flags) (named : flags.name = name) :
    ∃ field, contract.findField name = some field ∧ field.flags = flags := by
  obtain ⟨field, inside, rfl⟩ := mem_map.mp mem
  exact ⟨field, contract.findField_eq_some.mpr ⟨inside, named⟩, rfl⟩

theorem fieldSpec_of_flags {flags : MergedFlags ContractType}
    (ran : mergeUnionFieldFlags (contractFlags branchContracts) requireAll policy (some ordered) =
      .ok merged) (found : merged.get name = some flags) :
    FieldSpec requireAll policy (orderedContracts branchContracts ordered)
      (mergedField (orderedContracts branchContracts ordered) (name, flags)) := by
  obtain ⟨seen, -, combined, same⟩ := mergeUnionFieldFlags_get ran found
  have carriers : (carriersFor (contractFlags branchContracts) ordered name).map Prod.snd =
    (declarers (orderedContracts branchContracts ordered) name).map FieldContract.flags :=
      map_carriersFor branchContracts ordered name
  have typeKey : flags.typeKey = seen.typeKey := by
    rw [same]
    split <;> rfl
  refine ⟨?_, ?_, ?_, ?_, ?_, ?_⟩
  · intro described mem
    have listed : described.flags ∈
        (carriersFor (contractFlags branchContracts) ordered name).map Prod.snd :=
      carriers ▸ mem_map.mpr ⟨described, mem, rfl⟩
    obtain ⟨carrier, inside, flagged⟩ := mem_map.mp listed
    show described.pythonType = flags.typeKey
    rw [typeKey, ← combined.typed carrier inside, flagged]
    rfl
  · intro all
    rw [if_pos (.inl all)] at same
    show flags.required ↔ _
    rw [same, combined.required, if_pos all]
    have folded : (carriersFor (contractFlags branchContracts) ordered name).any
        (fun carrier => carrier.2.required) =
        (declarers (orderedContracts branchContracts ordered) name).any required := by
      have both := congrArg (fun list => list.any FieldFlags.required) carriers
      simp only [any_map] at both
      exact both
    rw [show ((some ordered).getD _) = ordered from rfl, folded, any_eq_true]
    rfl
  · intro partly required contract mem
    obtain ⟨branch, listed, here⟩ := mem_filterMap.mp mem
    have one : requireAll = false := by simpa using partly
    subst one
    obtain ⟨carrier, inside, requires, named⟩ := forall_required_of_partial ran found required
      branch listed (contract.fields.map FieldContract.flags) (by
        rw [contractFlags, Dict.get_mapValues, here]
        rfl)
    obtain ⟨field, declared, flagged⟩ := findField_of_flags inside named
    exact ⟨field, declared, by rw [← flagged] at requires; exact requires⟩
  · intro all first
    rw [if_pos (.inl all)] at same
    have folded := combined.first_nullable all first
    have both := congrArg (fun list => list.head?.map FieldFlags.nullable) carriers
    simp only [head?_map, Option.map_map] at both
    show _ = some flags.nullable
    rw [same, ← folded]
    exact both.symm
  · intro all last
    rw [if_pos (.inl all)] at same
    have folded := combined.last_nullable all last
    have both := congrArg (fun list => list.getLast?.map FieldFlags.nullable) carriers
    simp only [getLast?_map, Option.map_map] at both
    show _ = some flags.nullable
    rw [same, ← folded]
    exact both.symm
  · intro partly described mem nullable
    have folded : seen.nullable := by
      rw [combined.any_nullable (.inl partly)]
      have both := congrArg (fun list => list.any FieldFlags.nullable) carriers
      simp only [any_map] at both
      exact both.trans (any_eq_true.mpr ⟨described, mem, nullable⟩)
    rw [same]
    split
    · exact folded
    · rfl

/-- What the merged contract of several branches says. -/
structure MergeSpec (requireAll : Bool) (policy : CollisionPolicy) (contracts : List SchemaContract)
    (merged : SchemaContract) : Prop where
  fixed : merged.mode = .fixed ↔ ∃ contract ∈ contracts, contract.mode = .fixed
  names : ∀ name, name ∈ merged.normalizedNames ↔
    ∃ contract ∈ contracts, name ∈ contract.normalizedNames
  fields : ∀ field ∈ merged.fields, FieldSpec requireAll policy contracts field

theorem FieldSpec.of_sameField {first second : FieldContract}
    (spec : FieldSpec requireAll policy contracts first) (same : SameField first second) :
    FieldSpec requireAll policy contracts second := by
  rw [same]
  exact ⟨spec.typed, spec.any_required, spec.all_required, spec.first_nullable, spec.last_nullable,
    spec.any_nullable⟩

section

variable (ran : mergeUnionFieldFlags (contractFlags branchContracts) requireAll policy
    (some ordered) = .ok merged)
include ran

theorem mem_keys_merged :
    name ∈ merged.keys ↔ ∃ contract ∈ orderedContracts branchContracts ordered,
      name ∈ contract.normalizedNames := by
  have carriers := map_carriersFor branchContracts ordered name
  have described : carriersFor (contractFlags branchContracts) ordered name ≠ [] ↔
      declarers (orderedContracts branchContracts ordered) name ≠ [] := by
    rw [ne_eq, ← map_eq_nil_iff (f := Prod.snd), carriers, map_eq_nil_iff]
  rw [mem_keys_mergeUnionFieldFlags ran]
  refine described.trans ⟨?_, ?_⟩
  · intro described
    obtain ⟨field, mem⟩ := exists_mem_of_ne_nil _ described
    obtain ⟨contract, inside, found⟩ := mem_declarers.mp mem
    obtain ⟨listed, rfl⟩ := contract.findField_eq_some.mp found
    exact ⟨contract, inside, mem_map.mpr ⟨field, listed, rfl⟩⟩
  · rintro ⟨contract, inside, mem⟩
    obtain ⟨field, listed, named⟩ := mem_map.mp mem
    exact ne_nil_of_mem (mem_declarers.mpr
      ⟨contract, inside, contract.findField_eq_some.mpr ⟨listed, named⟩⟩)

theorem mergeSpec_mergedContract :
    MergeSpec requireAll policy (orderedContracts branchContracts ordered)
      (mergedContract (orderedContracts branchContracts ordered) merged) := by
  have same : Forall₂ SameField
      (mergedFields (orderedContracts branchContracts ordered) merged)
      (mergedContract (orderedContracts branchContracts ordered) merged).fields :=
    resolveRounds_sameField _ _
  refine ⟨mergedMode_eq_fixed, fun name => ?_, fun field mem => ?_⟩
  · rw [← mem_keys_merged ran, normalizedNames,
      map_normalizedName_of_sameField same, mergedFields, map_map]
    exact ((mergeSort_perm merged.entries _).map Prod.fst).mem_iff
  · obtain ⟨first, inside, resolved⟩ := Collections.exists_of_forall₂ same.flip mem
    obtain ⟨entry, listed, rfl⟩ := mem_map.mp inside
    have found := Dict.get_eq_some.mpr ((mergeSort_perm merged.entries _).mem_iff.mp listed)
    exact (fieldSpec_of_flags ran found).of_sameField resolved

end

/-- Last wins in one order is first wins in the other. -/
theorem MergeSpec.reverse (spec : MergeSpec requireAll .lastWins contracts contract) :
    MergeSpec requireAll .firstWins contracts.reverse contract := by
  have mirrored : ∀ name, declarers contracts.reverse name = (declarers contracts name).reverse :=
    fun name => filterMap_reverse
  refine ⟨?_, ?_, fun field mem => ?_⟩
  · simpa using spec.fixed
  · simpa using spec.names
  · have details := spec.fields field mem
    refine ⟨?_, ?_, ?_, ?_, nofun, ?_⟩ <;> simp only [mirrored, mem_reverse]
    · exact details.typed
    · exact details.any_required
    · exact details.all_required
    · intro all _
      rw [head?_reverse]
      exact details.last_nullable all rfl
    · exact details.any_nullable

/-- No field is described with two types. -/
def TypesAgree (contracts : List SchemaContract) : Prop :=
  ∀ name, ∀ first ∈ declarers contracts name, ∀ second ∈ declarers contracts name,
    first.pythonType = second.pythonType

theorem orderedContracts_filter (branchContracts : Dict String SchemaContract)
    (order : List String) :
    orderedContracts branchContracts (order.filter fun branch => branch ∈ branchContracts.keys) =
      orderedContracts branchContracts order := by
  unfold orderedContracts
  induction order with
  | nil => rfl
  | cons branch order ih =>
    rw [filter_cons]
    by_cases here : branch ∈ branchContracts.keys
    · rw [if_pos (decide_eq_true here), filterMap_cons, filterMap_cons, ih]
    · rw [if_neg fun same => here (of_decide_eq_true same), ih, filterMap_cons,
        Dict.get_eq_none.mpr here]

section Union

variable {order : List String} {coalesceId : Option String} {contract : SchemaContract}

section

variable (given : orderedContracts branchContracts order ≠ [])
include given

theorem entries_ne_nil_of_ordered : branchContracts.entries ≠ [] := by
  intro blank
  have silent : ∀ branch, branchContracts.get branch = none := by
    intro branch
    unfold Dict.get
    rw [blank]
    rfl
  exact given (filterMap_eq_nil_iff.mpr fun branch _ => silent branch)

/-- Some contracts merge, or their types conflict. -/
theorem mergeUnionContracts_cases :
    (∃ merged, mergeUnionContracts branchContracts requireAll policy (some order) coalesceId =
      .ok merged) ∨
    ∃ field typeA typeB, mergeUnionContracts branchContracts requireAll policy (some order)
      coalesceId = .error (.typeConflict field typeA typeB) := by
  unfold mergeUnionContracts
  rw [if_neg (entries_ne_nil_of_ordered given)]
  simp only [Option.getD_some]
  rw [orderedContracts_filter]
  split
  · exact absurd ‹_› given
  · exact .inl ⟨_, rfl⟩
  · split
    · exact .inr ⟨_, _, _, rfl⟩
    · exact .inl ⟨_, rfl⟩

/-- Contracts that agree on their types merge. -/
theorem mergeUnionContracts_ok (agree : TypesAgree (orderedContracts branchContracts order)) :
    ∃ merged, mergeUnionContracts branchContracts requireAll policy (some order) coalesceId =
      .ok merged := by
  unfold mergeUnionContracts
  rw [if_neg (entries_ne_nil_of_ordered given)]
  simp only [Option.getD_some]
  rw [orderedContracts_filter]
  split
  · rename_i nothing
    exact absurd nothing given
  · exact ⟨_, rfl⟩
  · have described : ∀ name, ∀ carrier ∈ carriersFor (contractFlags branchContracts)
        (order.filter fun branch => branch ∈ branchContracts.keys) name,
        ∃ field ∈ declarers (orderedContracts branchContracts order) name,
          field.flags = carrier.2 := by
      intro name carrier inside
      have listed := mem_map_of_mem (f := Prod.snd) inside
      rw [map_carriersFor, orderedContracts_filter] at listed
      exact mem_map.mp listed
    have joins : ∀ name, ∀ first ∈ carriersFor (contractFlags branchContracts)
        ((some (order.filter fun branch => branch ∈ branchContracts.keys)).getD
          (contractFlags branchContracts).keys) name,
        ∀ second ∈ carriersFor (contractFlags branchContracts)
          ((some (order.filter fun branch => branch ∈ branchContracts.keys)).getD
            (contractFlags branchContracts).keys) name, first.2.typeKey = second.2.typeKey := by
      intro name first mem second mem'
      obtain ⟨field, here, flagged⟩ := described name first mem
      obtain ⟨field', here', flagged'⟩ := described name second mem'
      rw [← flagged, ← flagged']
      exact agree name field here field' here'
    obtain ⟨merged, ran⟩ := mergeUnionFieldFlags_ok requireAll policy joins
    rw [ran]
    exact ⟨_, rfl⟩

end

/-- A contract is the merge of itself alone. -/
theorem mergeSpec_singleton (requireAll : Bool) (policy : CollisionPolicy)
    (contract : SchemaContract) : MergeSpec requireAll policy [contract] contract := by
  refine ⟨by simp, by simp, fun field mem => ?_⟩
  have own : declarers [contract] field.normalizedName = [field] := by
    rw [declarers, filterMap_cons, contract.findField_eq_some.mpr ⟨mem, rfl⟩]
    rfl
  refine ⟨?_, ?_, ?_, ?_, ?_, ?_⟩
  · simp [own]
  · simp [own]
  · intro _ required other listed
    rw [mem_singleton.mp listed]
    exact ⟨field, contract.findField_eq_some.mpr ⟨mem, rfl⟩, required⟩
  · simp [own]
  · simp [own]
  · simp [own]

/-- What a merged contract says of the contracts it was merged from. -/
theorem mergeUnionContracts_spec
    (ran : mergeUnionContracts branchContracts requireAll policy (some order) coalesceId =
      .ok contract) :
    MergeSpec requireAll policy (orderedContracts branchContracts order) contract := by
  unfold mergeUnionContracts at ran
  split at ran
  · cases ran
  · simp only [Option.getD_some] at ran
    split at ran
    · cases ran
    · rename_i only single
      rw [orderedContracts_filter] at single
      cases ran
      rw [single]
      exact mergeSpec_singleton requireAll policy contract
    · split at ran
      · cases ran
      · rename_i merged flagged
        cases ran
        have spec := mergeSpec_mergedContract flagged
        rw [orderedContracts_filter] at spec
        rw [orderedContracts_filter]
        exact spec

end Union

end Elspeth.Contracts
