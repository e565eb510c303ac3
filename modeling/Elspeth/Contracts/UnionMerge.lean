import Mathlib.Data.Finset.Insert
import Elspeth.Collections.Dict
import Elspeth.Semantics.Traced

/-!
# Merging field flags at a union

The branches of a union coalesce each describe their fields by type, requiredness and
nullability.  One algorithm folds these descriptions, branch by branch in a fixed order,
into one description per field name.  The build runs it over schema declarations and the
executor over contracts, so the type keys are arbitrary.
-/

namespace Elspeth.Contracts

open List Semantics

open Collections (Dict)

variable {τ : Type}

inductive CollisionPolicy where
  | lastWins
  | firstWins
  | fail
  deriving DecidableEq, Repr

/-- One branch's description of a field. -/
structure FieldFlags (τ : Type) where
  name : String
  typeKey : τ
  required : Bool
  nullable : Bool
  deriving DecidableEq, Repr

/-- The merged description of a field so far, and the branches that carry the field. -/
structure MergedFlags (τ : Type) where
  typeKey : τ
  required : Bool
  nullable : Bool
  firstBranch : String
  branches : Finset String
  deriving DecidableEq

/-- Two branches contribute one field with different types. -/
structure UnionTypeConflict (τ : Type) where
  field : String
  typeA : τ
  typeB : τ
  branchA : String
  branchB : String
  deriving DecidableEq, Repr

section Fold

variable (branchFields : Dict String (List (FieldFlags τ))) (branchNames : List String)

/-- The descriptions in the order the fold meets them, each with its branch. -/
def carriersOf : List (String × FieldFlags τ) :=
  branchNames.flatMap fun branch =>
    ((branchFields.get branch).getD []).map fun field => (branch, field)

/-- The branches that contribute: those of the order that describe their fields at all. -/
def contributing : List String := branchNames.filter fun branch => branch ∈ branchFields.keys

/-- The descriptions of one field. -/
def carriersFor (name : String) : List (String × FieldFlags τ) :=
  (carriersOf branchFields branchNames).filter fun carrier => carrier.2.name = name

variable {branchFields branchNames}

theorem mem_carriersFor {name : String} {carrier : String × FieldFlags τ} :
    carrier ∈ carriersFor branchFields branchNames name ↔
      carrier.1 ∈ branchNames ∧ carrier.2.name = name ∧
        ∃ fields, branchFields.get carrier.1 = some fields ∧ carrier.2 ∈ fields := by
  unfold carriersFor carriersOf
  rw [mem_filter, mem_flatMap, decide_eq_true_eq]
  constructor
  · rintro ⟨⟨branch, listed, mem⟩, named⟩
    obtain ⟨field, here, rfl⟩ := mem_map.mp mem
    cases described : branchFields.get branch with
    | none => simp [described] at here
    | some fields => exact ⟨listed, named, fields, rfl, by simpa [described] using here⟩
  · rintro ⟨listed, named, fields, described, here⟩
    exact ⟨⟨carrier.1, listed, mem_map.mpr ⟨carrier.2, by simpa [described] using here, rfl⟩⟩,
      named⟩

end Fold

variable [DecidableEq τ]

/-- What the description of a field becomes when one more branch carries it. -/
def joinFlags (requireAll : Bool) (policy : CollisionPolicy) (carrier : String × FieldFlags τ) :
    Option (MergedFlags τ) → Except (UnionTypeConflict τ) (MergedFlags τ)
  | none =>
    .ok ⟨carrier.2.typeKey, carrier.2.required, carrier.2.nullable, carrier.1, {carrier.1}⟩
  | some prior =>
    if prior.typeKey = carrier.2.typeKey then
      .ok { prior with
        required :=
          if requireAll then prior.required || carrier.2.required
          else prior.required && carrier.2.required
        nullable :=
          if requireAll then
            match policy with
            | .firstWins => prior.nullable
            | .lastWins => carrier.2.nullable
            | .fail => prior.nullable || carrier.2.nullable
          -- Any branch may be the one that arrives.
          else prior.nullable || carrier.2.nullable
        branches := insert carrier.1 prior.branches }
    else
      .error ⟨carrier.2.name, prior.typeKey, carrier.2.typeKey, prior.firstBranch, carrier.1⟩

/-- The merged flags by field name.  Where a branch may be lost, a field that not every
contributing branch carries is made optional and nullable. -/
def mergeUnionFieldFlags (branchFields : Dict String (List (FieldFlags τ))) (requireAll : Bool)
    (policy : CollisionPolicy) (branchOrder : Option (List String)) :
    Except (UnionTypeConflict τ) (Dict String (MergedFlags τ)) := do
  let branchNames := branchOrder.getD branchFields.keys
  let seen ← (carriersOf branchFields branchNames).foldlM
    (fun seen carrier => seen.update carrier.2.name (joinFlags requireAll policy carrier))
      Dict.empty
  if requireAll then pure seen
  else pure (seen.mapValues fun field =>
    if field.branches = (contributing branchFields branchNames).toFinset then field
    else { field with required := false, nullable := true })

/-! ## What the merged flags say -/

/-- The flags of a field, in terms of the branches that carry it in order. -/
structure Combined (requireAll : Bool) (policy : CollisionPolicy)
    (carriers : List (String × FieldFlags τ)) (merged : MergedFlags τ) : Prop where
  typed : ∀ carrier ∈ carriers, carrier.2.typeKey = merged.typeKey
  required : merged.required =
    if requireAll then carriers.any fun carrier => carrier.2.required
    else carriers.all fun carrier => carrier.2.required
  first_nullable : requireAll → policy = .firstWins →
    carriers.head?.map (fun carrier => carrier.2.nullable) = some merged.nullable
  last_nullable : requireAll → policy = .lastWins →
    carriers.getLast?.map (fun carrier => carrier.2.nullable) = some merged.nullable
  any_nullable : ¬ requireAll ∨ policy = .fail →
    merged.nullable = carriers.any fun carrier => carrier.2.nullable
  branches : merged.branches = (carriers.map Prod.fst).toFinset

variable {requireAll : Bool} {policy : CollisionPolicy}

variable {carrier : String × FieldFlags τ} {merged : MergedFlags τ}
  {carriers : List (String × FieldFlags τ)}

theorem Combined.singleton (joined : joinFlags requireAll policy carrier none = .ok merged) :
    Combined requireAll policy [carrier] merged := by
  cases joined
  constructor <;> simp

theorem Combined.snoc {prior : MergedFlags τ}
    (combined : Combined requireAll policy carriers prior) (some_carrier : carriers ≠ [])
    (joined : joinFlags requireAll policy carrier (some prior) = .ok merged) :
    Combined requireAll policy (carriers ++ [carrier]) merged := by
  simp only [joinFlags] at joined
  split at joined
  · rename_i agree
    cases joined
    refine ⟨?_, ?_, ?_, ?_, ?_, ?_⟩
    · intro other mem
      rcases mem_append.mp mem with before | last
      · exact combined.typed other before
      · rw [mem_singleton.mp last]
        exact agree.symm
    · rw [combined.required]
      cases requireAll <;> simp
    · intro all first
      rw [head?_append_of_ne_nil _ some_carrier, combined.first_nullable all first]
      simp [all, first]
    · intro all last
      simp [all, last]
    · intro either
      rcases either with partly | fail
      · rw [combined.any_nullable (.inl partly)]
        simp [partly]
      · rw [combined.any_nullable (.inr fail)]
        simp [fail]
    · ext branch
      rw [combined.branches, Finset.mem_insert, mem_toFinset, mem_toFinset, map_append, mem_append,
        or_comm]
      simp
  · cases joined

/-- Nothing is known of a field only before its first carrier. -/
theorem carriers_nil_of_foldlM (ran : carriers.foldlM (fun flags carrier =>
      (joinFlags requireAll policy carrier flags).map some) none = .ok none) : carriers = [] := by
  cases carriers using reverseRecOn with
  | nil => rfl
  | append_singleton =>
    rw [foldlM_append] at ran
    obtain ⟨_, -, step⟩ := bind_eq_ok.mp ran
    simp only [foldlM_cons, foldlM_nil, bind_pure] at step
    obtain ⟨_, -, impossible⟩ := map_eq_ok.mp step
    cases impossible

theorem combined_of_foldlM (ran : carriers.foldlM (fun flags carrier =>
      (joinFlags requireAll policy carrier flags).map some) none = .ok (some merged)) :
    carriers ≠ [] ∧ Combined requireAll policy carriers merged := by
  induction carriers using reverseRecOn generalizing merged with
  | nil => cases ran
  | append_singleton carriers carrier ih =>
    rw [foldlM_append] at ran
    obtain ⟨flags, before, last⟩ := bind_eq_ok.mp ran
    simp only [foldlM_cons, foldlM_nil, bind_pure] at last
    obtain ⟨joined, ok, same⟩ := map_eq_ok.mp last
    cases same
    refine ⟨by simp, ?_⟩
    cases flags with
    | some =>
      obtain ⟨some_carrier, combined⟩ := ih before
      exact combined.snoc some_carrier ok
    | none =>
      obtain rfl := carriers_nil_of_foldlM before
      exact Combined.singleton ok

/-- Carriers of one type are joined without a conflict. -/
theorem foldlM_joinFlags_ok
    (agree : ∀ first ∈ carriers, ∀ second ∈ carriers, first.2.typeKey = second.2.typeKey) :
    ∃ flags, carriers.foldlM (fun flags carrier =>
      (joinFlags requireAll policy carrier flags).map some) none = .ok flags := by
  induction carriers using reverseRecOn with
  | nil => exact ⟨none, rfl⟩
  | append_singleton carriers carrier ih =>
    obtain ⟨flags, ran⟩ := ih fun first mem second mem' =>
      agree first (mem_append_left _ mem) second (mem_append_left _ mem')
    obtain ⟨joined, ok⟩ : ∃ joined, joinFlags requireAll policy carrier flags = .ok joined := by
      cases flags with
      | none => exact ⟨_, rfl⟩
      | some prior =>
        obtain ⟨some_carrier, combined⟩ := combined_of_foldlM ran
        obtain ⟨other, mem⟩ := exists_mem_of_ne_nil _ some_carrier
        have same : prior.typeKey = carrier.2.typeKey :=
          (combined.typed other mem).symm.trans
            (agree other (mem_append_left _ mem) carrier (by simp))
        exact ⟨_, if_pos same⟩
    refine ⟨some joined, ?_⟩
    rw [foldlM_append, ran]
    show ((joinFlags requireAll policy carrier flags).map some >>= pure) = _
    rw [ok]
    rfl

section Merged

variable {branchFields : Dict String (List (FieldFlags τ))} {branchOrder : Option (List String)}
  {merged : Dict String (MergedFlags τ)} {name : String} {flags : MergedFlags τ}

/-- The flags of a field before and after the pass over the fields some branch lacks. -/
theorem mergeUnionFieldFlags_get
    (ran : mergeUnionFieldFlags branchFields requireAll policy branchOrder = .ok merged)
    (found : merged.get name = some flags) :
    ∃ seen, carriersFor branchFields (branchOrder.getD branchFields.keys) name ≠ [] ∧
      Combined requireAll policy (carriersFor branchFields
        (branchOrder.getD branchFields.keys) name)
        seen ∧
      flags = if requireAll ∨ seen.branches =
          (contributing branchFields (branchOrder.getD branchFields.keys)).toFinset then seen
        else { seen with required := false, nullable := true } := by
  obtain ⟨all, folded, finished⟩ := bind_eq_ok.mp ran
  have atName := Dict.foldlM_get_of_foldlM_update folded name
  cases each : requireAll with
  | true =>
    rw [each] at finished
    cases finished
    rw [found] at atName
    obtain ⟨some_carrier, combined⟩ := combined_of_foldlM atName
    exact ⟨flags, some_carrier, each ▸ combined, by simp⟩
  | false =>
    rw [each] at finished
    cases finished
    rw [Dict.get_mapValues] at found
    obtain ⟨seen, here, rfl⟩ := Option.map_eq_some_iff.mp found
    rw [here] at atName
    obtain ⟨some_carrier, combined⟩ := combined_of_foldlM atName
    exact ⟨seen, some_carrier, each ▸ combined, by simp⟩

/-- The merge succeeds if no field has two types. -/
theorem mergeUnionFieldFlags_ok (requireAll : Bool) (policy : CollisionPolicy)
    (agree : ∀ name, ∀ first ∈ carriersFor branchFields (branchOrder.getD branchFields.keys) name,
      ∀ second ∈ carriersFor branchFields (branchOrder.getD branchFields.keys) name,
        first.2.typeKey = second.2.typeKey) :
    ∃ merged, mergeUnionFieldFlags branchFields requireAll policy branchOrder = .ok merged := by
  obtain ⟨seen, ran⟩ : ∃ seen, (carriersOf branchFields
      (branchOrder.getD branchFields.keys)).foldlM (fun seen carrier =>
        seen.update carrier.2.name (joinFlags requireAll policy carrier)) Dict.empty = .ok seen :=
    Dict.foldlM_update_ok fun name => foldlM_joinFlags_ok (agree name)
  cases requireAll with
  | true | false => exact ⟨_, bind_eq_ok.mpr ⟨seen, ran, rfl⟩⟩

/-- The merged fields are those that some branch carries. -/
theorem mem_keys_mergeUnionFieldFlags
    (ran : mergeUnionFieldFlags branchFields requireAll policy branchOrder = .ok merged) :
    name ∈ merged.keys ↔
      carriersFor branchFields (branchOrder.getD branchFields.keys) name ≠ [] := by
  constructor
  · intro mem
    obtain ⟨flags, found⟩ := Dict.mem_keys.mp mem
    obtain ⟨-, some_carrier, -⟩ := mergeUnionFieldFlags_get ran found
    exact some_carrier
  · intro some_carrier
    by_contra absent
    obtain ⟨seen, folded, finished⟩ := bind_eq_ok.mp ran
    have missing : seen.get name = none := by
      cases requireAll with
      | true =>
        cases finished
        exact Dict.get_eq_none.mpr absent
      | false =>
        cases finished
        have none := Dict.get_eq_none.mpr absent
        rw [Dict.get_mapValues] at none
        exact Option.map_eq_none_iff.mp none
    have atName := Dict.foldlM_get_of_foldlM_update folded name
    rw [missing] at atName
    exact some_carrier (carriers_nil_of_foldlM atName)

/-- Where every branch arrives, a required field is one that some branch requires. -/
theorem exists_required_of_all
    (ran : mergeUnionFieldFlags branchFields true policy branchOrder = .ok merged)
    (found : merged.get name = some flags) (required : flags.required) :
    ∃ branch ∈ branchOrder.getD branchFields.keys, ∃ fields, branchFields.get branch = some fields ∧
      ∃ field ∈ fields, field.required ∧ field.name = name := by
  obtain ⟨seen, -, combined, same⟩ := mergeUnionFieldFlags_get ran found
  subst same
  rw [combined.required] at required
  obtain ⟨carrier, mem, requires⟩ := any_eq_true.mp required
  obtain ⟨listed, named, fields, described, here⟩ := mem_carriersFor.mp mem
  exact ⟨carrier.1, listed, fields, described, carrier.2, here, requires, named⟩

/-- Where a branch may be lost, a required field is one that each contributing branch
requires. -/
theorem forall_required_of_partial
    (ran : mergeUnionFieldFlags branchFields false policy branchOrder = .ok merged)
    (found : merged.get name = some flags) (required : flags.required) :
    ∀ branch ∈ branchOrder.getD branchFields.keys, ∀ fields, branchFields.get branch = some fields →
      ∃ field ∈ fields, field.required ∧ field.name = name := by
  obtain ⟨seen, -, combined, rfl⟩ := mergeUnionFieldFlags_get ran found
  intro branch listed fields described
  split at required
  · rename_i everywhere
    have carried := everywhere.resolve_left (by simp)
    rw [combined.required] at required
    -- Every contributing branch carries the field, and every carrier requires it.
    have contributes : branch ∈ (contributing branchFields
        (branchOrder.getD branchFields.keys)).toFinset :=
      mem_toFinset.mpr (mem_filter.mpr
        ⟨listed, decide_eq_true (Dict.mem_keys_of_get described)⟩)
    rw [← carried, combined.branches, mem_toFinset] at contributes
    obtain ⟨carrier, mem, rfl⟩ := mem_map.mp contributes
    obtain ⟨-, named, fields', described', here⟩ := mem_carriersFor.mp mem
    rw [described] at described'
    cases described'
    exact ⟨carrier.2, here, all_eq_true.mp required carrier mem, named⟩
  · cases required

end Merged

end Elspeth.Contracts
