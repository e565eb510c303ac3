import Mathlib.Data.Fintype.EquivFin
import Elspeth.Coalesce.BuildMerge

/-!
# Whether a merged row meets its contract

A union gives each field to the first branch of a contest that carries it: the declared order
of the branches under first wins, the reverse under last wins.  The merged contract is made
from the branches' contracts alone, before anyone knows which branch wins a field.  A row that
meets its own contract may still win a field with a value the merged contract refuses:

* a branch whose contract is not fixed wins with a field it does not describe;
* a branch wins with a null value that only its own contract allows;
* a branch brings a field no contract describes, and another branch's contract is fixed.
-/

namespace Elspeth.Coalesce

open Collections (Dict)
open Contracts SchemaContract PipelineRow FieldContract List

/-! ## The contest for a field -/

/-- The branches in the order in which they are asked for a field. -/
def contestOrder (policy : CollisionPolicy) (branches : List String) : List String :=
  if policy = .firstWins then branches else branches.reverse

/-- The contracts of the arrived branches, in the order of the contest. -/
def contest (settings : CoalesceSettings) (policy : CollisionPolicy)
    (branchContracts : Dict String SchemaContract) : List SchemaContract :=
  orderedContracts branchContracts (contestOrder policy settings.branches)

/-- The row of the token, if it has a contract. -/
def TokenRow.complete (token : TokenRow) : Option PipelineRow :=
  token.contract.map fun contract => ⟨token.data, contract⟩

/-- The arrived rows, in the order of the contest. -/
def contestants (settings : CoalesceSettings) (policy : CollisionPolicy)
    (branches : Dict String TokenRow) : List PipelineRow :=
  (contestOrder policy settings.branches).filterMap fun branch =>
    (branches.get branch).bind TokenRow.complete

/-- A row of the contract may lack the field. -/
def MayLack (name : String) (contract : SchemaContract) : Prop :=
  ∀ described, contract.findField name = some described → ¬ described.required

/-- If the merged field is required, the branch that decides its nullability lets it be null. -/
def ToleratesNull (requireAll : Bool) (contest : List SchemaContract) (name : String) : Prop :=
  requireAll → (∃ described ∈ declarers contest name, described.required) →
    ∃ first, (declarers contest name).head? = some first ∧ first.nullable

/-- Contracts whose rows can be merged in this order of contest. -/
structure UnionSafe (requireAll : Bool) (contest : List SchemaContract) : Prop where
  modes : (∀ contract ∈ contest, contract.mode = .fixed) ∨
    ∀ contract ∈ contest, contract.mode ≠ .fixed
  undeclared : ∀ before contract after, contest = before ++ contract :: after →
    ∀ name, contract.findField name = none → (∀ earlier ∈ before, MayLack name earlier) →
    ∀ described ∈ declarers contest name, described.pythonType ≠ .object → contract.mode = .fixed
  null : ∀ before contract after, contest = before ++ contract :: after →
    ∀ own ∈ contract.fields, own.allowsNull → own.pythonType ≠ .object →
    own.pythonType ≠ .noneType → (∀ earlier ∈ before, MayLack own.normalizedName earlier) →
    ToleratesNull requireAll contest own.normalizedName

/-! ## Safe contracts -/

section Safe

variable {requireAll : Bool} {rows : List PipelineRow} {merged : SchemaContract}
  {data : RowData RowValue}

variable {name : String} {contracts : List SchemaContract} {field own : FieldContract}
  {value : RowValue}

/-- A valid row carries what its contract requires. -/
theorem mem_keys_of_required {row : PipelineRow} {described : FieldContract}
    (valid : row.contract.validate row.data = [])
    (found : row.contract.findField name = some described) (required : described.required) :
    name ∈ row.data.keys := by
  obtain ⟨mem, rfl⟩ := row.contract.findField_eq_some.mp found
  exact ((validate_eq_nil.mp valid).1 described mem).1 required

theorem exists_declarer (known : ∃ contract ∈ contracts, name ∈ contract.normalizedNames) :
    ∃ described, described ∈ declarers contracts name := by
  obtain ⟨contract, mem, listed⟩ := known
  obtain ⟨described, inside, named⟩ := mem_map.mp listed
  exact ⟨described, mem_declarers.mpr
    ⟨contract, mem, contract.findField_eq_some.mpr ⟨inside, named⟩⟩⟩

/-- Some row is bound to carry a required field of the merged contract. -/
theorem exists_required
    (spec : FieldSpec requireAll .firstWins (rows.map contract) field)
    (known : ∃ contract ∈ rows.map PipelineRow.contract,
      field.normalizedName ∈ contract.normalizedNames) (required : field.required) :
    ∃ row ∈ rows, ∃ described,
      row.contract.findField field.normalizedName = some described ∧ described.required := by
  by_cases all : requireAll
  · obtain ⟨described, mem, needed⟩ := (spec.any_required all).mp required
    obtain ⟨contract, inside, found⟩ := mem_declarers.mp mem
    obtain ⟨row, listed, rfl⟩ := mem_map.mp inside
    exact ⟨row, listed, described, found, needed⟩
  · obtain ⟨contract, inside, -⟩ := known
    obtain ⟨described, found, needed⟩ := spec.all_required all required contract inside
    obtain ⟨row, listed, rfl⟩ := mem_map.mp inside
    exact ⟨row, listed, described, found, needed⟩

/-- Where null is tolerated, the merged field allows the null that a contract of its own
allows. -/
theorem allowsNull_of_tolerates {contract : SchemaContract}
    (spec : FieldSpec requireAll .firstWins contracts field) (inside : contract ∈ contracts)
    (found : contract.findField field.normalizedName = some own) (allowed : own.allowsNull)
    (tolerates : ToleratesNull requireAll contracts field.normalizedName) : field.allowsNull := by
  unfold allowsNull
  by_cases required : field.required
  · rw [required]
    by_cases all : requireAll
    · obtain ⟨first, head, nullable⟩ := tolerates all ((spec.any_required all).mp required)
      have decided := spec.first_nullable all rfl
      rw [head] at decided
      exact (Option.some.inj decided).symm.trans nullable
    · obtain ⟨described, again, needed⟩ := spec.all_required all required contract inside
      rw [found] at again
      cases again
      refine spec.any_nullable all own (mem_declarers.mpr ⟨contract, inside, found⟩) ?_
      simpa [allowsNull, needed] using allowed
  · simp [required]

/-- The merged field accepts what a field of its type accepts, null values aside. -/
theorem accepts_of_same_type (typed : own.pythonType = field.pythonType)
    (accepts : own.accepts value)
    (null : own.allowsNull → own.pythonType ≠ .object → own.pythonType ≠ .noneType →
      field.allowsNull) : field.accepts value := by
  unfold FieldContract.accepts at accepts ⊢
  rw [← typed]
  by_cases any : own.pythonType = .object
  · simp [any]
  by_cases admitted : declaredTypeAdmits own.pythonType (classifyRuntimeType value)
  · simp [admitted]
  simp only [any, admitted, decide_false, Bool.false_or, Bool.or_false, Bool.and_eq_true,
    decide_eq_true_eq] at accepts ⊢
  obtain ⟨rfl, allowed⟩ := accepts
  exact ⟨rfl, null allowed any fun none => admitted (declaredTypeAdmits_null.mpr none)⟩

/-- The value that wins a field is accepted. -/
theorem accepts_winner
    (spec : FieldSpec requireAll .firstWins (rows.map contract) field)
    (known : ∃ contract ∈ rows.map PipelineRow.contract,
      field.normalizedName ∈ contract.normalizedNames)
    (valid : ∀ row ∈ rows, row.contract.validate row.data = [])
    (safe : UnionSafe requireAll (rows.map contract))
    (wins : (rows.findSome? fun row => row.data.get field.normalizedName) = some value) :
    field.accepts value := by
  obtain ⟨before, row, after, rfl, carries, lack⟩ := findSome?_eq_some_iff.mp wins
  have here : row ∈ before ++ row :: after := mem_append_right _ mem_cons_self
  have split : (before ++ row :: after).map contract =
      before.map contract ++ row.contract :: after.map contract := by
    rw [map_append, map_cons]
  have inside : row.contract ∈ (before ++ row :: after).map contract :=
    mem_map_of_mem here
  have spared : ∀ earlier ∈ before.map contract,
      MayLack field.normalizedName earlier := by
    intro earlier mem described found required
    obtain ⟨other, listed, rfl⟩ := mem_map.mp mem
    exact Dict.get_eq_none.mp (lack other listed)
      (mem_keys_of_required (valid other (mem_append_left _ listed)) found required)
  obtain ⟨fields, extras⟩ := validate_eq_nil.mp (valid row here)
  rcases found : row.contract.findField field.normalizedName with _ | own
  · have flexible : row.contract.mode ≠ .fixed := fun fixed =>
      row.contract.findField_eq_none.mp found (extras fixed _ (Dict.mem_keys_of_get carries))
    obtain ⟨described, mem⟩ := exists_declarer known
    have any : described.pythonType = .object := by
      by_contra typed
      exact flexible (safe.undeclared _ _ _ split _ found spared described mem typed)
    unfold accepts
    rw [← spec.typed described mem, any]
    rfl
  · obtain ⟨mem, named⟩ := row.contract.findField_eq_some.mp found
    have typed := spec.typed own (mem_declarers.mpr ⟨_, inside, found⟩)
    refine accepts_of_same_type typed ((fields own mem).2 value (named ▸ carries)) ?_
    intro allowed any none
    have tolerates := safe.null _ _ _ split own mem allowed any none (named ▸ spared)
    exact allowsNull_of_tolerates spec inside found allowed (named ▸ tolerates)

/-- Rows of safe contracts merge into a row that meets the merged contract. -/
theorem validate_of_safe
    (spec : MergeSpec requireAll .firstWins (rows.map contract) merged)
    (won : ∀ field, data.get field = rows.findSome? fun row => row.data.get field)
    (valid : ∀ row ∈ rows, row.contract.validate row.data = [])
    (safe : UnionSafe requireAll (rows.map contract)) : merged.validate data = [] := by
  have carried : ∀ row ∈ rows, ∀ name ∈ row.data.keys, name ∈ data.keys := by
    intro row listed name mem
    obtain ⟨value, held⟩ := Dict.mem_keys.mp mem
    rw [Dict.mem_keys, won]
    exact Option.isSome_iff_exists.mp (findSome?_isSome_iff.mpr ⟨row, listed, by simp [held]⟩)
  refine validate_eq_nil.mpr ⟨fun field mem => ?_, fun fixed key mem => ?_⟩
  · have known := (spec.names field.normalizedName).mp (mem_map_of_mem mem)
    refine ⟨fun required => ?_, fun value held => ?_⟩
    · obtain ⟨row, listed, described, found, needed⟩ :=
        exists_required (spec.fields field mem) known required
      exact carried row listed _ (mem_keys_of_required (valid row listed) found needed)
    · rw [won] at held
      exact accepts_winner (spec.fields field mem) known valid safe held
  · obtain ⟨value, held⟩ := Dict.mem_keys.mp mem
    rw [won] at held
    obtain ⟨row, listed, carries⟩ := exists_of_findSome?_eq_some held
    have inside : row.contract ∈ rows.map contract := mem_map_of_mem listed
    rcases safe.modes with all | none
    · exact (spec.names key).mpr ⟨row.contract, inside,
        (validate_eq_nil.mp (valid row listed)).2 (all _ inside) key
          (Dict.mem_keys_of_get carries)⟩
    · obtain ⟨contract, other, strict⟩ := spec.fixed.mp fixed
      exact absurd strict (none contract other)

end Safe

/-! ## Unsafe contracts -/

/-- A value of the field's type. -/
def sample (field : FieldContract) : RowValue := .typed (.known field.pythonType) ""

/-- The smallest row of a contract: its required fields. -/
def fill (contract : SchemaContract) : RowData RowValue where
  entries := (contract.fields.filter required).map fun field =>
    (field.normalizedName, sample field)
  nodup := by
    rw [map_map]
    exact contract.nodup_normalized.sublist (filter_sublist.map _)

variable {contract : SchemaContract} {name : String} {value : RowValue}

theorem mem_fill :
    (fill contract).get name = some value ↔ ∃ field ∈ contract.fields, field.required ∧
      field.normalizedName = name ∧ value = sample field := by
  rw [Dict.get_eq_some]
  show (name, value) ∈ map _ _ ↔ _
  rw [mem_map]
  constructor
  · rintro ⟨field, mem, same⟩
    obtain ⟨inside, required⟩ := mem_filter.mp mem
    cases same
    exact ⟨field, inside, required, rfl, rfl⟩
  · rintro ⟨field, inside, required, rfl, rfl⟩
    exact ⟨field, mem_filter.mpr ⟨inside, required⟩, rfl⟩

theorem validate_fill (contract : SchemaContract) : contract.validate (fill contract) = [] := by
  refine validate_eq_nil.mpr ⟨fun field mem => ⟨fun required => ?_, ?_⟩, ?_⟩
  · exact Dict.mem_keys_of_get (mem_fill.mpr ⟨field, mem, required, rfl, rfl⟩)
  · intro value held
    obtain ⟨other, inside, -, named, rfl⟩ := mem_fill.mp held
    rw [inj_on_of_nodup_map contract.nodup_normalized inside mem named]
    simp [accepts, sample, classifyRuntimeType,
      declaredTypeAdmits_self]
  · intro _ key mem
    obtain ⟨value, held⟩ := Dict.mem_keys.mp mem
    obtain ⟨field, inside, -, rfl, -⟩ := mem_fill.mp held
    exact mem_map_of_mem inside

/-- The smallest row lacks what a row may lack. -/
theorem get_fill_of_mayLack (may : MayLack name contract) : (fill contract).get name = none := by
  rcases held : (fill contract).get name with _ | value
  · rfl
  · obtain ⟨field, mem, required, named, -⟩ := mem_fill.mp held
    exact absurd required (may field (contract.findField_eq_some.mpr ⟨mem, named⟩))

theorem validate_set {row : RowData RowValue} (valid : contract.validate row = [])
    (accepted : ∀ field ∈ contract.fields, field.normalizedName = name → field.accepts value)
    (known : contract.mode = .fixed → name ∈ contract.normalizedNames) :
    contract.validate (row.set name value) = [] := by
  obtain ⟨fields, extras⟩ := validate_eq_nil.mp valid
  refine validate_eq_nil.mpr ⟨fun field mem => ⟨fun required => ?_, ?_⟩, ?_⟩
  · exact Dict.mem_keys_set.mpr (.inr ((fields field mem).1 required))
  · intro held found
    by_cases here : field.normalizedName = name
    · rw [here, Dict.get_set_self] at found
      cases found
      exact accepted field mem here
    · rw [Dict.get_set_ne _ here] at found
      exact (fields field mem).2 held found
  · intro fixed key mem
    rcases Dict.mem_keys_set.mp mem with rfl | old
    · exact known fixed
    · exact extras fixed key old

/-- The smallest row as a contestant. -/
def plain (contract : SchemaContract) : PipelineRow := ⟨fill contract, contract⟩

section Unsafe

variable {requireAll : Bool} {merged : SchemaContract} {data : RowData RowValue}
  {before after : List SchemaContract} {contract : SchemaContract} {name : String}
  {value : RowValue}

/-- A row that carries one more value than it must wins the field if no earlier row must carry
it. -/
theorem wins_of_mayLack (spared : ∀ earlier ∈ before, MayLack name earlier) :
    ((before.map plain ++ ⟨(fill contract).set name value, contract⟩ :: after.map plain).findSome?
      fun row => row.data.get name) = some value := by
  refine findSome?_eq_some_iff.mpr ⟨_, _, _, rfl, Dict.get_set_self _ _ _, ?_⟩
  intro row mem
  obtain ⟨earlier, listed, rfl⟩ := mem_map.mp mem
  exact get_fill_of_mayLack (spared earlier listed)

/-- A described field that holds a refused value is a violation. -/
theorem validate_ne_nil {field : FieldContract}
    (mem : field ∈ merged.fields) (held : data.get field.normalizedName = some value)
    (refused : field.accepts value = false) : merged.validate data ≠ [] := by
  intro valid
  have accepted := ((validate_eq_nil.mp valid).1 field mem).2 value held
  rw [refused] at accepted
  cases accepted

variable {contracts : List SchemaContract}

theorem exists_mergedField {described : FieldContract}
    (spec : MergeSpec requireAll .firstWins contracts merged)
    (mem : described ∈ declarers contracts name) :
    ∃ field ∈ merged.fields, field.normalizedName = name ∧
      described.pythonType = field.pythonType := by
  obtain ⟨contract, inside, found⟩ := mem_declarers.mp mem
  obtain ⟨listed, named⟩ := contract.findField_eq_some.mp found
  have known := (spec.names name).mpr ⟨contract, inside, mem_map.mpr ⟨described, listed, named⟩⟩
  obtain ⟨field, here, rfl⟩ := mem_map.mp known
  exact ⟨field, here, rfl, (spec.fields field here).typed described mem⟩

/-- If the merged contract accepts what is won with one more value than a row must carry, the
contracts are safe. -/
theorem safe_of_validates (spec : MergeSpec requireAll .firstWins contracts merged)
    (accepts : ∀ before contract after, contracts = before ++ contract :: after →
      ∀ name value, contract.validate ((fill contract).set name value) = [] →
      ∃ data, (∀ field, data.get field = (before.map plain ++
          ⟨(fill contract).set name value, contract⟩ :: after.map plain).findSome?
            fun row => row.data.get field) ∧ merged.validate data = []) :
    UnionSafe requireAll contracts := by
  refine ⟨?_, ?_, ?_⟩
  · by_contra mixed
    push Not at mixed
    obtain ⟨⟨contract, inside, flexible⟩, strict, there, fixed⟩ := mixed
    obtain ⟨before, after, split⟩ := append_of_mem inside
    -- A name that no contract knows.
    obtain ⟨name, new⟩ := Infinite.exists_notMem_finset merged.normalizedNames.toFinset
    have unknown : ∀ other ∈ contracts, name ∉ other.normalizedNames := fun other mem listed =>
      new (mem_toFinset.mpr ((spec.names name).mpr ⟨other, mem, listed⟩))
    obtain ⟨data, won, valid⟩ := accepts before contract after split name .null
      (validate_set (validate_fill contract)
        (fun field mem named => absurd (named ▸ mem_map_of_mem mem) (unknown contract inside))
        fun same => absurd same flexible)
    have spared : ∀ earlier ∈ before, MayLack name earlier := by
      intro earlier mem described found
      have absent := unknown earlier (split ▸ mem_append_left _ mem)
      rw [earlier.findField_eq_none.mpr absent] at found
      cases found
    have held := (won name).trans (wins_of_mayLack spared)
    have merged_fixed := spec.fixed.mpr ⟨strict, there, fixed⟩
    exact new (mem_toFinset.mpr ((validate_eq_nil.mp valid).2 merged_fixed name
      (Dict.mem_keys_of_get held)))
  · intro before contract after split name undeclared spared described mem typed
    by_contra flexible
    have absent := contract.findField_eq_none.mp undeclared
    obtain ⟨data, won, valid⟩ := accepts before contract after split name
      (.typed (.other "list") "")
      (validate_set (validate_fill contract)
        (fun field mem named => absurd (named ▸ mem_map_of_mem mem) absent)
        fun same => absurd same flexible)
    obtain ⟨field, here, rfl, same⟩ := exists_mergedField spec mem
    refine validate_ne_nil here ((won _).trans (wins_of_mayLack spared)) ?_ valid
    rw [same] at typed
    simp [FieldContract.accepts, classifyRuntimeType, declaredTypeAdmits_other, typed]
  · intro before contract after split own mem allowed any none spared all needed
    have inside : contract ∈ contracts := split ▸ mem_append_right _ mem_cons_self
    have found := contract.findField_eq_some.mpr ⟨mem, rfl⟩
    obtain ⟨data, won, valid⟩ := accepts before contract after split own.normalizedName .null
      (validate_set (validate_fill contract)
        (fun field listed named => by
          rw [inj_on_of_nodup_map contract.nodup_normalized listed mem named]
          simp [FieldContract.accepts, allowed])
        fun _ => mem_map_of_mem mem)
    obtain ⟨field, here, named, same⟩ :=
      exists_mergedField spec (mem_declarers.mpr ⟨contract, inside, found⟩)
    have details := spec.fields field here
    rw [← named] at needed ⊢
    have decided := details.first_nullable all rfl
    rcases nullable : field.nullable
    · exfalso
      refine validate_ne_nil here (named ▸ (won _).trans (wins_of_mayLack spared)) ?_ valid
      have required := (details.any_required all).mpr needed
      have refuses : declaredTypeAdmits field.pythonType (classifyRuntimeType .null) = false :=
        Bool.eq_false_iff.mpr fun admits => none (same.trans (declaredTypeAdmits_null.mp admits))
      simp [FieldContract.accepts, FieldContract.allowsNull, required, nullable, refuses,
        same ▸ any]
    · rw [nullable] at decided
      exact Option.map_eq_some_iff.mp decided

end Unsafe

/-! ## The merged row that is built -/

/-- The contract of the union is the merge of the arrived ones. -/
def MergesContracts (outputSchema : Option SchemaContract)
    (branchContracts : Dict String SchemaContract) : Prop :=
  match outputSchema with
  | some precomputed => precomputed.mode = .observed
  | none => ∀ contract ∈ branchContracts.values, contract.mode = .observed

section Build

variable {nest : RowData RowValue → RowValue} {settings : CoalesceSettings}
  {policy : CollisionPolicy} {outputSchema : Option SchemaContract}
  {branches : Dict String TokenRow} {branchContracts : Dict String SchemaContract}

theorem usedSchema_of_merges (merges : MergesContracts outputSchema branchContracts) :
    usedSchema settings outputSchema branchContracts = .ok none := by
  unfold usedSchema
  cases outputSchema with
  | none =>
    have observed : branchContracts.values.all (fun contract => contract.mode = .observed) :=
      all_eq_true.mpr fun contract mem => decide_eq_true (merges contract mem)
    simp [observed]
  | some precomputed =>
    have observed : precomputed.mode = .observed := merges
    simp [observed]

/-- Every arrived row has its contract. -/
theorem branchContractsOf_eq_ok :
    branchContractsOf branches = .ok branchContracts ↔
      (∀ branch token, branches.get branch = some token → token.contract ≠ none) ∧
        branchContracts = branches.filterMap TokenRow.contract := by
  unfold branchContractsOf
  constructor
  · intro ran
    split at ran
    · cases ran
    · rename_i complete
      cases ran
      refine ⟨fun branch token found missing => ?_, rfl⟩
      exact find?_eq_none.mp complete (branch, token) (Dict.get_eq_some.mp found)
        (by simp [missing])
  · rintro ⟨complete, rfl⟩
    rw [find?_eq_none.mpr]
    intro entry mem missing
    exact complete entry.1 entry.2 (Dict.get_eq_some.mpr mem) (Option.isNone_iff_eq_none.mp missing)

/-- The contestants are asked for a field in the order of the contest. -/
theorem findSome_contestants
    (complete : ∀ branch token, branches.get branch = some token → token.contract ≠ none)
    (field : String) :
    ((contestants settings policy branches).findSome? fun row => row.data.get field) =
      (contestOrder policy settings.branches).findSome? fun branch =>
        ((branches.mapValues TokenRow.data).get branch).bind fun row => row.get field := by
  unfold contestants
  rw [← head?_filterMap, filterMap_filterMap, head?_filterMap]
  congr 1
  funext branch
  rw [Dict.get_mapValues]
  rcases arrived : branches.get branch with _ | token
  · rfl
  · obtain ⟨contract, has⟩ := Option.ne_none_iff_exists'.mp (complete branch token arrived)
    simp [TokenRow.complete, has]

theorem map_contract_contestants (ran : branchContractsOf branches = .ok branchContracts) :
    (contestants settings policy branches).map PipelineRow.contract =
      contest settings policy branchContracts := by
  obtain ⟨-, rfl⟩ := branchContractsOf_eq_ok.mp ran
  unfold contestants contest orderedContracts
  rw [map_filterMap]
  congr 1
  funext branch
  rw [Dict.get_filterMap]
  cases branches.get branch with
  | none => rfl
  | some token => cases held : token.contract <;> simp [TokenRow.complete, held]

/-- The field of a contest goes to the first carrier under first wins, else to the last. -/
theorem findSome_contestOrder (rows : Dict String (RowData RowValue)) (field : String) :
    ((contestOrder policy settings.branches).findSome? fun branch =>
        (rows.get branch).bind fun row => row.get field) =
      (if policy = .firstWins then (carriersIn (contributions settings rows) field).head?
        else (carriersIn (contributions settings rows) field).getLast?).map Prod.snd := by
  rw [carriersIn_contributions, head?_filterMap, getLast?_filterMap]
  have kept : (Option.map Prod.snd ∘ fun branch => Option.map (fun value => (branch, value))
      ((rows.get branch).bind fun row => row.get field)) =
      fun branch => (rows.get branch).bind fun row => row.get field := by
    funext branch
    rw [Function.comp_apply, Option.map_map]
    exact Option.map_id'
  unfold contestOrder
  split <;> rw [map_findSome?, kept]

/-- Without a builder's contract, a union is the merged contract on the settled data. -/
theorem buildUnion_eq {given : List (String × String × RowValue)} {data : MergedData RowValue}
    (gathered : Gathered given data) (resolves : policy ≠ .fail)
    (merges : MergesContracts outputSchema branchContracts) :
    ∃ settled : RowData RowValue,
      (∀ field, settled.get field =
        (if policy = .firstWins then (carriersIn given field).head?
          else (carriersIn given field).getLast?).map Prod.snd) ∧
      buildUnion settings policy outputSchema data branchContracts =
        ((mergeUnionContracts branchContracts settings.hasAllBranchSemantics policy
          (some settings.branches) (some settings.name)).mapError BuildMergeError.contracts).map
          fun contract => ⟨settled, contract⟩ := by
  unfold buildUnion unionContract
  rw [usedSchema_of_merges merges]
  by_cases quiet : data.collisions.entries = []
  · refine ⟨data.merged, fun field => ?_, ?_⟩
    · rw [gathered.merged field]
      rw [gathered.head?_of_quiet quiet, ite_self]
    · simp only [if_pos quiet]
      cases mergeUnionContracts _ _ _ _ _ <;> rfl
  · simp only [if_neg quiet]
    cases policy with
    | fail => exact absurd rfl resolves
    | lastWins =>
      refine ⟨data.merged, fun field => gathered.merged field, ?_⟩
      cases mergeUnionContracts _ _ _ _ _ <;> rfl
    | firstWins =>
      obtain ⟨resolved, ran, first⟩ := gathered.resolveFirstWins
      refine ⟨resolved.1, fun field => (Prod.mk.inj (first field)).1, ?_⟩
      rw [ran]
      cases mergeUnionContracts _ _ _ _ _ <;> rfl

/-- The union of complete rows: the merged contract on what the contestants carry. -/
theorem buildCoalesceMerge_union (union : settings.merge = .union) (resolves : policy ≠ .fail)
    (merges : MergesContracts outputSchema branchContracts)
    (ran : branchContractsOf branches = .ok branchContracts) :
    ∃ data : RowData RowValue,
      (∀ field, data.get field =
        (contestants settings policy branches).findSome? fun row => row.data.get field) ∧
      buildCoalesceMerge nest settings policy outputSchema branches =
        ((mergeUnionContracts branchContracts settings.hasAllBranchSemantics policy
          (some settings.branches) (some settings.name)).mapError BuildMergeError.contracts).map
          fun contract => ⟨data, contract⟩ := by
  have gathered := gathered_foldl (contributions settings (branches.mapValues TokenRow.data))
  obtain ⟨data, settled, built⟩ := @buildUnion_eq settings _ _ _ _ _ gathered resolves merges
  refine ⟨data, fun field => ?_, ?_⟩
  · rw [settled, findSome_contestants (branchContractsOf_eq_ok.mp ran).1, findSome_contestOrder]
  · rw [← built]
    unfold buildCoalesceMerge mergeData
    simp only [union, ran]
    rfl

variable {merged contract : SchemaContract} {requireAll : Bool} {coalesceId : Option String}

/-- A merged contract in terms of the contest. -/
theorem mergeSpec_contest (resolves : policy ≠ .fail)
    (ran : mergeUnionContracts branchContracts requireAll policy
      (some settings.branches) coalesceId =
      .ok merged) :
    MergeSpec requireAll .firstWins (contest settings policy branchContracts) merged := by
  have spec := mergeUnionContracts_spec ran
  cases policy with
  | fail => exact absurd rfl resolves
  | firstWins => exact spec
  | lastWins =>
    have mirrored := spec.reverse
    rw [orderedContracts, ← filterMap_reverse] at mirrored
    exact mirrored

theorem mem_contest :
    contract ∈ contest settings policy branchContracts ↔
      contract ∈ orderedContracts branchContracts settings.branches := by
  unfold contest contestOrder
  split
  · rfl
  · rw [orderedContracts, filterMap_reverse, mem_reverse, orderedContracts]

/-- Contracts of a contest that agree on their types merge. -/
theorem exists_merged (someone : contest settings policy branchContracts ≠ [])
    (agree : TypesAgree (contest settings policy branchContracts)) :
    ∃ merged, mergeUnionContracts branchContracts requireAll policy (some settings.branches)
      coalesceId = .ok merged := by
  have same : ∀ name, ∀ described ∈ declarers (orderedContracts branchContracts settings.branches)
      name, described ∈ declarers (contest settings policy branchContracts) name := by
    intro name described mem
    obtain ⟨contract, inside, found⟩ := mem_declarers.mp mem
    exact mem_declarers.mpr ⟨contract, mem_contest.mpr inside, found⟩
  obtain ⟨contract, mem⟩ := exists_mem_of_ne_nil _ someone
  exact mergeUnionContracts_ok (ne_nil_of_mem (mem_contest.mp mem)) fun name first here second
    there => agree name first (same name first here) second (same name second there)

theorem typesAgree_of_mergeSpec {contracts : List SchemaContract}
    (spec : MergeSpec requireAll .firstWins contracts merged) : TypesAgree contracts := by
  intro name first here second there
  obtain ⟨field, mem, rfl, same⟩ := exists_mergedField spec here
  exact same.trans ((spec.fields field mem).typed second there).symm

/-- The contestants are valid if the arrived rows are. -/
theorem validate_contestant
    (valid : ∀ branch token contract, branches.get branch = some token →
      token.contract = some contract → contract.validate token.data = []) :
    ∀ row ∈ contestants settings policy branches, row.contract.validate row.data = [] := by
  intro row mem
  obtain ⟨branch, -, entered⟩ := mem_filterMap.mp mem
  obtain ⟨token, arrived, whole⟩ := Option.bind_eq_some_iff.mp entered
  obtain ⟨contract, held, rfl⟩ := Option.map_eq_some_iff.mp whole
  exact valid branch token contract arrived held

/-- Rows for the contracts of a contest: the smallest ones, except for one contestant. -/
theorem exists_arrivals {before after : List SchemaContract}
    (split : contest settings policy branchContracts = before ++ contract :: after)
    (row : RowData RowValue) :
    ∃ branches : Dict String TokenRow, branchContractsOf branches = .ok branchContracts ∧
      contestants settings policy branches =
        before.map plain ++ ⟨row, contract⟩ :: after.map plain ∧
      ∀ branch token, branches.get branch = some token →
        token = ⟨row, some contract⟩ ∨ ∃ other, token = ⟨fill other, some other⟩ := by
  obtain ⟨first, rest, order, firsts, lasts⟩ := filterMap_eq_append_iff.mp split
  obtain ⟨skipped, chosen, last, rfl, absent, arrived, follows⟩ :=
    filterMap_eq_cons_iff.mp lasts
  have distinct : (first ++ (skipped ++ chosen :: last)).Nodup := by
    rw [← order]
    unfold contestOrder
    split
    · exact settings.nodup_branches
    · exact nodup_reverse.mpr settings.nodup_branches
  let token : String → SchemaContract → TokenRow := fun branch own =>
    ⟨if branch = chosen then row else fill own, some own⟩
  have others : ∀ list : List String, chosen ∉ list →
      (list.filterMap fun branch =>
        ((branchContracts.mapWithKey token).get branch).bind TokenRow.complete) =
        (list.filterMap branchContracts.get).map plain := by
    intro list apart
    rw [map_filterMap]
    refine filterMap_congr fun branch mem => ?_
    rw [Dict.get_mapWithKey]
    have other : branch ≠ chosen := fun same => apart (same ▸ mem)
    cases branchContracts.get branch <;> simp [token, TokenRow.complete, plain, other]
  refine ⟨branchContracts.mapWithKey token, ?_, ?_, ?_⟩
  · refine branchContractsOf_eq_ok.mpr ⟨fun branch own found => ?_, ?_⟩
    · rw [Dict.get_mapWithKey] at found
      obtain ⟨held, -, rfl⟩ := Option.map_eq_some_iff.mp found
      exact Option.some_ne_none held
    · refine Dict.ext ?_
      show branchContracts.entries = filterMap _ (map _ _)
      rw [filterMap_map]
      exact filterMap_some.symm
  · unfold contestants
    simp only [nodup_append, nodup_cons, mem_append, mem_cons] at distinct
    rw [order, filterMap_append, filterMap_append, filterMap_cons,
      others first (fun mem => distinct.2.2 chosen mem chosen (.inr (.inl rfl)) rfl), firsts,
      others skipped (fun mem => distinct.2.1.2.2 chosen mem chosen (.inl rfl) rfl),
      others last distinct.2.1.2.1.1, follows, filterMap_eq_nil_iff.mpr absent,
      Dict.get_mapWithKey, arrived]
    simp [token, TokenRow.complete]
  · intro branch own found
    rw [Dict.get_mapWithKey] at found
    obtain ⟨held, known, rfl⟩ := Option.map_eq_some_iff.mp found
    by_cases here : branch = chosen
    · subst here
      rw [arrived] at known
      cases known
      exact .inl (by simp [token])
    · exact .inr ⟨held, by simp [token, here]⟩

/-- Every merged row of valid rows meets the contract that the arrived contracts merge into,
just if the contracts disagree on a type, so that there is no merged row, or are safe. -/
theorem union_row_validates_iff (union : settings.merge = .union) (resolves : policy ≠ .fail)
    (merges : MergesContracts outputSchema branchContracts) :
    (∀ branches : Dict String TokenRow, branchContractsOf branches = .ok branchContracts →
      (∀ branch token contract, branches.get branch = some token →
        token.contract = some contract → contract.validate token.data = []) →
      ∀ row, buildCoalesceMerge nest settings policy outputSchema branches = .ok row →
        row.contract.validate row.data = []) ↔
      (TypesAgree (contest settings policy branchContracts) →
        UnionSafe settings.hasAllBranchSemantics (contest settings policy branchContracts)) := by
  constructor
  · intro sound agree
    by_cases nobody : contest settings policy branchContracts = []
    · rw [nobody]
      exact ⟨.inl nofun, by simp, by simp⟩
    obtain ⟨merged, made⟩ := @exists_merged settings policy branchContracts
      settings.hasAllBranchSemantics (some settings.name) nobody agree
    refine safe_of_validates (mergeSpec_contest resolves made) ?_
    intro before contract after split name value valid
    obtain ⟨branches, ran, rows, tokens⟩ :=
      exists_arrivals split ((fill contract).set name value)
    obtain ⟨data, won, built⟩ := @buildCoalesceMerge_union nest _ _ _ _ _ union resolves merges ran
    rw [made] at built
    refine ⟨data, fun field => rows ▸ won field, sound branches ran ?_ _ built⟩
    intro branch token own found held
    rcases tokens branch token found with rfl | ⟨other, rfl⟩
    · cases held
      exact valid
    · cases held
      exact validate_fill own
  · intro safe branches ran valid row built
    obtain ⟨data, won, equation⟩ :=
      @buildCoalesceMerge_union nest _ _ _ _ _ union resolves merges ran
    rw [equation] at built
    rcases made : mergeUnionContracts branchContracts settings.hasAllBranchSemantics policy
      (some settings.branches) (some settings.name) with fault | merged
    · rw [made] at built
      cases built
    · rw [made] at built
      cases built
      have spec := mergeSpec_contest resolves made
      have contracts := @map_contract_contestants settings policy _ _ ran
      rw [← contracts] at spec safe
      exact validate_of_safe spec won (validate_contestant valid)
        (safe (typesAgree_of_mergeSpec spec))

end Build

/-! ## A null that wins

One branch computes a score, the other passes on the row, whose contract was inferred from an
earlier row that had a score.
-/

section Scores

def scoreJoin : CoalesceSettings :=
  .requireAllUnion "score_join" ["scored", "raw"] (by decide) (by decide)

def scoredContract : SchemaContract where
  mode := .observed
  fields := [⟨"score", "score", .int, true, .declared, false⟩]
  nodup_normalized := by decide
  nodup_original := by decide

def rawContract : SchemaContract where
  mode := .observed
  fields := [⟨"score", "score", .int, false, .inferred, false⟩]
  nodup_normalized := by decide
  nodup_original := by decide

def scoreOf (value : RowValue) : RowData RowValue := Dict.ofList [("score", value)]

def scoreArrivals (raw : TokenRow) : Dict String TokenRow where
  entries :=
    [("scored", ⟨scoreOf (.typed (.known .int) "7"), some scoredContract⟩), ("raw", raw)]
  nodup := by simp

/-- The merged field is required because one branch requires it and not nullable because the
other is not declared so; the null of the other wins. -/
theorem score_null_wins :
    (∀ entry ∈ (scoreArrivals ⟨scoreOf .null, some rawContract⟩).entries,
      ∃ contract, entry.2.contract = some contract ∧ contract.validate entry.2.data = []) ∧
    ∃ row, buildCoalesceMerge (fun _ => .null) scoreJoin .lastWins none
        (scoreArrivals ⟨scoreOf .null, some rawContract⟩) = .ok row ∧
      row.contract.validate row.data =
        [.typeMismatch "score" "score" .int (.known .noneType) .null] := by
  refine ⟨?_, _, rfl, by decide +kernel⟩
  intro entry mem
  rcases mem_pair.mp mem with rfl | rfl
  · exact ⟨scoredContract, rfl, by decide⟩
  · exact ⟨rawContract, rfl, by decide⟩

/-- Where both branches require the score, there is no null to win. -/
theorem scores_required_merge :
    ∃ row, buildCoalesceMerge (fun _ => .null) scoreJoin .lastWins none
        (scoreArrivals ⟨scoreOf (.typed (.known .int) "8"), some scoredContract⟩) = .ok row ∧
      row.contract.validate row.data = [] := by
  have safe : UnionSafe true [scoredContract, scoredContract] := by
    have member : ∀ before contract after, [scoredContract, scoredContract] =
        before ++ contract :: after → contract = scoredContract := by
      intro before contract after split
      have mem : contract ∈ [scoredContract, scoredContract] :=
        split ▸ mem_append_right _ mem_cons_self
      simpa using mem
    refine ⟨.inr (by decide), ?_, ?_⟩
    · intro before contract after split name undeclared _ described mem _
      cases member before contract after split
      obtain ⟨other, inside, found⟩ := mem_declarers.mp mem
      obtain rfl : other = scoredContract := by simpa using inside
      rw [undeclared] at found
      cases found
    · intro before contract after split own mem allowed _ _ _
      cases member before contract after split
      cases mem_singleton.mp mem
      cases allowed
  have arrives : branchContractsOf
      (scoreArrivals ⟨scoreOf (.typed (.known .int) "8"), some scoredContract⟩) =
      .ok (Dict.ofList [("scored", scoredContract), ("raw", scoredContract)]) := rfl
  obtain ⟨row, built⟩ : ∃ row, buildCoalesceMerge (fun _ => .null) scoreJoin .lastWins none
      (scoreArrivals ⟨scoreOf (.typed (.known .int) "8"), some scoredContract⟩) = .ok row :=
    ⟨_, rfl⟩
  have resolves : CollisionPolicy.lastWins ≠ .fail := nofun
  have observed : MergesContracts none
      (Dict.ofList [("scored", scoredContract), ("raw", scoredContract)]) := by
    show ∀ contract ∈ [scoredContract, scoredContract], contract.mode = .observed
    decide
  have sound :=
    (@union_row_validates_iff (fun _ => .null) scoreJoin _ _ _ rfl resolves observed).mpr
    fun _ => safe
  refine ⟨row, built, sound _ arrives ?_ row built⟩
  · intro branch token contract found held
    rcases mem_pair.mp (Dict.get_eq_some.mp found) with same | same <;>
      cases same <;> cases held <;> decide

end Scores

end Elspeth.Coalesce
