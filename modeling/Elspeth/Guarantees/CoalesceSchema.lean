import Mathlib.Data.Finset.Sort
import Elspeth.Coalesce.Merge
import Elspeth.Contracts.SchemaConfig

/-!
# The schema of a coalesce

At build time a coalesce is given a schema made from those of its branches.  A union carries
what its branches guarantee: all of it where every branch arrives, and otherwise only what
every branch guarantees, since any one of them may be the only one that arrives.  The fields
a branch declares with their types are merged by the same rule, but for one thing: a branch
that lists no fields has no say in it.

The main result compares this schema with the rows: whatever set of branches the policy
merges, the merged row carries every field that the schema of the coalesce guarantees.  It
carries the fields that the schema requires as well if a branch with typed fields arrived;
a row made of the other branches alone may lack them (`untypedOnly_lacks_id`).
-/

namespace Elspeth.Guarantees

open Collections (Dict)
open Contracts Coalesce SchemaConfig List

/-! ## Errors -/

/-- What merging the schemas of a coalesce raises. -/
inductive SchemaMergeError where
  | mixedSchemas (coalesceId : Option String) (observed explicit : List String)
  | typeConflict (coalesceId : Option String) (conflict : UnionTypeConflict FieldType)
  | selectBranchUnset (coalesceId : Option String)
  | selectBranchUnmapped (coalesceId : Option String) (branch : String) (available : List String)
  deriving DecidableEq, Repr

/-! ## Merging schemas -/

section Merge

def sorted (fields : Finset String) : List String := fields.sort (· ≤ ·)

theorem mem_sorted {fields : Finset String} {field : String} :
    field ∈ sorted fields ↔ field ∈ fields := Finset.mem_sort _

variable (branchSchemas : Dict String SchemaConfig) (requireAll : Bool)

/-- The guaranteed fields of a coalesce, or nothing where it abstains. -/
def mergeGuaranteedFields : Option (List String) :=
  let voting := branchSchemas.values.filter hasEffectiveGuarantees
  match voting.map getEffectiveGuaranteedFields with
  | [] => none
  | first :: rest =>
    if requireAll then some (sorted (rest.foldl (· ∪ ·) first))
    -- A merged row can be made of the abstaining branch alone.
    else if branchSchemas.values.any fun schema => !schema.hasEffectiveGuarantees then none
    else some (sorted (rest.foldl (· ∩ ·) first))

def mergeAuditFields : Option (List String) :=
  match branchSchemas.values.filterMap auditFields with
  | [] => none
  | sets => some (sorted sets.flatten.toFinset)

def observedSchema (guaranteedFields auditFields : Option (List String)) : SchemaConfig where
  mode := .observed
  guaranteedFields := guaranteedFields
  auditFields := auditFields

def flexibleSchema (fields : List FieldDefinition)
    (guaranteedFields auditFields : Option (List String)) : SchemaConfig where
  mode := .flexible
  fields := some fields
  guaranteedFields := guaranteedFields
  auditFields := auditFields

def FieldDefinition.flags (field : FieldDefinition) : FieldFlags FieldType :=
  ⟨field.name, field.fieldType, field.required, field.nullable⟩

/-- The typed fields of the branches that list any. -/
def explicitFields : Dict String (List (FieldFlags FieldType)) :=
  branchSchemas.filterMap fun schema =>
    if schema.isObserved then none else schema.fields.map (map FieldDefinition.flags)

def branchesWhere (kind : SchemaConfig → Bool) : List String :=
  (branchSchemas.entries.filter fun entry => kind entry.2).map Prod.fst

/-- The schema of a union of the branches' typed fields. -/
def mergeUnionFields (policy : CollisionPolicy) (branchOrder : Option (List String))
    (coalesceId : Option String) (guaranteedFields auditFields : Option (List String)) :
    Except SchemaMergeError SchemaConfig :=
  if branchSchemas.values.all isObserved then
    .ok (observedSchema guaranteedFields auditFields)
  else
    let observed := branchesWhere branchSchemas isObserved
    let explicit := branchesWhere branchSchemas isTyped
    if observed ≠ [] ∧ explicit ≠ [] then .error (.mixedSchemas coalesceId observed explicit)
    else
      match mergeUnionFieldFlags (explicitFields branchSchemas) requireAll policy branchOrder with
      | .error conflict => .error (.typeConflict coalesceId conflict)
      | .ok merged =>
        if merged.entries = [] then .ok (observedSchema guaranteedFields auditFields)
        else .ok (flexibleSchema (merged.entries.map fun entry =>
          ⟨entry.1, entry.2.typeKey, entry.2.required, entry.2.nullable⟩)
          guaranteedFields auditFields)

def orderedBranchNames : Option (List String) → List String
  | none => branchSchemas.keys
  | some order =>
    let ordered := order.filter fun branch => branch ∈ branchSchemas.keys
    ordered ++ branchSchemas.keys.filter fun branch => branch ∉ ordered

/-- The schema of a coalesce, by its merge strategy.  The guarantees of a union may come from
other schemas than its typed fields. -/
def mergeCoalesceSchema (strategy : MergeStrategy) (policy : CollisionPolicy)
    (branchOrder : Option (List String)) (selectBranch coalesceId : Option String)
    (guaranteeBranchSchemas : Option (Dict String SchemaConfig)) :
    Except SchemaMergeError SchemaConfig :=
  match strategy with
  | .union =>
    mergeUnionFields branchSchemas requireAll policy branchOrder coalesceId
      (mergeGuaranteedFields (guaranteeBranchSchemas.getD branchSchemas) requireAll)
      (mergeAuditFields branchSchemas)
  | .select =>
    match selectBranch with
    | none => .error (.selectBranchUnset coalesceId)
    | some branch =>
      match branchSchemas.get branch with
      | none => .error (.selectBranchUnmapped coalesceId branch branchSchemas.keys)
      | some schema => .ok schema
  | .nested =>
    .ok (flexibleSchema ((orderedBranchNames branchSchemas branchOrder).map fun branch =>
      { name := branch, fieldType := .any, required := requireAll }) none none)

end Merge

/-- The schemas of the branches of a coalesce, one for each. -/
structure BranchSchemas (settings : CoalesceSettings) where
  schemas : Dict String SchemaConfig
  covers : ∀ branch, branch ∈ schemas.keys ↔ branch ∈ settings.branches

/-- The schema the build gives a coalesce. -/
def coalesceSchema (settings : CoalesceSettings) (policy : CollisionPolicy)
    (coalesceId : Option String) (branchSchemas : BranchSchemas settings)
    (guarantees : Option (BranchSchemas settings)) : Except SchemaMergeError SchemaConfig :=
  mergeCoalesceSchema branchSchemas.schemas settings.hasAllBranchSemantics settings.merge policy
    (some settings.branches) settings.selectBranch coalesceId
    (guarantees.map BranchSchemas.schemas)

/-! ## What a merge of schemas reports -/

/-- A field may be reported if some branch guarantees it, where all of them arrive, and if
every branch does, where one may be missing. -/
def Reported (requireAll : Bool) (branchSchemas : Dict String SchemaConfig) (field : String) :
    Prop :=
  if requireAll then
    ∃ branch schema, branchSchemas.get branch = some schema ∧
      field ∈ schema.getEffectiveGuaranteedFields
  else
    ∀ branch schema, branchSchemas.get branch = some schema →
      field ∈ schema.getEffectiveGuaranteedFields

/-- A field may be required if some branch guarantees it, where all of them arrive, and if
every branch with typed fields does, where one may be missing. -/
def Required (requireAll : Bool) (branchSchemas : Dict String SchemaConfig) (field : String) :
    Prop :=
  if requireAll then Reported true branchSchemas field
  else
    (∃ branch schema, branchSchemas.get branch = some schema ∧ schema.isTyped) ∧
      ∀ branch schema, branchSchemas.get branch = some schema → schema.isTyped →
        field ∈ schema.getEffectiveGuaranteedFields

section Reports

variable {branchSchemas : Dict String SchemaConfig} {requireAll : Bool} {field : String}

variable {sets : List (Finset String)} {first : Finset String} {branch : String}
  {schema : SchemaConfig} {policy : CollisionPolicy} {order : List String}

theorem mem_foldl_union :
    field ∈ sets.foldl (· ∪ ·) first ↔ field ∈ first ∨ ∃ set ∈ sets, field ∈ set := by
  induction sets generalizing first with
  | nil => simp
  | cons set sets ih =>
    rw [foldl_cons, ih, Finset.mem_union, exists_mem_cons_iff, or_assoc]

theorem mem_foldl_inter :
    field ∈ sets.foldl (· ∩ ·) first ↔ field ∈ first ∧ ∀ set ∈ sets, field ∈ set := by
  induction sets generalizing first with
  | nil => simp
  | cons set sets ih =>
    rw [foldl_cons, ih, Finset.mem_inter, forall_mem_cons, and_assoc]

/-- The guaranteed fields of a merge are reported ones. -/
theorem reported_of_mergeGuaranteedFields {names : List String}
    (merged : mergeGuaranteedFields branchSchemas requireAll = some names) (mem : field ∈ names) :
    Reported requireAll branchSchemas field := by
  simp only [mergeGuaranteedFields] at merged
  unfold Reported
  split at merged
  · cases merged
  · rename_i first rest votes
    have voters : ∀ set ∈ first :: rest, ∃ branch schema,
        branchSchemas.get branch = some schema ∧ schema.getEffectiveGuaranteedFields = set := by
      intro set listed
      rw [← votes] at listed
      obtain ⟨schema, voting, rfl⟩ := mem_map.mp listed
      obtain ⟨branch, found⟩ := Dict.mem_values.mp (mem_filter.mp voting).1
      exact ⟨branch, schema, found, rfl⟩
    split at merged
    · cases merged
      rw [if_pos ‹_›]
      have named : ∃ set ∈ first :: rest, field ∈ set := by
        rw [mem_sorted, mem_foldl_union] at mem
        rw [exists_mem_cons_iff]
        exact mem
      obtain ⟨set, listed, inside⟩ := named
      obtain ⟨branch, schema, found, rfl⟩ := voters set listed
      exact ⟨branch, schema, found, inside⟩
    · split at merged
      · cases merged
      · rename_i partly unanimous
        cases merged
        rw [if_neg partly]
        intro branch schema found
        have valued : schema ∈ branchSchemas.values := Dict.mem_values.mpr ⟨branch, found⟩
        have votes_too : schema.hasEffectiveGuarantees := by
          by_contra abstains
          exact unanimous (any_eq_true.mpr ⟨schema, valued, by simpa using abstains⟩)
        have listed : schema.getEffectiveGuaranteedFields ∈ first :: rest :=
          votes ▸ mem_map.mpr ⟨schema, mem_filter.mpr ⟨valued, votes_too⟩, rfl⟩
        rw [mem_sorted, mem_foldl_inter] at mem
        rcases mem_cons.mp listed with same | later
        · exact same ▸ mem.1
        · exact mem.2 _ later

theorem get_explicitFields {fields : List (FieldFlags FieldType)} :
    (explicitFields branchSchemas).get branch = some fields ↔
      ∃ schema, branchSchemas.get branch = some schema ∧ schema.isTyped ∧
        ∃ listed, schema.fields = some listed ∧ listed.map FieldDefinition.flags = fields := by
  unfold explicitFields
  rw [Dict.get_filterMap, Option.bind_eq_some_iff]
  refine exists_congr fun schema => and_congr_right fun _ => ?_
  unfold isTyped
  cases schema.isObserved <;> cases schema.fields <;> simp

theorem mem_effective_of_flags {listed : List FieldDefinition}
    (lists : schema.fields = some listed) {flags : FieldFlags FieldType}
    (mem : flags ∈ listed.map FieldDefinition.flags) (required : flags.required)
    (named : flags.name = field) : field ∈ schema.getEffectiveGuaranteedFields := by
  obtain ⟨definition, inside, rfl⟩ := mem_map.mp mem
  exact mem_getEffectiveGuaranteedFields.mpr (.inr
    (mem_declaredRequired.mpr ⟨listed, lists, definition, inside, required, named⟩))

/-- The required fields of merged flags come from the branches with typed fields. -/
theorem required_of_flags {merged : Dict String (MergedFlags FieldType)}
    {flags : MergedFlags FieldType}
    (covers : ∀ branch, branch ∈ branchSchemas.keys → branch ∈ order)
    (ran : mergeUnionFieldFlags (explicitFields branchSchemas) requireAll policy (some order) =
      .ok merged) (found : merged.get field = some flags) (required : flags.required) :
    Required requireAll branchSchemas field := by
  cases requireAll with
  | true =>
    obtain ⟨branch, -, fields, described, carrier, inside, requires, named⟩ :=
      exists_required_of_all ran found required
    obtain ⟨schema, here, -, listed, lists, rfl⟩ := get_explicitFields.mp described
    exact ⟨branch, schema, here, mem_effective_of_flags lists inside requires named⟩
  | false =>
    refine ⟨?_, fun branch schema here typed => ?_⟩
    · obtain ⟨carrier, mem⟩ := exists_mem_of_ne_nil _
        ((mem_keys_mergeUnionFieldFlags ran).mp (Dict.mem_keys_of_get found))
      obtain ⟨-, -, fields, described, -⟩ := mem_carriersFor.mp mem
      obtain ⟨schema, here, typed, -⟩ := get_explicitFields.mp described
      exact ⟨carrier.1, schema, here, typed⟩
    · obtain ⟨-, isSome⟩ := (Bool.and_eq_true _ _).mp typed
      obtain ⟨listed, lists⟩ := Option.isSome_iff_exists.mp isSome
      obtain ⟨carrier, inside, requires, named⟩ := forall_required_of_partial ran found required
        branch (covers branch (Dict.mem_keys_of_get here)) _
        (get_explicitFields.mpr ⟨schema, here, typed, listed, lists, rfl⟩)
      exact mem_effective_of_flags lists inside requires named

/-- What the schema of a union guarantees is given, and what it requires comes from the typed
fields of its branches. -/
theorem of_mergeUnionFields {coalesceId : Option String}
    {guaranteed audit : Option (List String)} {merged : SchemaConfig}
    (covers : ∀ branch, branch ∈ branchSchemas.keys → branch ∈ order)
    (built : mergeUnionFields branchSchemas requireAll policy (some order) coalesceId guaranteed
      audit = .ok merged) :
    merged.guaranteedFields = guaranteed ∧ ∀ field ∈ merged.declaredRequired,
      Required requireAll branchSchemas field := by
  have unlisted : ∀ field ∈ (observedSchema guaranteed audit).declaredRequired,
      Required requireAll branchSchemas field := nofun
  unfold mergeUnionFields at built
  split at built
  · cases built
    exact ⟨rfl, unlisted⟩
  · simp only at built
    split at built
    · cases built
    · split at built
      · cases built
      · rename_i flags ran
        split at built
        · cases built
          exact ⟨rfl, unlisted⟩
        · cases built
          refine ⟨rfl, fun field required => ?_⟩
          obtain ⟨_, same, definition, listed, requires, rfl⟩ := mem_declaredRequired.mp required
          cases same
          obtain ⟨entry, inside, rfl⟩ := mem_map.mp listed
          exact required_of_flags covers ran (Dict.get_eq_some.mpr inside) requires

end Reports

/-! ## Guarantees survive coalescing -/

variable {V : Type}

/-- A row carries every field its schema guarantees. -/
def Honours (row : RowData V) (schema : SchemaConfig) : Prop :=
  ∀ field ∈ schema.getEffectiveGuaranteedFields, field ∈ row.keys

/-- Every arrived row carries what the schema of its branch guarantees. -/
def AllHonour {settings : CoalesceSettings} (arrivals : Arrivals settings V)
    (branchSchemas : BranchSchemas settings) : Prop :=
  ∀ branch row schema, arrivals.rows.get branch = some row →
    branchSchemas.schemas.get branch = some schema → Honours row schema

/-- Where a branch may be missing, a union whose branches have typed fields is given a row of
a branch that has them. -/
def TypedArrives {settings : CoalesceSettings} (arrivals : Arrivals settings V)
    (branchSchemas : BranchSchemas settings) : Prop :=
  settings.merge = .union → settings.hasAllBranchSemantics = false →
    (∃ branch schema, branchSchemas.schemas.get branch = some schema ∧ schema.isTyped) →
      ∃ branch row schema, arrivals.rows.get branch = some row ∧
        branchSchemas.schemas.get branch = some schema ∧ schema.isTyped

section Survival

variable {settings : CoalesceSettings} {arrivals : Arrivals settings V}
  {branchSchemas : BranchSchemas settings} {field : String}

/-- A reported field is carried by some arrived row. -/
theorem carried_of_reported (admits : settings.Admits arrivals.rows.size)
    (honour : AllHonour arrivals branchSchemas)
    (reported : Reported settings.hasAllBranchSemantics branchSchemas.schemas field) :
    ∃ branch ∈ settings.branches, ∃ row, arrivals.rows.get branch = some row ∧
      field ∈ row.keys := by
  unfold Reported at reported
  split at reported
  · rename_i all
    obtain ⟨branch, schema, found, guaranteed⟩ := reported
    have declared := (branchSchemas.covers branch).mp (Dict.mem_keys_of_get found)
    obtain ⟨row, arrived⟩ := Dict.mem_keys.mp
      (Arrivals.arrived_of_allBranchSemantics all admits declared)
    exact ⟨branch, declared, row, arrived, honour branch row schema arrived found field guaranteed⟩
  · obtain ⟨branch, declared, row, arrived⟩ := Arrivals.exists_arrived admits
    obtain ⟨schema, found⟩ := Dict.mem_keys.mp ((branchSchemas.covers branch).mpr declared)
    exact ⟨branch, declared, row, arrived, honour branch row schema arrived found field
      (reported branch schema found)⟩

/-- A required field is carried by some arrived row, if a row with typed fields is there. -/
theorem carried_of_required (admits : settings.Admits arrivals.rows.size)
    (honour : AllHonour arrivals branchSchemas) (union : settings.merge = .union)
    (typed : TypedArrives arrivals branchSchemas)
    (required : Required settings.hasAllBranchSemantics branchSchemas.schemas field) :
    ∃ branch ∈ settings.branches, ∃ row, arrivals.rows.get branch = some row ∧
      field ∈ row.keys := by
  unfold Required at required
  split at required
  · rename_i all
    exact carried_of_reported admits honour (all ▸ required)
  · rename_i partly
    obtain ⟨branch, row, schema, arrived, found, lists⟩ :=
      typed union (Bool.not_eq_true _ ▸ partly) required.1
    exact ⟨branch, arrivals.expected branch (Dict.mem_keys_of_get arrived), row, arrived,
      honour branch row schema arrived found field (required.2 branch schema found lists)⟩

/-- The schema of a nested merge requires a branch's field only where every branch arrives. -/
theorem arrived_of_nested (admits : settings.Admits arrivals.rows.size)
    (mem : field ∈ (flexibleSchema ((orderedBranchNames branchSchemas.schemas
      (some settings.branches)).map fun branch =>
        { name := branch, fieldType := .any, required := settings.hasAllBranchSemantics })
      none none).getEffectiveGuaranteedFields) :
    field ∈ settings.branches ∧ field ∈ arrivals.rows.keys := by
  rcases mem_getEffectiveGuaranteedFields.mp mem with ⟨_, none, -⟩ | required
  · cases none
  · obtain ⟨_, same, definition, listed, all, rfl⟩ :=
      mem_declaredRequired.mp required
    cases same
    obtain ⟨branch, inside, rfl⟩ := mem_map.mp listed
    have declared : branch ∈ settings.branches := by
      rcases mem_append.mp inside with ordered | other
      · exact (mem_filter.mp ordered).1
      · exact (branchSchemas.covers branch).mp (mem_filter.mp other).1
    exact ⟨declared, Arrivals.arrived_of_allBranchSemantics all admits declared⟩

variable {nest : RowData V → V} {policy : CollisionPolicy} {coalesceId : Option String}
  {guarantees : Option (BranchSchemas settings)} {merged : SchemaConfig} {data : MergedData V}

/-- Under a selection or a nesting the merged row honours the whole schema. -/
theorem honours_of_not_union
    (built : coalesceSchema settings policy coalesceId branchSchemas guarantees = .ok merged)
    (admits : settings.Admits arrivals.rows.size) (honour : AllHonour arrivals branchSchemas)
    (ran : mergeData nest settings arrivals.rows = .ok data) (apart : settings.merge ≠ .union) :
    Honours data.merged merged := by
  intro field mem
  unfold coalesceSchema mergeCoalesceSchema at built
  unfold mergeData at ran
  split at built
  · rename_i union
    exact absurd union apart
  · rename_i select
    rw [select] at ran
    split at built
    · cases built
    · rename_i branch selected
      split at built
      · cases built
      · rename_i schema found
        cases built
        rw [selected] at ran
        simp only at ran
        split at ran
        · cases ran
        · rename_i row arrived
          cases ran
          exact honour branch row merged arrived found field mem
  · rename_i nested
    rw [nested] at ran
    cases built
    cases ran
    exact mem_keys_nestedRow.mpr (arrived_of_nested admits mem)

theorem mergeUnionFields_of_union
    (built : coalesceSchema settings policy coalesceId branchSchemas guarantees = .ok merged)
    (union : settings.merge = .union) :
    merged.guaranteedFields = mergeGuaranteedFields ((guarantees.map BranchSchemas.schemas).getD
        branchSchemas.schemas) settings.hasAllBranchSemantics ∧
      ∀ field ∈ merged.declaredRequired,
        Required settings.hasAllBranchSemantics branchSchemas.schemas field := by
  unfold coalesceSchema mergeCoalesceSchema at built
  rw [union] at built
  exact of_mergeUnionFields (fun branch => (branchSchemas.covers branch).mp) built

theorem mem_keys_of_union (ran : mergeData nest settings arrivals.rows = .ok data)
    (union : settings.merge = .union) (carried : ∃ branch ∈ settings.branches, ∃ row,
      arrivals.rows.get branch = some row ∧ field ∈ row.keys) : field ∈ data.merged.keys := by
  unfold mergeData at ran
  rw [union] at ran
  cases ran
  exact mem_keys_union.mpr carried

/-- The merged row carries the guaranteed fields of the schema. -/
theorem mem_keys_of_guaranteed
    (built : coalesceSchema settings policy coalesceId branchSchemas guarantees = .ok merged)
    (admits : settings.Admits arrivals.rows.size) (honour : AllHonour arrivals branchSchemas)
    (vouched : ∀ votes, guarantees = some votes → AllHonour arrivals votes)
    (ran : mergeData nest settings arrivals.rows = .ok data) {names : List String}
    (given : merged.guaranteedFields = some names) (listed : field ∈ names) :
    field ∈ data.merged.keys := by
  by_cases union : settings.merge = .union
  · have reported := reported_of_mergeGuaranteedFields
      ((mergeUnionFields_of_union built union).1 ▸ given) listed
    refine mem_keys_of_union ran union ?_
    cases guarantees with
    | none => exact carried_of_reported admits honour reported
    | some votes => exact carried_of_reported admits (vouched votes rfl) reported
  · exact honours_of_not_union built admits honour ran union field
      (mem_getEffectiveGuaranteedFields.mpr (.inl ⟨names, given, listed⟩))

/-- The merged row carries the required fields as well, if typed fields arrived. -/
theorem honours_merged
    (built : coalesceSchema settings policy coalesceId branchSchemas guarantees = .ok merged)
    (admits : settings.Admits arrivals.rows.size) (honour : AllHonour arrivals branchSchemas)
    (vouched : ∀ votes, guarantees = some votes → AllHonour arrivals votes)
    (ran : mergeData nest settings arrivals.rows = .ok data)
    (typed : TypedArrives arrivals branchSchemas) : Honours data.merged merged := by
  by_cases union : settings.merge = .union
  · intro field mem
    rcases mem_getEffectiveGuaranteedFields.mp mem with ⟨names, given, listed⟩ | declared
    · exact mem_keys_of_guaranteed built admits honour vouched ran given listed
    · exact mem_keys_of_union ran union (carried_of_required admits honour union typed
        ((mergeUnionFields_of_union built union).2 field declared))
  · exact honours_of_not_union built admits honour ran union

/-- Whatever the policy merges, the merged row carries every field that the schema of the
coalesce guarantees, and every field it requires if a branch with typed fields arrived. -/
theorem coalesce_guarantees_survive {event : CoalesceEvent} {lost : List String}
    {groupId : String}
    (built : coalesceSchema settings policy coalesceId branchSchemas guarantees = .ok merged)
    (merges : decideCoalesce settings event arrivals.rows.size lost groupId = .ok .merge)
    (arrives : event = .arrival → 0 < arrivals.rows.size)
    (honour : AllHonour arrivals branchSchemas)
    (vouched : ∀ votes, guarantees = some votes → AllHonour arrivals votes)
    (ran : mergeData nest settings arrivals.rows = .ok data) :
    (∀ names, merged.guaranteedFields = some names → ∀ field ∈ names,
        field ∈ data.merged.keys) ∧
      (TypedArrives arrivals branchSchemas → Honours data.merged merged) := by
  have admits := admits_of_merge merges arrives
  exact ⟨fun _ given _ => mem_keys_of_guaranteed built admits honour vouched ran given,
    honours_merged built admits honour vouched ran⟩

end Survival

/-! ### A best-effort union of which one branch arrives -/

section Enrichment

/-- A fork into two enrichments, merged when both have answered or the time is over. -/
def enrichment : CoalesceSettings where
  name := "enrich"
  branches := ["model", "lookup"]
  policy := .bestEffort
  merge := .union
  timeoutSeconds := some 30
  quorumCount := none
  selectBranch := none
  nodup_branches := by decide
  two_le_branches := by decide
  quorum_bounds := by rintro _ ⟨⟩
  quorum_set := by rintro ⟨⟩
  timeout_set := by rintro - ⟨⟩
  select_set := by rintro ⟨⟩
  select_mem := by rintro _ ⟨⟩

/-- Both branches keep the id; each adds a field of its own. -/
def enrichmentSchemas : BranchSchemas enrichment where
  schemas := Dict.ofList [
    ("model", flexibleSchema [⟨"id", .int, true, false⟩, ⟨"score", .float, true, false⟩] none none),
    ("lookup", flexibleSchema [⟨"id", .int, true, false⟩, ⟨"city", .str, true, true⟩] none none)]
  covers := fun _ => Dict.mem_keys_ofList

def lookupOnly : Arrivals enrichment Nat where
  rows := Dict.ofList [("lookup", Dict.ofList [("id", 7), ("city", 4)])]
  expected := by decide

theorem lookupOnly_honours : AllHonour lookupOnly enrichmentSchemas := by
  intro branch row schema arrived found
  have only : branch ∈ lookupOnly.rows.keys := Dict.mem_keys_of_get arrived
  obtain rfl : branch = "lookup" := mem_singleton.mp only
  cases arrived
  cases found
  unfold Honours
  decide

theorem lookupOnly_keeps_id :
    ∃ merged data, coalesceSchema enrichment .lastWins none enrichmentSchemas none = .ok merged ∧
      mergeData (fun _ => 0) enrichment lookupOnly.rows = .ok data ∧
      "id" ∈ merged.getEffectiveGuaranteedFields ∧ Honours data.merged merged := by
  obtain ⟨merged, built, guaranteed⟩ : ∃ merged,
      coalesceSchema enrichment .lastWins none enrichmentSchemas none = .ok merged ∧
        "id" ∈ merged.getEffectiveGuaranteedFields :=
    ⟨_, rfl, mem_getEffectiveGuaranteedFields.mpr (.inr (by decide))⟩
  obtain ⟨data, ran⟩ : ∃ data, mergeData (fun _ => 0) enrichment lookupOnly.rows = .ok data :=
    ⟨_, rfl⟩
  have merges : decideCoalesce enrichment .timeout lookupOnly.rows.size [] "group" = .ok .merge :=
    rfl
  have typed : TypedArrives lookupOnly enrichmentSchemas := fun _ _ _ =>
    ⟨"lookup", _, _, rfl, rfl, rfl⟩
  exact ⟨merged, data, built, ran, guaranteed,
    (coalesce_guarantees_survive built merges nofun lookupOnly_honours nofun ran).2 typed⟩

/-- The lookup says nothing of its fields, and has no say in those of the model. -/
def untypedSchemas : BranchSchemas enrichment where
  schemas := Dict.ofList [
    ("model", flexibleSchema [⟨"id", .int, true, false⟩, ⟨"score", .float, true, false⟩] none none),
    ("lookup", { mode := .flexible })]
  covers := fun _ => Dict.mem_keys_ofList

def untypedOnly : Arrivals enrichment Nat where
  rows := Dict.ofList [("lookup", Dict.ofList [("city", 4)])]
  expected := by decide

/-- The merged schema requires the id, while a row made of the lookup alone has none. -/
theorem untypedOnly_lacks_id :
    ∃ merged data, coalesceSchema enrichment .lastWins none untypedSchemas none = .ok merged ∧
      decideCoalesce enrichment .timeout untypedOnly.rows.size [] "group" = .ok .merge ∧
      AllHonour untypedOnly untypedSchemas ∧
      mergeData (fun _ => 0) enrichment untypedOnly.rows = .ok data ∧
      "id" ∈ merged.getEffectiveGuaranteedFields ∧ "id" ∉ data.merged.keys := by
  have honour : AllHonour untypedOnly untypedSchemas := by
    intro branch row schema arrived found
    have only : branch ∈ untypedOnly.rows.keys := Dict.mem_keys_of_get arrived
    obtain rfl : branch = "lookup" := mem_singleton.mp only
    cases arrived
    cases found
    nofun
  refine ⟨_, _, rfl, rfl, honour, rfl, ?_, by decide⟩
  exact mem_getEffectiveGuaranteedFields.mpr (.inr (by decide))

end Enrichment

end Elspeth.Guarantees
