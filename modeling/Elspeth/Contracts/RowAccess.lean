import Elspeth.Collections.Dict
import Elspeth.Contracts.SchemaContract

/-!
# Three ways to ask a row for a key

A key is read with `row[key]` or `row.get`, asked for with `key in row`, and looked up in the
index that a row exports to consumers which must not hold its contract.  Each of the three
resolves the key by the contract first and falls back to the stored name outside FIXED mode.

They do not fall back alike: `key in row` gives up as soon as the contract knows the key, even
if the row lacks the field it stands for.  `access_coherent_iff` says that this is the only
disagreement.
-/

namespace Elspeth.Contracts

open List

open Collections (Dict)

variable {V : Type} (contract : SchemaContract) (data : List (String × V)) (key : String)

/-- `row.get(key, default)`. -/
def rowGet (default : V) : V := (readField contract data key).getD default

/-- The stored name that the index has for a key. -/
def indexEntry : Option String :=
  ((contract.findName key).filter fun name => (data.lookup name).isSome).or
    (if contract.mode.readsExtras && (data.lookup key).isSome then some key else none)

/-- Every spelling of a field, and every stored name. -/
def indexCandidates : List String :=
  (contract.fields.flatMap fun field => [field.normalizedName, field.originalName]) ++
    data.map Prod.fst

/-- `row.name_index()`: every key that can be read, with the stored name it reads. -/
def nameIndex : Dict String String :=
  Dict.ofList ((indexCandidates contract data).filterMap fun key =>
    (indexEntry contract data key).map fun name => (key, name))

/-- The answers of a row to a key agree. -/
structure Coherent : Prop where
  contains_iff : hasField contract data key ↔ readField contract data key ≠ none
  indexed_iff : readField contract data key ≠ none ↔ key ∈ (nameIndex contract data).keys
  reads : ∀ name, (nameIndex contract data).get key = some name →
    readField contract data key = data.lookup name
  gets : ∀ default, rowGet contract data key default =
    (((nameIndex contract data).get key).bind fun name => data.lookup name).getD default

/-- The key is stored and readable, but the contract knows it as a name of a field that the row
lacks. -/
def Masked : Prop :=
  contract.mode.readsExtras ∧ data.lookup key ≠ none ∧
    ∃ name, contract.findName key = some name ∧ data.lookup name = none

variable {contract data key}

theorem readField_eq_bind : readField contract data key =
    (indexEntry contract data key).bind fun name => data.lookup name := by
  unfold readField indexEntry
  cases contract.findName key with
  | none => cases contract.mode.readsExtras <;> cases stored : data.lookup key <;> simp [stored]
  | some name =>
    cases held : data.lookup name with
    | some => simp [Option.filter, held]
    | none =>
      cases contract.mode.readsExtras <;> cases stored : data.lookup key <;>
        simp [Option.filter, held, stored]

theorem readField_ne_none :
    readField contract data key ≠ none ↔ indexEntry contract data key ≠ none := by
  unfold readField indexEntry
  cases contract.findName key with
  | none => cases contract.mode.readsExtras <;> cases data.lookup key <;> simp
  | some name =>
    cases held : data.lookup name with
    | some => simp [Option.filter, held]
    | none =>
      cases contract.mode.readsExtras <;> cases data.lookup key <;> simp [Option.filter, held]

theorem mem_of_findName {name : String} (resolved : contract.findName key = some name) :
    key ∈ contract.fields.flatMap fun field => [field.normalizedName, field.originalName] := by
  rw [mem_flatMap]
  unfold SchemaContract.findName at resolved
  split at resolved
  next own =>
    obtain ⟨field, mem, rfl⟩ := mem_map.mp own
    exact ⟨field, mem, mem_cons_self⟩
  · obtain ⟨field, found, -⟩ := Option.map_eq_some_iff.mp resolved
    have spelled : field.originalName = key := by simpa using find?_some found
    exact ⟨field, mem_of_find?_eq_some found, by simp [spelled]⟩

theorem mem_indexCandidates (entry : indexEntry contract data key ≠ none) :
    key ∈ indexCandidates contract data := by
  unfold indexCandidates
  rw [mem_append]
  cases resolved : contract.findName key with
  | some => exact .inl (mem_of_findName resolved)
  | none =>
    refine .inr ?_
    cases stored : data.lookup key with
    | none => simp [indexEntry, resolved, stored] at entry
    | some => exact mem_map.mpr ⟨_, mem_of_lookup stored, rfl⟩

/-- The index has exactly the keys that can be read. -/
theorem get_nameIndex : (nameIndex contract data).get key = indexEntry contract data key := by
  refine Dict.get_ofList_of_graph ?_ fun entry => ?_
  · intro pair listed
    obtain ⟨other, -, made⟩ := mem_filterMap.mp listed
    obtain ⟨name, indexed, rfl⟩ := Option.map_eq_some_iff.mp made
    exact indexed
  · obtain ⟨name, indexed⟩ := Option.ne_none_iff_exists'.mp entry
    exact mem_map.mpr ⟨(key, name), mem_filterMap.mpr
      ⟨key, mem_indexCandidates entry, by rw [indexed]; rfl⟩, rfl⟩

/-- The test `key in row` fails for a key that can be read exactly where the key is masked. -/
theorem contains_iff_not_masked :
    (hasField contract data key ↔ readField contract data key ≠ none) ↔
      ¬ Masked contract data key := by
  unfold hasField readField Masked
  cases contract.findName key with
  | none => cases contract.mode.readsExtras <;> simp [Option.isSome_iff_ne_none]
  | some name =>
    cases held : data.lookup name with
    | some => simp [held, -lookup_eq_none_iff]
    | none => cases contract.mode.readsExtras <;> simp [held, -lookup_eq_none_iff]

/-- **Reading, asking and indexing a key agree unless it is masked.** -/
theorem access_coherent_iff (contract : SchemaContract) (data : List (String × V)) (key : String) :
    Coherent contract data key ↔ ¬ Masked contract data key := by
  rw [← contains_iff_not_masked]
  constructor
  · intro coherent
    exact coherent.contains_iff
  · intro contains
    refine ⟨contains, ?_, ?_, ?_⟩
    · rw [readField_ne_none, Dict.mem_keys, get_nameIndex, Option.ne_none_iff_exists']
    · intro name indexed
      rw [get_nameIndex] at indexed
      rw [readField_eq_bind, indexed]
      rfl
    · intro default
      rw [get_nameIndex, ← readField_eq_bind]
      rfl

/-! ### A masked key

The contract calls the field `amount` by the header `Amount`; the row has no `amount`, but an
undeclared `Amount`. -/

namespace Worked

def headed : SchemaContract where
  mode := .flexible
  fields := [⟨"amount", "Amount", .int, false, .declared, false⟩]
  nodup_normalized := by decide
  nodup_original := by decide

end Worked

theorem masked_key_read_not_contained :
    hasField Worked.headed [("Amount", 7)] "Amount" = false ∧
      readField Worked.headed [("Amount", 7)] "Amount" = some 7 ∧
      (nameIndex Worked.headed [("Amount", 7)]).get "Amount" = some "Amount" := by
  decide

end Elspeth.Contracts
