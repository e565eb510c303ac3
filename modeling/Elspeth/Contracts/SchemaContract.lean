import Mathlib.Data.List.Nodup

/-!
# Schema contracts

A contract describes the fields of a row: the name the row stores a field under, the name
the source gave it, its type, and whether it may be absent or null.  Both names identify
the field, so a contract with two fields of one name cannot be built.

A row answers to both names.  `findName` resolves a key, and `readField` is what reading
the key from a row does: outside FIXED mode a key the contract does not know falls back to
the stored name.
-/

namespace Elspeth.Contracts

open List

/-! ## Fields -/

/-- The types a contract can record for a field. -/
inductive ContractType where
  | int
  | str
  | float
  | bool
  | noneType
  | datetime
  | object
  deriving DecidableEq, Repr

inductive FieldSource where
  | declared
  | inferred
  deriving DecidableEq, Repr

structure FieldContract where
  normalizedName : String
  originalName : String
  pythonType : ContractType
  required : Bool
  source : FieldSource
  nullable : Bool := false
  deriving DecidableEq, Repr

inductive SchemaMode where
  | fixed
  | flexible
  | observed
  deriving DecidableEq, Repr

/-! ## Contracts -/

inductive ContractError where
  | duplicateNormalizedName
  | duplicateOriginalName
  deriving DecidableEq, Repr

structure SchemaContract where
  mode : SchemaMode
  fields : List FieldContract
  locked : Bool := false
  nodup_normalized : (fields.map FieldContract.normalizedName).Nodup
  nodup_original : (fields.map FieldContract.originalName).Nodup
  deriving DecidableEq

namespace SchemaContract

/-- The constructor: fields that share a name are refused. -/
def new (mode : SchemaMode) (fields : List FieldContract) (locked : Bool) :
    Except ContractError SchemaContract :=
  if normalized : (fields.map FieldContract.normalizedName).Nodup then
    if original : (fields.map FieldContract.originalName).Nodup then
      .ok ⟨mode, fields, locked, normalized, original⟩
    else .error .duplicateOriginalName
  else .error .duplicateNormalizedName

variable (contract : SchemaContract)

def normalizedNames : List String := contract.fields.map FieldContract.normalizedName

def findField (name : String) : Option FieldContract :=
  contract.fields.find? fun field => field.normalizedName = name

/-- The stored name of the field that `key` names: a normalized name is its own, an
original name belongs to one field. -/
def findName (key : String) : Option String :=
  if key ∈ contract.normalizedNames then some key
  else (contract.fields.find? fun field => field.originalName = key).map
    FieldContract.normalizedName

variable {name : String}

theorem findField_eq_some {field : FieldContract} :
    contract.findField name = some field ↔
      field ∈ contract.fields ∧ field.normalizedName = name := by
  constructor
  · intro found
    have named := find?_some found
    exact ⟨mem_of_find?_eq_some found, of_decide_eq_true named⟩
  · rintro ⟨mem, rfl⟩
    obtain ⟨other, found⟩ : ∃ other, contract.findField field.normalizedName = some other := by
      refine Option.isSome_iff_exists.mp (find?_isSome.mpr ⟨field, mem, ?_⟩)
      exact decide_eq_true rfl
    have named := find?_some (show contract.fields.find? _ = some other from found)
    have same : other.normalizedName = field.normalizedName := of_decide_eq_true named
    rw [found, inj_on_of_nodup_map contract.nodup_normalized
      (mem_of_find?_eq_some found) mem same]

theorem findField_eq_none : contract.findField name = none ↔ name ∉ contract.normalizedNames := by
  unfold findField normalizedNames
  rw [find?_eq_none, mem_map]
  constructor
  · rintro absent ⟨field, mem, rfl⟩
    exact absent field mem (decide_eq_true rfl)
  · intro absent field mem named
    exact absent ⟨field, mem, of_decide_eq_true named⟩

end SchemaContract

/-! ## Reading a row by name -/

/-- Whether a row of this mode answers to keys its contract does not know. -/
def SchemaMode.readsExtras : SchemaMode → Bool
  | .fixed => false
  | .flexible | .observed => true

variable {V : Type}

/-- `row[key]`: the field that the contract resolves the key to, or, outside FIXED mode, the
field stored under the key itself; nothing stands for the `KeyError`. -/
def readField (contract : SchemaContract) (data : List (String × V)) (key : String) : Option V :=
  match (contract.findName key).bind fun name => data.lookup name with
  | some value => some value
  | none => if contract.mode.readsExtras then data.lookup key else none

variable {data : List (String × V)} {key : String} {value : V}

theorem mem_of_lookup (found : data.lookup key = some value) : (key, value) ∈ data := by
  obtain ⟨before, after, rfl, -⟩ := lookup_eq_some_iff.mp found
  exact mem_append_right _ mem_cons_self

/-- A value that is read from a row is one of its values. -/
theorem mem_of_readField {contract : SchemaContract}
    (found : readField contract data key = some value) : ∃ name, (name, value) ∈ data := by
  unfold readField at found
  split at found
  · rename_i stored
    cases found
    obtain ⟨name, -, got⟩ := Option.bind_eq_some_iff.mp stored
    exact ⟨name, mem_of_lookup got⟩
  · split at found
    · exact ⟨key, mem_of_lookup found⟩
    · cases found

/-- `key in row`: unlike `readField` it does not fall back once the contract knows the key. -/
def hasField (contract : SchemaContract) (data : List (String × V)) (key : String) : Bool :=
  match contract.findName key with
  | some name => (data.lookup name).isSome
  | none => contract.mode.readsExtras && (data.lookup key).isSome

end Elspeth.Contracts
