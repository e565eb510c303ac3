import Elspeth.Collections.Dict
import Elspeth.Contracts.SchemaContract

/-!
# Validating a row

A row is checked against a contract field by field: a required field must be there, a value
must have the declared type, and under FIXED mode no other field may be there.  Validation
sees of a value only whether it is null and how its type is classified; a value of a wrapper
library counts as one of the type it stands for.

`validate_eq_nil` says which rows pass.
-/

namespace Elspeth.Contracts

open Collections (Dict)

/-! ## Values -/

/-- How the type of a value is classified: a type that contracts know, or another one. -/
inductive RuntimeType where
  | known (type : ContractType)
  | other (name : String)
  deriving DecidableEq, Repr

/-- The null value, or a value of some type.  A missing-value marker of a wrapper library is
classified like the null value without being it. -/
inductive RowValue where
  | null
  | typed (type : RuntimeType) (text : String)
  deriving DecidableEq, Repr

def classifyRuntimeType : RowValue → RuntimeType
  | .null => .known .noneType
  | .typed type _ => type

/-- Exact type, except that an integer is accepted where a float is declared. -/
def declaredTypeAdmits (declared : ContractType) (actual : RuntimeType) : Bool :=
  actual = .known declared || (declared = .float && actual = .known .int)

/-! ## Violations -/

inductive ContractViolation where
  | missingField (normalizedName originalName : String)
  | typeMismatch (normalizedName originalName : String) (expected : ContractType)
      (actual : RuntimeType) (value : RowValue)
  | extraField (normalizedName originalName : String)
  deriving DecidableEq, Repr

/-- Whether the field may hold the null value whatever its type. -/
def FieldContract.allowsNull (field : FieldContract) : Bool := !field.required || field.nullable

/-- Whether the field may hold a value. -/
def FieldContract.accepts (field : FieldContract) (value : RowValue) : Bool :=
  field.pythonType = .object || (value = .null && field.allowsNull) ||
    declaredTypeAdmits field.pythonType (classifyRuntimeType value)

def FieldContract.check (field : FieldContract) (row : Dict String RowValue) :
    List ContractViolation :=
  match row.get field.normalizedName with
  | none =>
    if field.required then [.missingField field.normalizedName field.originalName] else []
  | some value =>
    if field.accepts value then []
    else [.typeMismatch field.normalizedName field.originalName field.pythonType
      (classifyRuntimeType value) value]

def SchemaContract.validate (contract : SchemaContract) (row : Dict String RowValue) :
    List ContractViolation :=
  contract.fields.flatMap (fun field => field.check row) ++
    if contract.mode = .fixed then
      (row.keys.filter fun key => key ∉ contract.normalizedNames).map fun key => .extraField key key
    else []

/-! ## Which rows pass -/

/-- The field is there if it must be, and holds a value it may hold. -/
def FieldContract.Holds (field : FieldContract) (row : Dict String RowValue) : Prop :=
  (field.required → field.normalizedName ∈ row.keys) ∧
    ∀ value, row.get field.normalizedName = some value → field.accepts value

variable {row : Dict String RowValue} {type : ContractType}

theorem FieldContract.check_eq_nil {field : FieldContract} :
    field.check row = [] ↔ field.Holds row := by
  unfold check Holds
  cases found : row.get field.normalizedName with
  | none =>
    have absent := Dict.get_eq_none.mp found
    cases field.required <;> simp [absent]
  | some value =>
    have present := Dict.mem_keys_of_get found
    cases field.accepts value <;> simp [present]

theorem SchemaContract.validate_eq_nil {contract : SchemaContract} :
    contract.validate row = [] ↔ (∀ field ∈ contract.fields, field.Holds row) ∧
      (contract.mode = .fixed → ∀ key ∈ row.keys, key ∈ contract.normalizedNames) := by
  unfold validate
  rw [List.append_eq_nil_iff, List.flatMap_eq_nil_iff]
  refine and_congr (forall₂_congr fun field _ => FieldContract.check_eq_nil) ?_
  split
  · rename_i fixed
    simp [fixed]
  · rename_i flexible
    simp [flexible]

theorem declaredTypeAdmits_self (type : ContractType) : declaredTypeAdmits type (.known type) := by
  simp [declaredTypeAdmits]

/-- A type other than `NoneType` does not admit the null value. -/
theorem declaredTypeAdmits_null :
    declaredTypeAdmits type (classifyRuntimeType .null) ↔ type = .noneType := by
  cases type <;> simp [declaredTypeAdmits, classifyRuntimeType]

theorem declaredTypeAdmits_other {name : String} :
    declaredTypeAdmits type (.other name) = false := by
  simp [declaredTypeAdmits]

end Elspeth.Contracts
