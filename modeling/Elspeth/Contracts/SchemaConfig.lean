import Mathlib.Data.Finset.Basic
import Elspeth.Contracts.SchemaContract

/-!
# Schema configurations

What a node declares about the rows it emits, before any row exists: the fields by name and
type, whether a row may carry others, and the fields the node guarantees.  Guaranteeing
nothing (`some []`) is a declaration; no declaration at all (`none`) is an abstention.
-/

namespace Elspeth.Contracts

/-- The types a schema can declare for a field. -/
inductive FieldType where
  | str
  | int
  | float
  | bool
  | any
  deriving DecidableEq, Repr

structure FieldDefinition where
  name : String
  fieldType : FieldType
  required : Bool := true
  nullable : Bool := false
  deriving DecidableEq, Repr

/-- A schema.  Parsing demands that one that is not observed lists its fields; a schema made
in code need not. -/
structure SchemaConfig where
  mode : SchemaMode
  fields : Option (List FieldDefinition) := none
  guaranteedFields : Option (List String) := none
  auditFields : Option (List String) := none

namespace SchemaConfig

variable (schema : SchemaConfig)

def isObserved : Bool := schema.mode = .observed

/-- Whether the schema lists its fields with their types. -/
def isTyped : Bool := !schema.isObserved && schema.fields.isSome

def allowsExtraFields : Bool := schema.isObserved || schema.mode = .flexible

def declaredRequired : List String :=
  ((schema.fields.getD []).filter FieldDefinition.required).map FieldDefinition.name

/-- The fields the schema says are there: the guaranteed ones, and those it lists as
required. -/
def getEffectiveGuaranteedFields : Finset String :=
  (schema.guaranteedFields.getD []).toFinset ∪ schema.declaredRequired.toFinset

/-- Whether the schema votes at all; one that lists fields votes even if all are optional. -/
def hasEffectiveGuarantees : Bool :=
  schema.guaranteedFields.isSome || schema.fields.isSome

def participatesInPropagation : Bool := schema.hasEffectiveGuarantees

/-- Every name a row of this schema can carry, unless it admits undeclared ones. -/
def closedFieldNames : Option (Finset String) :=
  if schema.allowsExtraFields then none
  else schema.fields.map fun fields =>
    (fields.map FieldDefinition.name).toFinset ∪ schema.getEffectiveGuaranteedFields

variable {schema}

theorem mem_declaredRequired {name : String} :
    name ∈ schema.declaredRequired ↔
      ∃ fields, schema.fields = some fields ∧
        ∃ field ∈ fields, field.required ∧ field.name = name := by
  unfold declaredRequired
  rw [List.mem_map]
  constructor
  · rintro ⟨field, kept, rfl⟩
    obtain ⟨mem, required⟩ := List.mem_filter.mp kept
    cases listed : schema.fields with
    | none => simp [listed] at mem
    | some fields => exact ⟨fields, rfl, field, by simpa [listed] using mem, required, rfl⟩
  · rintro ⟨fields, listed, field, mem, required, rfl⟩
    exact ⟨field, List.mem_filter.mpr ⟨by simpa [listed] using mem, required⟩, rfl⟩

theorem mem_getEffectiveGuaranteedFields {name : String} :
    name ∈ schema.getEffectiveGuaranteedFields ↔
      (∃ names, schema.guaranteedFields = some names ∧ name ∈ names) ∨
        name ∈ schema.declaredRequired := by
  unfold getEffectiveGuaranteedFields
  cases schema.guaranteedFields <;> simp

end SchemaConfig

end Elspeth.Contracts
