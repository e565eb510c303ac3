import Mathlib.Logic.Basic

/-!
# Canonical JSON values

The audit tables keep evidence, plans and lineage as canonical JSON text, and
identities are digests of such text (`contracts/hashing.py`).  A `Json` value
stands for its canonical text: the fields of an object are in key order, so equal
texts are equal values and comparing texts is comparing values.

Numbers that occur in the modelled payloads are ordinals, sizes and generations;
they are integers here.
-/

namespace Elspeth

/-- A value with a canonical JSON text. -/
inductive Json where
  | null
  | flag (value : Bool)
  | number (value : Int)
  | text (value : String)
  | list (values : List Json)
  | object (fields : List (String × Json))
  deriving Repr

namespace Json

/-! ## Equality of texts -/

mutual

/-- Equality of values is decidable, constructor by constructor. -/
def decideEq : (left right : Json) → Decidable (left = right)
  | .null, .null => .isTrue rfl
  | .flag left, .flag right => decidable_of_iff (left = right) (by simp)
  | .number left, .number right => decidable_of_iff (left = right) (by simp)
  | .text left, .text right => decidable_of_iff (left = right) (by simp)
  | .list left, .list right =>
    have := decideEqList left right
    decidable_of_iff (left = right) (by simp)
  | .object left, .object right =>
    have := decideEqFields left right
    decidable_of_iff (left = right) (by simp)
  | .null, .flag _ | .null, .number _ | .null, .text _ | .null, .list _ | .null, .object _
  | .flag _, .null | .flag _, .number _ | .flag _, .text _ | .flag _, .list _
  | .flag _, .object _
  | .number _, .null | .number _, .flag _ | .number _, .text _ | .number _, .list _
  | .number _, .object _
  | .text _, .null | .text _, .flag _ | .text _, .number _ | .text _, .list _
  | .text _, .object _
  | .list _, .null | .list _, .flag _ | .list _, .number _ | .list _, .text _
  | .list _, .object _
  | .object _, .null | .object _, .flag _ | .object _, .number _ | .object _, .text _
  | .object _, .list _ => .isFalse (by simp)

def decideEqList : (left right : List Json) → Decidable (left = right)
  | [], [] => .isTrue rfl
  | [], _ :: _ => .isFalse (by simp)
  | _ :: _, [] => .isFalse (by simp)
  | left :: lefts, right :: rights =>
    have := decideEq left right
    have := decideEqList lefts rights
    decidable_of_iff (left = right ∧ lefts = rights) (by simp)

def decideEqFields : (left right : List (String × Json)) → Decidable (left = right)
  | [], [] => .isTrue rfl
  | [], _ :: _ => .isFalse (by simp)
  | _ :: _, [] => .isFalse (by simp)
  | (leftKey, left) :: lefts, (rightKey, right) :: rights =>
    have := decideEq left right
    have := decideEqFields lefts rights
    decidable_of_iff ((leftKey = rightKey ∧ left = right) ∧ lefts = rights) (by simp)

end

instance : DecidableEq Json := decideEq

/-! ## Reading values -/

/-- The value of one key of an object's fields. -/
def field (key : String) (fields : List (String × Json)) : Option Json :=
  (fields.find? fun entry => entry.1 = key).map Prod.snd

/-- `type(value) is str`. -/
def asText : Json → Option String
  | .text value => some value
  | _ => none

end Json

end Elspeth
