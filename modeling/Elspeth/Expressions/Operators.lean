import Elspeth.Expressions.Values

/-!
# Arithmetic, subscripts, calls and container literals
-/

namespace Elspeth.Expressions

open List

open Contracts (SchemaContract)

variable {F S : Type}

namespace Val

/-! ## Arithmetic -/

def isObject : Val F S → Bool
  | .object _ => true
  | _ => false

/-- The greatest index of a sequence. -/
def maxIndex : Int := 2 ^ 63 - 1

section

variable (rt : Runtime F S)

/-- How often a sequence of this length is repeated: a negative count is zero, a count that is
no index overflows, and the result must fit in memory. -/
def repetitions (length : Nat) (count : Int) : Except Exc Nat :=
  if maxIndex < count ∨ count < -maxIndex - 1 then .error .overflowError
  else if rt.memory < length * count.toNat then .error .memoryError
  else .ok count.toNat

/-- `sequence * count`. -/
def repeated (sequence : Val F S) (count : Int) : Except Exc (Val F S) :=
  match sequence with
  | .str text => do
    let times ← repetitions rt text.length count
    .ok (.str (String.ofList (replicate times text.toList).flatten))
  | .list items => do
    let times ← repetitions rt items.length count
    .ok (.list (replicate times items).flatten)
  | .tuple items => do
    let times ← repetitions rt items.length count
    .ok (.tuple (replicate times items).flatten)
  | _ => .error .typeError

/-- The items of `lefts` that are not found in `rights`. -/
def difference (rt : Runtime F S) (rights : List (Val F S)) :
    List (Val F S) → Except Exc (List (Val F S))
  | [] => .ok []
  | left :: lefts => do
    let found ← search rt (equal rt rt.recursionLimit) left rights
    let rest ← difference rt rights lefts
    .ok (if found then rest else left :: rest)

/-- The operators of strings, lists, tuples and sets. -/
def sequence (op : Operator) (left right : Val F S) : Except Exc (Val F S) :=
  match op, left, right with
  | .add, .str left, .str right => .ok (.str (left ++ right))
  | .add, .list left, .list right => .ok (.list (left ++ right))
  | .add, .tuple left, .tuple right => .ok (.tuple (left ++ right))
  | .sub, .set left, .set right | .sub, .set left, .frozenset right =>
    (difference rt right left).map .set
  | .sub, .frozenset left, .set right | .sub, .frozenset left, .frozenset right =>
    (difference rt right left).map .frozenset
  | .mult, left, right =>
    match left.numeral, right.numeral with
    | some (.int count), Option.none => repeated rt right count
    | Option.none, some (.int count) => repeated rt left count
    | _, _ => .error .typeError
  | _, _, _ => .error .typeError

/-- The binary operators.  A string on the left of `%` is a format, whatever is on its
right. -/
def binary (op : Operator) (left right : Val F S) : Except Exc (Val F S) :=
  match op, left with
  | .mod, .str format => ((rt.format format right).mapError FormatFault.exc).map .str
  | op, left =>
    if left.isObject || right.isObject then
      ((rt.objectBinary op left right).mapError Fault.exc).map Number.val
    else
      match left.numeral, right.numeral with
      | some left, some right => (arith rt op left right).map Number.val
      | _, _ => sequence rt op left right

/-- The unary operators. -/
def unary (op : UnaryOperator) (operand : Val F S) : Except Exc (Val F S) :=
  match op, operand with
  | .not, operand => .ok (.bool !(operand.truth rt))
  | op, .object operand => ((rt.objectUnary op operand).mapError Fault.exc).map Number.val
  | op, operand =>
    match op, operand.numeral with
    | .uSub, some (.int value) => .ok (.int (-value))
    | .uSub, some (.float value) => .ok (.float (rt.neg value))
    | .uAdd, some (.int value) => .ok (.int value)
    | .uAdd, some (.float value) => .ok (.float value)
    | _, _ => .error .typeError

/-! ## Subscripts -/

/-- An index counts from the end when it is negative. -/
def position (length : Nat) (index : Int) : Option Nat :=
  let shifted := if index < 0 then index + length else index
  if 0 ≤ shifted ∧ shifted < length then some shifted.toNat else Option.none

def item (items : List (Val F S)) (index : Int) : Except Exc (Val F S) :=
  match (position items.length index).bind fun at_ => items[at_]? with
  | some value => .ok value
  | Option.none => .error .indexError

def entry (entries : List (Val F S × Val F S)) (key : Val F S) :
    Except Exc (Val F S) :=
  if key.hashable rt then do
    match ← searchEntries rt (equal rt rt.recursionLimit) key entries with
    | some value => .ok value
    | Option.none => .error .keyError
  else .error .typeError

/-- `value[key]`. -/
def getItem (value key : Val F S) : Except Exc (Val F S) :=
  match value with
  | .list items | .tuple items =>
    match key.numeral with
    | some (.int index) => item items index
    | _ => .error .typeError
  | .str text =>
    match key.numeral with
    | some (.int index) => item (text.toList.map fun c => .str (String.ofList [c])) index
    | _ => .error .typeError
  | .dict entries | .mappingproxy entries => entry rt entries key
  | .row _ contract data => readRow rt contract data key
  | .none | .bool _ | .int _ | .float _ | .object _ | .set _ | .frozenset _ | .builtin _
  | .getMethod _ => .error .typeError

/-! ## Calls -/

/-- `receiver.get(key)`: a missing key is `None`. -/
def getOr (found : Except Exc (Val F S)) : Except Exc (Val F S) :=
  match found with
  | .error .keyError => .ok .none
  | found => found

/-- The receivers that have a `get` method. -/
def hasGet : Val F S → Bool
  | .dict _ | .mappingproxy _ | .row _ _ _ => true
  | _ => false

/-- An `int` or a finite `float` as the number its decimal spelling denotes; a bool is
neither here. -/
def numericDecimalFraction : Val F S → Except Exc ℚ
  | .int value => .ok value
  | .float value => if rt.isFinite value then .ok (rt.decimal value) else .error .valueError
  | _ => .error .typeError

def decimalWithin (left right tolerance : Val F S) : Except Exc Bool := do
  let left ← numericDecimalFraction rt left
  let right ← numericDecimalFraction rt right
  let bound ← numericDecimalFraction rt tolerance
  if bound < 0 then .error .valueError else .ok (|left - right| ≤ bound)

def callBuiltin : Builtin → List (Val F S) → Except Exc (Val F S)
  | .len, [value] =>
    match value.length with
    | some length => .ok (.int length)
    | Option.none => .error .typeError
  | .abs, [.object value] => ((rt.objectAbs value).mapError Fault.exc).map Number.val
  | .abs, [value] =>
    match value.numeral with
    | some (.int value) => .ok (.int value.natAbs)
    | some (.float value) => .ok (.float (rt.abs value))
    | Option.none => .error .typeError
  | .lower, [.str value] => .ok (.str (rt.lower value))
  | .upper, [.str value] => .ok (.str (rt.upper value))
  | .casefold, [.str value] => .ok (.str (rt.casefold value))
  | .strip, [.str value] | .strip, [.str value, .none] =>
    .ok (.str (rt.strip value Option.none))
  | .strip, [.str value, .str characters] => .ok (.str (rt.strip value (some characters)))
  | .startsWith, [.str value, .str start] =>
    .ok (.bool (start.toList.isPrefixOf value.toList))
  | .wordCount, [.str value] => .ok (.int (rt.wordCount value))
  | .decimalWithin, [left, right, tolerance] => (decimalWithin rt left right tolerance).map .bool
  | _, _ => .error .typeError

/-- `callee(*args)`. -/
def call (callee : Val F S) (args : List (Val F S)) : Except Exc (Val F S) :=
  match callee, args with
  | .builtin function, args => callBuiltin rt function args
  | .getMethod receiver, [key] => getOr (getItem rt receiver key)
  | .object value, args => (rt.objectCall value args).mapError Fault.exc
  | _, _ => .error .typeError

/-! ## Container literals -/

/-- The items of a set literal, in evaluation order: an item that is there already is
dropped. -/
def insert (items : List (Val F S)) (value : Val F S) :
    Except Exc (List (Val F S)) :=
  if value.hashable rt then do
    if ← search rt (equal rt rt.recursionLimit) value items then .ok items
    else .ok (items ++ [value])
  else .error .typeError

end

/-- The entries of a dict literal: a repeated key keeps its first spelling and its last
value. -/
def assign (rt : Runtime F S) (key value : Val F S) :
    List (Val F S × Val F S) → Except Exc (List (Val F S × Val F S))
  | [] => .ok [(key, value)]
  | (name, old) :: entries => do
    if ← sameKey rt (equal rt rt.recursionLimit) name key then .ok ((name, value) :: entries)
    else
      let rest ← assign rt key value entries
      .ok ((name, old) :: rest)

/-- Every entry of a dict literal holds a key and a value that were put there. -/
theorem mem_of_assign {rt : Runtime F S} {key value : Val F S}
    {entries updated : List (Val F S × Val F S)}
    (assigned : assign rt key value entries = .ok updated) {found : Val F S × Val F S}
    (mem : found ∈ updated) :
    (found.1 = key ∨ ∃ old ∈ entries, found.1 = old.1) ∧
      (found.2 = value ∨ ∃ old ∈ entries, found.2 = old.2) := by
  induction entries generalizing updated with
  | nil =>
    cases assigned
    rw [mem_singleton.mp mem]
    exact ⟨.inl rfl, .inl rfl⟩
  | cons entry entries ih =>
    obtain ⟨name, old⟩ := entry
    unfold assign at assigned
    simp only [bind, Except.bind] at assigned
    split at assigned
    · cases assigned
    · split at assigned
      · cases assigned
        rcases mem_cons.mp mem with rfl | later
        · exact ⟨.inr ⟨(name, old), mem_cons_self, rfl⟩, .inl rfl⟩
        · exact ⟨.inr ⟨found, mem_cons_of_mem _ later, rfl⟩,
            .inr ⟨found, mem_cons_of_mem _ later, rfl⟩⟩
      · split at assigned
        · cases assigned
        · rename_i rest recursive
          cases assigned
          rcases mem_cons.mp mem with rfl | later
          · exact ⟨.inr ⟨(name, old), mem_cons_self, rfl⟩,
              .inr ⟨(name, old), mem_cons_self, rfl⟩⟩
          · obtain ⟨keys, values⟩ := ih recursive later
            refine ⟨keys.imp_right ?_, values.imp_right ?_⟩
            · rintro ⟨other, mem', same⟩
              exact ⟨other, mem_cons_of_mem _ mem', same⟩
            · rintro ⟨other, mem', same⟩
              exact ⟨other, mem_cons_of_mem _ mem', same⟩

end Val

end Elspeth.Expressions
