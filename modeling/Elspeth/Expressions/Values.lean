import Mathlib.Algebra.Order.Ring.Rat
import Mathlib.Data.List.Infix
import Elspeth.Contracts.SchemaContract
import Elspeth.Expressions.Syntax

/-!
# Values and operators

The values an expression computes with and the operators it applies to them, as the
language defines them.  What the language takes from elsewhere is a `Runtime`: the float
arithmetic of the machine (floats are the elements of a type `F`), the character tables
behind the string builtins and the `%` format, the hash function, and the scalar objects
`S` that a row may hold beside the built-in types, such as dates and decimals.

A float is an object: `floatIs` is identity, which a container's search tries before
equality, so that a NaN is found in a list that holds that very NaN.  Containers carry no
identity here; an object compared with itself is compared item by item.
-/

namespace Elspeth.Expressions

open Contracts (SchemaContract)

/-! ## Values -/

/-- A value.  A `PipelineRow` compares by identity and has no length; its data is keyed by
normalized name.  `builtin` and `getMethod` are what a name or an attribute in call position
evaluates to. -/
inductive Val (F S : Type) where
  | none
  | bool (value : Bool)
  | int (value : Int)
  | float (value : F)
  | str (value : String)
  | object (value : S)
  | list (items : List (Val F S))
  | tuple (items : List (Val F S))
  | set (items : List (Val F S))
  | frozenset (items : List (Val F S))
  | dict (entries : List (Val F S × Val F S))
  | mappingproxy (entries : List (Val F S × Val F S))
  | row (identity : Nat) (contract : SchemaContract) (data : List (String × Val F S))
  | builtin (function : Builtin)
  | getMethod (receiver : Val F S)

/-- The number types the arithmetic operators return beside the sequences: an operator
applied to a scalar object returns a number or a scalar object. -/
inductive Number (F S : Type) where
  | int (value : Int)
  | float (value : F)
  | object (value : S)

variable {F S : Type}

def Number.val : Number F S → Val F S
  | .int value => .int value
  | .float value => .float value
  | .object value => .object value

/-! ## Exceptions -/

/-- What an operator, a subscript or a builtin can raise.  `arithmetic` stands for the
exception classes of scalar objects, by name. -/
inductive Exc where
  | typeError
  | keyError
  | indexError
  | zeroDivisionError
  | overflowError
  | valueError
  | memoryError
  | recursionError
  | attributeError
  | arithmetic (name : String)
  deriving DecidableEq, Repr

def Exc.name : Exc → String
  | typeError => "TypeError"
  | keyError => "KeyError"
  | indexError => "IndexError"
  | zeroDivisionError => "ZeroDivisionError"
  | overflowError => "OverflowError"
  | valueError => "ValueError"
  | memoryError => "MemoryError"
  | recursionError => "RecursionError"
  | attributeError => "AttributeError"
  | arithmetic name => name

/-- What the methods of a scalar object can raise. -/
inductive Fault where
  | typeError
  | zeroDivisionError
  | overflowError
  | valueError
  | memoryError
  | recursionError
  | arithmetic (name : String)
  deriving DecidableEq, Repr

def Fault.exc : Fault → Exc
  | typeError => .typeError
  | zeroDivisionError => .zeroDivisionError
  | overflowError => .overflowError
  | valueError => .valueError
  | memoryError => .memoryError
  | recursionError => .recursionError
  | arithmetic name => .arithmetic name

/-- What `%`-formatting can raise: a mapping may lack the key the format names. -/
inductive FormatFault where
  | keyError
  | method (fault : Fault)
  deriving DecidableEq, Repr

def FormatFault.exc : FormatFault → Exc
  | keyError => .keyError
  | method fault => fault.exc

/-! ## The runtime -/

/-- What the interpreter brings to the operators. -/
structure Runtime (F S : Type) where
  /-- The float nearest to an integer, if it is in range. -/
  ofInt : Int → Option F
  /-- The float nearest to the quotient of two integers, if it is in range. -/
  divInt : Int → Int → Option F
  arith : Operator → F → F → F
  neg : F → F
  abs : F → F
  isZero : F → Bool
  isFinite : F → Bool
  floatIs : F → F → Bool
  floatEq : F → F → Bool
  floatLt : F → F → Bool
  /-- The order of an integer and a float; a NaN has none. -/
  compareInt : Int → F → Option Ordering
  /-- `Fraction(str(x))`: the decimal spelling of a finite float. -/
  decimal : F → ℚ
  /-- `repr` of a float that is not finite: inf, -inf or nan. -/
  category : F → String
  lower : String → String
  upper : String → String
  casefold : String → String
  strip : String → Option String → String
  wordCount : String → Nat
  format : String → Val F S → Except FormatFault String
  /-- `str(x)`; an integer with too many digits has none. -/
  display : Val F S → Option String
  repr : String → String
  hash : Val F S → Int
  typeName : S → String
  truth : S → Bool
  hashable : S → Bool
  objectIs : S → S → Bool
  objectCompare : CmpOp → Val F S → Val F S → Except Fault Bool
  objectBinary : Operator → Val F S → Val F S → Except Fault (Number F S)
  objectUnary : UnaryOperator → S → Except Fault (Number F S)
  objectAbs : S → Except Fault (Number F S)
  objectCall : S → List (Val F S) → Except Fault (Val F S)
  /-- The object of a bytes, complex or `...` literal. -/
  literal : Literal F → S
  recursionLimit : Nat
  memory : Nat

/-- A runtime for small examples: every float is a whole number and there is one scalar
object, which supports no operator. -/
def wholeRuntime : Runtime Int Unit where
  ofInt := some
  divInt left right := some (left.fdiv right)
  arith op left right :=
    match op with
    | .add => left + right
    | .sub => left - right
    | .mult => left * right
    | .mod => left.fmod right
    | _ => left.fdiv right
  neg x := -x
  abs x := x.natAbs
  isZero x := x = 0
  isFinite _ := true
  floatIs left right := left = right
  floatEq left right := left = right
  floatLt left right := left < right
  compareInt left right := some (compare left right)
  decimal x := x
  category _ := "nan"
  lower text := String.ofList (text.toList.map Char.toLower)
  upper text := String.ofList (text.toList.map Char.toUpper)
  casefold text := String.ofList (text.toList.map Char.toLower)
  strip text _ := text
  wordCount _ := 1
  format text _ := .ok text
  display
    | .str text => some text
    | .int value => some (toString value)
    | _ => some ""
  repr text := "'" ++ text ++ "'"
  hash _ := 0
  typeName _ := "object"
  truth _ := true
  hashable _ := true
  objectIs _ _ := true
  objectCompare _ _ _ := .error .typeError
  objectBinary _ _ _ := .error .typeError
  objectUnary _ _ := .error .typeError
  objectAbs _ := .error .typeError
  objectCall _ _ := .error .typeError
  literal _ := ()
  recursionLimit := 1000
  memory := 1000

namespace Val

/-! ## Types, lengths, truth -/

/-- `type(value)`. -/
inductive PyType where
  | noneType
  | bool
  | int
  | float
  | str
  | list
  | tuple
  | set
  | frozenset
  | dict
  | mappingproxy
  | pipelineRow
  | callable (name : String)
  | object (name : String)
  deriving DecidableEq, Repr

def PyType.name : PyType → String
  | noneType => "NoneType"
  | bool => "bool"
  | int => "int"
  | float => "float"
  | str => "str"
  | list => "list"
  | tuple => "tuple"
  | set => "set"
  | frozenset => "frozenset"
  | dict => "dict"
  | mappingproxy => "mappingproxy"
  | pipelineRow => "PipelineRow"
  | callable name => name
  | object name => name

def builtinType : Builtin → String
  | .len | .abs => "builtin_function_or_method"
  | .lower | .upper | .strip | .casefold => "method_descriptor"
  | .startsWith | .wordCount | .decimalWithin => "function"

def pyType (rt : Runtime F S) : Val F S → PyType
  | .none => .noneType
  | .bool _ => .bool
  | .int _ => .int
  | .float _ => .float
  | .str _ => .str
  | .object value => .object (rt.typeName value)
  | .list _ => .list
  | .tuple _ => .tuple
  | .set _ => .set
  | .frozenset _ => .frozenset
  | .dict _ => .dict
  | .mappingproxy _ => .mappingproxy
  | .row _ _ _ => .pipelineRow
  | .builtin function => .callable (builtinType function)
  | .getMethod (.row _ _ _) => .callable "method"
  | .getMethod _ => .callable "builtin_function_or_method"

/-- `type(value).__name__`. -/
def typeName (rt : Runtime F S) (value : Val F S) : String := (value.pyType rt).name

/-- `len(value)`, of the types that have one. -/
def length : Val F S → Option Nat
  | .str value => some value.length
  | .list items | .tuple items | .set items | .frozenset items => some items.length
  | .dict entries | .mappingproxy entries => some entries.length
  | .none | .bool _ | .int _ | .float _ | .object _ | .row _ _ _ | .builtin _ | .getMethod _ =>
    Option.none

/-- `bool(value)`. -/
def truth (rt : Runtime F S) : Val F S → Bool
  | .none => false
  | .bool value => value
  | .int value => value ≠ 0
  | .float value => !rt.isZero value
  | .str value => value ≠ ""
  | .object value => rt.truth value
  | .list items | .tuple items | .set items | .frozenset items => !items.isEmpty
  | .dict entries | .mappingproxy entries => !entries.isEmpty
  | .row _ _ _ | .builtin _ | .getMethod _ => true

mutual

/-- Whether `hash(value)` succeeds. -/
def hashable (rt : Runtime F S) : Val F S → Bool
  | .tuple items => hashableAll rt items
  | .object value => rt.hashable value
  | .list _ | .set _ | .dict _ | .mappingproxy _ => false
  | .none | .bool _ | .int _ | .float _ | .str _ | .frozenset _ | .row _ _ _ | .builtin _
  | .getMethod _ => true

def hashableAll (rt : Runtime F S) : List (Val F S) → Bool
  | [] => true
  | item :: items => item.hashable rt && hashableAll rt items

end

/-! ## Numbers -/

/-- A bool is a number: `True` is one. -/
inductive Numeral (F : Type) where
  | int (value : Int)
  | float (value : F)

def numeral : Val F S → Option (Numeral F)
  | .bool value => some (.int (if value then 1 else 0))
  | .int value => some (.int value)
  | .float value => some (.float value)
  | _ => Option.none

section

variable (rt : Runtime F S)

def Numeral.compare : CmpOp → Numeral F → Numeral F → Bool
  | .eq, .int left, .int right => left = right
  | .lt, .int left, .int right => left < right
  | .ltE, .int left, .int right => left ≤ right
  | .gt, .int left, .int right => right < left
  | .gtE, .int left, .int right => right ≤ left
  | .eq, .float left, .float right => rt.floatEq left right
  | .lt, .float left, .float right => rt.floatLt left right
  | .ltE, .float left, .float right => rt.floatLt left right || rt.floatEq left right
  | .gt, .float left, .float right => rt.floatLt right left
  | .gtE, .float left, .float right => rt.floatLt right left || rt.floatEq right left
  | op, .int left, .float right =>
    match op, rt.compareInt left right with
    | .eq, some .eq | .lt, some .lt | .ltE, some .lt | .ltE, some .eq | .gt, some .gt
    | .gtE, some .gt | .gtE, some .eq => true
    | _, _ => false
  | op, .float left, .int right =>
    match op, rt.compareInt right left with
    | .eq, some .eq | .lt, some .gt | .ltE, some .gt | .ltE, some .eq | .gt, some .lt
    | .gtE, some .lt | .gtE, some .eq => true
    | _, _ => false
  | _, .int _, .int _ | _, .float _, .float _ => false

def Numeral.float? : Numeral F → Except Exc F
  | .float value => .ok value
  | .int value =>
    match rt.ofInt value with
    | some value => .ok value
    | Option.none => .error .overflowError

/-- The arithmetic of two integers. -/
def intArith (op : Operator) (left right : Int) :
    Except Exc (Number F S) :=
  match op with
  | .add => .ok (.int (left + right))
  | .sub => .ok (.int (left - right))
  | .mult => .ok (.int (left * right))
  | .floorDiv => if right = 0 then .error .zeroDivisionError else .ok (.int (left.fdiv right))
  | .mod => if right = 0 then .error .zeroDivisionError else .ok (.int (left.fmod right))
  | .div =>
    if right = 0 then .error .zeroDivisionError
    else
      match rt.divInt left right with
      | some value => .ok (.float value)
      | Option.none => .error .overflowError
  | _ => .error .typeError

/-- The arithmetic of two floats.  A zero divisor is an exception, an overflow is not. -/
def floatArith (op : Operator) (left right : F) : Except Exc (Number F S) :=
  match op with
  | .add | .sub | .mult => .ok (.float (rt.arith op left right))
  | .div | .floorDiv | .mod =>
    if rt.isZero right then .error .zeroDivisionError
    else .ok (.float (rt.arith op left right))
  | _ => .error .typeError

def arith (op : Operator) : Numeral F → Numeral F → Except Exc (Number F S)
  | .int left, .int right => intArith rt op left right
  | left, right => do
    let left ← left.float? rt
    let right ← right.float? rt
    floatArith rt op left right

end

/-! ## Equality and membership -/

section Comparison

variable (rt : Runtime F S) (eq : Val F S → Val F S → Except Exc Bool)

/-- Identity or equality, the test of a search in a container. -/
def same (left right : Val F S) : Except Exc Bool :=
  match left, right with
  | .float x, .float y => if rt.floatIs x y then .ok true else eq left right
  | .object x, .object y => if rt.objectIs x y then .ok true else eq left right
  | _, _ => eq left right

/-- Two sequences of one length, item by item. -/
def sameAll : List (Val F S) → List (Val F S) → Except Exc Bool
  | [], [] => .ok true
  | left :: lefts, right :: rights => do
    if ← same rt eq left right then sameAll lefts rights else .ok false
  | [], _ :: _ | _ :: _, [] => .ok false

/-- The test of a search by hash: only an item with the key's hash is compared. -/
def sameKey (item key : Val F S) : Except Exc Bool :=
  if rt.hash item = rt.hash key then same rt eq item key else .ok false

/-- A search by hash. -/
def search (key : Val F S) : List (Val F S) → Except Exc Bool
  | [] => .ok false
  | item :: items => do
    if ← sameKey rt eq item key then .ok true else search key items

/-- The value under a key, found by hash. -/
def searchEntries (key : Val F S) :
    List (Val F S × Val F S) → Except Exc (Option (Val F S))
  | [] => .ok Option.none
  | (name, value) :: entries => do
    if ← sameKey rt eq name key then .ok (some value) else searchEntries key entries

/-- Whether every item is found in `others`. -/
def subset (others : List (Val F S)) : List (Val F S) → Except Exc Bool
  | [] => .ok true
  | item :: items => do
    if ← search rt eq item others then subset others items else .ok false

/-- Whether every entry is found, with an equal value, in `others`. -/
def sameEntries (others : List (Val F S × Val F S)) :
    List (Val F S × Val F S) → Except Exc Bool
  | [] => .ok true
  | (name, value) :: entries => do
    match ← searchEntries rt eq name others with
    | Option.none => .ok false
    | some other => if ← same rt eq value other then sameEntries others entries else .ok false

/-- A linear search. -/
def find (key : Val F S) : List (Val F S) → Except Exc Bool
  | [] => .ok false
  | item :: items => do
    if ← same rt eq item key then .ok true else find key items

end Comparison

/-- `left == right`, at most `depth` calls deep. -/
def equal (rt : Runtime F S) : Nat → Val F S → Val F S → Except Exc Bool
  | 0, _, _ => .error .recursionError
  | depth + 1, left, right =>
    match left, right with
    | .object _, _ | _, .object _ =>
      (rt.objectCompare .eq left right).mapError Fault.exc
    | .none, .none => .ok true
    | .str left, .str right => .ok (left = right)
    | .list lefts, .list rights | .tuple lefts, .tuple rights =>
      if lefts.length = rights.length then sameAll rt (equal rt depth) lefts rights
      else .ok false
    | .set lefts, .set rights | .set lefts, .frozenset rights | .frozenset lefts, .set rights
    | .frozenset lefts, .frozenset rights =>
      if lefts.length = rights.length then subset rt (equal rt depth) rights lefts
      else .ok false
    | .dict lefts, .dict rights | .dict lefts, .mappingproxy rights
    | .mappingproxy lefts, .dict rights | .mappingproxy lefts, .mappingproxy rights =>
      if lefts.length = rights.length then sameEntries rt (equal rt depth) rights lefts
      else .ok false
    | .row left _ _, .row right _ _ => .ok (left = right)
    | .builtin left, .builtin right => .ok (left = right)
    | .getMethod left, .getMethod right => equal rt depth left right
    | left, right =>
      match left.numeral, right.numeral with
      | some left, some right => .ok (left.compare rt .eq right)
      | _, _ => .ok false

/-- The first pair of items that differ, or nothing where the shorter sequence ends. -/
def firstDifference (rt : Runtime F S) (eq : Val F S → Val F S → Except Exc Bool) :
    List (Val F S) → List (Val F S) → Except Exc (Option (Val F S × Val F S))
  | left :: lefts, right :: rights => do
    if ← same rt eq left right then firstDifference rt eq lefts rights
    else .ok (some (left, right))
  | [], _ | _, [] => .ok Option.none

def natOrder (op : CmpOp) (left right : Nat) : Bool :=
  match op with
  | .lt => left < right
  | .ltE => left ≤ right
  | .gt => right < left
  | .gtE => right ≤ left
  | _ => false

def strOrder (op : CmpOp) (left right : String) : Bool :=
  match op with
  | .lt => left < right
  | .ltE => ¬ right < left
  | .gt => right < left
  | .gtE => ¬ left < right
  | _ => false

variable (rt : Runtime F S)

/-- The subset relation that an order operator is between sets. -/
def setOrder (eq : Val F S → Val F S → Except Exc Bool) (op : CmpOp)
    (lefts rights : List (Val F S)) : Except Exc Bool :=
  match op with
  | .lt => if lefts.length < rights.length then subset rt eq rights lefts else .ok false
  | .ltE => if lefts.length ≤ rights.length then subset rt eq rights lefts else .ok false
  | .gt => if rights.length < lefts.length then subset rt eq lefts rights else .ok false
  | .gtE => if rights.length ≤ lefts.length then subset rt eq lefts rights else .ok false
  | _ => .ok false

/-- `<`, `<=`, `>` and `>=`, at most `depth` calls deep. -/
def order (rt : Runtime F S) : Nat → CmpOp → Val F S → Val F S → Except Exc Bool
  | 0, _, _, _ => .error .recursionError
  | depth + 1, op, left, right =>
    match left, right with
    | .object _, _ | _, .object _ => (rt.objectCompare op left right).mapError Fault.exc
    | .str left, .str right => .ok (strOrder op left right)
    | .list lefts, .list rights | .tuple lefts, .tuple rights => do
      match ← firstDifference rt (equal rt depth) lefts rights with
      | some (left, right) => order rt depth op left right
      | Option.none => .ok (natOrder op lefts.length rights.length)
    | .set lefts, .set rights | .set lefts, .frozenset rights | .frozenset lefts, .set rights
    | .frozenset lefts, .frozenset rights => setOrder rt (equal rt depth) op lefts rights
    | left, right =>
      match left.numeral, right.numeral with
      | some left, some right => .ok (left.compare rt op right)
      | _, _ => .error .typeError

/-- A key as a set looks it up: a set is looked up as the frozen set of its items. -/
def frozen : Val F S → Val F S
  | .set items => .frozenset items
  | value => value

/-- `row[key]` for any key: a key that is not a string names no field. -/
def readRow (contract : SchemaContract) (data : List (String × Val F S))
    (key : Val F S) : Except Exc (Val F S) :=
  match key with
  | .str name =>
    match Contracts.readField contract data name with
    | some value => .ok value
    | Option.none => .error .keyError
  | key => if key.hashable rt then .error .keyError else .error .typeError

/-- `key in row` for any key. -/
def rowContains (contract : SchemaContract) (data : List (String × Val F S))
    (key : Val F S) : Except Exc Bool :=
  match key with
  | .str name => .ok (Contracts.hasField contract data name)
  | key => if key.hashable rt then .ok false else .error .typeError

/-- `item in container`. -/
def contains (item container : Val F S) : Except Exc Bool :=
  match container with
  | .str text =>
    match item with
    | .str part => .ok (part.toList <:+: text.toList)
    | _ => .error .typeError
  | .list items | .tuple items => find rt (equal rt rt.recursionLimit) item items
  | .set items | .frozenset items =>
    if item.frozen.hashable rt then search rt (equal rt rt.recursionLimit) item.frozen items
    else .error .typeError
  | .dict entries | .mappingproxy entries =>
    if item.hashable rt then search rt (equal rt rt.recursionLimit) item (entries.map Prod.fst)
    else .error .typeError
  | .row _ contract data => rowContains rt contract data item
  | .object _ => (rt.objectCompare .inside item container).mapError Fault.exc
  | .none | .bool _ | .int _ | .float _ | .builtin _ | .getMethod _ => .error .typeError

def isNone : Val F S → Bool
  | .none => true
  | _ => false

/-- The comparison operators.  `is` is only ever applied with a literal `None` on one side. -/
def compare (op : CmpOp) (left right : Val F S) : Except Exc Bool :=
  match op with
  | .eq => equal rt rt.recursionLimit left right
  | .notEq => (equal rt rt.recursionLimit left right).map not
  | .lt | .ltE | .gt | .gtE => order rt rt.recursionLimit op left right
  | .inside => contains rt left right
  | .notInside => (contains rt left right).map not
  | .is => .ok (left.isNone && right.isNone)
  | .isNot => .ok !(left.isNone && right.isNone)

end Val

end Elspeth.Expressions
