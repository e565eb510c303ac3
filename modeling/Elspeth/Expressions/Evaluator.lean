import Elspeth.Semantics.Traced
import Elspeth.Expressions.Operators
import Elspeth.Expressions.Validator

/-!
# Evaluation

The evaluator is a second visitor, which computes.  Each arm hands its operands to an operator
and turns the exceptions it expects into an `ExpressionEvaluationError`; what it does not
expect is left to `evaluate`.

Beside the result the run records what it did: which node kinds were evaluated, what was
called, which attributes were read, and the operands of comparisons and binary operators.  An
error remembers the node it was raised at, the operands there and the exception behind it.
These are not in the program; the messages are built from the operands as the program builds
them.
-/

namespace Elspeth.Expressions

open Semantics Traced

variable {F S : Type}

/-! ## Errors and events -/

inductive EvaluationKind where
  | missingKey
  | indexOutOfRange
  | incompatibleTypes
  | divisionByZero
  | arithmeticOverflow
  | invalidValue
  | nonFiniteResult
  | unexpectedError
  deriving DecidableEq, Repr

/-- What failed: an operator raised, or its result is no finite number. -/
inductive Cause where
  | exception (exc : Exc)
  | nonFinite
  deriving DecidableEq, Repr

/-- Where it failed, and on which operands.  A chained comparison fails at one of its
links. -/
structure Site (F S : Type) where
  node : Expr F
  operands : List (Val F S)

structure EvaluationError (F S : Type) where
  message : String
  kind : EvaluationKind
  cause : Cause
  site : Site F S

inductive Raised (F S : Type) where
  | evaluation (error : EvaluationError F S)
  | security (message : String)
  | python (exc : Exc) (site : Site F S)

inductive Event (F S : Type) where
  | evaluated (kind : NodeKind)
  | called (callee : Val F S) (arguments : Nat)
  | readAttribute (receiver : Val F S) (attr : String)
  | compared (op : CmpOp) (left right : Expr F)
  | operated (op : Operator) (left right : Val F S)

abbrev Eval (F S α : Type) : Type := Traced (Event F S) (Raised F S) α

/-! ## Names of operators in messages -/

def CmpOp.name : CmpOp → String
  | eq => "Eq"
  | notEq => "NotEq"
  | lt => "Lt"
  | ltE => "LtE"
  | gt => "Gt"
  | gtE => "GtE"
  | is => "Is"
  | isNot => "IsNot"
  | inside => "In"
  | notInside => "NotIn"

def Operator.name : Operator → String
  | add => "Add"
  | sub => "Sub"
  | mult => "Mult"
  | div => "Div"
  | floorDiv => "FloorDiv"
  | mod => "Mod"
  | matMult => "MatMult"
  | pow => "Pow"
  | lShift => "LShift"
  | rShift => "RShift"
  | bitOr => "BitOr"
  | bitXor => "BitXor"
  | bitAnd => "BitAnd"

def UnaryOperator.name : UnaryOperator → String
  | not => "Not"
  | uSub => "USub"
  | uAdd => "UAdd"
  | invert => "Invert"

/-- The value of an allowed name. -/
def Scope.value (rt : Runtime F S) (scope : Scope) (context : Val F S) (id : String) :
    Except Exc (Val F S) :=
  match scope with
  | .row => .ok context
  | .named _ => Val.getItem rt context (.str id)

namespace Evaluator

variable (rt : Runtime F S) (scope : Scope) (context : Val F S)

/-! ## The arms -/

/-- Raise an `ExpressionEvaluationError`. -/
def fail {α : Type} (node : Expr F) (operands : List (Val F S)) (cause : Cause)
    (kind : EvaluationKind) (message : String) : Eval F S α :=
  raise (.evaluation ⟨message, kind, cause, ⟨node, operands⟩⟩)

/-- Leave an exception to `evaluate`. -/
def escape {α : Type} (node : Expr F) (operands : List (Val F S)) (exc : Exc) : Eval F S α :=
  raise (.python exc ⟨node, operands⟩)

def ensureFiniteFloat (node : Expr F) (operands : List (Val F S)) (where_ : String)
    (value : Val F S) : Eval F S (Val F S) :=
  match value with
  | .float x =>
    if rt.isFinite x then pure value
    else fail node operands .nonFinite .nonFiniteResult
      (where_ ++ " produced non-finite float: " ++ rt.category x)
  | value => pure value

def visitName (id : String) : Eval F S (Val F S) :=
  if id ∈ scope.names then
    match scope with
    | .row => pure context
    | .named _ =>
      match Val.getItem rt context (.str id) with
      | .ok value => pure value
      | .error exc => escape (.name id) [] exc
  else if id = "True" then pure (.bool true)
  else if id = "False" then pure (.bool false)
  else if id = "None" then pure .none
  else
    match Builtin.find id with
    | some builtin => pure (.builtin builtin)
    | none => raise (.security ("Unknown name: " ++ id))

def literal : Literal F → Val F S
  | .none => .none
  | .bool value => .bool value
  | .int value => .int value
  | .float value => .float value
  | .str value => .str value
  | .bytes => .object (rt.literal .bytes)
  | .complex => .object (rt.literal .complex)
  | .ellipsis => .object (rt.literal .ellipsis)

/-- Whether a subscript key reads an allowed name; if not, the expression's text alone
determines it. -/
def readsAllowedName (names : List String) (key : Expr F) : Bool :=
  key.walk.any fun node => (allowedName names node).isSome

def unspelledKey : String := "<a key the expression does not spell out>"

def unspelledIndex : String := "<an index the expression does not spell out>"

/-- The text a message prints for a key; a key without one is a `ValueError` of the
handler. -/
def keyText (names : List String) (slice : Expr F) (key : Val F S) (quote hidden : String) :
    Option String :=
  if readsAllowedName names slice then some hidden
  else (rt.display key).map fun text => quote ++ text ++ quote

def isDict : Val F S → Bool
  | .dict _ => true
  | _ => false

/-- The message of a failed lookup, from the text printed for its key. -/
def lookupMessage (value key : Val F S) (exc : Exc) (text : String) : String :=
  match exc with
  | .keyError =>
    if isDict value then "Field " ++ text ++ " not found in dict"
    else "Key " ++ text ++ " not found in " ++ value.typeName rt
  | .indexError =>
    "Index " ++ text ++ " out of range for " ++ value.typeName rt ++ " of length " ++
      toString (value.length.getD 0)
  | _ =>
    "Cannot access " ++ text ++ " (a " ++ key.typeName rt ++ " key) on " ++ value.typeName rt

def lookupKind : Exc → EvaluationKind
  | .keyError => .missingKey
  | .indexError => .indexOutOfRange
  | _ => .incompatibleTypes

/-- `value[key]` with the handlers around it. -/
def subscript (names : List String) (node slice : Expr F) (value key : Val F S) :
    Eval F S (Val F S) :=
  match Val.getItem rt value key with
  | .ok result => pure result
  | .error exc =>
    if exc = .keyError ∨ exc = .indexError ∨ exc = .typeError then
      match keyText rt names slice key (if exc = .indexError then "" else "'")
        (if exc = .indexError then unspelledIndex else unspelledKey) with
      | some text =>
        fail node [value, key] (.exception exc) (lookupKind exc)
          (lookupMessage rt value key exc text)
      | none => escape node [value, key] .valueError
    else escape node [value, key] exc

/-- The label of a call's function in messages. -/
def funcLabel : Expr F → String
  | .attributeOf _ attr => if attr = "get" then "row.get" else "unknown"
  | .name id => id
  | _ => "unknown"

def argTypes (args : List (Val F S)) : String :=
  ", ".intercalate (args.map (Val.typeName rt))

/-- `func(*args)` with the handlers around it. -/
def apply (node func : Expr F) (callee : Val F S) (args : List (Val F S)) :
    Eval F S (Val F S) := do
  emit (.called callee args.length)
  match Val.call rt callee args with
  | .ok result => pure result
  | .error .typeError =>
    fail node args (.exception .typeError) .incompatibleTypes
      ("invalid argument to " ++ funcLabel func ++ "(): cannot apply to (" ++ argTypes rt args ++
        ")")
  | .error .overflowError =>
    fail node args (.exception .overflowError) .arithmeticOverflow
      (funcLabel func ++ "() evaluation error: arithmetic overflow on (" ++ argTypes rt args ++ ")")
  | .error .valueError =>
    fail node args (.exception .valueError) .invalidValue
      (funcLabel func ++ "() evaluation error: invalid value for (" ++ argTypes rt args ++ ")")
  | .error exc => escape node args exc

/-- One link of a comparison chain. -/
def link (op : CmpOp) (leftNode rightNode : Expr F) (left right : Val F S) : Eval F S Bool := do
  emit (.compared op leftNode rightNode)
  match Val.compare rt op left right with
  | .ok holds => pure holds
  | .error .typeError =>
    fail (.compare leftNode [(op, rightNode)]) [left, right] (.exception .typeError)
      .incompatibleTypes
      ("type error in comparison (" ++ op.name ++ "): cannot compare " ++ left.typeName rt ++
        " and " ++ right.typeName rt)
  | .error exc => escape (.compare leftNode [(op, rightNode)]) [left, right] exc

/-- `left op right` with the handlers around it. -/
def operate (node : Expr F) (op : Operator) (left right : Val F S) : Eval F S (Val F S) := do
  if op ∈ binaryOps then
    emit (.operated op left right)
    match Val.binary rt op left right with
    | .ok result => ensureFiniteFloat rt node [left, right] (op.name ++ " operation") result
    | .error .zeroDivisionError =>
      fail node [left, right] (.exception .zeroDivisionError) .divisionByZero
        ("division by zero in " ++ op.name ++ " operation")
    | .error .typeError =>
      fail node [left, right] (.exception .typeError) .incompatibleTypes
        ("type error in " ++ op.name ++ ": cannot apply to " ++ left.typeName rt ++ " and " ++
          right.typeName rt)
    | .error .keyError =>
      fail node [left, right] (.exception .keyError) .missingKey
        ("%-format key not found in " ++ right.typeName rt ++ " (" ++ op.name ++ " operation)")
    | .error exc => escape node [left, right] exc
  else escape node [left, right] .keyError

/-- `op operand` with the handlers around it. -/
def operateUnary (node : Expr F) (op : UnaryOperator) (operand : Val F S) :
    Eval F S (Val F S) := do
  if op ∈ unaryOps then
    match Val.unary rt op operand with
    | .ok result => ensureFiniteFloat rt node [operand] ("unary " ++ op.name) result
    | .error .typeError =>
      fail node [operand] (.exception .typeError) .incompatibleTypes
        ("type error in unary " ++ op.name ++ ": cannot apply to " ++ operand.typeName rt)
    | .error exc => escape node [operand] exc
  else escape node [operand] .keyError

/-- The handler around a set or dict literal. -/
def unhashable {α : Type} (node : Expr F) (message : String) : Raised F S → Eval F S α
  | .python .typeError _ => fail node [] (.exception .typeError) .incompatibleTypes message
  | raised => raise raised

/-- Whether a call's function names a builtin that these many arguments do not fit. -/
def misfits (func : Expr F) (arguments : Nat) : Bool :=
  match builtinCallee func with
  | some builtin => ¬ builtin.admits arguments
  | none => false

/-! ## The visitor -/

mutual

def visit : Expr F → Eval F S (Val F S)
  | .name id => do
    emit (.evaluated .name)
    visitName rt scope context id
  | .constant value => do
    emit (.evaluated .constant)
    ensureFiniteFloat rt (.constant value) [] "expression literal" (literal rt value)
  | .subscript value slice => do
    emit (.evaluated .subscript)
    let container ← visit value
    let key ← visit slice
    subscript rt scope.names (.subscript value slice) slice container key
  | .attributeOf value attr => do
    emit (.evaluated .attributeOf)
    let receiver ← visit value
    -- The receiver is the context, or a value of it, exactly when its node is an allowed name.
    if attr = "get" ∧ (allowedName scope.names value).isSome then
      emit (.readAttribute receiver attr)
      if receiver.hasGet then pure (.getMethod receiver)
      else escape (.attributeOf value attr) [receiver] .attributeError
    else raise (.security ("Forbidden attribute access: " ++ attr))
  | .call func args keywords => do
    emit (.evaluated .call)
    if misfits func args.length then
      raise (.security ("Invalid argument count reached evaluator for " ++ funcLabel func ++
        "()"))
    else
      let callee ← visit func
      let values ← visitAll args
      apply rt (.call func args keywords) func callee values
  | .compare left comparisons => do
    emit (.evaluated .compare)
    let value ← visit left
    visitChain left value comparisons
  | .boolOp op first rest => do
    emit (.evaluated .boolOp)
    let value ← visit first
    visitOperands op value rest
  | .binOp left op right => do
    emit (.evaluated .binOp)
    let leftValue ← visit left
    let rightValue ← visit right
    operate rt (.binOp left op right) op leftValue rightValue
  | .unaryOp op operand => do
    emit (.evaluated .unaryOp)
    let value ← visit operand
    operateUnary rt (.unaryOp op operand) op value
  | .list elts => do
    emit (.evaluated .list)
    let values ← visitAll elts
    pure (.list values)
  | .tuple elts => do
    emit (.evaluated .tuple)
    let values ← visitAll elts
    pure (.tuple values)
  | .set elts => do
    emit (.evaluated .set)
    rescue (visitSet (.set elts) [] elts)
      (unhashable (.set elts) "cannot create set literal: an element is unhashable")
  | .dict items => do
    emit (.evaluated .dict)
    if items.any fun item => item.1.isNone then
      raise (.security "Dict spread (**) reached evaluator — validation bypass detected")
    else
      rescue (visitItems (.dict items) [] items)
        (unhashable (.dict items) "cannot create dict literal: a key is unhashable")
  | .ifExp test body orelse => do
    emit (.evaluated .ifExp)
    let chosen ← visit test
    if chosen.truth rt then visit body else visit orelse
  | .forbidden _ _ => raise (.security "Evaluator has no handler for this node")
  | .unsupported kind _ =>
    raise (.security ("Evaluator has no handler for " ++ kind ++ " nodes"))

def visitAll : List (Expr F) → Eval F S (List (Val F S))
  | [] => pure []
  | node :: nodes => do
    let value ← visit node
    let values ← visitAll nodes
    pure (value :: values)

/-- The links of a comparison, until one does not hold. -/
def visitChain : Expr F → Val F S → List (CmpOp × Expr F) → Eval F S (Val F S)
  | _, _, [] => pure (.bool true)
  | leftNode, left, (op, rightNode) :: rest => do
    let right ← visit rightNode
    let holds ← link rt op leftNode rightNode left right
    if holds then visitChain rightNode right rest else pure (.bool false)

/-- The operands of `and` and `or`, until one decides; the deciding operand is the value. -/
def visitOperands : BoolOperator → Val F S → List (Expr F) → Eval F S (Val F S)
  | _, value, [] => pure value
  | op, value, next :: rest => do
    if value.truth rt = decide (op = .or) then pure value
    else
      let value ← visit next
      visitOperands op value rest

/-- Each item is hashed when it is there, before the next one is evaluated. -/
def visitSet : Expr F → List (Val F S) → List (Expr F) → Eval F S (Val F S)
  | _, items, [] => pure (.set items)
  | node, items, elt :: elts => do
    let value ← visit elt
    let items ← lift (Raised.python · ⟨node, []⟩) (Val.insert rt items value)
    visitSet node items elts

def visitItems :
    Expr F → List (Val F S × Val F S) → List (Option (Expr F) × Expr F) → Eval F S (Val F S)
  | _, entries, [] => pure (.dict entries)
  | node, entries, (none, _) :: items => visitItems node entries items
  | node, entries, (some keyNode, valueNode) :: items => do
    let key ← visit keyNode
    let value ← visit valueNode
    let entries ← lift (Raised.python · ⟨node, []⟩)
      (if key.hashable rt then Val.assign rt key value entries else .error .typeError)
    visitItems node entries items

end

end Evaluator

/-! ## Evaluation -/

/-- The exceptions that pass through `evaluate` as they are. -/
def crashesThrough : Exc → Bool
  | .typeError | .attributeError | .keyError | .recursionError => true
  | _ => false

def unexpectedKind : Exc → EvaluationKind
  | .overflowError => .arithmeticOverflow
  | .valueError => .invalidValue
  | _ => .unexpectedError

/-- The last handler: an exception that no arm expected is named by its type only. -/
def handleUnexpected {α : Type} (rt : Runtime F S) (expression : String) :
    Raised F S → Eval F S α
  | .python exc site =>
    if crashesThrough exc then raise (.python exc site)
    else
      raise (.evaluation
        ⟨"Unexpected error evaluating expression " ++ rt.repr expression ++ ": " ++ exc.name,
          unexpectedKind exc, .exception exc, site⟩)
  | raised => raise raised

namespace ExpressionParser

def evaluate (rt : Runtime F S) (parser : ExpressionParser rt.isFinite) (context : Val F S) :
    Eval F S (Val F S) :=
  (Evaluator.visit rt parser.scope context parser.body).rescue
    (handleUnexpected rt parser.expression)

end ExpressionParser

end Elspeth.Expressions
