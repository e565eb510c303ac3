import Elspeth.Expressions.Evaluator

/-!
# Static analyses of an expression

What the parser answers about an expression without evaluating it: whether its value is a
bool, whether it can be a route label, whether a set can reach it, whether a string can be
repeated or formatted, and which fields of a name it reads.
-/

namespace Elspeth.Expressions

variable {F : Type}

/-! ## Result kinds -/

mutual

/-- Comparisons, `not`, bool literals, calls of the boolean builtins, and `and`, `or` and
ternaries of such. -/
def isBooleanNode : Expr F → Bool
  | .compare _ _ => true
  | .call func _ _ =>
    match builtinCallee func with
    | some function => function.alwaysBoolean
    | none => false
  | .boolOp _ first rest => isBooleanNode first && areBooleanNodes rest
  | .unaryOp op _ => op = .not
  | .constant (.bool _) => true
  | .ifExp _ body orelse => isBooleanNode body && isBooleanNode orelse
  | _ => false

def areBooleanNodes : List (Expr F) → Bool
  | [] => true
  | node :: nodes => isBooleanNode node && areBooleanNodes nodes

end

/-- A number literal; bools are not. -/
def isNumericConstant : Expr F → Bool
  | .constant (.int _) | .constant (.float _) | .constant .complex => true
  | _ => false

/-- A node whose value is neither a bool nor a string. -/
def isNonRoutableNode : Expr F → Bool
  | .constant value => isNumericConstant (.constant value : Expr F)
  | .call func _ _ =>
    match builtinCallee func with
    | some function => function.alwaysNumeric
    | none => false
  | .unaryOp op _ => op = .uSub ∨ op = .uAdd
  | .binOp left op right =>
    match op with
    | .sub | .div | .floorDiv => true
    | .add => isNumericConstant left || isNumericConstant right
    | _ => false
  | _ => false

mutual

/-- Whether a set literal can reach the value.  Comparisons, calls, unary operators and a
ternary's test consume it. -/
def setReachesValue : Expr F → Bool
  | .set _ => true
  | .compare _ _ | .call _ _ _ | .unaryOp _ _ => false
  | .ifExp _ body orelse => setReachesValue body || setReachesValue orelse
  | .subscript value slice => setReachesValue value || setReachesValue slice
  | .attributeOf value _ => setReachesValue value
  | .boolOp _ first rest => setReachesValue first || setReachesAny rest
  | .binOp left _ right => setReachesValue left || setReachesValue right
  | .list elts => setReachesAny elts
  | .tuple elts => setReachesAny elts
  | .dict items => setReachesItems items
  | .name _ | .constant _ | .forbidden _ _ | .unsupported _ _ => false

def setReachesAny : List (Expr F) → Bool
  | [] => false
  | node :: nodes => setReachesValue node || setReachesAny nodes

def setReachesItems : List (Option (Expr F) × Expr F) → Bool
  | [] => false
  | (none, value) :: items => setReachesValue value || setReachesItems items
  | (some key, value) :: items =>
    setReachesValue key || (setReachesValue value || setReachesItems items)

end

/-- A `*` or `%` with an operand that is not provably a number. -/
def amplifies : Expr F → Bool
  | .binOp left op right =>
    (op = .mult ∨ op = .mod) && (!isNonRoutableNode left || !isNonRoutableNode right)
  | _ => false

def nodeHasStringAmplification (node : Expr F) : Bool := node.walk.any amplifies

/-! ## Field reads -/

/-- The fields an expression reads from a name; `complete` is false when a key is not a string
literal. -/
structure StaticFieldReads where
  fields : List String
  complete : Bool

/-- A string literal. -/
def literalKey : Expr F → Option String
  | .constant (.str key) => some key
  | _ => none

/-- The key of a node that reads `name` directly, by subscript or `get`; a key that is not
spelled out is `none`. -/
def directRead (name : String) : Expr F → Option (Option String)
  | .subscript (.name id) slice => if id = name then some (literalKey slice) else none
  | .call (.attributeOf (.name id) attr) args _ =>
    if attr = "get" ∧ id = name then
      match args with
      | [arg] => some (literalKey arg)
      | _ => some none
    else none
  | _ => none

def Expr.staticFieldReads (node : Expr F) (name : String) : StaticFieldReads where
  fields := node.walk.filterMap fun node => (directRead name node).join
  complete := node.walk.all fun node => directRead name node ≠ some none

namespace ExpressionParser

variable {finite : F → Bool} (parser : ExpressionParser finite)

def isBooleanExpression : Bool := isBooleanNode parser.body

def isProvablyNonRoutable : Bool := isNonRoutableNode parser.body

def hasStringAmplificationRisk : Bool := nodeHasStringAmplification parser.body

def resultCanBeSet : Bool := setReachesValue parser.body

def staticFieldReads (name : String) : StaticFieldReads := parser.body.staticFieldReads name

end ExpressionParser

/-! ## Lists of nodes -/

theorem areBooleanNodes_iff {nodes : List (Expr F)} :
    areBooleanNodes nodes = true ↔ ∀ node ∈ nodes, isBooleanNode node = true := by
  induction nodes with
  | nil => simp [areBooleanNodes]
  | cons node nodes ih => simp [areBooleanNodes, ih]

theorem setReachesAny_eq_false {nodes : List (Expr F)} :
    setReachesAny nodes = false ↔ ∀ node ∈ nodes, setReachesValue node = false := by
  induction nodes with
  | nil => simp [setReachesAny]
  | cons node nodes ih => simp [setReachesAny, ih]

theorem setReachesItems_eq_false {items : List (Option (Expr F) × Expr F)} :
    setReachesItems items = false ↔
      ∀ item ∈ items, (∀ key, item.1 = some key → setReachesValue key = false) ∧
        setReachesValue item.2 = false := by
  induction items with
  | nil => simp [setReachesItems]
  | cons item items ih =>
    obtain ⟨_ | key, value⟩ := item
    · simp [setReachesItems, ih]
    · simp [setReachesItems, ih, and_assoc]

end Elspeth.Expressions
