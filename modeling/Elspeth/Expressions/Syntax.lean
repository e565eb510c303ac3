import Mathlib.Data.List.Basic

/-!
# The syntax of expressions

The tree that the parser hands to the visitors.  Every node kind the grammar admits has a
constructor with its own children; a node kind that no visitor descends into is kept as its
kind and the height of what lies below it, which is all the depth check reads of it.

Float literals are elements of a type `F`: nothing here computes with them.
-/

namespace Elspeth.Expressions

open List

/-! ## Nodes -/

inductive Literal (F : Type) where
  | none
  | bool (value : Bool)
  | int (value : Int)
  | float (value : F)
  | str (value : String)
  | bytes
  | complex
  | ellipsis
  deriving DecidableEq

inductive CmpOp where
  | eq
  | notEq
  | lt
  | ltE
  | gt
  | gtE
  | is
  | isNot
  | inside
  | notInside
  deriving DecidableEq, Repr

inductive BoolOperator where
  | and
  | or
  deriving DecidableEq, Repr

inductive Operator where
  | add
  | sub
  | mult
  | div
  | floorDiv
  | mod
  | matMult
  | pow
  | lShift
  | rShift
  | bitOr
  | bitXor
  | bitAnd
  deriving DecidableEq, Repr

inductive UnaryOperator where
  | not
  | uSub
  | uAdd
  | invert
  deriving DecidableEq, Repr

/-- The node kinds the validator refuses by name. -/
inductive ForbiddenKind where
  | slice
  | lambda
  | listComp
  | dictComp
  | setComp
  | generatorExp
  | await
  | yield
  | yieldFrom
  | namedExpr
  | joinedStr
  | formattedValue
  | starred
  deriving DecidableEq, Repr

/-- An expression node.  A dict item without a key is a `**` spread; a keyword argument
without a name is one too. -/
inductive Expr (F : Type) where
  | name (id : String)
  | constant (value : Literal F)
  | subscript (value slice : Expr F)
  | attributeOf (value : Expr F) (attr : String)
  | call (func : Expr F) (args : List (Expr F)) (keywords : List (Option String × Expr F))
  | compare (left : Expr F) (comparisons : List (CmpOp × Expr F))
  | boolOp (op : BoolOperator) (first : Expr F) (rest : List (Expr F))
  | binOp (left : Expr F) (op : Operator) (right : Expr F)
  | unaryOp (op : UnaryOperator) (operand : Expr F)
  | list (elts : List (Expr F))
  | tuple (elts : List (Expr F))
  | set (elts : List (Expr F))
  | dict (items : List (Option (Expr F) × Expr F))
  | ifExp (test body orelse : Expr F)
  | forbidden (kind : ForbiddenKind) (height : Nat)
  | unsupported (kind : String) (height : Nat)

namespace Expr

variable {F : Type}

/-- The nodes right below a node. -/
def children : Expr F → List (Expr F)
  | .name _ | .constant _ | .forbidden _ _ | .unsupported _ _ => []
  | .subscript value slice => [value, slice]
  | .attributeOf value _ => [value]
  | .call func args keywords => func :: (args ++ keywords.map Prod.snd)
  | .compare left comparisons => left :: comparisons.map Prod.snd
  | .boolOp _ first rest => first :: rest
  | .binOp left _ right => [left, right]
  | .unaryOp _ operand => [operand]
  | .list elts | .tuple elts | .set elts => elts
  | .dict items => items.flatMap fun item => item.1.toList ++ [item.2]
  | .ifExp test body orelse => [test, body, orelse]

/-- Induction over a node, with a hypothesis for every child. -/
@[elab_as_elim, induction_eliminator]
theorem induction {motive : Expr F → Prop}
    (step : ∀ node, (∀ child ∈ node.children, motive child) → motive node) (node : Expr F) :
    motive node :=
  @Expr.rec F motive (fun nodes => ∀ node ∈ nodes, motive node)
    (fun keywords => ∀ node ∈ keywords.map Prod.snd, motive node)
    (fun comparisons => ∀ node ∈ comparisons.map Prod.snd, motive node)
    (fun items => ∀ node ∈ children (.dict items), motive node)
    (fun keyword => motive keyword.2) (fun comparison => motive comparison.2)
    (fun item => ∀ node ∈ item.1.toList ++ [item.2], motive node)
    (fun key => ∀ node ∈ key.toList, motive node)
    (fun _ => step _ nofun) (fun _ => step _ nofun)
    (fun _ _ value slice => step _ (by simp [children, value, slice]))
    (fun _ _ value => step _ (by simp [children, value]))
    (fun _ _ _ func args keywords =>
      step _ (forall_mem_cons.mpr ⟨func, forall_mem_append.mpr ⟨args, keywords⟩⟩))
    (fun _ _ left comparisons => step _ (forall_mem_cons.mpr ⟨left, comparisons⟩))
    (fun _ _ _ first rest => step _ (forall_mem_cons.mpr ⟨first, rest⟩))
    (fun _ _ _ left right => step _ (by simp [children, left, right]))
    (fun _ _ operand => step _ (by simp [children, operand]))
    (fun _ elts => step _ elts) (fun _ elts => step _ elts) (fun _ elts => step _ elts)
    (fun _ items => step _ items)
    (fun _ _ _ test body orelse => step _ (by simp [children, test, body, orelse]))
    (fun _ _ => step _ nofun) (fun _ _ => step _ nofun)
    nofun (fun _ _ head tail => forall_mem_cons.mpr ⟨head, tail⟩)
    nofun (fun _ _ head tail => forall_mem_cons.mpr ⟨head, tail⟩)
    nofun (fun _ _ head tail => forall_mem_cons.mpr ⟨head, tail⟩)
    nofun (fun _ _ head tail => forall_mem_append.mpr ⟨head, tail⟩)
    (fun _ _ value => value) (fun _ _ value => value)
    (fun _ _ key value => forall_mem_append.mpr ⟨key, forall_mem_singleton.mpr value⟩)
    nofun (fun _ holds => forall_mem_singleton.mpr holds) node

section Children

variable {items : List (Option (Expr F) × Expr F)} {item : Option (Expr F) × Expr F}
  (mem : item ∈ items)
include mem

theorem mem_children_key {key : Expr F} (named : item.1 = some key) :
    key ∈ children (.dict items) :=
  mem_flatMap.mpr ⟨item, mem, by simp [named]⟩

theorem mem_children_value : item.2 ∈ children (.dict items) :=
  mem_flatMap.mpr ⟨item, mem, by simp⟩

end Children

/-! ## Walking a tree -/

mutual

/-- The levels of nodes below a node.  Names, attributes, subscripts, lists and tuples have a
context node below them, the operations an operator node. -/
def height : Expr F → Nat
  | .name _ => 1
  | .constant _ => 0
  | .subscript value slice => max (value.height + 1) (slice.height + 1)
  | .attributeOf value _ => value.height + 1
  | .call func args keywords =>
    max (func.height + 1) (max (heights args) (keywordHeights keywords))
  | .compare left comparisons => max (left.height + 1) (comparatorHeights comparisons)
  | .boolOp _ first rest => max (first.height + 1) (heights rest)
  | .binOp left _ right => max (left.height + 1) (right.height + 1)
  | .unaryOp _ operand => operand.height + 1
  | .list elts => max 1 (heights elts)
  | .tuple elts => max 1 (heights elts)
  | .set elts => heights elts
  | .dict items => itemHeights items
  | .ifExp test body orelse =>
    max (test.height + 1) (max (body.height + 1) (orelse.height + 1))
  | .forbidden _ height => height
  | .unsupported _ height => height

def heights : List (Expr F) → Nat
  | [] => 0
  | node :: nodes => max (node.height + 1) (heights nodes)

/-- A keyword argument is a node of its own, with its value below. -/
def keywordHeights : List (Option String × Expr F) → Nat
  | [] => 0
  | (_, value) :: keywords => max (value.height + 2) (keywordHeights keywords)

def comparatorHeights : List (CmpOp × Expr F) → Nat
  | [] => 0
  | (_, comparator) :: rest => max (comparator.height + 1) (comparatorHeights rest)

def itemHeights : List (Option (Expr F) × Expr F) → Nat
  | [] => 0
  | (none, value) :: items => max (value.height + 1) (itemHeights items)
  | (some key, value) :: items =>
    max (key.height + 1) (max (value.height + 1) (itemHeights items))

end

mutual

/-- The expression nodes of a tree, the node itself first (`ast.walk`, as far as the order
does not matter). -/
def walk : Expr F → List (Expr F)
  | .name id => [.name id]
  | .constant value => [.constant value]
  | .subscript value slice => .subscript value slice :: (value.walk ++ slice.walk)
  | .attributeOf value attr => .attributeOf value attr :: value.walk
  | .call func args keywords =>
    .call func args keywords :: (func.walk ++ walkAll args ++ walkKeywords keywords)
  | .compare left comparisons =>
    .compare left comparisons :: (left.walk ++ walkComparators comparisons)
  | .boolOp op first rest => .boolOp op first rest :: (first.walk ++ walkAll rest)
  | .binOp left op right => .binOp left op right :: (left.walk ++ right.walk)
  | .unaryOp op operand => .unaryOp op operand :: operand.walk
  | .list elts => .list elts :: walkAll elts
  | .tuple elts => .tuple elts :: walkAll elts
  | .set elts => .set elts :: walkAll elts
  | .dict items => .dict items :: walkItems items
  | .ifExp test body orelse => .ifExp test body orelse :: (test.walk ++ body.walk ++ orelse.walk)
  | .forbidden kind height => [.forbidden kind height]
  | .unsupported kind height => [.unsupported kind height]

def walkAll : List (Expr F) → List (Expr F)
  | [] => []
  | node :: nodes => node.walk ++ walkAll nodes

def walkKeywords : List (Option String × Expr F) → List (Expr F)
  | [] => []
  | (_, value) :: keywords => value.walk ++ walkKeywords keywords

def walkComparators : List (CmpOp × Expr F) → List (Expr F)
  | [] => []
  | (_, comparator) :: rest => comparator.walk ++ walkComparators rest

def walkItems : List (Option (Expr F) × Expr F) → List (Expr F)
  | [] => []
  | (none, value) :: items => value.walk ++ walkItems items
  | (some key, value) :: items => key.walk ++ value.walk ++ walkItems items

end

theorem walkAll_eq (nodes : List (Expr F)) : walkAll nodes = nodes.flatMap walk := by
  induction nodes with
  | nil => rfl
  | cons node nodes ih => rw [walkAll, ih, flatMap_cons]

theorem walkKeywords_eq (keywords : List (Option String × Expr F)) :
    walkKeywords keywords = (keywords.map Prod.snd).flatMap walk := by
  induction keywords with
  | nil => rfl
  | cons keyword keywords ih => rw [walkKeywords, ih, map_cons, flatMap_cons]

theorem walkComparators_eq (comparisons : List (CmpOp × Expr F)) :
    walkComparators comparisons = (comparisons.map Prod.snd).flatMap walk := by
  induction comparisons with
  | nil => rfl
  | cons comparison rest ih => rw [walkComparators, ih, map_cons, flatMap_cons]

theorem walkItems_eq (items : List (Option (Expr F) × Expr F)) :
    walkItems items = (children (.dict items)).flatMap walk := by
  induction items with
  | nil => rfl
  | cons item items ih =>
    obtain ⟨_ | key, value⟩ := item <;> simp_all [walkItems, children]

theorem walk_eq (node : Expr F) : node.walk = node :: node.children.flatMap walk := by
  cases node <;>
    simp [walk, children, walkAll_eq, walkKeywords_eq, walkComparators_eq, walkItems_eq]

variable {node child found inner : Expr F}

theorem mem_walk_self (node : Expr F) : node ∈ node.walk := by
  rw [walk_eq]
  exact mem_cons_self

theorem mem_walk_of_child (mem : child ∈ node.children) (inside : found ∈ child.walk) :
    found ∈ node.walk := by
  rw [walk_eq]
  exact mem_cons_of_mem _ (mem_flatMap.mpr ⟨child, mem, inside⟩)

/-- The nodes below a node of a tree are nodes of the tree. -/
theorem walk_trans (outer : found ∈ node.walk) (mem : inner ∈ found.walk) : inner ∈ node.walk := by
  induction node with | step node ih => ?_
  rw [walk_eq] at outer
  rcases mem_cons.mp outer with rfl | below
  · exact mem
  · obtain ⟨child, isChild, inside⟩ := mem_flatMap.mp below
    exact mem_walk_of_child isChild (ih child isChild inside)

end Expr

/-! ## Node kinds -/

/-- `type(node)`. -/
inductive NodeKind where
  | name
  | subscript
  | attributeOf
  | call
  | compare
  | boolOp
  | binOp
  | unaryOp
  | constant
  | list
  | dict
  | tuple
  | set
  | ifExp
  | forbidden (kind : ForbiddenKind)
  | unsupported (kind : String)
  deriving DecidableEq, Repr

def Expr.kind {F : Type} : Expr F → NodeKind
  | .name _ => .name
  | .constant _ => .constant
  | .subscript _ _ => .subscript
  | .attributeOf _ _ => .attributeOf
  | .call _ _ _ => .call
  | .compare _ _ => .compare
  | .boolOp _ _ _ => .boolOp
  | .binOp _ _ _ => .binOp
  | .unaryOp _ _ => .unaryOp
  | .list _ => .list
  | .tuple _ => .tuple
  | .set _ => .set
  | .dict _ => .dict
  | .ifExp _ _ _ => .ifExp
  | .forbidden kind _ => .forbidden kind
  | .unsupported kind _ => .unsupported kind

def allowedExprTypes : List NodeKind :=
  [.name, .subscript, .attributeOf, .call, .compare, .boolOp, .binOp, .unaryOp, .constant,
    .list, .dict, .tuple, .set, .ifExp]

/-! ## Operators and builtins -/

def binaryOps : List Operator := [.add, .sub, .mult, .div, .floorDiv, .mod]

def unaryOps : List UnaryOperator := [.not, .uSub, .uAdd]

/-- The callables an expression may name. -/
inductive Builtin where
  | len
  | abs
  | lower
  | upper
  | strip
  | casefold
  | startsWith
  | wordCount
  | decimalWithin
  deriving DecidableEq, Repr

namespace Builtin

def name : Builtin → String
  | len => "len"
  | abs => "abs"
  | lower => "lower"
  | upper => "upper"
  | strip => "strip"
  | casefold => "casefold"
  | startsWith => "starts_with"
  | wordCount => "word_count"
  | decimalWithin => "decimal_within"

def all : List Builtin :=
  [len, abs, lower, upper, strip, casefold, startsWith, wordCount, decimalWithin]

/-- The entry of the builtin table under a name. -/
def find (id : String) : Option Builtin :=
  all.find? fun builtin => builtin.name = id

/-- The least and the greatest number of arguments. -/
def arity : Builtin → Nat × Nat
  | strip => (1, 2)
  | startsWith => (2, 2)
  | decimalWithin => (3, 3)
  | len | abs | lower | upper | casefold | wordCount => (1, 1)

/-- Whether a call with this many arguments is within the builtin's arity. -/
def admits (builtin : Builtin) (arguments : Nat) : Prop :=
  builtin.arity.1 ≤ arguments ∧ arguments ≤ builtin.arity.2

instance (builtin : Builtin) (arguments : Nat) : Decidable (builtin.admits arguments) :=
  inferInstanceAs (Decidable (_ ∧ _))

def alwaysNumeric : Builtin → Bool
  | len | abs | wordCount => true
  | lower | upper | strip | casefold | startsWith | decimalWithin => false

def alwaysBoolean : Builtin → Bool
  | startsWith | decimalWithin => true
  | len | abs | lower | upper | strip | casefold | wordCount => false

end Builtin

end Elspeth.Expressions
