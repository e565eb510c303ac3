import Elspeth.Expressions.Syntax

/-!
# Validation

The validator is a visitor with state: it collects findings and keeps three marks of where it
stands.  A counter says that an allowed name may stand here, because a subscript or `.get`
above reads from it; a second one says the same of a builtin's name; a flag says that an
attribute stands in call position.  An expression is accepted when its nesting is within the
limit and nothing is found.

`visit` threads the state as the visitor does.  `findings` is what it finds, as a function of
the one mark that reaches below the node that sets it: the name counter, which is still raised
while the keys and arguments below a subscript's receiver are visited.
-/

namespace Elspeth.Expressions

open List Builtin

variable {F : Type}

/-! ## Shapes the visitor asks for -/

/-- A literal `None`. -/
def Expr.isNoneConstant : Expr F → Bool
  | .constant .none => true
  | _ => false

def Expr.isSlice : Expr F → Bool
  | .forbidden .slice _ => true
  | _ => false

/-- The allowed name that a node is. -/
def allowedName (names : List String) : Expr F → Option String
  | .name id => if id ∈ names then some id else none
  | _ => none

/-- The allowed name whose `get` a call's function is. -/
def getReceiver (names : List String) : Expr F → Option String
  | .attributeOf value attr => if attr = "get" then allowedName names value else none
  | _ => none

/-- The builtin that a call's function names. -/
def builtinCallee : Expr F → Option Builtin
  | .name id => find id
  | _ => none

/-- An allowed name, an allowed name's `get` call, or a subscript of either. -/
def isAllowedDerived (names : List String) : Expr F → Bool
  | .name id => id ∈ names
  | .subscript value _ => isAllowedDerived names value
  | .call func _ _ => (getReceiver names func).isSome
  | _ => false

def safeConstants : List String := ["True", "False", "None"]

/-! ## The visitor -/

inductive Finding (F : Type) where
  | bareBuiltin (id : String)
  | bareAllowedName (id : String)
  | forbiddenName (id : String)
  | sliceSyntax
  | subscriptReceiver (value : Expr F)
  | forbiddenAttr (attr : String)
  | bareGet (id : String)
  | attributeAccess (attr : String)
  | getArity (id : String) (given : Nat)
  | getKeywords (id : String)
  | builtinKeywords (builtin : Builtin)
  | builtinArity (builtin : Builtin) (given : Nat)
  | forbiddenCall (func : Expr F)
  | identityOperator
  | binaryOperator (op : Operator)
  | unaryOperator (op : UnaryOperator)
  | nonFiniteLiteral
  | constantType
  | dictSpread
  | forbiddenKind (kind : ForbiddenKind)
  | unsupportedKind (kind : String)

structure ValidatorState (F : Type) where
  errors : List (Finding F) := []
  inCallFunc : Bool := false
  allowAllowedName : Nat := 0
  allowSafeBuiltin : Nat := 0

namespace ValidatorState

variable (state : ValidatorState F)

def append (found : List (Finding F)) : ValidatorState F :=
  { state with errors := state.errors ++ found }

@[simp] theorem append_nil : state.append [] = state := by
  simp [append]

@[simp]
theorem append_append (first second : List (Finding F)) :
    (state.append first).append second = state.append (first ++ second) := by
  simp [append]

/-- Between two visits neither mark of a call's function is up. -/
def Between : Prop :=
  state.inCallFunc = false ∧ state.allowSafeBuiltin = 0

end ValidatorState

namespace Validator

variable (names : List String) (finite : F → Bool)

/-- A name at a place where allowed names, or builtins, may or may not stand. -/
def nameFindings (allowed builtin : Bool) (id : String) : List (Finding F) :=
  if id ∈ safeConstants then []
  else if (find id).isSome then
    if builtin then [] else [.bareBuiltin id]
  else if id ∈ names then
    if allowed then [] else [.bareAllowedName id]
  else [.forbiddenName id]

def constantFindings : Literal F → List (Finding F)
  | .float value => if finite value then [] else [.nonFiniteLiteral]
  | .none | .bool _ | .int _ | .str _ => []
  | .bytes | .complex | .ellipsis => [.constantType]

def subscriptFindings (value slice : Expr F) : List (Finding F) :=
  (if slice.isSlice then [.sliceSyntax] else []) ++
    (if isAllowedDerived names value then [] else [.subscriptReceiver value])

def getFindings (id : String) (args : List (Expr F)) (keywords : List (Option String × Expr F)) :
    List (Finding F) :=
  (if args.length = 1 then [] else [.getArity id args.length]) ++
    (if keywords.isEmpty then [] else [.getKeywords id])

def builtinFindings (builtin : Builtin) (args : List (Expr F))
    (keywords : List (Option String × Expr F)) : List (Finding F) :=
  (if keywords.isEmpty then [] else [.builtinKeywords builtin]) ++
    (if builtin.admits args.length then [] else [.builtinArity builtin args.length])

/-- `is` and `is not` need a literal `None` beside them. -/
def identityFindings : Expr F → List (CmpOp × Expr F) → List (Finding F)
  | _, [] => []
  | left, (op, right) :: rest =>
    (if (op = .is ∨ op = .isNot) ∧ ¬ (left.isNoneConstant ∨ right.isNoneConstant) then
      [.identityOperator] else []) ++ identityFindings right rest

def spreadFindings (items : List (Option (Expr F) × Expr F)) : List (Finding F) :=
  (items.filter fun item => item.1.isNone).map fun _ => .dictSpread

mutual

def visit : Expr F → ValidatorState F → ValidatorState F
  | .name id, state =>
    state.append (nameFindings names (0 < state.allowAllowedName) (0 < state.allowSafeBuiltin) id)
  | .constant value, state => state.append (constantFindings finite value)
  | .subscript value slice, state =>
    let state := state.append (subscriptFindings names value slice)
    let state := visit value { state with allowAllowedName := state.allowAllowedName + 1 }
    let state := { state with allowAllowedName := state.allowAllowedName - 1 }
    visit slice state
  | .attributeOf value attr, state =>
    match allowedName names value with
    | some id =>
      let state := visit value { state with allowAllowedName := state.allowAllowedName + 1 }
      let state := { state with allowAllowedName := state.allowAllowedName - 1 }
      if attr ≠ "get" then state.append [.forbiddenAttr attr]
      else if state.inCallFunc then state
      else state.append [.bareGet id]
    | none => visit value (state.append [.attributeAccess attr])
  | .call func args keywords, state =>
    match getReceiver names func, builtinCallee func with
    | some id, _ =>
      let state := state.append (getFindings id args keywords)
      let state := visit func { state with inCallFunc := true }
      visitAll args { state with inCallFunc := false }
    | none, some builtin =>
      let state := state.append (builtinFindings builtin args keywords)
      let state := visit func { state with allowSafeBuiltin := state.allowSafeBuiltin + 1 }
      visitAll args { state with allowSafeBuiltin := state.allowSafeBuiltin - 1 }
    | none, none =>
      let state := visit func (state.append [.forbiddenCall func])
      visitKeywords keywords (visitAll args state)
  | .compare left comparisons, state =>
    let state := state.append (identityFindings left comparisons)
    visitComparators comparisons (visit left state)
  | .boolOp _ first rest, state => visitAll rest (visit first state)
  | .binOp left op right, state =>
    let state := state.append (if op ∈ binaryOps then [] else [.binaryOperator op])
    visit right (visit left state)
  | .unaryOp op operand, state =>
    visit operand (state.append (if op ∈ unaryOps then [] else [.unaryOperator op]))
  | .list elts, state => visitAll elts state
  | .tuple elts, state => visitAll elts state
  | .set elts, state => visitAll elts state
  | .dict items, state =>
    visitValues items (visitKeys items (state.append (spreadFindings items)))
  | .ifExp test body orelse, state => visit orelse (visit body (visit test state))
  | .forbidden kind _, state =>
    state.append [if kind = .slice then .sliceSyntax else .forbiddenKind kind]
  | .unsupported kind _, state => state.append [.unsupportedKind kind]

def visitAll : List (Expr F) → ValidatorState F → ValidatorState F
  | [], state => state
  | node :: nodes, state => visitAll nodes (visit node state)

def visitKeywords : List (Option String × Expr F) → ValidatorState F → ValidatorState F
  | [], state => state
  | (_, value) :: keywords, state => visitKeywords keywords (visit value state)

def visitComparators : List (CmpOp × Expr F) → ValidatorState F → ValidatorState F
  | [], state => state
  | (_, comparator) :: rest, state => visitComparators rest (visit comparator state)

def visitKeys : List (Option (Expr F) × Expr F) → ValidatorState F → ValidatorState F
  | [], state => state
  | (none, _) :: items, state => visitKeys items state
  | (some key, _) :: items, state => visitKeys items (visit key state)

def visitValues : List (Option (Expr F) × Expr F) → ValidatorState F → ValidatorState F
  | [], state => state
  | (_, value) :: items, state => visitValues items (visit value state)

end

/-! ## What it finds -/

mutual

/-- The findings below a node that stands where allowed names are, or are not, let
through. -/
def findings : Bool → Expr F → List (Finding F)
  | allowed, .name id => nameFindings names allowed false id
  | _, .constant value => constantFindings finite value
  | allowed, .subscript value slice =>
    subscriptFindings names value slice ++ (findings true value ++ findings allowed slice)
  | allowed, .attributeOf value attr =>
    match allowedName names value with
    | some id =>
      findings true value ++ [if attr ≠ "get" then .forbiddenAttr attr else .bareGet id]
    | none => .attributeAccess attr :: findings allowed value
  | allowed, .call func args keywords =>
    match getReceiver names func, builtinCallee func with
    | some id, _ =>
      getFindings id args keywords ++
        (nameFindings names true false id ++ findingsAll allowed args)
    | none, some builtin => builtinFindings builtin args keywords ++ findingsAll allowed args
    | none, none =>
      .forbiddenCall func ::
        (findings allowed func ++ (findingsAll allowed args ++ findingsKeywords allowed keywords))
  | allowed, .compare left comparisons =>
    identityFindings left comparisons ++
      (findings allowed left ++ findingsComparators allowed comparisons)
  | allowed, .boolOp _ first rest => findings allowed first ++ findingsAll allowed rest
  | allowed, .binOp left op right =>
    (if op ∈ binaryOps then [] else [.binaryOperator op]) ++
      (findings allowed left ++ findings allowed right)
  | allowed, .unaryOp op operand =>
    (if op ∈ unaryOps then [] else [.unaryOperator op]) ++ findings allowed operand
  | allowed, .list elts => findingsAll allowed elts
  | allowed, .tuple elts => findingsAll allowed elts
  | allowed, .set elts => findingsAll allowed elts
  | allowed, .dict items =>
    spreadFindings items ++ (findingsKeys allowed items ++ findingsValues allowed items)
  | allowed, .ifExp test body orelse =>
    findings allowed test ++ (findings allowed body ++ findings allowed orelse)
  | _, .forbidden kind _ => [if kind = .slice then .sliceSyntax else .forbiddenKind kind]
  | _, .unsupported kind _ => [.unsupportedKind kind]

def findingsAll : Bool → List (Expr F) → List (Finding F)
  | _, [] => []
  | allowed, node :: nodes => findings allowed node ++ findingsAll allowed nodes

def findingsKeywords : Bool → List (Option String × Expr F) → List (Finding F)
  | _, [] => []
  | allowed, (_, value) :: keywords => findings allowed value ++ findingsKeywords allowed keywords

def findingsComparators : Bool → List (CmpOp × Expr F) → List (Finding F)
  | _, [] => []
  | allowed, (_, comparator) :: rest =>
    findings allowed comparator ++ findingsComparators allowed rest

def findingsKeys : Bool → List (Option (Expr F) × Expr F) → List (Finding F)
  | _, [] => []
  | allowed, (none, _) :: items => findingsKeys allowed items
  | allowed, (some key, _) :: items => findings allowed key ++ findingsKeys allowed items

def findingsValues : Bool → List (Option (Expr F) × Expr F) → List (Finding F)
  | _, [] => []
  | allowed, (_, value) :: items => findings allowed value ++ findingsValues allowed items

end

variable {names finite}

variable {node func : Expr F} {id : String} {nodes : List (Expr F)}
  {keywords : List (Option String × Expr F)} {comparisons : List (CmpOp × Expr F)}
  {items : List (Option (Expr F) × Expr F)} {state : ValidatorState F} {allowed : Bool}

theorem allowedName_eq_some : allowedName names node = some id ↔ node = .name id ∧ id ∈ names := by
  cases node <;> simp only [allowedName, reduceCtorEq, false_and]
  split <;> rename_i mem
  · constructor
    · rintro ⟨⟩
      exact ⟨rfl, mem⟩
    · rintro ⟨⟨⟩, -⟩
      rfl
  · constructor
    · rintro ⟨⟩
    · rintro ⟨⟨⟩, mem'⟩
      exact absurd mem' mem

theorem getReceiver_eq_some :
    getReceiver names func = some id ↔ func = .attributeOf (.name id) "get" ∧ id ∈ names := by
  cases func <;> simp only [getReceiver, reduceCtorEq, false_and]
  split <;> rename_i same
  · rw [allowedName_eq_some]
    simp [same]
  · simp [same]

/-- What a visit leaves: the findings are appended and every mark is as it was. -/
def Leaves (body : ValidatorState F → ValidatorState F) (found : Bool → List (Finding F)) :
    Prop :=
  ∀ state : ValidatorState F, state.Between →
    body state = state.append (found (0 < state.allowAllowedName))

theorem Leaves.append {found : List (Finding F)} :
    Leaves (fun state : ValidatorState F => state.append found) fun _ => found :=
  fun _ _ => rfl

theorem Leaves.trans {first second : ValidatorState F → ValidatorState F}
    {found found' : Bool → List (Finding F)} (head : Leaves first found)
    (tail : Leaves second found') :
    Leaves (fun state => second (first state)) fun allowed => found allowed ++ found' allowed := by
  intro state between
  have later := tail (state.append (found (0 < state.allowAllowedName))) between
  show second (first state) = _
  rw [head state between, later, ValidatorState.append_append]
  rfl

theorem leaves_visitAll
    (each : ∀ node ∈ nodes, Leaves (visit names finite node) (findings names finite · node)) :
    Leaves (visitAll names finite nodes) (findingsAll names finite · nodes) := by
  induction nodes with
  | nil => exact fun state _ => state.append_nil.symm
  | cons node nodes ih =>
    obtain ⟨head, tail⟩ := forall_mem_cons.mp each
    exact head.trans (ih tail)

theorem leaves_visitKeywords (each : ∀ keyword ∈ keywords,
      Leaves (visit names finite keyword.2) (findings names finite · keyword.2)) :
    Leaves (visitKeywords names finite keywords) (findingsKeywords names finite · keywords) := by
  induction keywords with
  | nil => exact fun state _ => state.append_nil.symm
  | cons keyword keywords ih =>
    obtain ⟨head, tail⟩ := forall_mem_cons.mp each
    exact head.trans (ih tail)

theorem leaves_visitComparators (each : ∀ comparison ∈ comparisons,
      Leaves (visit names finite comparison.2) (findings names finite · comparison.2)) :
    Leaves (visitComparators names finite comparisons)
      (findingsComparators names finite · comparisons) := by
  induction comparisons with
  | nil => exact fun state _ => state.append_nil.symm
  | cons comparison rest ih =>
    obtain ⟨head, tail⟩ := forall_mem_cons.mp each
    exact head.trans (ih tail)

theorem leaves_visitKeys (each : ∀ item ∈ items, ∀ key, item.1 = some key →
      Leaves (visit names finite key) (findings names finite · key)) :
    Leaves (visitKeys names finite items) (findingsKeys names finite · items) := by
  induction items with
  | nil => exact fun state _ => state.append_nil.symm
  | cons item items ih =>
    obtain ⟨head, tail⟩ := forall_mem_cons.mp each
    obtain ⟨none | key, value⟩ := item
    · exact ih tail
    · exact (head key rfl).trans (ih tail)

theorem leaves_visitValues
    (each : ∀ item ∈ items, Leaves (visit names finite item.2) (findings names finite · item.2)) :
    Leaves (visitValues names finite items) (findingsValues names finite · items) := by
  induction items with
  | nil => exact fun state _ => state.append_nil.symm
  | cons item items ih =>
    obtain ⟨head, tail⟩ := forall_mem_cons.mp each
    exact head.trans (ih tail)

/-- Below a subscript's value or a `get` receiver the name counter is raised, and lowered
again after it. -/
theorem raised_visit (leaves : Leaves (visit names finite node) (findings names finite · node))
    (between : state.Between) :
    visit names finite node { state with allowAllowedName := state.allowAllowedName + 1 } =
      { state with
        errors := state.errors ++ findings names finite true node
        allowAllowedName := state.allowAllowedName + 1 } := by
  have inner := leaves { state with allowAllowedName := state.allowAllowedName + 1 } between
  rw [inner]
  simp [ValidatorState.append]

variable (finite) in
/-- A call's `get` function raises no finding of its own beyond those of its name. -/
theorem visit_getFunction (mem : id ∈ names) (between : state.Between) :
    visit names finite (.attributeOf (.name id) "get") { state with inCallFunc := true } =
      { state with
        errors := state.errors ++ nameFindings names true false id
        inCallFunc := true } := by
  simp [visit, allowedName, mem, ValidatorState.append, between.2]

/-- A builtin in call position raises no finding. -/
theorem visit_builtinFunction {builtin : Builtin} (callee : builtinCallee func = some builtin) :
    visit names finite func { state with allowSafeBuiltin := state.allowSafeBuiltin + 1 } =
      { state with allowSafeBuiltin := state.allowSafeBuiltin + 1 } := by
  cases func <;> simp only [builtinCallee, reduceCtorEq] at callee
  simp [visit, nameFindings, callee, ValidatorState.append]

theorem leaves_visit (node : Expr F) :
    Leaves (visit names finite node) (findings names finite · node) := by
  induction node with | step node ih => ?_
  cases node with
  | name =>
    intro state between
    simp [visit, findings, between.2]
  | constant =>
    intro state _
    simp [visit, findings]
  | subscript value slice =>
    intro state between
    have first := raised_visit (ih value (.head _))
      (show (state.append (subscriptFindings names value slice)).Between from between)
    have second := ih slice (.tail _ (.head _)) ((state.append (subscriptFindings names value
      slice)).append (findings names finite true value)) between
    rw [visit, first]
    refine Eq.trans second ?_
    rw [ValidatorState.append_append, ValidatorState.append_append]
    rfl
  | attributeOf value attr =>
    intro state between
    simp only [visit, findings]
    rcases receiver : allowedName names value with _ | id
    · exact (Leaves.append.trans (ih value (.head _))) state between
    · simp only [raised_visit (ih value (.head _)) between]
      by_cases get : attr = "get"
      · simp [get, ValidatorState.append, between.1]
      · simp [get, ValidatorState.append]
  | call func args keywords =>
    intro state between
    have arguments := leaves_visitAll fun arg mem => ih arg (.tail _ (mem_append_left _ mem))
    simp only [visit, findings]
    rcases receiver : getReceiver names func with _ | id
    · rcases callee : builtinCallee func with _ | builtin
      · exact Leaves.append.trans ((ih func (.head _)).trans (arguments.trans
          (leaves_visitKeywords fun keyword mem =>
            ih keyword.2 (.tail _ (mem_append_right _ (mem_map_of_mem mem)))))) state between
      · simp only [visit_builtinFunction callee]
        exact Leaves.append.trans arguments state between
    · obtain ⟨rfl, mem⟩ := getReceiver_eq_some.mp receiver
      obtain ⟨errors, inCallFunc, allowed, builtin⟩ := state
      obtain ⟨rfl, rfl⟩ : inCallFunc = false ∧ builtin = 0 := between
      have function := visit_getFunction finite mem
        (show (ValidatorState.mk (errors ++ getFindings id args keywords) false allowed 0).Between
          from ⟨rfl, rfl⟩)
      have rest := arguments (ValidatorState.mk
        (errors ++ getFindings id args keywords ++ nameFindings names true false id)
        false allowed 0) ⟨rfl, rfl⟩
      simp only [ValidatorState.append] at rest ⊢
      rw [function, rest]
      simp
  | compare left comparisons =>
    exact Leaves.append.trans ((ih left (.head _)).trans (leaves_visitComparators
      fun comparison mem => ih comparison.2 (.tail _ (mem_map_of_mem mem))))
  | boolOp op first rest =>
    exact (ih first (.head _)).trans (leaves_visitAll fun node mem => ih node (.tail _ mem))
  | binOp left op right =>
    exact Leaves.append.trans ((ih left (.head _)).trans (ih right (.tail _ (.head _))))
  | unaryOp op operand => exact Leaves.append.trans (ih operand (.head _))
  | list | tuple | set => exact leaves_visitAll ih
  | dict items =>
    exact Leaves.append.trans ((leaves_visitKeys fun item mem key named =>
      ih key (Expr.mem_children_key mem named)).trans
        (leaves_visitValues fun item mem => ih item.2 (Expr.mem_children_value mem)))
  | ifExp test body orelse =>
    exact (ih test (.head _)).trans ((ih body (.tail _ (.head _))).trans
      (ih orelse (.tail _ (.tail _ (.head _)))))
  | forbidden | unsupported => exact fun _ _ => rfl

/-! ## Accepted nodes -/

theorem findingsAll_eq_nil :
    findingsAll names finite allowed nodes = [] ↔
      ∀ node ∈ nodes, findings names finite allowed node = [] := by
  induction nodes with
  | nil => simp [findingsAll]
  | cons node nodes ih => simp [findingsAll, ih]

theorem findingsComparators_eq_nil :
    findingsComparators names finite allowed comparisons = [] ↔
      ∀ comparison ∈ comparisons, findings names finite allowed comparison.2 = [] := by
  induction comparisons with
  | nil => simp [findingsComparators]
  | cons comparison rest ih =>
    simp [findingsComparators, ih]

theorem findingsValues_eq_nil :
    findingsValues names finite allowed items = [] ↔
      ∀ item ∈ items, findings names finite allowed item.2 = [] := by
  induction items with
  | nil => simp [findingsValues]
  | cons item items ih =>
    simp [findingsValues, ih]

theorem findingsKeys_eq_nil :
    findingsKeys names finite allowed items = [] ↔
      ∀ item ∈ items, ∀ key, item.1 = some key → findings names finite allowed key = [] := by
  induction items with
  | nil => simp [findingsKeys]
  | cons item items ih =>
    obtain ⟨none | key, value⟩ := item
    · simp [findingsKeys, ih]
    · simp [findingsKeys, ih]

/-- An accepted attribute stands in call position only. -/
theorem findings_attributeOf_ne_nil {value : Expr F} {attr : String} :
    findings names finite allowed (.attributeOf value attr) ≠ [] := by
  simp only [findings]
  rcases allowedName names value with _ | id <;> simp

/-- What an accepted call calls: an allowed name's `get`, with one key, or a builtin, within
its arity. -/
inductive AcceptedCall (names : List String) : Expr F → List (Expr F) → Prop where
  | get {id : String} {arg : Expr F} (mem : id ∈ names) (plain : find id = none) :
      AcceptedCall names (.attributeOf (.name id) "get") [arg]
  | builtin {id : String} {args : List (Expr F)} {function : Builtin}
      (found : find id = some function) (admits : function.admits args.length) :
      AcceptedCall names (.name id) args

theorem find_of_safeConstant (constant : id ∈ safeConstants) : find id = none := by
  simp only [safeConstants, mem_cons, not_mem_nil, or_false] at constant
  rcases constant with rfl | rfl | rfl <;> decide

theorem acceptedCall {args : List (Expr F)}
    (accepted : findings names finite allowed (.call func args keywords) = []) :
    AcceptedCall names func args ∧ ∀ arg ∈ args, findings names finite allowed arg = [] := by
  simp only [findings] at accepted
  rcases receiver : getReceiver names func with _ | id
  · rcases callee : builtinCallee func with _ | function
    · simp [receiver, callee] at accepted
    · simp only [receiver, callee, append_eq_nil_iff, builtinFindings] at accepted
      obtain ⟨⟨-, arity⟩, rest⟩ := accepted
      cases func <;> simp only [builtinCallee, reduceCtorEq] at callee
      refine ⟨.builtin callee ?_, findingsAll_eq_nil.mp rest⟩
      by_contra misfit
      simp [misfit] at arity
  · obtain ⟨rfl, mem⟩ := getReceiver_eq_some.mp receiver
    simp only [receiver, append_eq_nil_iff, getFindings] at accepted
    obtain ⟨⟨arity, -⟩, named, rest⟩ := accepted
    obtain ⟨arg, rfl⟩ : ∃ arg, args = [arg] := by
      refine length_eq_one_iff.mp ?_
      by_contra misfit
      simp [misfit] at arity
    refine ⟨.get mem ?_, findingsAll_eq_nil.mp rest⟩
    by_contra named'
    obtain ⟨function, found⟩ := Option.ne_none_iff_exists'.mp named'
    have other : id ∉ safeConstants := fun constant => by
      rw [find_of_safeConstant constant] at found
      cases found
    simp [nameFindings, other, found] at named

end Validator

/-! ## Acceptance -/

/-- The names an expression may read from its context.  By default the context is the row
itself; otherwise it maps each allowed name to a value. -/
inductive Scope where
  | row
  | named (names : List String)
  deriving DecidableEq, Repr

def Scope.names : Scope → List String
  | .row => ["row"]
  | .named names => names

inductive InitError (F : Type) where
  | emptyAllowedNames
  | invalidSyntax
  | tooDeep
  | security (errors : List (Finding F))

/-- An expression that was parsed, is nested at most 64 levels deep, root included, and in
which the validator found nothing. -/
structure ExpressionParser (finite : F → Bool) where
  expression : String
  body : Expr F
  scope : Scope
  shallow : body.height + 1 ≤ 64
  valid : (Validator.visit scope.names finite body {}).errors.isEmpty = true

namespace ExpressionParser

/-- The constructor.  `parse` is the language's own parser. -/
def new (finite : F → Bool) (parse : String → Option (Expr F)) (expression : String)
    (allowedNames : Option (List String)) : Except (InitError F) (ExpressionParser finite) :=
  let scope := match allowedNames with
    | none => Scope.row
    | some names => Scope.named names
  if scope.names.isEmpty then .error .emptyAllowedNames
  else
    match parse expression with
    | none => .error .invalidSyntax
    | some body =>
      if shallow : body.height + 1 ≤ 64 then
        if valid : (Validator.visit scope.names finite body {}).errors.isEmpty then
          .ok ⟨expression, body, scope, shallow, valid⟩
        else .error (.security (Validator.visit scope.names finite body {}).errors)
      else .error .tooDeep

theorem findings_eq_nil {finite : F → Bool} (parser : ExpressionParser finite) :
    Validator.findings parser.scope.names finite false parser.body = [] := by
  have leaves : Validator.Leaves (Validator.visit parser.scope.names finite parser.body) _ :=
    Validator.leaves_visit parser.body
  have empty := isEmpty_iff.mp parser.valid
  rw [leaves {} ⟨rfl, rfl⟩] at empty
  exact empty

end ExpressionParser

end Elspeth.Expressions
