import Elspeth.Expressions.Evaluator

/-!
# Rules for the evaluator

One rule for each arm and each list of nodes of the evaluator, and the induction over
accepted nodes built from them: `Arms` says what the arms of an evaluation keep, and
`meets_visit` that the whole evaluation then keeps it.
-/

namespace Elspeth.Expressions

open Semantics Validator Val Elspeth.Expressions.Expr List

variable {F S : Type}

namespace Evaluator

variable {rt : Runtime F S}

/-! ## One rule for each arm -/

section Rules

variable {event : Event F S → Prop} {result : Val F S → Prop} {error : Raised F S → Prop}

variable {node func left : Expr F} {value right : Val F S} {names : List String} {id : String}
  {allowed : Bool} {args : List (Expr F)} {holds : Expr F → CmpOp → Expr F → Prop}
  {comparisons : List (CmpOp × Expr F)}

theorem meets_ensureFiniteFloat {operands : List (Val F S)} {text : String}
    (finite : result value := by trivial)
    (infinite : ∀ x, value = .float x → ¬ rt.isFinite x → error (.evaluation
      ⟨text ++ " produced non-finite float: " ++ rt.category x, .nonFiniteResult, .nonFinite,
        ⟨node, operands⟩⟩) := by intros; trivial) :
    (ensureFiniteFloat rt node operands text value).Meets event result error := by
  unfold ensureFiniteFloat
  split
  · rename_i x
    split
    · exact .pure finite
    · rename_i notFinite
      exact .raise (infinite x rfl notFinite)
  · exact .pure finite

theorem meets_subscript {slice : Expr F} {key : Val F S}
    (returned : ∀ item, getItem rt value key = .ok item → result item := by intros; trivial)
    (failed : ∀ exc text, getItem rt value key = .error exc →
      (exc = .keyError ∨ exc = .indexError ∨ exc = .typeError) →
      keyText rt names slice key (if exc = .indexError then "" else "'")
        (if exc = .indexError then unspelledIndex else unspelledKey) = some text →
      error (.evaluation ⟨lookupMessage rt value key exc text, lookupKind exc, .exception exc,
        ⟨node, [value, key]⟩⟩) := by intros; trivial)
    (unprintable : error (.python .valueError ⟨node, [value, key]⟩) := by trivial)
    (escaped : ∀ exc, getItem rt value key = .error exc →
      ¬ (exc = .keyError ∨ exc = .indexError ∨ exc = .typeError) →
      error (.python exc ⟨node, [value, key]⟩) := by intros; trivial) :
    (subscript rt names node slice value key).Meets event result error := by
  unfold subscript
  split
  · rename_i item got
    exact .pure (returned item got)
  · rename_i exc raised
    split
    · rename_i expected
      split
      · rename_i text printed
        exact .raise (failed exc text raised expected printed)
      · exact .raise unprintable
    · rename_i unexpected
      exact .raise (escaped exc raised unexpected)

theorem meets_apply {callee : Val F S} {args : List (Val F S)}
    (called : event (.called callee args.length))
    (returned : ∀ value, call rt callee args = .ok value → result value := by intros; trivial)
    (failed : ∀ exc kind message, call rt callee args = .error exc →
      (exc, kind, message) ∈
        [(Exc.typeError, EvaluationKind.incompatibleTypes,
            "invalid argument to " ++ funcLabel func ++ "(): cannot apply to (" ++
              argTypes rt args ++ ")"),
          (.overflowError, .arithmeticOverflow,
            funcLabel func ++ "() evaluation error: arithmetic overflow on (" ++
              argTypes rt args ++ ")"),
          (.valueError, .invalidValue,
            funcLabel func ++ "() evaluation error: invalid value for (" ++
              argTypes rt args ++ ")")] →
      error (.evaluation ⟨message, kind, .exception exc, ⟨node, args⟩⟩) := by intros; trivial)
    (escaped : ∀ exc, call rt callee args = .error exc →
      exc ∉ [.typeError, .overflowError, .valueError] → error (.python exc ⟨node, args⟩) :=
        by intros; trivial) :
    (apply rt node func callee args).Meets event result error := by
  unfold apply
  refine .emit_bind called ?_
  split
  · rename_i value got
    exact .pure (returned value got)
  · rename_i raised
    exact .raise (failed _ _ _ raised (by simp))
  · rename_i raised
    exact .raise (failed _ _ _ raised (by simp))
  · rename_i raised
    exact .raise (failed _ _ _ raised (by simp))
  · rename_i exc notType notOverflow notValue raised
    refine .raise (escaped exc raised ?_)
    simpa using ⟨notType, notOverflow, notValue⟩

theorem meets_link {op : CmpOp} {leftNode rightNode : Expr F} {left : Val F S}
    (compared : event (.compared op leftNode rightNode))
    (failed : compare rt op left right = .error .typeError → error (.evaluation
      ⟨"type error in comparison (" ++ op.name ++ "): cannot compare " ++ left.typeName rt ++
        " and " ++ right.typeName rt, .incompatibleTypes, .exception .typeError,
        ⟨.compare leftNode [(op, rightNode)], [left, right]⟩⟩) := by intros; trivial)
    (escaped : ∀ exc, compare rt op left right = .error exc → exc ≠ .typeError →
      error (.python exc ⟨.compare leftNode [(op, rightNode)], [left, right]⟩) := by
        intros; trivial) :
    (link rt op leftNode rightNode left right).Meets event (fun _ => True) error := by
  unfold link
  refine .emit_bind compared ?_
  split
  · exact .pure trivial
  · rename_i raised
    exact .raise (failed raised)
  · rename_i exc notType raised
    exact .raise (escaped exc raised notType)

theorem meets_operate {op : Operator} {left : Val F S} (allowed : op ∈ binaryOps)
    (operated : event (.operated op left right) := by trivial)
    (returned : ∀ value, binary rt op left right = .ok value → result value := by intros; trivial)
    (infinite : ∀ x, binary rt op left right = .ok (.float x) → ¬ rt.isFinite x →
      error (.evaluation ⟨op.name ++ " operation" ++ " produced non-finite float: " ++
        rt.category x, .nonFiniteResult, .nonFinite, ⟨node, [left, right]⟩⟩) := by intros; trivial)
    (failed : ∀ exc kind message, binary rt op left right = .error exc →
      (exc, kind, message) ∈
        [(Exc.zeroDivisionError, EvaluationKind.divisionByZero,
            "division by zero in " ++ op.name ++ " operation"),
          (.typeError, .incompatibleTypes,
            "type error in " ++ op.name ++ ": cannot apply to " ++ left.typeName rt ++ " and " ++
              right.typeName rt),
          (.keyError, .missingKey,
            "%-format key not found in " ++ right.typeName rt ++ " (" ++ op.name ++
              " operation)")] →
      error (.evaluation ⟨message, kind, .exception exc, ⟨node, [left, right]⟩⟩) := by
        intros; trivial)
    (escaped : ∀ exc, binary rt op left right = .error exc →
      exc ∉ [.zeroDivisionError, .typeError, .keyError] →
      error (.python exc ⟨node, [left, right]⟩) := by intros; trivial) :
    (operate rt node op left right).Meets event result error := by
  unfold operate
  rw [if_pos allowed]
  refine .emit_bind operated ?_
  split
  · rename_i value got
    refine meets_ensureFiniteFloat (returned value got) ?_
    rintro x rfl notFinite
    exact infinite x got notFinite
  · rename_i raised
    exact .raise (failed _ _ _ raised (by simp))
  · rename_i raised
    exact .raise (failed _ _ _ raised (by simp))
  · rename_i raised
    exact .raise (failed _ _ _ raised (by simp))
  · rename_i exc notZero notType notKey raised
    refine .raise (escaped exc raised ?_)
    simpa using ⟨notZero, notType, notKey⟩

theorem meets_operateUnary {op : UnaryOperator} {operand : Val F S} (allowed : op ∈ unaryOps)
    (returned : ∀ value, unary rt op operand = .ok value → result value := by intros; trivial)
    (infinite : ∀ x, unary rt op operand = .ok (.float x) → ¬ rt.isFinite x →
      error (.evaluation ⟨"unary " ++ op.name ++ " produced non-finite float: " ++
        rt.category x, .nonFiniteResult, .nonFinite, ⟨node, [operand]⟩⟩) := by intros; trivial)
    (failed : unary rt op operand = .error .typeError → error (.evaluation
      ⟨"type error in unary " ++ op.name ++ ": cannot apply to " ++ operand.typeName rt,
        .incompatibleTypes, .exception .typeError, ⟨node, [operand]⟩⟩) := by intros; trivial)
    (escaped : ∀ exc, unary rt op operand = .error exc → exc ≠ .typeError →
      error (.python exc ⟨node, [operand]⟩) := by intros; trivial) :
    (operateUnary rt node op operand).Meets event result error := by
  unfold operateUnary
  rw [if_pos allowed]
  split
  · rename_i value got
    refine meets_ensureFiniteFloat (returned value got) ?_
    rintro x rfl notFinite
    exact infinite x got notFinite
  · rename_i raised
    exact .raise (failed raised)
  · rename_i exc notType raised
    exact .raise (escaped exc raised notType)

theorem meets_unhashable {message : String} {fault : Raised F S}
    (caught : ∀ site, fault = .python .typeError site → error (.evaluation
      ⟨message, .incompatibleTypes, .exception .typeError, ⟨node, []⟩⟩))
    (passed : (∀ site, fault ≠ .python .typeError site) → error fault) :
    (unhashable node message fault : Eval F S (Val F S)).Meets event result error := by
  unfold unhashable
  split
  · rename_i site
    exact .raise (caught site rfl)
  · rename_i other
    exact .raise (passed other)

/-! ## Names and functions -/

variable {scope : Scope} {context : Val F S}

/-- An allowed name evaluates to its value. -/
theorem meets_visitName (mem : id ∈ scope.names)
    (returned : ∀ value, scope.value rt context id = .ok value → result value)
    (escaped : ∀ exc, scope.value rt context id = .error exc →
      error (.python exc ⟨.name id, []⟩)) :
    (visitName rt scope context id).Meets event result error := by
  unfold visitName
  rw [if_pos mem]
  cases scope with
  | row => exact .pure (returned context rfl)
  | named =>
    rcases got : getItem rt context (.str id) with exc | value <;> simp only
    · exact .raise (escaped exc got)
    · exact .pure (returned value got)

/-- A builtin that no allowed name hides evaluates to itself. -/
theorem visitName_builtin {function : Builtin} (found : Builtin.find id = some function)
    (hidden : id ∉ scope.names) : visitName rt scope context id = pure (.builtin function) := by
  have constant : id ∉ safeConstants := fun mem => by
    rw [find_of_safeConstant mem] at found
    cases found
  simp only [safeConstants, mem_cons, not_mem_nil, or_false, not_or] at constant
  unfold visitName
  rw [if_neg hidden, if_neg constant.1, if_neg constant.2.1, if_neg constant.2.2, found]

/-- An accepted name is an allowed name or a constant. -/
theorem meets_acceptedName
    (accepted : findings scope.names rt.isFinite allowed (.name id) = [])
    (constants : result (.bool true) ∧ result (.bool false) ∧ result .none)
    (returned : id ∈ scope.names → ∀ value, scope.value rt context id = .ok value → result value)
    (escaped : id ∈ scope.names → ∀ exc, scope.value rt context id = .error exc →
      error (.python exc ⟨.name id, []⟩)) :
    (visitName rt scope context id).Meets event result error := by
  by_cases mem : id ∈ scope.names
  · exact meets_visitName mem (returned mem) (escaped mem)
  · have constant : id ∈ safeConstants := by
      by_contra other
      rw [findings, nameFindings, if_neg other] at accepted
      split at accepted
      · cases accepted
      · cases accepted
    simp only [safeConstants, mem_cons, not_mem_nil, or_false] at constant
    unfold visitName
    rw [if_neg mem]
    rcases constant with rfl | rfl | rfl
    · exact .pure constants.1
    · exact .pure constants.2.1
    · exact .pure constants.2.2

variable (rt scope context) in
/-- What the function of an accepted call evaluates to.  A builtin's name that is an allowed
name hides the builtin. -/
inductive Callee : Expr F → Val F S → Prop where
  | builtin {id : String} {function : Builtin} (found : Builtin.find id = some function) :
      Callee (.name id) (.builtin function)
  | hidden {id : String} {function : Builtin} {value : Val F S}
      (found : Builtin.find id = some function) (mem : id ∈ scope.names)
      (got : scope.value rt context id = .ok value) : Callee (.name id) value
  | get {id : String} {receiver : Val F S} (mem : id ∈ scope.names)
      (got : scope.value rt context id = .ok receiver) :
      Callee (.attributeOf (.name id) "get") (.getMethod receiver)

theorem meets_func (accepted : Validator.AcceptedCall scope.names func args)
    (evaluated : ∀ kind ∈ allowedExprTypes, event (.evaluated kind))
    (read : ∀ id ∈ scope.names, ∀ receiver, scope.value rt context id = .ok receiver →
      event (.readAttribute receiver "get"))
    (missing : ∀ id ∈ scope.names, ∀ exc, scope.value rt context id = .error exc →
      error (.python exc ⟨.name id, []⟩))
    (getless : ∀ id ∈ scope.names, ∀ receiver, scope.value rt context id = .ok receiver →
      receiver.hasGet = false →
      error (.python .attributeError ⟨.attributeOf (.name id) "get", [receiver]⟩)) :
    (visit rt scope context func).Meets event (Callee rt scope context func) error := by
  cases accepted with
  | @get id arg mem _ =>
    have receiver : (visit rt scope context (.name id)).Meets event
        (fun value => scope.value rt context id = .ok value) error := by
      rw [visit]
      exact .emit_bind (evaluated _ (by decide))
        (meets_visitName mem (fun _ got => got) fun exc raised => missing id mem exc raised)
    rw [visit]
    refine .emit_bind (evaluated _ (by decide)) (.bind receiver fun value got => ?_)
    rw [if_pos ⟨rfl, by simp [allowedName, mem]⟩]
    refine .emit_bind (read id mem value got) ?_
    split
    · exact .pure (.get mem got)
    · rename_i without
      exact .raise (getless id mem value got (Bool.eq_false_of_not_eq_true without))
  | @builtin id args function found admits =>
    rw [visit]
    refine .emit_bind (evaluated _ (by decide)) ?_
    by_cases mem : id ∈ scope.names
    · exact meets_visitName mem (fun value got => .hidden found mem got)
        fun exc raised => missing id mem exc raised
    · rw [visitName_builtin found mem]
      exact .pure (.builtin found)

theorem misfits_eq_false (accepted : Validator.AcceptedCall names func args) :
    misfits func args.length = false := by
  cases accepted with
  | get => rfl
  | builtin found admits => simp [misfits, builtinCallee, found, admits]

/-! ## One rule for each list of nodes -/

theorem meets_visitAll {nodes : List (Expr F)}
    (each : ∀ node ∈ nodes, (visit rt scope context node).Meets event result error) :
    (visitAll rt scope context nodes).Meets event
      (fun values => values.length = nodes.length ∧ ∀ value ∈ values, result value) error := by
  induction nodes with
  | nil =>
    rw [visitAll]
    exact .pure ⟨rfl, fun _ mem => absurd mem not_mem_nil⟩
  | cons node nodes ih =>
    obtain ⟨head, tail⟩ := forall_mem_cons.mp each
    rw [visitAll]
    refine .bind head fun value holds => .bind (ih tail) fun values rest => .pure ⟨?_, ?_⟩
    · simp [rest.1]
    · exact forall_mem_cons.mpr ⟨holds, rest.2⟩

/-- An accepted call: its function, its arguments, and the application. -/
theorem meets_call {keywords : List (Option String × Expr F)}
    (accepted : findings scope.names rt.isFinite allowed (.call func args keywords) = [])
    (evaluated : ∀ kind ∈ allowedExprTypes, event (.evaluated kind))
    (function : (visit rt scope context func).Meets event (Callee rt scope context func) error)
    (arguments : ∀ arg ∈ args, (visit rt scope context arg).Meets event (fun _ => True) error)
    (application : ∀ callee values, Callee rt scope context func callee →
      values.length = args.length →
      (apply rt (.call func args keywords) func callee values).Meets event result error) :
    (visit rt scope context (.call func args keywords)).Meets event result error := by
  rw [visit, misfits_eq_false (acceptedCall accepted).1]
  refine .emit_bind (evaluated _ (by decide)) (.bind function fun callee called => ?_)
  exact .bind (meets_visitAll arguments) fun values length =>
    application callee values called length.1

/-- `holds` of every link of a comparison chain. -/
def Chain (holds : Expr F → CmpOp → Expr F → Prop) : Expr F → List (CmpOp × Expr F) → Prop
  | _, [] => True
  | left, (op, right) :: rest => holds left op right ∧ Chain holds right rest

theorem chain_of_forall (all : ∀ left op right, holds left op right) (left : Expr F)
    (comparisons : List (CmpOp × Expr F)) : Chain holds left comparisons := by
  induction comparisons generalizing left with
  | nil => trivial
  | cons comparison rest ih => exact ⟨all left comparison.1 comparison.2, ih comparison.2⟩

theorem meets_visitChain (each : ∀ comparison ∈ comparisons,
      (visit rt scope context comparison.2).Meets event (fun _ => True) error)
    (links : Chain (fun left op right => ∀ leftValue rightValue,
      (link rt op left right leftValue rightValue).Meets event (fun _ => True) error)
      left comparisons) :
    (visitChain rt scope context left value comparisons).Meets event
      (fun result => ∃ holds, result = .bool holds) error := by
  induction comparisons generalizing left value with
  | nil =>
    rw [visitChain]
    exact .pure ⟨true, rfl⟩
  | cons comparison rest ih =>
    obtain ⟨op, right⟩ := comparison
    obtain ⟨head, tail⟩ := forall_mem_cons.mp each
    rw [visitChain]
    refine .bind head fun rightValue _ => .bind (links.1 value rightValue) fun holds _ => ?_
    split
    · exact ih tail links.2
    · exact .pure ⟨false, rfl⟩

theorem meets_visitOperands {op : BoolOperator} {rest : List (Expr F)} (start : result value)
    (each : ∀ node ∈ rest, (visit rt scope context node).Meets event result error) :
    (visitOperands rt scope context op value rest).Meets event result error := by
  induction rest generalizing value with
  | nil =>
    rw [visitOperands]
    exact .pure start
  | cons next rest ih =>
    obtain ⟨head, tail⟩ := forall_mem_cons.mp each
    rw [visitOperands]
    split
    · exact .pure start
    · exact .bind head fun value holds => ih holds tail

theorem meets_visitSet {items : List (Val F S)} {elts : List (Expr F)}
    (each : ∀ elt ∈ elts, (visit rt scope context elt).Meets event (fun _ => True) error)
    (refused : ∀ items value exc, insert rt items value = .error exc →
      error (.python exc ⟨node, []⟩)) :
    (visitSet rt scope context node items elts).Meets event (fun _ => True) error := by
  induction elts generalizing items with
  | nil =>
    rw [visitSet]
    exact .pure trivial
  | cons elt elts ih =>
    obtain ⟨head, tail⟩ := forall_mem_cons.mp each
    rw [visitSet]
    refine .bind head fun value _ => .bind (.lift (fun _ _ => trivial) ?_) fun items _ => ih tail
    exact fun exc raised => refused items value exc raised

theorem meets_visitItems {entries : List (Val F S × Val F S)}
    {items : List (Option (Expr F) × Expr F)}
    (start : ∀ entry ∈ entries, result entry.1 ∧ result entry.2)
    (keys : ∀ item ∈ items, ∀ key, item.1 = some key →
      (visit rt scope context key).Meets event result error)
    (values : ∀ item ∈ items, (visit rt scope context item.2).Meets event result error)
    (refused : ∀ entries key value exc,
      (if key.hashable rt then assign rt key value entries else .error .typeError) =
        .error exc → error (.python exc ⟨node, []⟩)) :
    (visitItems rt scope context node entries items).Meets event
      (fun dict => ∃ entries, dict = .dict entries ∧
        ∀ entry ∈ entries, result entry.1 ∧ result entry.2) error := by
  induction items generalizing entries with
  | nil =>
    rw [visitItems]
    exact .pure ⟨entries, rfl, start⟩
  | cons item items ih =>
    obtain ⟨keyHead, keyTail⟩ := forall_mem_cons.mp keys
    obtain ⟨valueHead, valueTail⟩ := forall_mem_cons.mp values
    obtain ⟨_ | keyNode, valueNode⟩ := item
    · rw [visitItems]
      exact ih start keyTail valueTail
    · rw [visitItems]
      refine .bind (keyHead keyNode rfl) fun key keyHolds =>
        .bind valueHead fun value valueHolds => ?_
      have stored : (Traced.lift (Raised.python · ⟨node, []⟩)
          (if key.hashable rt then assign rt key value entries else .error .typeError) :
          Eval F S _).Meets event (fun entries => ∀ entry ∈ entries, result entry.1 ∧
            result entry.2)
          error := by
        refine .lift ?_ fun exc raised => refused entries key value exc raised
        intro updated assigned entry mem
        split at assigned
        · obtain ⟨name, stored⟩ := mem_of_assign assigned mem
          constructor
          · rcases name with same | ⟨old, mem', same⟩
            · rw [same]
              exact keyHolds
            · rw [same]
              exact (start old mem').1
          · rcases stored with same | ⟨old, mem', same⟩
            · rw [same]
              exact valueHolds
            · rw [same]
              exact (start old mem').2
        · cases assigned
      exact .bind stored fun entries holds => ih holds keyTail valueTail

/-! ## The whole tree -/

/-- What the arms of the evaluator keep: every event satisfies `event`, every error
`error`.  `known` is what the evaluation of an accepted node shows of its value, `admitted`
what holds of every node of the tree. -/
structure Arms (rt : Runtime F S) (scope : Scope) (context : Val F S) (event : Event F S → Prop)
    (error : Raised F S → Prop) (known : Expr F → Val F S → Prop) (admitted : Expr F → Prop) :
    Prop where
  evaluated : ∀ kind ∈ allowedExprTypes, event (.evaluated kind)
  read : ∀ id ∈ scope.names, ∀ receiver, scope.value rt context id = .ok receiver →
    event (.readAttribute receiver "get") := by intros; trivial
  missing : ∀ id ∈ scope.names, ∀ exc, scope.value rt context id = .error exc →
    error (.python exc ⟨.name id, []⟩)
  getless : ∀ id ∈ scope.names, ∀ receiver, scope.value rt context id = .ok receiver →
    receiver.hasGet = false →
    error (.python .attributeError ⟨.attributeOf (.name id) "get", [receiver]⟩)
  infinite : ∀ value : Literal F, (ensureFiniteFloat rt (.constant value) [] "expression literal"
    (literal rt value)).Meets event (fun _ => True) error
  subscript : ∀ value slice container key, known slice key →
    (subscript rt scope.names (.subscript value slice) slice container key).Meets event
      (fun _ => True) error
  call : ∀ func args keywords callee values, Validator.AcceptedCall scope.names func args →
    Callee rt scope context func callee → values.length = args.length →
    (apply rt (.call func args keywords) func callee values).Meets event (fun _ => True) error
  link : ∀ op left right leftValue rightValue,
    (op = .is ∨ op = .isNot → left.isNoneConstant ∨ right.isNoneConstant) →
    (link rt op left right leftValue rightValue).Meets event (fun _ => True) error
  operate : ∀ left op right leftValue rightValue, op ∈ binaryOps →
    admitted (.binOp left op right) → known left leftValue → known right rightValue →
    (operate rt (.binOp left op right) op leftValue rightValue).Meets event (fun _ => True) error
  unary : ∀ op operand value, op ∈ unaryOps →
    (operateUnary rt (.unaryOp op operand) op value).Meets event (fun _ => True) error
  inserted : ∀ elts items value exc, insert rt items value = .error exc →
    exc ≠ .typeError → error (.python exc ⟨.set elts, []⟩)
  assigned : ∀ items entries key value exc, assign rt key value entries = .error exc →
    exc ≠ .typeError → error (.python exc ⟨.dict items, []⟩)
  setLiteral : ∀ elts, error (.evaluation ⟨"cannot create set literal: an element is unhashable",
    .incompatibleTypes, .exception .typeError, ⟨.set elts, []⟩⟩)
  dictLiteral : ∀ items, error (.evaluation ⟨"cannot create dict literal: a key is unhashable",
    .incompatibleTypes, .exception .typeError, ⟨.dict items, []⟩⟩)

/-- The validator admits an identity test only against a literal `None`. -/
theorem chain_of_identityFindings (links : ∀ left op right,
      (op = .is ∨ op = .isNot → left.isNoneConstant ∨ right.isNoneConstant) →
        holds left op right) (accepted : identityFindings left comparisons = []) :
    Chain holds left comparisons := by
  induction comparisons generalizing left with
  | nil => trivial
  | cons comparison rest ih =>
    obtain ⟨op, right⟩ := comparison
    rw [identityFindings, append_eq_nil_iff] at accepted
    refine ⟨links left op right fun identity => ?_, ih accepted.2⟩
    by_contra neither
    simp [identity, neither] at accepted

variable {known : Expr F → Val F S → Prop} {admitted : Expr F → Prop}

/-- What the arms keep, the evaluation of an accepted tree keeps: one case for each node
kind. -/
theorem meets_visit (arms : Arms rt scope context event error known admitted)
    (knows : ∀ (node : Expr F) {allowed : Bool},
      findings scope.names rt.isFinite allowed node = [] →
      (visit rt scope context node).Meets (fun _ => True) (known node) fun _ => True)
    (node : Expr F) (accepted : findings scope.names rt.isFinite allowed node = [])
    (inherited : ∀ found ∈ node.walk, admitted found) :
    (visit rt scope context node).Meets event (fun _ => True) error := by
  have entered : ∀ kind, allowedExprTypes.contains kind = true → event (.evaluated kind) :=
    fun kind inside => arms.evaluated kind (contains_iff_mem.mp inside)
  induction node generalizing allowed with | step node ih => ?_
  have each : ∀ child ∈ node.children, ∀ {allowed : Bool},
      findings scope.names rt.isFinite allowed child = [] →
      (visit rt scope context child).Meets event (known child) error := fun child mem _ fine =>
    ((ih child mem fine fun found inside => inherited found (mem_walk_of_child mem inside)).and
      (knows child fine)).weaken fun _ holds => holds.2
  -- Below the handler of a literal a `TypeError` of hashing may be raised as well.
  have guarded : ∀ child ∈ node.children, ∀ {allowed : Bool},
      findings scope.names rt.isFinite allowed child = [] →
      (visit rt scope context child).Meets event (fun _ => True)
        fun raised => error raised ∨ ∃ site, raised = .python .typeError site :=
    fun child mem _ fine => (each child mem fine).mono (fun _ holds => holds) (fun _ _ => trivial)
      fun _ holds => .inl holds
  cases node with
  | name id =>
    rw [visit]
    exact .emit_bind (entered _ rfl) (meets_acceptedName accepted ⟨trivial, trivial, trivial⟩
      (fun _ _ _ => trivial) (arms.missing id))
  | constant =>
    rw [visit]
    exact .emit_bind (entered _ rfl) (arms.infinite ..)
  | subscript value slice =>
    simp only [findings, append_eq_nil_iff] at accepted
    rw [visit]
    exact .emit_bind (entered _ rfl) (.bind (each value (.head _) accepted.2.1)
      fun container _ => .bind (each slice (.tail _ (.head _)) accepted.2.2) fun key holds =>
        arms.subscript value slice container key holds)
  | attributeOf => exact absurd accepted findings_attributeOf_ne_nil
  | call func args keywords =>
    obtain ⟨called, arguments⟩ := acceptedCall accepted
    exact meets_call accepted arms.evaluated
      (meets_func called arms.evaluated arms.read arms.missing arms.getless)
      (fun arg mem => (each arg (.tail _ (mem_append_left _ mem)) (arguments arg mem)).forget)
      fun callee values callees length =>
        arms.call func args keywords callee values called callees length
  | compare left comparisons =>
    simp only [findings, append_eq_nil_iff] at accepted
    obtain ⟨identity, first, rest⟩ := accepted
    rw [findingsComparators_eq_nil] at rest
    rw [visit]
    refine .emit_bind (entered _ rfl) (.bind (each left (.head _) first) fun value _ => ?_)
    exact (meets_visitChain (fun comparison mem =>
      (each comparison.2 (.tail _ (mem_map_of_mem mem)) (rest comparison mem)).forget)
      (chain_of_identityFindings (fun left op right literal leftValue rightValue =>
        arms.link op left right leftValue rightValue literal) identity)).forget
  | boolOp op first rest =>
    simp only [findings, append_eq_nil_iff] at accepted
    have operands := findingsAll_eq_nil.mp accepted.2
    rw [visit]
    exact .emit_bind (entered _ rfl) (.bind (each first (.head _) accepted.1) fun value _ =>
      meets_visitOperands trivial fun node mem =>
        (each node (.tail _ mem) (operands node mem)).forget)
  | binOp left op right =>
    simp only [findings, append_eq_nil_iff] at accepted
    obtain ⟨operator, first, second⟩ := accepted
    have listed : op ∈ binaryOps := by
      by_contra other
      simp [other] at operator
    rw [visit]
    exact .emit_bind (entered _ rfl) (.bind (each left (.head _) first)
      fun leftValue leftHolds => .bind (each right (.tail _ (.head _)) second)
        fun rightValue rightHolds => arms.operate left op right leftValue rightValue listed
          (inherited _ (mem_walk_self _)) leftHolds rightHolds)
  | unaryOp op operand =>
    simp only [findings, append_eq_nil_iff] at accepted
    have listed : op ∈ unaryOps := by
      by_contra other
      simp [other] at accepted
    rw [visit]
    exact .emit_bind (entered _ rfl) (.bind (each operand (.head _) accepted.2) fun value _ =>
      arms.unary op operand value listed)
  | list elts | tuple elts =>
    have fine := findingsAll_eq_nil.mp accepted
    rw [visit]
    exact .emit_bind (entered _ rfl) (.bind (meets_visitAll fun elt mem =>
      (each elt mem (fine elt mem)).forget) fun _ _ => .pure trivial)
  | set elts =>
    have fine := findingsAll_eq_nil.mp accepted
    have inner : (visitSet rt scope context (.set elts) [] elts).Meets event (fun _ => True)
        fun raised => error raised ∨ ∃ site, raised = .python .typeError site := by
      refine meets_visitSet (fun elt mem => guarded elt mem (fine elt mem))
        fun items value exc refused => ?_
      by_cases typed : exc = .typeError
      · exact .inr ⟨_, by rw [typed]⟩
      · exact .inl (arms.inserted _ items value exc refused typed)
    rw [visit]
    refine .emit_bind (entered _ rfl) (.rescue inner fun fault holds => ?_)
    refine meets_unhashable (fun _ _ => arms.setLiteral elts) fun other => ?_
    rcases holds with holds | ⟨site, typed⟩
    · exact holds
    · exact absurd typed (other site)
  | dict items =>
    simp only [findings, append_eq_nil_iff] at accepted
    obtain ⟨spread, keys, values⟩ := accepted
    rw [findingsKeys_eq_nil] at keys
    rw [findingsValues_eq_nil] at values
    have keyed : (items.any fun item => item.1.isNone) = false := by
      rw [any_eq_false]
      intro item mem absent
      have empty := filter_eq_nil_iff.mp (map_eq_nil_iff.mp spread)
      exact empty item mem absent
    have inner : (visitItems rt scope context (.dict items) [] items).Meets event
        (fun _ => True) fun raised => error raised ∨ ∃ site, raised = .python .typeError site := by
      refine (meets_visitItems (fun _ mem => absurd mem not_mem_nil)
        (fun item mem key named =>
          guarded key (mem_children_key mem named) (keys item mem key named))
        (fun item mem => guarded item.2 (mem_children_value mem) (values item mem))
        fun entries key value exc refused => ?_).forget
      by_cases typed : exc = .typeError
      · exact .inr ⟨_, by rw [typed]⟩
      · split at refused
        · exact .inl (arms.assigned _ entries key value exc refused typed)
        · cases refused
          exact absurd rfl typed
    rw [visit, keyed]
    refine .emit_bind (entered _ rfl) (.rescue inner fun fault holds => ?_)
    refine meets_unhashable (fun _ _ => arms.dictLiteral items) fun other => ?_
    rcases holds with holds | ⟨site, typed⟩
    · exact holds
    · exact absurd typed (other site)
  | ifExp test body orelse =>
    simp only [findings, append_eq_nil_iff] at accepted
    rw [visit]
    refine .emit_bind (entered _ rfl) (.bind (each test (.head _) accepted.1) fun chosen _ => ?_)
    split
    · exact (each body (.tail _ (.head _)) accepted.2.1).forget
    · exact (each orelse (.tail _ (.tail _ (.head _))) accepted.2.2).forget
  | forbidden | unsupported => simp [findings] at accepted

end Rules

end Evaluator

end Elspeth.Expressions
