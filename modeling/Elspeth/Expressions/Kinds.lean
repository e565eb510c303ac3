import Elspeth.Expressions.Analysis
import Elspeth.Expressions.Rules

/-!
# Result kinds

The four analyses of an expression's value against its evaluation.  Each is a fact about the
operators first (what a bool builtin, an arithmetic operator or a subscript can return) and a
fact about nodes after it.
-/

namespace Elspeth.Expressions

open Semantics Validator List Val Evaluator

variable {F S : Type} {rt : Runtime F S}

namespace Val

def isBool : Val F S → Bool
  | .bool _ => true
  | _ => false

def isStr : Val F S → Bool
  | .str _ => true
  | _ => false

/-- Neither a bool nor a string: no route label. -/
def Unroutable (value : Val F S) : Prop := value.isBool = false ∧ value.isStr = false

mutual

/-- No set at any depth. -/
def setFree : Val F S → Bool
  | .set _ | .frozenset _ => false
  | .list items | .tuple items => setFreeAll items
  | .dict entries | .mappingproxy entries => setFreeEntries entries
  | .row _ _ data => setFreeData data
  | .getMethod receiver => receiver.setFree
  | .none | .bool _ | .int _ | .float _ | .str _ | .object _ | .builtin _ => true

def setFreeAll : List (Val F S) → Bool
  | [] => true
  | item :: items => item.setFree && setFreeAll items

def setFreeEntries : List (Val F S × Val F S) → Bool
  | [] => true
  | (key, value) :: entries => key.setFree && (value.setFree && setFreeEntries entries)

def setFreeData : List (String × Val F S) → Bool
  | [] => true
  | (_, value) :: data => value.setFree && setFreeData data

end

variable {items args : List (Val F S)} {entries : List (Val F S × Val F S)} {function : Builtin}
  {value sequence left right operand key : Val F S} {count : Int} {op : UnaryOperator}

theorem setFreeAll_iff : setFreeAll items = true ↔ ∀ item ∈ items, item.setFree = true := by
  induction items with
  | nil => simp [setFreeAll]
  | cons item items ih => simp [setFreeAll, ih]

theorem setFreeEntries_iff :
    setFreeEntries entries = true ↔
      ∀ entry ∈ entries, entry.1.setFree = true ∧ entry.2.setFree = true := by
  induction entries with
  | nil => simp [setFreeEntries]
  | cons entry entries ih =>
    obtain ⟨key, value⟩ := entry
    simp [setFreeEntries, ih, and_assoc]

theorem setFreeData_iff {data : List (String × Val F S)} :
    setFreeData data = true ↔ ∀ entry ∈ data, entry.2.setFree = true := by
  induction data with
  | nil => simp [setFreeData]
  | cons entry data ih =>
    obtain ⟨key, value⟩ := entry
    simp [setFreeData, ih]

/-! ## Numbers -/

theorem unroutable_number (number : Number F S) : number.val.Unroutable := by
  cases number <;> exact ⟨rfl, rfl⟩

theorem setFree_number (number : Number F S) : number.val.setFree = true := by
  cases number <;> rfl

/-! ## Builtins -/

/-- What a builtin returns: a bool, a number or a string, each builtin its own kind. -/
theorem callBuiltin_returns (returned : callBuiltin rt function args = .ok value) :
    (function.alwaysBoolean = true ∧ ∃ holds, value = .bool holds) ∨
      (function.alwaysNumeric = true ∧ ∃ number : Number F S, value = number.val) ∨
      (function.alwaysBoolean = false ∧ function.alwaysNumeric = false ∧
        ∃ text, value = .str text) := by
  revert returned
  fun_cases callBuiltin rt function args <;> intro returned
  case case1 length _ =>
    cases returned
    exact .inr (.inl ⟨rfl, .int length, rfl⟩)
  case case3 => exact .inr (.inl ⟨rfl, _, (map_eq_ok.mp returned).choose_spec.2.symm⟩)
  case case4 _ _ magnitude _ =>
    cases returned
    exact .inr (.inl ⟨rfl, .int magnitude.natAbs, rfl⟩)
  case case5 _ _ magnitude _ =>
    cases returned
    exact .inr (.inl ⟨rfl, .float (rt.abs magnitude), rfl⟩)
  case case13 =>
    cases returned
    exact .inl ⟨rfl, _, rfl⟩
  case case14 text =>
    cases returned
    exact .inr (.inl ⟨rfl, .int (rt.wordCount text), rfl⟩)
  case case15 => exact .inl ⟨rfl, _, (map_eq_ok.mp returned).choose_spec.2.symm⟩
  case case2 | case6 | case16 => cases returned
  -- The string builtins.
  all_goals
    cases returned
    exact .inr (.inr ⟨rfl, rfl, _, rfl⟩)

theorem setFree_callBuiltin (returned : callBuiltin rt function args = .ok value) :
    value.setFree = true := by
  rcases callBuiltin_returns returned with ⟨-, _, rfl⟩ | ⟨-, number, rfl⟩ | ⟨-, -, _, rfl⟩
  · rfl
  · exact setFree_number number
  · rfl

/-! ## Operators -/

/-- A repeated sequence is a sequence of the same type with the same items. -/
theorem repeated_returns (returned : repeated rt sequence count = .ok value) :
    (sequence.isStr = true ∧ ∃ text, value = .str text) ∨
      ∃ items repeats, (sequence = .list items ∧ value = .list repeats ∨
        sequence = .tuple items ∧ value = .tuple repeats) ∧ ∀ item ∈ repeats, item ∈ items := by
  have same : ∀ {items : List (Val F S)} {times : Nat},
      ∀ item ∈ (replicate times items).flatten, item ∈ items := by
    intro items times item mem
    obtain ⟨part, inside, mem'⟩ := mem_flatten.mp mem
    rw [eq_of_mem_replicate inside] at mem'
    exact mem'
  revert returned
  fun_cases repeated rt sequence count <;> intro returned
  case case1 text =>
    obtain ⟨times, -, ⟨⟩⟩ := bind_eq_ok.mp returned
    exact .inl ⟨rfl, _, rfl⟩
  case case2 items =>
    obtain ⟨times, -, ⟨⟩⟩ := bind_eq_ok.mp returned
    exact .inr ⟨items, _, .inl ⟨rfl, rfl⟩, same⟩
  case case3 items =>
    obtain ⟨times, -, ⟨⟩⟩ := bind_eq_ok.mp returned
    exact .inr ⟨items, _, .inr ⟨rfl, rfl⟩, same⟩
  case case4 => cases returned

theorem setFree_repeated (free : sequence.setFree = true)
    (returned : repeated rt sequence count = .ok value) : value.setFree = true := by
  rcases repeated_returns returned with ⟨-, text, rfl⟩ |
    ⟨items, repeats, ⟨rfl, rfl⟩ | ⟨rfl, rfl⟩, same⟩
  · rfl
  · exact setFreeAll_iff.mpr fun item mem => setFreeAll_iff.mp free item (same item mem)
  · exact setFreeAll_iff.mpr fun item mem => setFreeAll_iff.mp free item (same item mem)

/-- The operators whose result is no string: those that strings lack, and an addition of
which one side is no string. -/
theorem unroutable_binary {op : Operator} (numeric : op = .sub ∨ op = .div ∨ op = .floorDiv ∨
      op = .add ∧ (left.isStr = false ∨ right.isStr = false))
    (returned : binary rt op left right = .ok value) : value.Unroutable := by
  revert returned
  fun_cases binary rt op left right <;> intro returned
  case case1 => simp at numeric
  case case2 =>
    obtain ⟨number, -, rfl⟩ := map_eq_ok.mp returned
    exact unroutable_number number
  case case3 =>
    obtain ⟨number, -, rfl⟩ := map_eq_ok.mp returned
    exact unroutable_number number
  case case4 =>
    revert returned
    fun_cases sequence rt op left right <;> intro returned
    case case1 => simp [isStr] at numeric
    case case2 | case3 =>
      cases returned
      exact ⟨rfl, rfl⟩
    case case4 | case5 | case6 | case7 =>
      obtain ⟨items, -, rfl⟩ := map_eq_ok.mp returned
      exact ⟨rfl, rfl⟩
    case case8 | case9 | case10 => simp at numeric
    case case11 => cases returned

theorem setFree_binary {op : Operator} (freeLeft : left.setFree = true)
    (freeRight : right.setFree = true) (returned : binary rt op left right = .ok value) :
    value.setFree = true := by
  revert returned
  fun_cases binary rt op left right <;> intro returned
  case case1 =>
    obtain ⟨text, -, rfl⟩ := map_eq_ok.mp returned
    rfl
  case case2 =>
    obtain ⟨number, -, rfl⟩ := map_eq_ok.mp returned
    exact setFree_number number
  case case3 =>
    obtain ⟨number, -, rfl⟩ := map_eq_ok.mp returned
    exact setFree_number number
  case case4 =>
    revert returned
    fun_cases sequence rt op left right <;> intro returned
    case case1 =>
      cases returned
      rfl
    case case2 | case3 =>
      cases returned
      refine setFreeAll_iff.mpr fun item mem => ?_
      rcases mem_append.mp mem with first | second
      · exact setFreeAll_iff.mp freeLeft item first
      · exact setFreeAll_iff.mp freeRight item second
    case case4 | case5 | case6 | case7 => cases freeLeft
    case case8 => exact setFree_repeated freeRight returned
    case case9 => exact setFree_repeated freeLeft returned
    case case10 | case11 => cases returned

theorem unroutable_unary (numeric : op ≠ .not) (returned : unary rt op operand = .ok value) :
    value.Unroutable := by
  revert returned
  fun_cases unary rt op operand <;> intro returned
  case case1 => exact absurd rfl numeric
  case case2 =>
    obtain ⟨number, -, rfl⟩ := map_eq_ok.mp returned
    exact unroutable_number number
  case case7 => cases returned
  all_goals
    cases returned
    exact ⟨rfl, rfl⟩

theorem setFree_unary (returned : unary rt op operand = .ok value) : value.setFree = true := by
  revert returned
  fun_cases unary rt op operand <;> intro returned
  case case2 =>
    obtain ⟨number, -, rfl⟩ := map_eq_ok.mp returned
    exact setFree_number number
  case case7 => cases returned
  all_goals
    cases returned
    rfl

/-! ## Subscripts -/

theorem mem_of_item {index : Int} (returned : item items index = .ok value) : value ∈ items := by
  unfold item at returned
  split at returned
  · rename_i found
    cases returned
    obtain ⟨at_, -, got⟩ := Option.bind_eq_some_iff.mp found
    exact mem_of_getElem? got
  · cases returned

theorem mem_of_searchEntries {eq : Val F S → Val F S → Except Exc Bool}
    (found : searchEntries rt eq key entries = .ok (some value)) :
    ∃ entry ∈ entries, entry.2 = value := by
  induction entries with
  | nil => cases found
  | cons entry entries ih =>
    obtain ⟨name, stored⟩ := entry
    rw [searchEntries] at found
    obtain ⟨same, -, rest⟩ := bind_eq_ok.mp found
    split at rest
    · cases rest
      exact ⟨_, mem_cons_self, rfl⟩
    · obtain ⟨other, mem, got⟩ := ih rest
      exact ⟨other, mem_cons_of_mem _ mem, got⟩

theorem setFree_entry (free : setFreeEntries entries = true)
    (returned : entry rt entries key = .ok value) : value.setFree = true := by
  unfold entry at returned
  split at returned
  · obtain ⟨found, searched, rest⟩ := bind_eq_ok.mp returned
    split at rest
    · cases rest
      obtain ⟨entry, mem, rfl⟩ := mem_of_searchEntries searched
      exact (setFreeEntries_iff.mp free entry mem).2
    · cases rest
  · cases returned

theorem setFree_getItem {item : Val F S} (free : value.setFree = true)
    (returned : getItem rt value key = .ok item) : item.setFree = true := by
  revert returned
  fun_cases getItem rt value key <;> intro returned
  case case1 | case3 => exact setFreeAll_iff.mp free item (mem_of_item returned)
  case case5 =>
    obtain ⟨c, -, rfl⟩ := mem_map.mp (mem_of_item returned)
    rfl
  case case7 | case8 => exact setFree_entry free returned
  case case9 contract data =>
    revert returned
    fun_cases readRow rt contract data key <;> intro returned
    case case1 found =>
      cases returned
      obtain ⟨name, mem⟩ := Contracts.mem_of_readField found
      exact setFreeData_iff.mp free _ mem
    all_goals cases returned
  all_goals cases returned

end Val

namespace Evaluator

variable {scope : Scope} {context : Val F S}

/-! ## Calls -/

variable (rt scope context) in
/-- No value of an allowed name can be called, as no scalar, list, tuple or mapping can: the
context hides a builtin only by a value that fails when it is called. -/
def Inert : Prop :=
  ∀ id ∈ scope.names, ∀ value, scope.value rt context id = .ok value →
    ∀ args result, call rt value args ≠ .ok result

variable {allowed : Bool} {result : Val F S → Prop} {value : Literal F} {node : Expr F}

/-- The result of an accepted call, in a context of data. -/
theorem returns_call (inert : Inert rt scope context) {func : Expr F} {args : List (Expr F)}
    {keywords : List (Option String × Expr F)}
    (accepted : findings scope.names rt.isFinite allowed (.call func args keywords) = [])
    (builtins : ∀ function values value, builtinCallee func = some function →
      callBuiltin rt function values = .ok value → result value)
    (gets : ∀ id ∈ scope.names, func = .attributeOf (.name id) "get" →
      ∀ receiver key value, scope.value rt context id = .ok receiver →
        getOr (getItem rt receiver key) = .ok value → result value) :
    (visit rt scope context (.call func args keywords)).Meets (fun _ => True) result
      fun _ => True := by
  refine meets_call accepted (fun _ _ => trivial)
    (meets_func (acceptedCall accepted).1 (fun _ _ => trivial) (fun _ _ _ _ => trivial)
      (fun _ _ _ _ => trivial) fun _ _ _ _ _ => trivial) (fun _ _ => .top _)
    fun callee values called length => ?_
  refine meets_apply trivial ?_
  intro value returned
  cases called with
  | builtin found => exact builtins _ values value found returned
  | hidden found mem got => exact absurd returned (inert _ mem _ got values value)
  | @get id receiver mem got =>
    obtain ⟨key, rfl⟩ : ∃ key, values = [key] := by
      rcases values with _ | ⟨key, _ | ⟨next, rest⟩⟩
      · cases returned
      · exact ⟨key, rfl⟩
      · cases returned
    exact gets id mem rfl receiver key value got returned

/-! ## Bools -/

theorem returns_bool (inert : Inert rt scope context) (node : Expr F)
    (accepted : findings scope.names rt.isFinite allowed node = [])
    (boolean : isBooleanNode node = true) :
    (visit rt scope context node).Meets (fun _ => True) (fun value => value.isBool = true)
      fun _ => True := by
  induction node generalizing allowed with | step node ih => ?_
  cases node with
  | constant value =>
    cases value <;> simp only [isBooleanNode, Bool.false_eq_true] at boolean
    rw [visit]
    exact .emit_bind trivial (meets_ensureFiniteFloat rfl)
  | call =>
    refine returns_call inert accepted ?_ ?_
    · intro function values value named returned
      simp only [isBooleanNode, named] at boolean
      rcases callBuiltin_returns returned with ⟨-, _, rfl⟩ | ⟨numeric, -⟩ | ⟨other, -⟩
      · rfl
      · cases function <;> cases boolean <;> cases numeric
      · rw [boolean] at other
        cases other
    · rintro id mem rfl
      cases boolean
  | compare left comparisons =>
    rw [visit]
    refine .emit_bind trivial (.bind (.top _) fun value _ => ?_)
    refine (meets_visitChain (fun _ _ => .top _)
      (chain_of_forall (fun _ _ _ _ _ => .top _) left comparisons)).weaken ?_
    rintro _ ⟨holds, rfl⟩
    rfl
  | boolOp op first rest =>
    simp only [findings, append_eq_nil_iff] at accepted
    simp only [isBooleanNode, Bool.and_eq_true] at boolean
    have operands := findingsAll_eq_nil.mp accepted.2
    have booleans := areBooleanNodes_iff.mp boolean.2
    rw [visit]
    exact .emit_bind trivial (.bind (ih first (.head _) accepted.1 boolean.1) fun value holds =>
      meets_visitOperands holds fun node mem =>
        ih node (.tail _ mem) (operands node mem) (booleans node mem))
  | unaryOp op operand =>
    obtain rfl : op = .not := of_decide_eq_true boolean
    rw [visit]
    refine .emit_bind trivial (.bind (.top _) fun value _ => ?_)
    refine meets_operateUnary (by decide) ?_
    rintro result ⟨⟩
    rfl
  | ifExp test body orelse =>
    simp only [findings, append_eq_nil_iff] at accepted
    simp only [isBooleanNode, Bool.and_eq_true] at boolean
    rw [visit]
    refine .emit_bind trivial (.bind (.top _) fun chosen _ => ?_)
    split
    · exact ih body (.tail _ (.head _)) accepted.2.1 boolean.1
    · exact ih orelse (.tail _ (.tail _ (.head _))) accepted.2.2 boolean.2
  | _ => cases boolean

/-! ## Values that are no route label -/

/-- A number literal evaluates to itself. -/
theorem returns_constant (holds : result (literal rt value)) :
    (visit rt scope context (.constant value)).Meets (fun _ => True) result fun _ => True := by
  rw [visit]
  exact .emit_bind trivial (meets_ensureFiniteFloat holds)

theorem unroutable_literal (numeric : isNumericConstant (.constant value : Expr F) = true) :
    (literal rt value : Val F S).Unroutable := by
  cases value <;> first | exact ⟨rfl, rfl⟩ | cases numeric

theorem returns_numericConstant (numeric : isNumericConstant node = true) :
    (visit rt scope context node).Meets (fun _ => True) Val.Unroutable fun _ => True := by
  cases node <;> first | cases numeric | skip
  exact returns_constant (unroutable_literal numeric)

theorem returns_unroutable (inert : Inert rt scope context)
    (accepted : findings scope.names rt.isFinite allowed node = [])
    (numeric : isNonRoutableNode node = true) :
    (visit rt scope context node).Meets (fun _ => True) Val.Unroutable fun _ => True := by
  cases node with
  | constant => exact returns_numericConstant numeric
  | call =>
    refine returns_call inert accepted ?_ ?_
    · intro function values value named returned
      simp only [isNonRoutableNode, named] at numeric
      rcases callBuiltin_returns returned with ⟨boolean, -⟩ | ⟨-, number, rfl⟩ | ⟨-, other, -⟩
      · cases function <;> cases boolean <;> cases numeric
      · exact unroutable_number number
      · rw [numeric] at other
        cases other
    · rintro id mem rfl
      cases numeric
  | unaryOp op operand =>
    simp only [findings, append_eq_nil_iff] at accepted
    have sign : op ≠ .not := by
      rintro rfl
      cases numeric
    rw [visit]
    refine .emit_bind trivial (.bind (.top _) fun value _ => ?_)
    refine meets_operateUnary ?_ fun result => unroutable_unary sign
    by_contra other
    simp [other] at accepted
  | binOp left op right =>
    simp only [findings, append_eq_nil_iff] at accepted
    have allowedOp : op ∈ binaryOps := by
      by_contra other
      simp [other] at accepted
    have trivially : ∀ {node : Expr F}, (visit rt scope context node).Meets (fun _ => True)
        (fun value => isNumericConstant node = true → value.isStr = false) fun _ => True := by
      intro node
      by_cases constant : isNumericConstant node = true
      · exact (returns_numericConstant constant).weaken fun _ holds _ => holds.2
      · exact (Traced.Meets.top _).weaken fun _ _ holds => absurd holds constant
    rw [visit]
    refine .emit_bind trivial (.bind trivially fun leftValue leftHolds =>
      .bind trivially fun rightValue rightHolds => ?_)
    refine meets_operate allowedOp trivial ?_
    intro result returned
    refine unroutable_binary ?_ returned
    cases op <;> simp only [isNonRoutableNode, Bool.false_eq_true, Bool.or_eq_true] at numeric
    · exact .inr (.inr (.inr ⟨rfl, numeric.imp leftHolds rightHolds⟩))
    · exact .inl rfl
    · exact .inr (.inl rfl)
    · exact .inr (.inr (.inl rfl))
  | _ => cases numeric

/-! ## Sets -/

theorem returns_setFree (inert : Inert rt scope context)
    (rows : ∀ id ∈ scope.names, ∀ value, scope.value rt context id = .ok value →
      value.setFree = true) (node : Expr F)
    (accepted : findings scope.names rt.isFinite allowed node = [])
    (free : setReachesValue node = false) :
    (visit rt scope context node).Meets (fun _ => True) (fun value => value.setFree = true)
      fun _ => True := by
  induction node generalizing allowed with | step node ih => ?_
  cases node with
  | name id =>
    rw [visit]
    exact .emit_bind trivial (meets_acceptedName accepted ⟨rfl, rfl, rfl⟩ (rows id)
      fun _ _ _ => trivial)
  | constant value =>
    refine returns_constant ?_
    cases value <;> rfl
  | subscript value slice =>
    simp only [findings, append_eq_nil_iff] at accepted
    simp only [setReachesValue, Bool.or_eq_false_iff] at free
    rw [visit]
    refine .emit_bind trivial (.bind (ih value (.head _) accepted.2.1 free.1) fun container holds =>
      .bind (.top _) fun key _ => ?_)
    exact meets_subscript fun item => setFree_getItem holds
  | attributeOf => exact absurd accepted findings_attributeOf_ne_nil
  | call =>
    refine returns_call inert accepted (fun _ _ _ _ => setFree_callBuiltin) ?_
    intro id mem _ receiver key value got returned
    unfold getOr at returned
    split at returned
    · cases returned
      rfl
    · exact setFree_getItem (rows id mem receiver got) returned
  | compare left comparisons =>
    refine (returns_bool inert (.compare left comparisons) accepted rfl).weaken ?_
    intro value holds
    cases value <;> first | rfl | cases holds
  | boolOp op first rest =>
    simp only [findings, append_eq_nil_iff] at accepted
    simp only [setReachesValue, Bool.or_eq_false_iff] at free
    have operands := findingsAll_eq_nil.mp accepted.2
    have frees := setReachesAny_eq_false.mp free.2
    rw [visit]
    exact .emit_bind trivial (.bind (ih first (.head _) accepted.1 free.1) fun value holds =>
      meets_visitOperands holds fun node mem =>
        ih node (.tail _ mem) (operands node mem) (frees node mem))
  | binOp left op right =>
    simp only [findings, append_eq_nil_iff] at accepted
    simp only [setReachesValue, Bool.or_eq_false_iff] at free
    obtain ⟨operator, first, second⟩ := accepted
    rw [visit]
    refine .emit_bind trivial (.bind (ih left (.head _) first free.1) fun leftValue leftHolds =>
      .bind (ih right (.tail _ (.head _)) second free.2) fun rightValue rightHolds => ?_)
    refine meets_operate ?_ trivial fun _ => setFree_binary leftHolds rightHolds
    by_contra other
    simp [other] at operator
  | unaryOp =>
    simp only [findings, append_eq_nil_iff] at accepted
    rw [visit]
    refine .emit_bind trivial (.bind (.top _) fun value _ => ?_)
    refine meets_operateUnary ?_ fun _ => setFree_unary
    by_contra other
    simp [other] at accepted
  | list elts | tuple elts =>
    have each := findingsAll_eq_nil.mp accepted
    have frees := setReachesAny_eq_false.mp free
    rw [visit]
    exact .emit_bind trivial (.bind (meets_visitAll fun elt mem =>
      ih elt mem (each elt mem) (frees elt mem)) fun values holds =>
        .pure (setFreeAll_iff.mpr holds.2))
  | set => cases free
  | dict items =>
    simp only [findings, append_eq_nil_iff] at accepted
    obtain ⟨spread, keys, values⟩ := accepted
    have frees := setReachesItems_eq_false.mp free
    rw [findingsKeys_eq_nil] at keys
    rw [findingsValues_eq_nil] at values
    have entries : (visitItems rt scope context (.dict items) [] items).Meets (fun _ => True) _
        (fun _ => True) :=
      meets_visitItems (fun _ mem => absurd mem not_mem_nil)
        (fun item mem key named =>
          ih key (Expr.mem_children_key mem named) (keys item mem key named)
            ((frees item mem).1 key named))
        (fun item mem => ih item.2 (Expr.mem_children_value mem) (values item mem)
          (frees item mem).2)
        fun _ _ _ _ _ => trivial
    rw [visit]
    refine .emit_bind trivial ?_
    split
    · exact .raise trivial
    · refine .rescue (entries.weaken ?_) fun fault _ =>
        meets_unhashable (fun _ _ => trivial) fun _ => trivial
      rintro _ ⟨entries, rfl, holds⟩
      exact setFreeEntries_iff.mpr holds
  | ifExp test body orelse =>
    simp only [findings, append_eq_nil_iff] at accepted
    simp only [setReachesValue, Bool.or_eq_false_iff] at free
    rw [visit]
    refine .emit_bind trivial (.bind (.top _) fun chosen _ => ?_)
    split
    · exact ih body (.tail _ (.head _)) accepted.2.1 free.1
    · exact ih orelse (.tail _ (.tail _ (.head _))) accepted.2.2 free.2
  | forbidden | unsupported => simp [findings] at accepted

/-! ## Repeated and formatted strings -/

/-- No string is an operand of `*` or `%`. -/
def Unamplified : Event F S → Prop
  | .operated op left right =>
    op = .mult ∨ op = .mod → left.isStr = false ∧ right.isStr = false
  | .evaluated _ | .called _ _ | .readAttribute _ _ | .compared _ _ _ => True

/-- A `*` or `%` has operands of which neither can be a string. -/
theorem unamplifiedArms :
    Arms rt scope context Unamplified (fun _ => True)
      (fun node value => isNonRoutableNode node = true → value.isStr = false)
      (fun node => amplifies node = false) where
  evaluated _ _ := trivial
  missing _ _ _ _ := trivial
  getless _ _ _ _ _ := trivial
  infinite _ := meets_ensureFiniteFloat
  subscript _ _ _ _ _ := meets_subscript
  call _ _ _ _ _ _ _ _ := meets_apply trivial
  link _ _ _ _ _ _ := meets_link trivial
  operate left op right leftValue rightValue listed safe leftKnown rightKnown := by
    refine meets_operate listed fun repeats => ?_
    have numeric : isNonRoutableNode left = true ∧ isNonRoutableNode right = true := by
      simpa [amplifies, repeats] using safe
    exact ⟨leftKnown numeric.1, rightKnown numeric.2⟩
  unary _ _ _ listed := meets_operateUnary listed
  inserted _ _ _ _ _ _ := trivial
  assigned _ _ _ _ _ _ _ := trivial
  setLiteral _ := trivial
  dictLiteral _ := trivial

theorem emits_unamplified (inert : Inert rt scope context) (node : Expr F)
    (accepted : findings scope.names rt.isFinite allowed node = [])
    (safe : ∀ found ∈ node.walk, amplifies found = false) :
    (visit rt scope context node).Meets Unamplified (fun _ => True) fun _ => True := by
  refine meets_visit unamplifiedArms (fun node allowed accepted => ?_) node accepted safe
  by_cases numeric : isNonRoutableNode node = true
  · exact (returns_unroutable inert accepted numeric).weaken fun _ holds _ => holds.2
  · exact (Traced.Meets.top _).weaken fun _ _ holds => absurd holds numeric

end Evaluator

/-! ## The analyses against the evaluation -/

/-- What one evaluation shows of the four analyses. -/
structure KindsSound (rt : Runtime F S) (parser : ExpressionParser rt.isFinite)
    (context : Val F S) : Prop where
  boolean : parser.isBooleanExpression = true →
    ∀ value, (parser.evaluate rt context).outcome = .ok value → value.isBool = true
  nonRoutable : parser.isProvablyNonRoutable = true →
    ∀ value, (parser.evaluate rt context).outcome = .ok value → value.Unroutable
  setFree : parser.resultCanBeSet = false →
    ∀ value, (parser.evaluate rt context).outcome = .ok value → value.setFree = true
  unamplified : parser.hasStringAmplificationRisk = false →
    ∀ event ∈ (parser.evaluate rt context).events, Evaluator.Unamplified event

variable {context : Val F S}

theorem meets_evaluate {rt : Runtime F S} {parser : ExpressionParser rt.isFinite}
    {event : Event F S → Prop} {result : Val F S → Prop}
    (inner : (visit rt parser.scope context parser.body).Meets event result
      fun _ => True) : (parser.evaluate rt context).Meets event result fun _ => True := by
  refine .rescue inner fun fault _ => ?_
  unfold handleUnexpected
  split
  · split
    · exact .raise trivial
    · exact .raise trivial
  · exact .raise trivial

theorem setFree_value {scope : Scope} (free : context.setFree = true) {id : String}
    {value : Val F S} (got : scope.value rt context id = .ok value) : value.setFree = true := by
  cases scope with
  | row =>
    cases got
    exact free
  | named =>
    exact setFree_getItem free (show getItem rt context (.str id) = .ok value from got)

/-- The static result kinds are sound for every accepted expression and every context of
scalars, lists, tuples and mappings. -/
theorem result_kinds_sound (rt : Runtime F S) (parser : ExpressionParser rt.isFinite)
    (context : Val F S) (free : context.setFree = true)
    (inert : Evaluator.Inert rt parser.scope context) : KindsSound rt parser context where
  boolean kind := (meets_evaluate
    (returns_bool inert parser.body parser.findings_eq_nil kind)).result
  nonRoutable kind := (meets_evaluate
    (returns_unroutable inert parser.findings_eq_nil kind)).result
  setFree kind := (meets_evaluate
    (returns_setFree inert (fun _ _ _ => setFree_value free) parser.body
      parser.findings_eq_nil kind)).result
  unamplified kind := (meets_evaluate
    (emits_unamplified inert parser.body parser.findings_eq_nil
      (any_eq_false.mp kind · · |> Bool.eq_false_of_not_eq_true))).events

/-- `row['n'] - 2 > 1` -/
def countedRow : ExpressionParser wholeRuntime.isFinite where
  expression := "row['n'] - 2 > 1"
  body := .compare (.binOp (.subscript (.name "row") (.constant (.str "n"))) .sub
    (.constant (.int 2))) [(.gt, .constant (.int 1))]
  scope := .row
  shallow := by decide
  valid := by decide

theorem countedRow_kinds : KindsSound wholeRuntime countedRow (.dict [(.str "n", .int 5)]) := by
  refine result_kinds_sound wholeRuntime countedRow _ (by decide) ?_
  intro id mem value got args result
  cases got
  rintro ⟨⟩

end Elspeth.Expressions
