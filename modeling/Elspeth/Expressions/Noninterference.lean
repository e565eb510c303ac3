import Elspeth.Expressions.Analysis

/-!
# Two evaluations

What an expression's value can depend on.  A set of names is *hidden* when their values may
differ between two contexts; a read of a hidden name is *direct* when the name is the receiver
of a subscript or of `get`, and *bare* otherwise.  An expression without bare reads takes two
contexts to the same result as soon as its direct reads do (`alike_visit`).

The static field reads list the direct reads only.  The validator means to admit a name as a
receiver only, but the counter it raises for a subscript's receiver stays raised while the keys
and arguments inside the receiver are visited, so `row['a'][len(row)]['x']` is accepted: its
reads are complete, and its value depends on how many fields the row has.
-/

namespace Elspeth.Expressions

open Semantics Elspeth.Expressions.Expr List

variable {F S : Type} {rt : Runtime F S}

/-! ## Bare reads -/

section Reads

variable (hidden : String → Bool)

/-- A hidden name. -/
def isHidden : Expr F → Bool
  | .name id => hidden id
  | _ => false

/-- The `get` of a hidden name. -/
def isHiddenGet : Expr F → Bool
  | .attributeOf value attr => attr = "get" && isHidden hidden value
  | _ => false

/-- A direct read of a hidden name. -/
def isDirect : Expr F → Bool
  | .subscript value _ => isHidden hidden value
  | .call func _ _ => isHiddenGet hidden func
  | _ => false

mutual

/-- Whether a hidden name occurs other than as the receiver of a direct read.  A call's
keywords are not evaluated. -/
def bareReads : Expr F → Bool
  | .name id => hidden id
  | .subscript value slice => (!isHidden hidden value && bareReads value) || bareReads slice
  | .attributeOf value _ => bareReads value
  | .call func args _ => (!isHiddenGet hidden func && bareReads func) || bareReadsAny args
  | .compare left comparisons => bareReads left || bareReadsComparators comparisons
  | .boolOp _ first rest => bareReads first || bareReadsAny rest
  | .binOp left _ right => bareReads left || bareReads right
  | .unaryOp _ operand => bareReads operand
  | .list elts | .tuple elts | .set elts => bareReadsAny elts
  | .dict items => bareReadsItems items
  | .ifExp test body orelse => bareReads test || (bareReads body || bareReads orelse)
  | .constant _ | .forbidden _ _ | .unsupported _ _ => false

def bareReadsAny : List (Expr F) → Bool
  | [] => false
  | node :: nodes => bareReads node || bareReadsAny nodes

def bareReadsComparators : List (CmpOp × Expr F) → Bool
  | [] => false
  | (_, comparator) :: rest => bareReads comparator || bareReadsComparators rest

def bareReadsItems : List (Option (Expr F) × Expr F) → Bool
  | [] => false
  | (none, value) :: items => bareReads value || bareReadsItems items
  | (some key, value) :: items => bareReads key || (bareReads value || bareReadsItems items)

end

variable {hidden}

theorem isDirect_none (node : Expr F) : isDirect (fun _ => false) node = false := by
  have name : ∀ node : Expr F, isHidden (fun _ => false) node = false := by
    intro node
    cases node <;> rfl
  cases node with
  | subscript value slice => exact name value
  | call func args keywords =>
    cases func with
    | attributeOf => simp [isDirect, isHiddenGet, name]
    | _ => rfl
  | _ => rfl

theorem directRead_of_isDirect {name : String} {node : Expr F}
    (direct : isDirect (fun id => id = name) node = true) :
    ∃ key, directRead name node = some key := by
  revert direct
  fun_cases isDirect (fun id => decide (id = name)) node <;> intro direct
  case case1 value slice =>
    cases value <;> first | cases direct | skip
    exact ⟨_, if_pos (of_decide_eq_true direct)⟩
  case case2 func args keywords =>
    cases func <;> first | cases direct | skip
    case attributeOf value attr =>
    obtain ⟨get, hiddenName⟩ := Bool.and_eq_true_iff.mp direct
    cases value <;> first | cases hiddenName | skip
    simp only [directRead, if_pos (And.intro (of_decide_eq_true get)
      (of_decide_eq_true hiddenName))]
    split
    · exact ⟨_, rfl⟩
    · exact ⟨_, rfl⟩
  case case3 => cases direct

theorem bareReadsAny_eq_false {nodes : List (Expr F)} :
    bareReadsAny hidden nodes = false ↔ ∀ node ∈ nodes, bareReads hidden node = false := by
  induction nodes with
  | nil => simp [bareReadsAny]
  | cons node nodes ih => simp [bareReadsAny, ih]

theorem bareReadsComparators_eq_false {comparisons : List (CmpOp × Expr F)} :
    bareReadsComparators hidden comparisons = false ↔
      ∀ comparison ∈ comparisons, bareReads hidden comparison.2 = false := by
  induction comparisons with
  | nil => simp [bareReadsComparators]
  | cons comparison rest ih =>
    obtain ⟨op, comparator⟩ := comparison
    simp [bareReadsComparators, ih]

theorem bareReadsItems_eq_false {items : List (Option (Expr F) × Expr F)} :
    bareReadsItems hidden items = false ↔
      ∀ item ∈ items, (∀ key, item.1 = some key → bareReads hidden key = false) ∧
        bareReads hidden item.2 = false := by
  induction items with
  | nil => simp [bareReadsItems]
  | cons item items ih =>
    obtain ⟨_ | key, value⟩ := item
    · simp [bareReadsItems, ih]
    · simp [bareReadsItems, ih, and_assoc]

end Reads

/-! ## Two evaluations of one tree -/

namespace Evaluator

/-- A relation on errors that two equal runs meet and that the handler around a literal
keeps. -/
structure Handled (error : Raised F S → Raised F S → Prop) : Prop where
  refl : ∀ fault, error fault fault
  unhashable : ∀ (node : Expr F) message fault fault', error fault fault' →
    Traced.Alike error (unhashable node message fault : Eval F S (Val F S))
      (unhashable node message fault')

section TwoRuns

variable {scope : Scope} {first second : Val F S} {error : Raised F S → Raised F S → Prop}

theorem visitName_congr {id : String}
    (same : id ∈ scope.names → scope.value rt first id = scope.value rt second id) :
    visitName rt scope first id = visitName rt scope second id := by
  unfold visitName
  split
  · rename_i mem
    have same := same mem
    cases scope with
    | row =>
      cases same
      rfl
    | named =>
      have same : Val.getItem rt first (.str id) = Val.getItem rt second (.str id) := same
      simp only [same]
  · rfl

section

variable (handled : Handled error)
include handled

theorem alike_visitAll {nodes : List (Expr F)} (each : ∀ node ∈ nodes,
      (visit rt scope first node).Alike error (visit rt scope second node)) :
    (visitAll rt scope first nodes).Alike error (visitAll rt scope second nodes) := by
  induction nodes with
  | nil =>
    rw [visitAll, visitAll]
    exact .refl handled.refl _
  | cons node nodes ih =>
    obtain ⟨head, tail⟩ := forall_mem_cons.mp each
    rw [visitAll, visitAll]
    exact .bind head fun _ => .bind (ih tail) fun _ => .refl handled.refl _

variable {value : Val F S} {node : Expr F}

theorem alike_visitChain {left : Expr F} {comparisons : List (CmpOp × Expr F)}
    (each : ∀ comparison ∈ comparisons,
      (visit rt scope first comparison.2).Alike error (visit rt scope second comparison.2)) :
    (visitChain rt scope first left value comparisons).Alike error
      (visitChain rt scope second left value comparisons) := by
  induction comparisons generalizing left value with
  | nil =>
    rw [visitChain, visitChain]
    exact .refl handled.refl _
  | cons comparison rest ih =>
    obtain ⟨op, right⟩ := comparison
    obtain ⟨head, tail⟩ := forall_mem_cons.mp each
    rw [visitChain, visitChain]
    refine .bind head fun rightValue => .bind (.refl handled.refl _) fun holds => ?_
    split
    · exact ih tail
    · exact .refl handled.refl _

theorem alike_visitOperands {op : BoolOperator} {rest : List (Expr F)} (each : ∀ node ∈ rest,
      (visit rt scope first node).Alike error (visit rt scope second node)) :
    (visitOperands rt scope first op value rest).Alike error
      (visitOperands rt scope second op value rest) := by
  induction rest generalizing value with
  | nil =>
    rw [visitOperands, visitOperands]
    exact .refl handled.refl _
  | cons next rest ih =>
    obtain ⟨head, tail⟩ := forall_mem_cons.mp each
    rw [visitOperands, visitOperands]
    split
    · exact .refl handled.refl _
    · exact .bind head fun _ => ih tail

theorem alike_visitSet {items : List (Val F S)} {elts : List (Expr F)}
    (each : ∀ elt ∈ elts, (visit rt scope first elt).Alike error (visit rt scope second elt)) :
    (visitSet rt scope first node items elts).Alike error
      (visitSet rt scope second node items elts) := by
  induction elts generalizing items with
  | nil =>
    rw [visitSet, visitSet]
    exact .refl handled.refl _
  | cons elt elts ih =>
    obtain ⟨head, tail⟩ := forall_mem_cons.mp each
    rw [visitSet, visitSet]
    exact .bind head fun _ => .bind (.refl handled.refl _) fun _ => ih tail

theorem alike_visitItems {entries : List (Val F S × Val F S)}
    {items : List (Option (Expr F) × Expr F)} (keys : ∀ item ∈ items, ∀ key, item.1 = some key →
      (visit rt scope first key).Alike error (visit rt scope second key))
    (values : ∀ item ∈ items,
      (visit rt scope first item.2).Alike error (visit rt scope second item.2)) :
    (visitItems rt scope first node entries items).Alike error
      (visitItems rt scope second node entries items) := by
  induction items generalizing entries with
  | nil =>
    rw [visitItems, visitItems]
    exact .refl handled.refl _
  | cons item items ih =>
    obtain ⟨keyHead, keyTail⟩ := forall_mem_cons.mp keys
    obtain ⟨valueHead, valueTail⟩ := forall_mem_cons.mp values
    obtain ⟨_ | key, value⟩ := item
    · rw [visitItems, visitItems]
      exact ih keyTail valueTail
    · rw [visitItems, visitItems]
      exact .bind (keyHead key rfl) fun _ => .bind valueHead fun _ =>
        .bind (.refl handled.refl _) fun _ => ih keyTail valueTail

/-- A tree without bare reads: two contexts that agree on every name that is not hidden, and
on which its direct reads are alike. -/
theorem alike_visit {hidden : String → Bool} (others : ∀ id ∈ scope.names, hidden id = false →
      scope.value rt first id = scope.value rt second id) (node : Expr F)
    (bare : bareReads hidden node = false)
    (direct : ∀ found ∈ node.walk, isDirect hidden found = true →
      (visit rt scope first found).Alike error (visit rt scope second found)) :
    (visit rt scope first node).Alike error (visit rt scope second node) := by
  induction node with | step node ih => ?_
  have each : ∀ child ∈ node.children, bareReads hidden child = false →
      (visit rt scope first child).Alike error (visit rt scope second child) :=
    fun child mem bare => ih child mem bare fun found inside =>
      direct found (mem_walk_of_child mem inside)
  cases node with
  | name id =>
    rw [visit, visit, visitName_congr fun mem => others id mem bare]
    exact .refl handled.refl _
  | constant | forbidden | unsupported =>
    rw [visit, visit]
    exact .refl handled.refl _
  | subscript value slice =>
    by_cases read : isHidden hidden value = true
    · exact direct _ (mem_walk_self _) read
    · simp only [bareReads, Bool.or_eq_false_iff, read, Bool.not_false, Bool.true_and] at bare
      rw [visit, visit]
      exact .bind (.refl handled.refl _) fun _ => .bind (each value (.head _) bare.1) fun _ =>
        .bind (each slice (.tail _ (.head _)) bare.2) fun _ => .refl handled.refl _
  | attributeOf value | unaryOp op value =>
    rw [visit, visit]
    exact .bind (.refl handled.refl _) fun _ => .bind (each value (.head _) bare) fun _ =>
      .refl handled.refl _
  | call func args keywords =>
    by_cases read : isHiddenGet hidden func = true
    · exact direct _ (mem_walk_self _) read
    · simp only [bareReads, Bool.or_eq_false_iff, read, Bool.not_false, Bool.true_and] at bare
      have arguments := bareReadsAny_eq_false.mp bare.2
      rw [visit, visit]
      refine .bind (.refl handled.refl _) fun _ => ?_
      split
      · exact .refl handled.refl _
      · exact .bind (each func (.head _) bare.1) fun _ => .bind (alike_visitAll handled
          fun arg mem => each arg (.tail _ (mem_append_left _ mem)) (arguments arg mem))
            fun _ => .refl handled.refl _
  | compare left comparisons =>
    simp only [bareReads, Bool.or_eq_false_iff] at bare
    have comparators := bareReadsComparators_eq_false.mp bare.2
    rw [visit, visit]
    exact .bind (.refl handled.refl _) fun _ => .bind (each left (.head _) bare.1) fun _ =>
      alike_visitChain handled fun comparison mem =>
        each comparison.2 (.tail _ (mem_map_of_mem mem)) (comparators comparison mem)
  | boolOp op left rest =>
    simp only [bareReads, Bool.or_eq_false_iff] at bare
    have operands := bareReadsAny_eq_false.mp bare.2
    rw [visit, visit]
    exact .bind (.refl handled.refl _) fun _ => .bind (each left (.head _) bare.1) fun _ =>
      alike_visitOperands handled fun node mem => each node (.tail _ mem) (operands node mem)
  | binOp left op right =>
    simp only [bareReads, Bool.or_eq_false_iff] at bare
    rw [visit, visit]
    exact .bind (.refl handled.refl _) fun _ => .bind (each left (.head _) bare.1) fun _ =>
      .bind (each right (.tail _ (.head _)) bare.2) fun _ => .refl handled.refl _
  | list elts | tuple elts =>
    have bares := bareReadsAny_eq_false.mp bare
    rw [visit, visit]
    exact .bind (.refl handled.refl _) fun _ => .bind (alike_visitAll handled fun elt mem =>
      each elt mem (bares elt mem)) fun _ => .refl handled.refl _
  | set elts =>
    have bares := bareReadsAny_eq_false.mp bare
    rw [visit, visit]
    exact .bind (.refl handled.refl _) fun _ => .rescue (alike_visitSet handled fun elt mem =>
      each elt mem (bares elt mem)) (handled.unhashable _ _)
  | dict items =>
    have bares := bareReadsItems_eq_false.mp bare
    rw [visit, visit]
    refine .bind (.refl handled.refl _) fun _ => ?_
    split
    · exact .refl handled.refl _
    · exact .rescue (alike_visitItems handled
        (fun item mem key named =>
          each key (mem_children_key mem named) ((bares item mem).1 key named))
        fun item mem => each item.2 (mem_children_value mem) (bares item mem).2)
        (handled.unhashable _ _)
  | ifExp test body orelse =>
    simp only [bareReads, Bool.or_eq_false_iff] at bare
    rw [visit, visit]
    refine .bind (.refl handled.refl _) fun _ => .bind (each test (.head _) bare.1)
      fun chosen => ?_
    split
    · exact each body (.tail _ (.head _)) bare.2.1
    · exact each orelse (.tail _ (.tail _ (.head _))) bare.2.2

end

end TwoRuns

end Evaluator

/-! ## Reported fields -/

/-- The same kind of error. -/
def Raised.SameKind : Raised F S → Raised F S → Prop
  | .evaluation error, .evaluation error' => error.kind = error'.kind
  | .security message, .security message' => message = message'
  | .python exc _, .python exc' _ => exc = exc'
  | _, _ => False

theorem Raised.SameKind.refl (fault : Raised F S) : fault.SameKind fault := by
  cases fault <;> rfl

theorem Raised.handled_sameKind : Evaluator.Handled (Raised.SameKind (F := F) (S := S)) where
  refl := Raised.SameKind.refl
  unhashable node message fault fault' related := by
    cases fault <;> cases fault' <;> try exact related.elim
    case evaluation => exact .raised _ _ rfl rfl related
    case security => exact .raised _ _ rfl rfl related
    case python exc site exc' site' =>
      obtain rfl : exc = exc' := related
      cases exc <;> exact .raised _ _ rfl rfl rfl

/-- Two contexts that agree on every allowed name but `name`, whose values are rows that agree
on `fields`. -/
structure Agree (rt : Runtime F S) (scope : Scope) (name : String) (fields : List String)
    (first second : Val F S) : Prop where
  others : ∀ id ∈ scope.names, id ≠ name →
    scope.value rt first id = scope.value rt second id
  rows : name ∈ scope.names → ∃ row row', scope.value rt first name = .ok row ∧
    scope.value rt second name = .ok row' ∧ row.hasGet = true ∧ row'.hasGet = true ∧
      ∀ field ∈ fields, Val.getItem rt row (.str field) = Val.getItem rt row' (.str field)

namespace Evaluator

variable {scope : Scope} {first second : Val F S}

variable {context row row' key callee callee' : Val F S} {id name field : String}
  {node slice func : Expr F}

theorem outcome_name {value : Val F S} (mem : id ∈ scope.names)
    (got : scope.value rt context id = .ok value) :
    (visit rt scope context (.name id)).outcome = .ok value := by
  rw [visit, Traced.outcome_emit_bind]
  unfold visitName
  rw [if_pos mem]
  cases scope with
  | row =>
    cases got
    rfl
  | named =>
    have got : Val.getItem rt context (.str id) = .ok value := got
    simp only [got]
    rfl

theorem outcome_get {receiver : Val F S} (mem : id ∈ scope.names)
    (got : scope.value rt context id = .ok receiver) (row : receiver.hasGet = true) :
    (visit rt scope context (.attributeOf (.name id) "get")).outcome =
      .ok (.getMethod receiver) := by
  rw [visit, Traced.outcome_emit_bind, Traced.bind_of_ok (outcome_name mem got),
    if_pos ⟨rfl, by simp [allowedName, mem]⟩, Traced.outcome_emit_bind, if_pos row]
  rfl

theorem alike_subscript {names : List String}
    (same : Val.getItem rt row key = Val.getItem rt row' key) :
    (subscript rt names node slice row key).Alike Raised.SameKind
      (subscript rt names node slice row' key) := by
  unfold subscript
  rw [same]
  split
  · exact .refl Raised.SameKind.refl _
  · split
    · split
      · exact .raised _ _ rfl rfl rfl
      · exact .raised _ _ rfl rfl rfl
    · exact .raised _ _ rfl rfl rfl

theorem alike_apply {args : List (Val F S)}
    (same : Val.call rt callee args = Val.call rt callee' args) :
    (apply rt node func callee args).Alike Raised.SameKind (apply rt node func callee' args) := by
  unfold apply
  refine .bind_of_ok rfl rfl ?_
  rw [same]
  exact .refl Raised.SameKind.refl _

theorem alike_visit_subscript {value : Expr F}
    (here : (visit rt scope first value).outcome = .ok row)
    (there : (visit rt scope second value).outcome = .ok row')
    (keys : (visit rt scope first slice).outcome = .ok key)
    (keys' : (visit rt scope second slice).outcome = .ok key)
    (same : Val.getItem rt row key = Val.getItem rt row' key) :
    (visit rt scope first (.subscript value slice)).Alike Raised.SameKind
      (visit rt scope second (.subscript value slice)) := by
  rw [visit, visit]
  exact .bind (.refl Raised.SameKind.refl _) fun _ => .bind_of_ok here there
    (.bind_of_ok keys keys' (alike_subscript same))

theorem alike_visit_call {args : List (Expr F)} {keywords : List (Option String × Expr F)}
    {values : List (Val F S)} (fits : misfits func args.length = false)
    (here : (visit rt scope first func).outcome = .ok callee)
    (there : (visit rt scope second func).outcome = .ok callee')
    (arguments : (visitAll rt scope first args).outcome = .ok values)
    (arguments' : (visitAll rt scope second args).outcome = .ok values)
    (same : Val.call rt callee values = Val.call rt callee' values) :
    (visit rt scope first (.call func args keywords)).Alike Raised.SameKind
      (visit rt scope second (.call func args keywords)) := by
  rw [visit, visit, fits]
  exact .bind (.refl Raised.SameKind.refl _) fun _ => .bind_of_ok here there
    (.bind_of_ok arguments arguments' (alike_apply same))

/-- The two shapes of a direct read with a spelled-out key. -/
theorem direct_cases (read : directRead name node = some (some field)) :
    node = .subscript (.name name) (.constant (.str field)) ∨
      ∃ keywords, node = .call (.attributeOf (.name name) "get") [.constant (.str field)]
        keywords := by
  have literal : ∀ {key : Expr F}, literalKey key = some field → key = .constant (.str field) := by
    intro key
    fun_cases literalKey key <;> rintro ⟨⟩
    rfl
  revert read
  fun_cases directRead name node <;> intro read
  case case1 slice => exact .inl (by rw [literal (Option.some.inj read)])
  case case3 keywords named arg =>
    obtain ⟨rfl, rfl⟩ := named
    exact .inr ⟨keywords, by rw [literal (Option.some.inj read)]⟩
  all_goals cases read

/-- A spelled-out read of a field the rows agree on. -/
theorem alike_direct {fields : List String} (agree : Agree rt scope name fields first second)
    (reported : field ∈ fields) (read : directRead name node = some (some field)) :
    (visit rt scope first node).Alike Raised.SameKind (visit rt scope second node) := by
  by_cases mem : name ∈ scope.names
  · obtain ⟨row, row', here, there, get, get', same⟩ := agree.rows mem
    rcases direct_cases read with rfl | ⟨keywords, rfl⟩
    · exact alike_visit_subscript (outcome_name mem here) (outcome_name mem there) rfl rfl
        (same field reported)
    · refine alike_visit_call rfl (outcome_get mem here get) (outcome_get mem there get') rfl rfl ?_
      show Val.getOr (Val.getItem rt row (.str field)) = Val.getOr
        (Val.getItem rt row' (.str field))
      rw [same field reported]
  -- A name that is not allowed has no value: nothing is hidden.
  · have bare : bareReads (fun _ => false) node = false := by
      rcases direct_cases read with rfl | ⟨keywords, rfl⟩ <;> rfl
    refine alike_visit Raised.handled_sameKind (fun id allowed _ => agree.others id allowed ?_)
      node bare fun found _ direct => ?_
    · rintro rfl
      exact mem allowed
    · rw [isDirect_none] at direct
      cases direct

end Evaluator

/-- Complete field reads of a name without bare occurrences: contexts that agree on the
reported fields evaluate to the same value or fail with the same kind of error. -/
theorem evaluate_alike_of_complete (rt : Runtime F S) (parser : ExpressionParser rt.isFinite)
    (name : String) (complete : (parser.staticFieldReads name).complete = true)
    (receivers : bareReads (fun id => id = name) parser.body = false) (first second : Val F S)
    (agree : Agree rt parser.scope name (parser.staticFieldReads name).fields first second) :
    (parser.evaluate rt first).Alike Raised.SameKind (parser.evaluate rt second) := by
  have direct : ∀ found ∈ parser.body.walk, isDirect (fun id => id = name) found = true →
      (Evaluator.visit rt parser.scope first found).Alike Raised.SameKind
        (Evaluator.visit rt parser.scope second found) := by
    intro found inside direct
    obtain ⟨_ | field, read⟩ := directRead_of_isDirect direct
    · have spelled := all_eq_true.mp complete found inside
      exact absurd read (of_decide_eq_true spelled)
    · refine Evaluator.alike_direct agree (mem_filterMap.mpr ⟨found, inside, ?_⟩) read
      rw [read]
      rfl
  have bodies := Evaluator.alike_visit Raised.handled_sameKind
    (fun id mem other => agree.others id mem (of_decide_eq_false other)) parser.body receivers
    direct
  refine .rescue bodies fun fault fault' related => ?_
  cases fault <;> cases fault' <;> try exact related.elim
  case evaluation => exact .raised _ _ rfl rfl related
  case security => exact .raised _ _ rfl rfl related
  case python exc site exc' site' =>
    obtain rfl : exc = exc' := related
    cases exc <;> exact .raised _ _ rfl rfl rfl

/-- `row['a'] + row.get('b')` -/
def twoFields : ExpressionParser wholeRuntime.isFinite where
  expression := "row['a'] + row.get('b')"
  body := .binOp (.subscript (.name "row") (.constant (.str "a"))) .add
    (.call (.attributeOf (.name "row") "get") [.constant (.str "b")] [])
  scope := .row
  shallow := by decide
  valid := by decide

theorem twoFields_alike :
    (twoFields.evaluate wholeRuntime (.dict [(.str "a", .int 1), (.str "b", .int 2)])).Alike
      Raised.SameKind (twoFields.evaluate wholeRuntime
        (.dict [(.str "c", .none), (.str "a", .int 1), (.str "b", .int 2)])) := by
  refine evaluate_alike_of_complete wholeRuntime twoFields "row" rfl rfl _ _ ⟨?_, ?_⟩
  · intro id mem other
    exact absurd (mem_singleton.mp mem) other
  · intro _
    refine ⟨_, _, rfl, rfl, rfl, rfl, fun field mem => ?_⟩
    have reported : field ∈ ["a", "b"] := mem
    simp only [mem_cons, not_mem_nil, or_false] at reported
    rcases reported with rfl | rfl <;> rfl

/-- `row['a'][len(row)]['x']` -/
def lengthKey : ExpressionParser wholeRuntime.isFinite where
  expression := "row['a'][len(row)]['x']"
  body := .subscript (.subscript (.subscript (.name "row") (.constant (.str "a")))
    (.call (.name "len") [.name "row"] [])) (.constant (.str "x"))
  scope := .row
  shallow := by decide
  valid := by decide

/-- A row whose field `a` is a list of three records, with further fields. -/
def threeRecords (rest : List (Val Int Unit × Val Int Unit)) : Val Int Unit :=
  .dict ((.str "a", .list [.dict [(.str "x", .int 1)], .dict [(.str "x", .int 2)],
    .dict [(.str "x", .int 3)]]) :: rest)

/-- The reads of `row['a'][len(row)]['x']` are complete with the one field `a`, and a second
field changes the value. -/
theorem lengthKey_interferes :
    (lengthKey.staticFieldReads "row").complete = true ∧
      Agree wholeRuntime lengthKey.scope "row" (lengthKey.staticFieldReads "row").fields
        (threeRecords []) (threeRecords [(.str "b", .none)]) ∧
      ¬ (lengthKey.evaluate wholeRuntime (threeRecords [])).Alike Raised.SameKind
        (lengthKey.evaluate wholeRuntime (threeRecords [(.str "b", .none)])) := by
  refine ⟨rfl, ⟨?_, ?_⟩, ?_⟩
  · intro id mem other
    exact absurd (mem_singleton.mp mem) other
  · intro _
    refine ⟨_, _, rfl, rfl, rfl, rfl, fun field mem => ?_⟩
    obtain rfl : field = "a" := mem_singleton.mp mem
    rfl
  · have two : (lengthKey.evaluate wholeRuntime (threeRecords [])).outcome = .ok (.int 2) := rfl
    have three : (lengthKey.evaluate wholeRuntime (threeRecords [(.str "b", .none)])).outcome =
        .ok (.int 3) := rfl
    rintro (⟨value, here, there⟩ | ⟨fault, fault', here, -, -⟩)
    · cases two.symm.trans here
      cases three.symm.trans there
    · cases two.symm.trans here

end Elspeth.Expressions
