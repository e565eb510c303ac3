import Elspeth.Expressions.Noninterference
import Elspeth.Expressions.Kinds

/-!
# Error messages

What an error of an evaluation says.  A message names the node's operator, the types of its
operands and the length of a container; a key is printed only where the expression spells it
out, and such a key is the same in every context.  An exception that no handler of the node
expects is named by its class.

A message is therefore a function of the failing node, the exception and the shape of the
operands.  The exception is needed: `row['d'][row['k']]` on a dict and a tuple key of one item
fails with a missing key or with an unhashable one.
-/

namespace Elspeth.Expressions

open Semantics Evaluator Elspeth.Expressions.Expr List Fault Cause

variable {F S : Type} {rt : Runtime F S}

/-! ## What an operator can raise -/

/-- Neither a missing key nor a missing attribute. -/
def Exc.Ordinary (exc : Exc) : Prop := exc ≠ .keyError ∧ exc ≠ .attributeError

theorem Fault.ordinary (fault : Fault) : fault.exc.Ordinary := by
  cases fault <;> exact ⟨by rintro ⟨⟩, by rintro ⟨⟩⟩

namespace Val

section Comparison

variable {eq : Val F S → Val F S → Except Exc Bool} {error : Exc → Prop}

section

variable (equality : ∀ left right, Fails error (eq left right))
include equality

theorem fails_same (left right : Val F S) : Fails error (same rt eq left right) := by
  unfold same
  split
  · split
    · exact .ok
    · exact equality _ _
  · split
    · exact .ok
    · exact equality _ _
  · exact equality _ _

theorem fails_sameKey (item key : Val F S) : Fails error (sameKey rt eq item key) := by
  unfold sameKey
  split
  · exact fails_same equality item key
  · exact .ok

theorem fails_sameAll (lefts rights : List (Val F S)) :
    Fails error (sameAll rt eq lefts rights) := by
  induction lefts generalizing rights with
  | nil => cases rights <;> exact .ok
  | cons left lefts ih =>
    cases rights with
    | nil => exact .ok
    | cons right rights =>
      refine .bind (fails_same equality left right) fun holds => ?_
      split
      · exact ih rights
      · exact .ok

theorem fails_search (key : Val F S) (items : List (Val F S)) :
    Fails error (search rt eq key items) := by
  induction items with
  | nil => exact .ok
  | cons item items ih =>
    refine .bind (fails_sameKey equality item key) fun holds => ?_
    split
    · exact .ok
    · exact ih

theorem fails_searchEntries (key : Val F S) (entries : List (Val F S × Val F S)) :
    Fails error (searchEntries rt eq key entries) := by
  induction entries with
  | nil => exact .ok
  | cons entry entries ih =>
    refine .bind (fails_sameKey equality entry.1 key) fun holds => ?_
    split
    · exact .ok
    · exact ih

theorem fails_subset (others items : List (Val F S)) : Fails error (subset rt eq others items) := by
  induction items with
  | nil => exact .ok
  | cons item items ih =>
    refine .bind (fails_search equality item others) fun holds => ?_
    split
    · exact ih
    · exact .ok

theorem fails_sameEntries (others entries : List (Val F S × Val F S)) :
    Fails error (sameEntries rt eq others entries) := by
  induction entries with
  | nil => exact .ok
  | cons entry entries ih =>
    refine .bind (fails_searchEntries equality entry.1 others) fun found => ?_
    split
    · exact .ok
    · refine .bind (fails_same equality _ _) fun holds => ?_
      split
      · exact ih
      · exact .ok

theorem fails_find (key : Val F S) (items : List (Val F S)) :
    Fails error (find rt eq key items) := by
  induction items with
  | nil => exact .ok
  | cons item items ih =>
    refine .bind (fails_same equality item key) fun holds => ?_
    split
    · exact .ok
    · exact ih

theorem fails_firstDifference (lefts rights : List (Val F S)) :
    Fails error (firstDifference rt eq lefts rights) := by
  induction lefts generalizing rights with
  | nil => exact .ok
  | cons left lefts ih =>
    cases rights with
    | nil => exact .ok
    | cons right rights =>
      refine .bind (fails_same equality left right) fun holds => ?_
      split
      · exact ih rights
      · exact .ok

end

end Comparison

theorem ordinary_typeError : Exc.Ordinary .typeError := ⟨by rintro ⟨⟩, by rintro ⟨⟩⟩

theorem ordinary_recursionError : Exc.Ordinary .recursionError := ⟨by rintro ⟨⟩, by rintro ⟨⟩⟩

theorem fails_equal (depth : Nat) (left right : Val F S) :
    Fails Exc.Ordinary (equal rt depth left right) := by
  induction depth generalizing left right with
  | zero => exact .raise ordinary_recursionError
  | succ depth ih =>
    unfold equal
    split <;> try split
    all_goals first
      | exact .ok
      | exact .mapError ordinary
      | exact fails_sameAll ih _ _
      | exact fails_subset ih _ _
      | exact fails_sameEntries ih _ _
      | exact ih _ _

theorem fails_setOrder {eq : Val F S → Val F S → Except Exc Bool} {error : Exc → Prop}
    (equality : ∀ left right, Fails error (eq left right)) (op : CmpOp)
    (lefts rights : List (Val F S)) : Fails error (setOrder rt eq op lefts rights) := by
  fun_cases setOrder rt eq op lefts rights
  all_goals first
    | exact .ok
    | exact fails_subset equality _ _

theorem fails_sequenceOrder {depth : Nat} {op : CmpOp}
    (items : ∀ left right : Val F S, Fails Exc.Ordinary (order rt depth op left right))
    (lefts rights : List (Val F S)) : Fails Exc.Ordinary (do
      match ← firstDifference rt (equal rt depth) lefts rights with
      | some (left, right) => order rt depth op left right
      | Option.none => .ok (natOrder op lefts.length rights.length)) := by
  refine .bind (fails_firstDifference (fails_equal depth) lefts rights) fun found => ?_
  split
  · exact items _ _
  · exact .ok

theorem fails_order (depth : Nat) (op : CmpOp) (left right : Val F S) :
    Fails Exc.Ordinary (order rt depth op left right) := by
  induction depth generalizing left right with
  | zero => exact .raise ordinary_recursionError
  | succ depth ih =>
    unfold order
    split <;> try split
    all_goals first
      | exact .ok
      | exact .mapError ordinary
      | exact .raise ordinary_typeError
      | exact fails_sequenceOrder ih _ _
      | exact fails_setOrder (fails_equal depth) op _ _

theorem fails_contains (item container : Val F S) :
    Fails Exc.Ordinary (contains rt item container) := by
  fun_cases contains rt item container
  all_goals first
    | exact .ok
    | exact .mapError ordinary
    | exact .raise ordinary_typeError
    | exact fails_find (fails_equal _) _ _
    | exact fails_search (fails_equal _) _ _
    | skip
  fun_cases rowContains rt _ _ item
  all_goals first
    | exact .ok
    | exact .raise ordinary_typeError

theorem fails_compare (op : CmpOp) (left right : Val F S) :
    Fails Exc.Ordinary (compare rt op left right) := by
  cases op
  case eq => exact fails_equal _ _ _
  case notEq => exact .map (fails_equal _ _ _)
  case inside => exact fails_contains _ _
  case notInside => exact .map (fails_contains _ _)
  case is => exact .ok
  case isNot => exact .ok
  all_goals exact fails_order _ _ _ _

theorem fails_insert (items : List (Val F S)) (value : Val F S) :
    Fails Exc.Ordinary (insert rt items value) := by
  unfold insert
  split
  · refine .bind (fails_search (fails_equal _) value items) fun found => ?_
    split
    · exact .ok
    · exact .ok
  · exact .raise ordinary_typeError

theorem fails_assign (key value : Val F S) (entries : List (Val F S × Val F S)) :
    Fails Exc.Ordinary (assign rt key value entries) := by
  induction entries with
  | nil => exact .ok
  | cons entry entries ih =>
    refine .bind (fails_sameKey (fails_equal _) entry.1 key) fun found => ?_
    split
    · exact .ok
    · exact .bind ih fun _ => .ok

theorem fails_unary (op : UnaryOperator) (operand : Val F S) :
    Fails Exc.Ordinary (unary rt op operand) := by
  fun_cases unary rt op operand
  all_goals first
    | exact .ok
    | exact .map (.mapError ordinary)
    | exact .raise ordinary_typeError

theorem fails_getItem (value key : Val F S) :
    Fails (· ≠ .attributeError) (getItem rt value key) := by
  have items : ∀ (items : List (Val F S)) index,
      Fails (· ≠ .attributeError) (item items index) := by
    intro items index
    unfold item
    split
    · exact .ok
    · exact .raise (by rintro ⟨⟩)
  have entries : ∀ entries : List (Val F S × Val F S),
      Fails (· ≠ .attributeError) (entry rt entries key) := by
    intro entries
    unfold entry
    split
    · refine .bind ((fails_searchEntries (fails_equal _) key entries).mono
        fun _ => And.right) fun found => ?_
      split
      · exact .ok
      · exact .raise (by rintro ⟨⟩)
    · exact .raise (by rintro ⟨⟩)
  fun_cases getItem rt value key
  case case9 contract data =>
    fun_cases readRow rt contract data key
    all_goals first
      | exact .ok
      | exact .raise (by rintro ⟨⟩)
  all_goals first
    | exact items _ _
    | exact entries _
    | exact .raise (by rintro ⟨⟩)

theorem fails_callBuiltin (function : Builtin) (args : List (Val F S)) :
    Fails Exc.Ordinary (callBuiltin rt function args) := by
  have fraction : ∀ value : Val F S, Fails Exc.Ordinary (numericDecimalFraction rt value) := by
    intro value
    fun_cases numericDecimalFraction rt value
    all_goals first
      | exact .ok
      | exact .raise ⟨by rintro ⟨⟩, by rintro ⟨⟩⟩
  have within : ∀ left right tolerance : Val F S,
      Fails Exc.Ordinary (decimalWithin rt left right tolerance) := by
    intro left right tolerance
    refine .bind (fraction left) fun _ => .bind (fraction right) fun _ =>
      .bind (fraction tolerance) fun _ => ?_
    split
    · exact .raise ⟨by rintro ⟨⟩, by rintro ⟨⟩⟩
    · exact .ok
  fun_cases callBuiltin rt function args
  all_goals first
    | exact .ok
    | exact .map (.mapError ordinary)
    | exact .map (within _ _ _)
    | exact .raise ordinary_typeError

theorem fails_call (callee : Val F S) (args : List (Val F S)) :
    Fails Exc.Ordinary (call rt callee args) := by
  have gets : ∀ receiver key : Val F S, Fails Exc.Ordinary (getOr (getItem rt receiver key)) := by
    intro receiver key exc raised
    unfold getOr at raised
    split at raised
    · cases raised
    · rename_i found
      refine ⟨?_, fails_getItem receiver key exc raised⟩
      rintro rfl
      exact found raised
  fun_cases call rt callee args
  all_goals first
    | exact fails_callBuiltin _ _
    | exact gets _ _
    | exact .mapError ordinary
    | exact .raise ordinary_typeError

theorem fails_arith (op : Operator) (left right : Numeral F) :
    Fails Exc.Ordinary (arith rt op left right) := by
  have ints : ∀ left right, Fails Exc.Ordinary (intArith rt op left right) := by
    intro left right
    fun_cases intArith rt op left right
    all_goals first
      | exact .ok
      | exact .raise ⟨by rintro ⟨⟩, by rintro ⟨⟩⟩
  have converted : ∀ value : Numeral F, Fails Exc.Ordinary (value.float? rt) := by
    intro value
    fun_cases value.float? rt
    all_goals first
      | exact .ok
      | exact .raise ⟨by rintro ⟨⟩, by rintro ⟨⟩⟩
  have floats : ∀ left right, Fails Exc.Ordinary (floatArith rt op left right) := by
    intro left right
    fun_cases floatArith rt op left right
    all_goals first
      | exact .ok
      | exact .raise ⟨by rintro ⟨⟩, by rintro ⟨⟩⟩
  fun_cases arith rt op left right
  · exact ints _ _
  · exact .bind (converted _) fun _ => .bind (converted _) fun _ => floats _ _

theorem fails_sequence (op : Operator) (left right : Val F S) :
    Fails Exc.Ordinary (sequence rt op left right) := by
  have differences : ∀ lefts rights : List (Val F S),
      Fails Exc.Ordinary (difference rt rights lefts) := by
    intro lefts rights
    induction lefts with
    | nil => exact .ok
    | cons left lefts ih =>
      exact .bind (fails_search (fails_equal _) left rights) fun _ => .bind ih fun _ => .ok
  have counts : ∀ length count, Fails Exc.Ordinary (repetitions rt length count) := by
    intro length count
    fun_cases repetitions rt length count
    all_goals first
      | exact .ok
      | exact .raise ⟨by rintro ⟨⟩, by rintro ⟨⟩⟩
  have repeats : ∀ (value : Val F S) count, Fails Exc.Ordinary (repeated rt value count) := by
    intro value count
    fun_cases repeated rt value count
    all_goals first
      | exact .bind (counts _ _) fun _ => .ok
      | exact .raise ordinary_typeError
  fun_cases sequence rt op left right
  all_goals first
    | exact .ok
    | exact .map (differences _ _)
    | exact repeats _ _
    | exact .raise ordinary_typeError

theorem fails_binary (op : Operator) (left right : Val F S) :
    Fails (· ≠ .attributeError) (binary rt op left right) := by
  have formats : ∀ fault : FormatFault, fault.exc ≠ .attributeError := by
    rintro (_ | fault)
    · rintro ⟨⟩
    · exact (ordinary fault).2
  fun_cases binary rt op left right
  · exact .map (.mapError formats)
  · exact .map (.mapError fun fault => (ordinary fault).2)
  · exact .map ((fails_arith op _ _).mono fun _ => And.right)
  · exact (fails_sequence op _ _).mono fun _ => And.right

end Val

/-! ## Messages -/

namespace Evaluator

/-- What a node that is no subscript says of an exception that its handlers expect, from the
types of its operands. -/
def armMessage : Expr F → Exc → List String → Option String
  | .call func _ _, .typeError, types =>
    some ("invalid argument to " ++ funcLabel func ++ "(): cannot apply to (" ++
      ", ".intercalate types ++ ")")
  | .call func _ _, .overflowError, types =>
    some (funcLabel func ++ "() evaluation error: arithmetic overflow on (" ++
      ", ".intercalate types ++ ")")
  | .call func _ _, .valueError, types =>
    some (funcLabel func ++ "() evaluation error: invalid value for (" ++
      ", ".intercalate types ++ ")")
  | .compare _ [(op, _)], .typeError, [left, right] =>
    some ("type error in comparison (" ++ op.name ++ "): cannot compare " ++ left ++ " and " ++
      right)
  | .binOp _ op _, .zeroDivisionError, _ => some ("division by zero in " ++ op.name ++ " operation")
  | .binOp _ op _, .typeError, [left, right] =>
    some ("type error in " ++ op.name ++ ": cannot apply to " ++ left ++ " and " ++ right)
  | .binOp _ op _, .keyError, [_, right] =>
    some ("%-format key not found in " ++ right ++ " (" ++ op.name ++ " operation)")
  | .unaryOp op _, .typeError, [operand] =>
    some ("type error in unary " ++ op.name ++ ": cannot apply to " ++ operand)
  | .set _, .typeError, _ => some "cannot create set literal: an element is unhashable"
  | .dict _, .typeError, _ => some "cannot create dict literal: a key is unhashable"
  | _, _, _ => none

/-- The start of a message about a result that is not finite. -/
def nonFiniteText : Expr F → String
  | .binOp _ op _ => op.name ++ " operation"
  | .unaryOp op _ => "unary " ++ op.name
  | _ => "expression literal"

/-- The exceptions of a lookup that the subscript's handlers expect. -/
def isLookup : Exc → Bool
  | .keyError | .indexError | .typeError => true
  | _ => false

/-- Where a message comes from.  The key a lookup prints is hidden, or the value of the key
in every context. -/
inductive Explained (rt : Runtime F S) (scope : Scope) (expression : String) :
    EvaluationError F S → Prop where
  | nonFinite (node : Expr F) {operands : List (Val F S)} {kind : EvaluationKind} (x : F) :
      Explained rt scope expression
        ⟨nonFiniteText node ++ " produced non-finite float: " ++ rt.category x, kind, .nonFinite,
          ⟨node, operands⟩⟩
  | lookup {value slice : Expr F} {exc : Exc} {container key : Val F S} {text : String}
      {kind : EvaluationKind} (expected : isLookup exc = true)
      (printed : keyText rt scope.names slice key (if exc = .indexError then "" else "'")
        (if exc = .indexError then unspelledIndex else unspelledKey) = some text)
      (spelled : readsAllowedName scope.names slice = false →
        ∀ context, (visit rt scope context slice).outcome = .ok key) :
      Explained rt scope expression ⟨lookupMessage rt container key exc text, kind,
        .exception exc, ⟨.subscript value slice, [container, key]⟩⟩
  | arm {node : Expr F} {exc : Exc} {operands : List (Val F S)} {message : String}
      {kind : EvaluationKind}
      (caught : armMessage node exc (operands.map (Val.typeName rt)) = some message) :
      Explained rt scope expression ⟨message, kind, .exception exc, ⟨node, operands⟩⟩
  | unexpected {node : Expr F} {exc : Exc} {operands : List (Val F S)} {kind : EvaluationKind}
      (uncaught : armMessage node exc (operands.map (Val.typeName rt)) = none)
      (noLookup : ∀ value slice, node = .subscript value slice → isLookup exc = false) :
      Explained rt scope expression
        ⟨"Unexpected error evaluating expression " ++ rt.repr expression ++ ": " ++ exc.name,
          kind, .exception exc, ⟨node, operands⟩⟩

end Evaluator

/-- Operands of the same types and lengths. -/
def SameShape (rt : Runtime F S) (operands operands' : List (Val F S)) : Prop :=
  Forall₂ (fun value value' => value.pyType rt = value'.pyType rt ∧
    value.length = value'.length) operands operands'

/-- The same message, apart from the category of a float that is not finite. -/
def SameMessage (rt : Runtime F S) (error error' : EvaluationError F S) : Prop :=
  error.message = error'.message ∨
    error.cause = .nonFinite ∧ ∃ text x x', error.message = text ++ rt.category x ∧
      error'.message = text ++ rt.category x'

theorem SameShape.types {operands operands' : List (Val F S)}
    (shape : SameShape rt operands operands') :
    operands.map (Val.typeName rt) = operands'.map (Val.typeName rt) := by
  induction shape with
  | nil => rfl
  | cons head tail ih =>
    simp only [map_cons, ih, Val.typeName, head.1]

namespace Evaluator

variable (rt) in
theorem isDict_eq (value : Val F S) : isDict value = decide (value.pyType rt = .dict) := by
  cases value with
  | getMethod receiver => cases receiver <;> rfl
  | _ => rfl

variable {exc : Exc} {names : List String} {node : Expr F}

theorem lookupMessage_congr {container container' key key' : Val F S} {text : String}
    (containers : container.pyType rt = container'.pyType rt ∧
      container.length = container'.length) (keys : key.pyType rt = key'.pyType rt) :
    lookupMessage rt container key exc text = lookupMessage rt container' key' exc text := by
  have dict : isDict container = isDict container' := by
    rw [isDict_eq rt, isDict_eq rt, containers.1]
  unfold lookupMessage
  simp only [Val.typeName, containers.1, containers.2, keys, dict]

/-- The text printed for a key is a function of the expression. -/
theorem keyText_unique {scope : Scope} {slice : Expr F} {key key' : Val F S}
    {quote hidden text text' : String}
    (printed : keyText rt scope.names slice key quote hidden = some text)
    (printed' : keyText rt scope.names slice key' quote hidden = some text')
    (spelled : readsAllowedName scope.names slice = false →
      ∀ context, (visit rt scope context slice).outcome = .ok key)
    (spelled' : readsAllowedName scope.names slice = false →
      ∀ context, (visit rt scope context slice).outcome = .ok key') : text = text' := by
  by_cases reads : readsAllowedName scope.names slice = true
  · rw [keyText, if_pos reads] at printed printed'
    exact Option.some.inj (printed.symm.trans printed')
  · have spells := Bool.eq_false_of_not_eq_true reads
    cases (spelled spells .none).symm.trans (spelled' spells .none)
    exact Option.some.inj (printed.symm.trans printed')

/-- The node, the exception and the shape of the operands determine the message. -/
theorem Explained.sameMessage {scope : Scope} {expression : String}
    {error error' : EvaluationError F S} (here : Explained rt scope expression error)
    (there : Explained rt scope expression error') (nodes : error.site.node = error'.site.node)
    (shape : SameShape rt error.site.operands error'.site.operands)
    (causes : error.cause = error'.cause) : SameMessage rt error error' := by
  cases here with
  | @nonFinite node operands kind x =>
    cases there with
    | @nonFinite node' operands' kind' x' =>
      obtain rfl : node = node' := nodes
      exact .inr ⟨rfl, _, x, x', rfl, rfl⟩
    | _ => cases causes
  | @lookup value slice exc container key text kind expected printed spelled =>
    cases there with
    | nonFinite => cases causes
    | @lookup value' slice' exc' container' key' text' kind' expected' printed' spelled' =>
      obtain ⟨rfl, rfl⟩ := subscript.inj nodes
      obtain rfl := exception.inj causes
      obtain rfl := keyText_unique printed printed' spelled spelled'
      rcases shape with _ | ⟨containers, _ | ⟨keys, _⟩⟩
      exact .inl (lookupMessage_congr containers keys.1)
    | @arm node exc' operands message kind' caught =>
      obtain rfl : _ = node := nodes
      cases caught
    | @unexpected node exc' operands kind' uncaught noLookup =>
      obtain rfl := exception.inj causes
      rw [noLookup value slice nodes.symm] at expected
      cases expected
  | @arm node exc operands message kind caught =>
    cases there with
    | nonFinite => cases causes
    | lookup =>
      obtain rfl : node = _ := nodes
      cases caught
    | @arm node' exc' operands' message' kind' caught' =>
      obtain rfl : node = node' := nodes
      obtain rfl := exception.inj causes
      rw [shape.types] at caught
      exact .inl (Option.some.inj (caught.symm.trans caught'))
    | @unexpected node' exc' operands' kind' uncaught noLookup =>
      obtain rfl : node = node' := nodes
      obtain rfl := exception.inj causes
      rw [shape.types] at caught
      cases caught.symm.trans uncaught
  | @unexpected node exc operands kind uncaught noLookup =>
    cases there with
    | nonFinite => cases causes
    | @lookup value slice exc' container key text kind expected printed spelled =>
      obtain rfl := exception.inj causes
      rw [noLookup value slice nodes] at expected
      cases expected
    | @arm node' exc' operands' message' kind' caught' =>
      obtain rfl : node = node' := nodes
      obtain rfl := exception.inj causes
      rw [shape.types] at uncaught
      cases caught'.symm.trans uncaught
    | @unexpected node' exc' operands' kind' uncaught' noLookup' =>
      obtain rfl := exception.inj causes
      exact .inl rfl

/-! ## Keys the expression spells out -/

theorem bareReads_eq_false (silent : ∀ found ∈ node.walk, allowedName names found = none) :
    bareReads (fun id => id ∈ names) node = false := by
  induction node with | step node ih => ?_
  have each : ∀ child ∈ node.children, bareReads (fun id => id ∈ names) child = false :=
    fun child mem => ih child mem fun found inside => silent found (mem_walk_of_child mem inside)
  cases node with
  | name =>
    have absent := silent _ (mem_walk_self _)
    simpa [allowedName, bareReads] using absent
  | constant | forbidden | unsupported => rfl
  | subscript | binOp | ifExp => simp_all [bareReads, children]
  | attributeOf value | unaryOp op value => exact each value (.head _)
  | call func args =>
    have arguments := bareReadsAny_eq_false.mpr fun arg mem =>
      each arg (.tail _ (mem_append_left _ mem))
    simp [bareReads, each func (.head _), arguments]
  | compare left =>
    have comparators := bareReadsComparators_eq_false.mpr fun comparison mem =>
      each comparison.2 (.tail _ (mem_map_of_mem mem))
    simp [bareReads, each left (.head _), comparators]
  | boolOp op first =>
    have operands := bareReadsAny_eq_false.mpr fun node mem => each node (.tail _ mem)
    simp [bareReads, each first (.head _), operands]
  | list | tuple | set => exact bareReadsAny_eq_false.mpr each
  | dict =>
    exact bareReadsItems_eq_false.mpr fun item mem =>
      ⟨fun key named => each key (mem_children_key mem named), each item.2 (mem_children_value mem)⟩

/-- A node without allowed names has no direct reads of one. -/
theorem isDirect_eq_false {found : Expr F}
    (silent : ∀ found ∈ node.walk, allowedName names found = none) (inside : found ∈ node.walk) :
    isDirect (fun id => id ∈ names) found = false := by
  have hidden : ∀ value : Expr F, value ∈ found.walk →
      isHidden (fun id => id ∈ names) value = false := by
    intro value below
    have absent := silent value (walk_trans inside below)
    cases value with
    | name => simpa [allowedName, isHidden] using absent
    | _ => rfl
  cases found with
  | subscript value slice =>
    exact hidden value (mem_walk_of_child (.head _) (mem_walk_self _))
  | call func args keywords =>
    cases func with
    | attributeOf value attr =>
      have receiver := hidden value (by simp [walk, mem_walk_self])
      simp [isDirect, isHiddenGet, receiver]
    | _ => rfl
  | _ => rfl

theorem handled_eq : Handled (Eq (α := Raised F S)) where
  refl _ := rfl
  unhashable node message fault fault' same := by
    rw [same]
    exact .refl (fun _ => rfl) _

/-- A node without allowed names has the same outcome in every context. -/
theorem outcome_of_silent {scope : Scope} (silent : readsAllowedName scope.names node = false)
    (first second : Val F S) :
    (visit rt scope first node).outcome = (visit rt scope second node).outcome := by
  have unnamed : ∀ found ∈ node.walk, allowedName scope.names found = none := by
    intro found inside
    have absent := any_eq_false.mp silent found inside
    simpa using absent
  have alike : (visit rt scope first node).Alike Eq (visit rt scope second node) :=
    alike_visit handled_eq (fun id mem other => absurd mem (of_decide_eq_false other)) node
      (bareReads_eq_false unnamed) fun found inside direct => by
        rw [isDirect_eq_false unnamed inside] at direct
        cases direct
  rcases alike with ⟨value, here, there⟩ | ⟨fault, fault', here, there, rfl⟩
  · rw [here, there]
  · rw [here, there]

/-! ## One evaluation -/

variable {scope : Scope} {context : Val F S} {expression : String}

/-- An allowed name that the context does not hold, or that has no `get`. -/
inductive NameFails (rt : Runtime F S) (scope : Scope) (context : Val F S) :
    Exc → Expr F → Prop where
  | missing {id : String} {exc : Exc} (mem : id ∈ scope.names)
      (raised : scope.value rt context id = .error exc) : NameFails rt scope context exc (.name id)
  | getless {id : String} {receiver : Val F S} (mem : id ∈ scope.names)
      (got : scope.value rt context id = .ok receiver) (without : receiver.hasGet = false) :
      NameFails rt scope context .attributeError (.attributeOf (.name id) "get")

/-- What an accepted node raises: an explained error, the failure of a name, or an exception
that no handler of the node expects, which is no missing key or attribute. -/
def Accounted (rt : Runtime F S) (scope : Scope) (context : Val F S) (expression : String) :
    Raised F S → Prop
  | .evaluation error => Explained rt scope expression error
  | .security _ => True
  | .python exc site =>
    NameFails rt scope context exc site.node ∨
      (crashesThrough exc = true → exc = .recursionError) ∧
        armMessage site.node exc (site.operands.map (Val.typeName rt)) = none ∧
          ∀ value slice, site.node = .subscript value slice → isLookup exc = false

theorem recursionError_of_crashes (notType : exc ≠ .typeError) (ordinary : exc.Ordinary)
    (crashes : crashesThrough exc = true) : exc = .recursionError := by
  cases exc
  case typeError => exact absurd rfl notType
  case keyError => exact absurd rfl ordinary.1
  case attributeError => exact absurd rfl ordinary.2
  case recursionError => rfl
  all_goals cases crashes

theorem accountedArms :
    Arms rt scope context (fun _ => True) (Accounted rt scope context expression)
      (fun node value => readsAllowedName scope.names node = false →
        ∀ context, (visit rt scope context node).outcome = .ok value)
      fun _ => True where
  evaluated _ _ := trivial
  missing _ mem _ raised := .inl (.missing mem raised)
  getless _ mem _ got without := .inl (.getless mem got without)
  infinite value := by
    refine meets_ensureFiniteFloat trivial fun x _ _ => ?_
    exact Explained.nonFinite (.constant value) x
  subscript value slice container key known := by
    refine meets_subscript (fun _ _ => trivial) ?_ ?_ ?_
    · intro exc text raised expected printed
      refine Explained.lookup ?_ printed known
      rcases expected with rfl | rfl | rfl <;> rfl
    · exact .inr ⟨by rintro ⟨⟩, rfl, fun _ _ _ => rfl⟩
    · intro exc raised unexpected
      simp only [not_or] at unexpected
      have ordinary : exc.Ordinary := ⟨unexpected.1, Val.fails_getItem container key exc raised⟩
      refine .inr ⟨recursionError_of_crashes unexpected.2.2 ordinary, rfl, fun _ _ _ => ?_⟩
      cases exc <;> first | rfl | simp at unexpected
  call func args keywords callee values _ _ _ := by
    refine meets_apply trivial (fun _ _ => trivial) ?_ ?_
    · intro exc kind message raised listed
      refine Explained.arm ?_
      simp only [mem_cons, not_mem_nil, or_false, Prod.mk.injEq] at listed
      rcases listed with ⟨rfl, rfl, rfl⟩ | ⟨rfl, rfl, rfl⟩ | ⟨rfl, rfl, rfl⟩ <;> rfl
    · intro exc raised unexpected
      simp only [mem_cons, not_mem_nil, or_false, not_or] at unexpected
      have ordinary := Val.fails_call callee values exc raised
      refine .inr ⟨recursionError_of_crashes unexpected.1 ordinary, ?_, by rintro _ _ ⟨⟩⟩
      cases exc <;> first | rfl | simp at unexpected
  link op left right leftValue rightValue _ := by
    refine meets_link trivial (fun _ => Explained.arm rfl) ?_
    intro exc raised notType
    have ordinary := Val.fails_compare op leftValue rightValue exc raised
    refine .inr ⟨recursionError_of_crashes notType ordinary, ?_, by rintro _ _ ⟨⟩⟩
    cases exc <;> first | rfl | exact absurd rfl notType
  operate left op right leftValue rightValue listed _ _ _ := by
    refine meets_operate listed trivial (fun _ _ => trivial) ?_ ?_ ?_
    · intro x _ _
      exact Explained.nonFinite (.binOp left op right) x
    · intro exc kind message raised listed
      refine Explained.arm ?_
      simp only [mem_cons, not_mem_nil, or_false, Prod.mk.injEq] at listed
      rcases listed with ⟨rfl, rfl, rfl⟩ | ⟨rfl, rfl, rfl⟩ | ⟨rfl, rfl, rfl⟩ <;> rfl
    · intro exc raised unexpected
      simp only [mem_cons, not_mem_nil, or_false, not_or] at unexpected
      have ordinary : exc.Ordinary :=
        ⟨unexpected.2.2, Val.fails_binary op leftValue rightValue exc raised⟩
      refine .inr ⟨recursionError_of_crashes unexpected.2.1 ordinary, ?_, by rintro _ _ ⟨⟩⟩
      cases exc <;> first | rfl | simp at unexpected
  unary op operand value listed := by
    refine meets_operateUnary listed (fun _ _ => trivial) ?_ (fun _ => Explained.arm rfl) ?_
    · intro x _ _
      exact Explained.nonFinite (.unaryOp op operand) x
    · intro exc raised notType
      have ordinary := Val.fails_unary op value exc raised
      refine .inr ⟨recursionError_of_crashes notType ordinary, ?_, by rintro _ _ ⟨⟩⟩
      cases exc <;> first | rfl | exact absurd rfl notType
  inserted elts items value exc raised notType := by
    have ordinary := Val.fails_insert items value exc raised
    refine .inr ⟨recursionError_of_crashes notType ordinary, ?_, by rintro _ _ ⟨⟩⟩
    cases exc <;> first | rfl | exact absurd rfl notType
  assigned items entries key value exc raised notType := by
    have ordinary := Val.fails_assign key value entries exc raised
    refine .inr ⟨recursionError_of_crashes notType ordinary, ?_, by rintro _ _ ⟨⟩⟩
    cases exc <;> first | rfl | exact absurd rfl notType
  setLiteral _ := Explained.arm rfl
  dictLiteral _ := Explained.arm rfl

theorem meets_accounted (node : Expr F) {allowed : Bool}
    (accepted : Validator.findings scope.names rt.isFinite allowed node = []) :
    (visit rt scope context node).Meets (fun _ => True) (fun _ => True)
      (Accounted rt scope context expression) := by
  refine meets_visit accountedArms (fun node allowed accepted => ?_) node accepted
    fun _ _ => trivial
  refine ⟨fun _ _ => trivial, fun value returned silent context' => ?_, fun _ _ => trivial⟩
  rw [← returned]
  exact outcome_of_silent silent context' context

end Evaluator

/-! ## The whole evaluation -/

/-- A read of an allowed name or of its `get`. -/
def Expr.ReadsName (node : Expr F) : Prop :=
  ∃ id, node = .name id ∨ node = .attributeOf (.name id) "get"

/-- What the errors of an expression show of the contexts. -/
structure ErrorsHideValues (rt : Runtime F S) (parser : ExpressionParser rt.isFinite) : Prop where
  messages : ∀ first second error error',
    (parser.evaluate rt first).outcome = .error (.evaluation error) →
    (parser.evaluate rt second).outcome = .error (.evaluation error') →
    error.site.node = error'.site.node → error.cause = error'.cause →
    SameShape rt error.site.operands error'.site.operands → SameMessage rt error error'
  escapes : ∀ context : Val F S, context.hasGet = true → ∀ exc site,
    (parser.evaluate rt context).outcome = .error (.python exc site) →
    exc = .recursionError ∨ parser.scope ≠ .row ∧ site.node.ReadsName

/-- What leaves `evaluate`. -/
def Reported (rt : Runtime F S) (scope : Scope) (context : Val F S) (expression : String) :
    Raised F S → Prop
  | .evaluation error => Evaluator.Explained rt scope expression error
  | .security _ => True
  | .python exc site =>
    Evaluator.NameFails rt scope context exc site.node ∨ exc = .recursionError

theorem meets_reported (parser : ExpressionParser rt.isFinite) (context : Val F S) :
    (parser.evaluate rt context).Meets (fun _ => True) (fun _ => True)
      (Reported rt parser.scope context parser.expression) := by
  have inner : (visit rt parser.scope context parser.body).Meets (fun _ => True)
      (fun _ => True) (Evaluator.Accounted rt parser.scope context parser.expression) :=
    meets_accounted parser.body parser.findings_eq_nil
  refine .rescue inner fun fault accounted => ?_
  cases fault with
  | evaluation => exact .raise accounted
  | security => exact .raise trivial
  | python exc site =>
    obtain ⟨node, operands⟩ := site
    rw [handleUnexpected]
    split
    · rename_i crashes
      exact .raise (accounted.imp_right fun unnamed => unnamed.1 crashes)
    · refine .raise ?_
      rcases accounted with named | ⟨-, uncaught, noLookup⟩
      · refine Evaluator.Explained.unexpected ?_ ?_
        · cases named <;> rfl
        · intro value slice subscripted
          rw [subscripted] at named
          cases named
      · exact Evaluator.Explained.unexpected uncaught noLookup

/-- An error names its operator, the types and lengths of its operands and the keys that the
expression spells out, and nothing else of the contexts; of the exceptions of an operator, a
subscript or a builtin only a `RecursionError` leaves the evaluation as it is. -/
theorem errors_hide_values (rt : Runtime F S) (parser : ExpressionParser rt.isFinite) :
    ErrorsHideValues rt parser where
  messages first second error error' here there node cause shape :=
    Evaluator.Explained.sameMessage ((meets_reported parser first).error _ here)
      ((meets_reported parser second).error _ there) node shape cause
  escapes context row exc site raised := by
    obtain ⟨node, operands⟩ := site
    rcases (meets_reported parser context).error _ raised with named | recursion
    · refine .inr ⟨fun scope => ?_, ?_⟩
      -- The row's own name always has a value, and a row has a `get`.
      · rw [scope] at named
        rcases named with ⟨-, missing⟩ | ⟨-, got, without⟩
        · cases missing
        · cases got
          rw [row] at without
          cases without
      · rcases named with ⟨-, -⟩ | ⟨-, -, -⟩
        · exact ⟨_, .inl rfl⟩
        · exact ⟨_, .inr rfl⟩
    · exact .inl recursion

/-- `row['d'][row['k']]` -/
def nestedKey : ExpressionParser wholeRuntime.isFinite where
  expression := "row['d'][row['k']]"
  body := .subscript (.subscript (.name "row") (.constant (.str "d")))
    (.subscript (.name "row") (.constant (.str "k")))
  scope := .row
  shallow := by decide
  valid := by decide

/-- A row with an empty dict and a tuple of one item. -/
def keyedRow (item : Val Int Unit) : Val Int Unit :=
  .dict [(.str "d", .dict []), (.str "k", .tuple [item])]

/-- `row['a'] == row['b']` -/
def equalFields : ExpressionParser wholeRuntime.isFinite where
  expression := "row['a'] == row['b']"
  body := .compare (.subscript (.name "row") (.constant (.str "a")))
    [(.eq, .subscript (.name "row") (.constant (.str "b")))]
  scope := .row
  shallow := by decide
  valid := by decide

/-- A list of lists, `depth` deep. -/
def nested : Nat → Val Int Unit
  | 0 => .list []
  | depth + 1 => .list [nested depth]

theorem equal_nested (depth : Nat) :
    Val.equal wholeRuntime depth (nested depth) (nested depth) = .error .recursionError := by
  induction depth with
  | zero => rfl
  | succ depth ih =>
    have inner : Val.same wholeRuntime (Val.equal wholeRuntime depth) (nested depth)
      (nested depth) =
        .error .recursionError := by
      rw [← ih]
      cases depth <;> rfl
    show (do
      if ← Val.same wholeRuntime (Val.equal wholeRuntime depth) (nested depth) (nested depth)
      then .ok true else .ok false) = _
    rw [inner]
    rfl

theorem outcome_equalFields {left right : Val Int Unit}
    (deep : Val.equal wholeRuntime 1000 left right = .error .recursionError) :
    ∃ site, (equalFields.evaluate wholeRuntime
      (.dict [(.str "a", left), (.str "b", right)])).outcome =
        .error (.python .recursionError site) := by
  let leftNode : Expr Int := .subscript (.name "row") (.constant (.str "a"))
  let rightNode : Expr Int := .subscript (.name "row") (.constant (.str "b"))
  let row : Val Int Unit := .dict [(.str "a", left), (.str "b", right)]
  let site : Site Int Unit := ⟨.compare leftNode [(.eq, rightNode)], [left, right]⟩
  have first : (visit wholeRuntime .row row leftNode).outcome = .ok left := rfl
  have second : (visit wholeRuntime .row row rightNode).outcome = .ok right := rfl
  have compared : Val.compare wholeRuntime .eq left right = .error .recursionError := deep
  have linked : (link wholeRuntime .eq leftNode rightNode left right).outcome =
      .error (.python .recursionError site) := by
    rw [link, compared]
    rfl
  have visited : (visit wholeRuntime .row row
      (.compare leftNode [(.eq, rightNode)])).outcome = .error (.python .recursionError site) := by
    rw [visit, Traced.outcome_emit_bind, Traced.bind_of_ok first, visitChain,
      Traced.bind_of_ok second, Traced.bind_of_error linked]
  exact ⟨site, Traced.rescue_of_error visited⟩

/-- A missing and an unhashable tuple of one item read differently, and a comparison of deep
rows ends in the interpreter's own error. -/
theorem nestedKey_messages_differ :
    (∃ error error',
      (nestedKey.evaluate wholeRuntime (keyedRow (.int 1))).outcome = .error (.evaluation error) ∧
      (nestedKey.evaluate wholeRuntime (keyedRow (.list []))).outcome =
        .error (.evaluation error') ∧
      error.site.node = error'.site.node ∧
      SameShape wholeRuntime error.site.operands error'.site.operands ∧
      ¬ SameMessage wholeRuntime error error') ∧
    ∃ site, (equalFields.evaluate wholeRuntime
      (.dict [(.str "a", nested 1000), (.str "b", nested 1000)])).outcome =
        .error (.python .recursionError site) := by
  refine ⟨⟨_, _, rfl, rfl, rfl, ?_, ?_⟩, outcome_equalFields (equal_nested 1000)⟩
  · exact .cons ⟨rfl, rfl⟩ (.cons ⟨rfl, rfl⟩ .nil)
  · rintro (same | ⟨finite, -⟩)
    · revert same
      decide
    · cases finite

end Elspeth.Expressions
