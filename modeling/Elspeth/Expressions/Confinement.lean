import Elspeth.Expressions.Rules

/-!
# Confinement

What an accepted expression may do when it is evaluated: evaluate the admitted node kinds,
call builtins within their arity and the `get` method of an allowed name, read that one
attribute, and test identity only against a literal `None`.  It never runs into one of the
evaluator's own refusals.

The validator and the evaluator look a called name up in opposite orders: to the validator a
builtin's name is the builtin, to the evaluator an allowed name is a value of the context.
An expression is confined in every context exactly when no allowed name is a builtin's name.
-/

namespace Elspeth.Expressions

open Semantics Evaluator List

variable {F S : Type}

/-- No allowed name is the name of a builtin. -/
def Scope.Plain (scope : Scope) : Prop :=
  ∀ id ∈ scope.names, Builtin.find id = none

instance (scope : Scope) : Decidable scope.Plain :=
  inferInstanceAs (Decidable (∀ id ∈ scope.names, Builtin.find id = none))

theorem Scope.plain_row : Scope.row.Plain := by decide

/-- What a confined evaluation does. -/
def Permitted (rt : Runtime F S) (scope : Scope) (context : Val F S) : Event F S → Prop
  | .evaluated kind => kind ∈ allowedExprTypes
  | .called callee arguments =>
    (∃ function : Builtin, callee = .builtin function ∧ function.admits arguments) ∨
      ∃ id ∈ scope.names, ∃ receiver, scope.value rt context id = .ok receiver ∧
        callee = .getMethod receiver ∧ arguments = 1
  | .readAttribute receiver attr =>
    attr = "get" ∧ ∃ id ∈ scope.names, scope.value rt context id = .ok receiver
  | .compared op left right =>
    op = .is ∨ op = .isNot → left.isNoneConstant ∨ right.isNoneConstant
  | .operated _ _ _ => True

def Raised.NotSecurity : Raised F S → Prop
  | .security _ => False
  | .evaluation _ | .python _ _ => True

/-- Every step of the evaluation is permitted and none is refused as a security error. -/
def Confined (rt : Runtime F S) (parser : ExpressionParser rt.isFinite) (context : Val F S) :
    Prop :=
  (∀ event ∈ (parser.evaluate rt context).events, Permitted rt parser.scope context event) ∧
    ∀ message, (parser.evaluate rt context).outcome ≠ .error (.security message)

namespace Evaluator

variable {rt : Runtime F S} {scope : Scope} {context : Val F S}

/-! ## Arms -/

/-- The function of an accepted call is one that may be called. -/
theorem permitted_called {func : Expr F} {args : List (Expr F)} (plain : scope.Plain)
    (accepted : Validator.AcceptedCall scope.names func args) {callee : Val F S}
    (called : Callee rt scope context func callee) :
    Permitted rt scope context (.called callee args.length) := by
  cases called with
  | builtin found =>
    cases accepted with
    | builtin found' admits =>
      cases found.symm.trans found'
      exact .inl ⟨_, rfl, admits⟩
  | hidden found mem got => rw [plain _ mem] at found; cases found
  | @get id receiver mem got =>
    cases accepted with
    | get => exact .inr ⟨id, mem, receiver, got, rfl, rfl⟩

theorem permittedArms (plain : scope.Plain) :
    Arms rt scope context (Permitted rt scope context) Raised.NotSecurity (fun _ _ => True)
      fun _ => True where
  evaluated _ admitted := admitted
  read id mem _ got := ⟨rfl, id, mem, got⟩
  missing _ _ _ _ := trivial
  getless _ _ _ _ _ := trivial
  infinite _ := meets_ensureFiniteFloat
  subscript _ _ _ _ _ := meets_subscript
  call func args keywords callee values accepted called length := by
    have permitted := permitted_called plain accepted called
    rw [← length] at permitted
    exact meets_apply permitted
  link _ _ _ _ _ literal := meets_link literal
  operate _ _ _ _ _ listed _ _ _ := meets_operate listed
  unary _ _ _ listed := meets_operateUnary listed
  inserted _ _ _ _ _ _ := trivial
  assigned _ _ _ _ _ _ _ := trivial
  setLiteral _ := trivial
  dictLiteral _ := trivial

theorem meets_permitted (plain : scope.Plain) (node : Expr F) {allowed : Bool}
    (accepted : Validator.findings scope.names rt.isFinite allowed node = []) :
    (visit rt scope context node).Meets (Permitted rt scope context) (fun _ => True)
      Raised.NotSecurity :=
  meets_visit (permittedArms plain) (fun _ _ _ => .top _) node accepted fun _ _ => trivial

end Evaluator

/-! ## The whole evaluation -/

variable {rt : Runtime F S} {names : List String} {id : String} {function : Builtin}

theorem confined_of_plain {parser : ExpressionParser rt.isFinite} (plain : parser.scope.Plain)
    (context : Val F S) : Confined rt parser context := by
  have inner : Traced.Meets (Permitted rt parser.scope context) _ _ _ :=
    meets_permitted plain parser.body parser.findings_eq_nil
  have outer : (parser.evaluate rt context).Meets (Permitted rt parser.scope context)
      (fun _ => True) Raised.NotSecurity := by
    refine .rescue inner fun fault holds => ?_
    unfold handleUnexpected
    split
    · split
      · exact .raise trivial
      · exact .raise trivial
    · exact .raise holds
  exact ⟨outer.events, fun message raised => outer.error _ raised⟩

/-- A call of a builtin with `None` for each argument. -/
def calling (id : String) (function : Builtin) : Expr F :=
  .call (.name id) (replicate function.arity.1 (.constant .none)) []

/-- A row that holds one value. -/
def holding (id : String) (value : Val F S) : Val F S :=
  .row 0 ⟨.observed, [], false, nodup_nil, nodup_nil⟩ [(id, value)]

theorem findings_calling {finite : F → Bool} (found : Builtin.find id = some function) :
    Validator.findings names finite false (calling id function) = [] := by
  have admits : function.admits function.arity.1 := by
    cases function <;> decide
  have arguments : Validator.findingsAll names finite false
      (replicate function.arity.1 (.constant .none)) = [] := by
    rw [Validator.findingsAll_eq_nil]
    intro node mem
    rw [eq_of_mem_replicate mem]
    rfl
  simp [calling, Validator.findings, getReceiver, builtinCallee, found, Validator.builtinFindings,
    admits, arguments]

theorem height_calling (id : String) (function : Builtin) :
    (calling id function : Expr F).height + 1 ≤ 64 := by
  have height : (calling id function : Expr F).height = 2 := by
    cases function <;> rfl
  omega

/-- An allowed name with a builtin's name is called as a value of the context. -/
theorem called_of_hidden (found : Builtin.find id = some function) (mem : id ∈ names)
    (value : Val F S) :
    .called value function.arity.1 ∈
      (visit rt (.named names) (holding id value) (calling id function)).events := by
  have fits : misfits (.name id : Expr F)
      (replicate function.arity.1 (.constant .none : Expr F)).length = false := by
    cases function <;> simp [misfits, builtinCallee, found] <;> decide
  have read : Val.getItem rt (holding id value) (.str id) = .ok value := by
    simp [holding, Val.getItem, Val.readRow, Contracts.readField,
      Contracts.SchemaContract.findName, Contracts.SchemaContract.normalizedNames,
      Contracts.SchemaMode.readsExtras]
  have callee : (visit rt (.named names) (holding id value) (.name id)).outcome =
      .ok value := by
    rw [visit]
    rw [visitName, if_pos (show id ∈ (Scope.named names).names from mem)]
    simp only [read]
    rfl
  have arguments : (visitAll rt (.named names) (holding id value)
      (replicate function.arity.1 (.constant .none))).outcome =
        .ok (replicate function.arity.1 .none) := by
    cases function <;> rfl
  rw [calling, visit, fits, Traced.events_emit_bind, if_neg Bool.false_ne_true,
    Traced.events_bind_of_ok callee, Traced.events_bind_of_ok arguments, apply]
  simp

/-- `len('abc')` with `len` as an allowed name. -/
def hiddenLen : ExpressionParser wholeRuntime.isFinite where
  expression := "len('abc')"
  body := .call (.name "len") [.constant (.str "abc")] []
  scope := .named ["len"]
  shallow := by decide
  valid := by decide

/-- The context's `len`, here the scalar object, is called. -/
theorem hiddenLen_not_confined :
    ¬ Confined wholeRuntime hiddenLen (.dict [(.str "len", .object ())]) := by
  intro confined
  have called : (.called (.object ()) 1 : Event Int Unit) ∈
      (hiddenLen.evaluate wholeRuntime (.dict [(.str "len", .object ())])).events := by
    show _ ∈ [_, _, _, Event.called (.object ()) 1]
    simp
  rcases confined.1 _ called with ⟨other, same, -⟩ | ⟨other, -, receiver, -, same, -⟩
  · cases same
  · cases same

/-- **Confinement.** Every accepted expression of a scope is confined in every context exactly
when no allowed name is the name of a builtin. -/
theorem confined_iff_plain (rt : Runtime F S) (scope : Scope) :
    (∀ parser : ExpressionParser rt.isFinite, parser.scope = scope →
      ∀ context, Confined rt parser context) ↔ scope.Plain := by
  constructor
  · intro confined id mem
    by_contra hidden
    obtain ⟨function, found⟩ := Option.ne_none_iff_exists'.mp hidden
    obtain _ | names := scope
    · exact hidden (Scope.plain_row id mem)
    · have valid : (Validator.visit names rt.isFinite (calling id function) {}).errors.isEmpty := by
        rw [Validator.leaves_visit (calling id function) {} ⟨rfl, rfl⟩]
        exact isEmpty_iff.mpr (findings_calling found)
      let parser : ExpressionParser rt.isFinite :=
        ⟨id, calling id function, .named names, height_calling id function, valid⟩
      have called : .called (.none : Val F S) function.arity.1 ∈
          (parser.evaluate rt (holding id .none)).events :=
        Traced.mem_events_rescue (called_of_hidden found mem .none)
      rcases (confined parser rfl (holding id .none)).1 _ called with
        ⟨other, same, -⟩ | ⟨other, -, receiver, -, same, -⟩
      · cases same
      · cases same
  · rintro plain parser rfl context
    exact confined_of_plain plain context

end Elspeth.Expressions
