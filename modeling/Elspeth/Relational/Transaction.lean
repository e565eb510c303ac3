import Mathlib.Data.List.Forall2

/-!
# Transactions as state-passing programs that may fail

A transaction body is a program over a session state that either returns a
value with the new session state or raises.  Two things are deliberately kept
apart:

* `Txn σ ε α` is the body.  It sees its own uncommitted writes and has no
  notion of rollback.
* `transact` is the transaction.  It opens a session on a stored database, runs
  the body, and publishes the result only if the body returned *and* the commit
  step accepted.  In every other case the stored database is the one the
  transaction started from, whatever the body had already written.

Verification conditions come in two shapes.  The `*_eq_ok` lemmas invert a
successful run into the successful runs of its parts; they are equivalences, so
they also build a run from its parts.  `Respects` is the two-state rule set: a
body respects a relation when every successful run relates the session before
to the session after, and for a reflexive, transitive relation that is closed
under all the program constructors.
-/

namespace Relational

/-- A transaction body over session state `σ` raising `ε`. -/
def Txn (σ ε α : Type) : Type :=
  σ → Except ε (α × σ)

namespace Txn

variable {σ ε α β : Type}

instance : Monad (Txn σ ε) where
  pure value := fun session => .ok (value, session)
  bind first next := fun session =>
    match first session with
    | .error raised => .error raised
    | .ok (value, session') => next value session'

/-! ## Program constructors -/

/-- Raise without returning. -/
def raise (error : ε) : Txn σ ε α := fun _ => .error error

/-- Continue only if the condition holds. -/
def ensure (condition : Prop) [Decidable condition] (error : ε) : Txn σ ε Unit :=
  fun session => if condition then .ok ((), session) else .error error

/-- Rewrite what a body raises; a `try … except … raise … from` around it. -/
def mapError (rewrite : ε → ε) (body : Txn σ ε α) : Txn σ ε α := fun session =>
  match body session with
  | .error raised => .error (rewrite raised)
  | .ok result => .ok result

/-- Evaluate a query against the session. -/
def query (view : σ → α) : Txn σ ε α := fun session => .ok (view session, session)

/-- Change the session unconditionally. -/
def alter (change : σ → σ) : Txn σ ε Unit := fun session => .ok ((), change session)

/-- Run an action for every element, in order, and collect the results. -/
def mapEach (action : β → Txn σ ε α) : List β → Txn σ ε (List α)
  | [] => pure []
  | item :: items => do
    let head ← action item
    let tail ← mapEach action items
    pure (head :: tail)

/-- Run an action for every element, in order. -/
def forEach (action : β → Txn σ ε Unit) : List β → Txn σ ε Unit
  | [] => pure ()
  | item :: items => do
    action item
    forEach action items

/-- `executemany`: run a statement for every parameter set, in order, and add
up the row counts. -/
def executeMany (statement : β → Txn σ ε Nat) : List β → Txn σ ε Nat
  | [] => pure 0
  | item :: items => do
    let count ← statement item
    let rest ← executeMany statement items
    pure (count + rest)

/-! ## Inverting a successful run -/

section Inversion

variable {session session' : σ} {value : α}

@[simp] theorem pure_eq_ok {returned : α} :
    (pure returned : Txn σ ε α) session = .ok (value, session') ↔
      value = returned ∧ session' = session := by
  change Except.ok (returned, session) = Except.ok (value, session') ↔ _
  rw [Except.ok.injEq, Prod.mk.injEq]
  exact ⟨fun ⟨left, right⟩ => ⟨left.symm, right.symm⟩,
    fun ⟨left, right⟩ => ⟨left.symm, right.symm⟩⟩

@[simp] theorem bind_eq_ok {first : Txn σ ε β} {next : β → Txn σ ε α} :
    (first >>= next) session = .ok (value, session') ↔
      ∃ between middle, first session = .ok (between, middle) ∧
        next between middle = .ok (value, session') := by
  change (match first session with
    | .error raised => Except.error raised
    | .ok (between, middle) => next between middle) = _ ↔ _
  cases first session with
  | error => simp
  | ok result =>
    obtain ⟨returned, reached⟩ := result
    simp only [Except.ok.injEq, Prod.mk.injEq]
    exact ⟨fun ran => ⟨returned, reached, ⟨rfl, rfl⟩, ran⟩,
      fun ⟨_, _, ⟨sameValue, sameState⟩, ran⟩ => by rwa [sameValue, sameState]⟩

variable {error : ε} {condition : Prop} {action : β → Txn σ ε α} {statement : β → Txn σ ε Nat}
  {item : β} {items : List β} {values : List α}

@[simp] theorem raise_eq_ok :
    (raise error : Txn σ ε α) session = .ok (value, session') ↔ False := by
  simp [raise]

@[simp] theorem ensure_eq_ok [Decidable condition] {value : Unit} :
    (ensure condition error : Txn σ ε Unit) session = .ok (value, session') ↔
      condition ∧ session' = session := by
  unfold ensure
  split
  next holds => simp [holds, eq_comm]
  next fails => simp [fails]

@[simp] theorem query_eq_ok {view : σ → α} :
    (query view : Txn σ ε α) session = .ok (value, session') ↔
      value = view session ∧ session' = session := by
  simp [query, eq_comm]

@[simp] theorem alter_eq_ok {change : σ → σ} {value : Unit} :
    (alter change : Txn σ ε Unit) session = .ok (value, session') ↔
      session' = change session := by
  simp [alter, eq_comm]

@[simp] theorem mapError_eq_ok {rewrite : ε → ε} {body : Txn σ ε α} :
    mapError rewrite body session = .ok (value, session') ↔
      body session = .ok (value, session') := by
  unfold mapError
  cases body session with
  | error => simp
  | ok => simp

@[simp] theorem ite_eq_ok [Decidable condition] {yes no : Txn σ ε α} :
    (if condition then yes else no) session = .ok (value, session') ↔
      (condition ∧ yes session = .ok (value, session')) ∨
        (¬ condition ∧ no session = .ok (value, session')) := by
  split
  next holds => simp [holds]
  next fails => simp [fails]

@[simp] theorem mapEach_nil : mapEach action [] = pure [] := rfl

@[simp] theorem forEach_nil {action : β → Txn σ ε Unit} :
    forEach action [] = pure () := rfl

@[simp] theorem executeMany_nil : executeMany statement [] = pure 0 := rfl

theorem mapEach_cons_eq_ok :
    mapEach action (item :: items) session = .ok (values, session') ↔
      ∃ head middle tail, action item session = .ok (head, middle) ∧
        mapEach action items middle = .ok (tail, session') ∧
          values = head :: tail := by
  simp only [mapEach, bind_eq_ok, pure_eq_ok]
  constructor
  · rintro ⟨head, middle, ran, tail, last, rest, rfl, rfl⟩
    exact ⟨head, middle, tail, ran, rest, rfl⟩
  · rintro ⟨head, middle, tail, ran, rest, rfl⟩
    exact ⟨head, middle, ran, tail, session', rest, rfl, rfl⟩

/-- What every run of the action says about its result, the batch says of all. -/
theorem mapEach_forall₂ {relation : β → α → Prop} (step : ∀ item session value session',
      action item session = .ok (value, session') → relation item value)
    (ran : mapEach action items session = .ok (values, session')) :
    List.Forall₂ relation items values := by
  induction items generalizing session values with
  | nil =>
    obtain ⟨rfl, -⟩ := pure_eq_ok.mp ran
    exact .nil
  | cons item items ih =>
    obtain ⟨head, middle, tail, first, rest, rfl⟩ := mapEach_cons_eq_ok.mp ran
    exact .cons (step item session head middle first) (ih rest)

theorem forEach_cons_eq_ok {action : β → Txn σ ε Unit} {value : Unit} :
    forEach action (item :: items) session = .ok (value, session') ↔
      ∃ middle, action item session = .ok ((), middle) ∧
        forEach action items middle = .ok (value, session') := by
  simp only [forEach, bind_eq_ok]
  exact ⟨fun ⟨_, middle, ran, rest⟩ => ⟨middle, ran, rest⟩,
    fun ⟨middle, ran, rest⟩ => ⟨(), middle, ran, rest⟩⟩

theorem executeMany_cons_eq_ok {total : Nat} :
    executeMany statement (item :: items) session = .ok (total, session') ↔
      ∃ count middle rest, statement item session = .ok (count, middle) ∧
        executeMany statement items middle = .ok (rest, session') ∧
          total = count + rest := by
  simp only [executeMany, bind_eq_ok, pure_eq_ok]
  constructor
  · rintro ⟨count, middle, ran, rest, last, done, rfl, rfl⟩
    exact ⟨count, middle, rest, ran, done, rfl⟩
  · rintro ⟨count, middle, rest, ran, done, rfl⟩
    exact ⟨count, middle, ran, rest, session', done, rfl, rfl⟩

end Inversion

/-! ## Inverting a raised error -/

section Errors

variable {session : σ} {error : ε}

@[simp] theorem pure_eq_error {returned : α} :
    (pure returned : Txn σ ε α) session = .error error ↔ False := by
  simp

@[simp] theorem bind_eq_error {first : Txn σ ε β} {next : β → Txn σ ε α} :
    (first >>= next) session = .error error ↔
      first session = .error error ∨
        ∃ between middle, first session = .ok (between, middle) ∧
          next between middle = .error error := by
  change (match first session with
    | .error raised => Except.error raised
    | .ok (between, middle) => next between middle) = _ ↔ _
  cases first session with
  | error => simp
  | ok result =>
    obtain ⟨returned, reached⟩ := result
    simp only [reduceCtorEq, Except.ok.injEq, Prod.mk.injEq, false_or]
    exact ⟨fun ran => ⟨returned, reached, ⟨rfl, rfl⟩, ran⟩,
      fun ⟨_, _, ⟨sameValue, sameState⟩, ran⟩ => by rwa [sameValue, sameState]⟩

/-- A loop raises what one of its rounds raises. -/
theorem forEach_raises {action : β → Txn σ ε Unit} {items : List β} {error : ε}
    (ran : forEach action items session = .error error) :
    ∃ item ∈ items, ∃ reached, action item reached = .error error := by
  induction items generalizing session with
  | nil => simp at ran
  | cons item items ih =>
    rcases bind_eq_error.mp ran with first | ⟨_, middle, -, rest⟩
    · exact ⟨item, List.mem_cons_self, session, first⟩
    · obtain ⟨other, member, raises⟩ := ih rest
      exact ⟨other, List.mem_cons_of_mem _ member, raises⟩

variable {raised : ε} {condition : Prop}

@[simp] theorem raise_eq_error :
    (raise raised : Txn σ ε α) session = .error error ↔ raised = error := by
  simp [raise]

@[simp] theorem ensure_eq_error [Decidable condition] :
    (ensure condition raised : Txn σ ε Unit) session = .error error ↔
      ¬ condition ∧ raised = error := by
  unfold ensure
  split
  next holds => simp [holds]
  next fails => simp [fails]

@[simp] theorem query_eq_error {view : σ → α} :
    (query view : Txn σ ε α) session = .error error ↔ False := by
  simp [query]

@[simp] theorem alter_eq_error {change : σ → σ} :
    (alter change : Txn σ ε Unit) session = .error error ↔ False := by
  simp [alter]

@[simp] theorem ite_eq_error [Decidable condition] {yes no : Txn σ ε α} :
    (if condition then yes else no) session = .error error ↔
      (condition ∧ yes session = .error error) ∨
        (¬ condition ∧ no session = .error error) := by
  split
  next holds => simp [holds]
  next fails => simp [fails]

end Errors

/-! ## Two-state specifications -/

/-- Every successful run relates the session before to the session after. -/
def Respects (relation : σ → σ → Prop) (body : Txn σ ε α) : Prop :=
  ∀ ⦃session value session'⦄, body session = .ok (value, session') →
    relation session session'

namespace Respects

variable {relation : σ → σ → Prop}

variable {error : ε} {condition : Prop}

theorem raise : Respects relation (raise error : Txn σ ε α) := by
  intro session value session' ran
  simp at ran

theorem mapError {rewrite : ε → ε} {body : Txn σ ε α} (respects : Respects relation body) :
    Respects relation (mapError rewrite body) :=
  fun _ _ _ ran => respects (mapError_eq_ok.mp ran)

variable [Std.Refl relation]

theorem pure {value : α} : Respects relation (Pure.pure value : Txn σ ε α) := by
  intro session returned session' ran
  rw [(pure_eq_ok.mp ran).2]
  exact Std.Refl.refl session

theorem ensure [Decidable condition] :
    Respects relation (ensure condition error : Txn σ ε Unit) := by
  intro session value session' ran
  rw [(ensure_eq_ok.mp ran).2]
  exact Std.Refl.refl session

theorem query {view : σ → α} : Respects relation (query view : Txn σ ε α) := by
  intro session value session' ran
  rw [(query_eq_ok.mp ran).2]
  exact Std.Refl.refl session

omit [Std.Refl relation] in
theorem alter {change : σ → σ} (step : ∀ session, relation session (change session)) :
    Respects relation (alter change : Txn σ ε Unit) := by
  intro session value session' ran
  rw [alter_eq_ok.mp ran]
  exact step session

omit [Std.Refl relation] in
theorem ite [Decidable condition] {yes no : Txn σ ε α} (left : condition → Respects relation yes)
    (right : ¬ condition → Respects relation no) :
    Respects relation (if condition then yes else no) := by
  split
  next holds => exact left holds
  next fails => exact right fails

variable [IsTrans σ relation]

omit [Std.Refl relation] in
theorem bind {first : Txn σ ε β} {next : β → Txn σ ε α}
    (left : Respects relation first) (right : ∀ value, Respects relation (next value)) :
    Respects relation (first >>= next) := by
  intro session value session' ran
  obtain ⟨between, middle, ranFirst, ranNext⟩ := bind_eq_ok.mp ran
  exact IsTrans.trans _ _ _ (left ranFirst) (right between ranNext)

theorem mapEach {action : β → Txn σ ε α} (step : ∀ item, Respects relation (action item)) :
    ∀ items, Respects relation (mapEach action items)
  | [] => pure
  | item :: items => bind (step item) fun _ => bind (mapEach step items) fun _ => pure

theorem forEach {action : β → Txn σ ε Unit}
    (step : ∀ item, Respects relation (action item)) :
    ∀ items, Respects relation (forEach action items)
  | [] => pure
  | item :: items => bind (step item) fun _ => forEach step items

end Respects

/-! ## Which errors a body raises -/

/-- From a session that satisfies the invariant the body raises only allowed
errors, and when it returns it leaves the invariant in place. -/
structure Guarded (invariant : σ → Prop) (allowed : ε → Prop) (body : Txn σ ε α) : Prop where
  raises : ∀ ⦃session error⦄, invariant session → body session = .error error → allowed error
  keeps : ∀ ⦃session value session'⦄, invariant session →
    body session = .ok (value, session') → invariant session'

namespace Guarded

variable {invariant : σ → Prop} {allowed : ε → Prop}

theorem pure {value : α} : Guarded invariant allowed (Pure.pure value : Txn σ ε α) where
  raises _ _ _ ran := by simp at ran
  keeps _ _ _ holds ran := (pure_eq_ok.mp ran).2 ▸ holds

variable {condition : Prop} {statement : β → Txn σ ε Nat}

theorem ensure [Decidable condition] {error : ε} (fine : allowed error) :
    Guarded invariant allowed (ensure condition error : Txn σ ε Unit) where
  raises _ _ _ ran := (ensure_eq_error.mp ran).2 ▸ fine
  keeps _ _ _ holds ran := (ensure_eq_ok.mp ran).2 ▸ holds

theorem query {view : σ → α} : Guarded invariant allowed (query view : Txn σ ε α) where
  raises _ _ _ ran := by simp at ran
  keeps _ _ _ holds ran := (query_eq_ok.mp ran).2 ▸ holds

theorem alter {change : σ → σ} (step : ∀ session, invariant session → invariant (change session)) :
    Guarded invariant allowed (alter change : Txn σ ε Unit) where
  raises _ _ _ ran := by simp at ran
  keeps session _ _ holds ran := alter_eq_ok.mp ran ▸ step session holds

theorem ite [Decidable condition] {yes no : Txn σ ε α}
    (left : condition → Guarded invariant allowed yes)
    (right : ¬ condition → Guarded invariant allowed no) :
    Guarded invariant allowed (if condition then yes else no) := by
  split
  next holds => exact left holds
  next fails => exact right fails

theorem bind {first : Txn σ ε β} {next : β → Txn σ ε α}
    (left : Guarded invariant allowed first)
    (right : ∀ value, Guarded invariant allowed (next value)) :
    Guarded invariant allowed (first >>= next) where
  raises session error holds ran := by
    rcases bind_eq_error.mp ran with raised | ⟨between, middle, ranFirst, raised⟩
    · exact left.raises holds raised
    · exact (right between).raises (left.keeps holds ranFirst) raised
  keeps session value session' holds ran := by
    obtain ⟨between, middle, ranFirst, ranNext⟩ := bind_eq_ok.mp ran
    exact (right between).keeps (left.keeps holds ranFirst) ranNext

theorem forEach {action : β → Txn σ ε Unit}
    (step : ∀ item, Guarded invariant allowed (action item)) :
    ∀ items, Guarded invariant allowed (forEach action items)
  | [] => pure
  | item :: items => bind (step item) fun _ => forEach step items

theorem executeMany_of_mem :
    ∀ {items : List β}, (∀ item ∈ items, Guarded invariant allowed (statement item)) →
      Guarded invariant allowed (executeMany statement items)
  | [], _ => pure
  | _ :: _, step =>
    have ⟨first, others⟩ := List.forall_mem_cons.mp step
    bind first fun _ => bind (executeMany_of_mem others) fun _ => pure

theorem executeMany (step : ∀ item, Guarded invariant allowed (statement item)) (items : List β) :
    Guarded invariant allowed (executeMany statement items) :=
  executeMany_of_mem fun item _ => step item

end Guarded

end Txn

/-! ## Commit and rollback -/

section Transact

variable {σ ε α δ : Type}

/-- Run a body in a fresh session on `stored` and publish its writes only if it
returns and the commit step accepts. -/
def transact (start : δ → σ) (commit : σ → Except ε δ) (body : Txn σ ε α)
    (stored : δ) : Except ε α × δ :=
  match body (start stored) with
  | .error raised => (.error raised, stored)
  | .ok (value, session) =>
    match commit session with
    | .error raised => (.error raised, stored)
    | .ok published => (.ok value, published)

variable {start : δ → σ} {commit : σ → Except ε δ} {body : Txn σ ε α}
  {stored published : δ}

variable {raised : ε}

/-- **Atomicity.** A transaction that raises leaves the store as it was. -/
theorem transact_error (ran : transact start commit body stored = (.error raised, published)) :
    published = stored := by
  unfold transact at ran
  cases result : body (start stored) with
  | error _ =>
    simp only [result, Prod.mk.injEq] at ran
    exact ran.2.symm
  | ok outcome =>
    obtain ⟨value, session⟩ := outcome
    cases committed : commit session with
    | error _ =>
      simp only [result, committed, Prod.mk.injEq] at ran
      exact ran.2.symm
    | ok _ => simp [result, committed] at ran

/-- An error of a transaction comes from its body or from the commit step. -/
theorem transact_raises (ran : transact start commit body stored = (.error raised, published)) :
    body (start stored) = .error raised ∨
      ∃ value session, body (start stored) = .ok (value, session) ∧
        commit session = .error raised := by
  unfold transact at ran
  cases result : body (start stored) with
  | error =>
    simp only [result, Prod.mk.injEq, Except.error.injEq] at ran
    exact Or.inl (by rw [ran.1])
  | ok outcome =>
    obtain ⟨value, session⟩ := outcome
    cases committed : commit session with
    | error =>
      simp only [result, committed, Prod.mk.injEq, Except.error.injEq] at ran
      exact Or.inr ⟨value, session, rfl, by rw [committed, ran.1]⟩
    | ok _ => simp [result, committed] at ran

/-- A transaction that returns ran its body and passed the commit step. -/
theorem transact_eq_ok {value : α} :
    transact start commit body stored = (.ok value, published) ↔
      ∃ session, body (start stored) = .ok (value, session) ∧
        commit session = .ok published := by
  unfold transact
  cases body (start stored) with
  | error _ => simp
  | ok outcome =>
    obtain ⟨returned, reached⟩ := outcome
    constructor
    · intro ran
      refine ⟨reached, ?_⟩
      cases committed : commit reached with
      | error _ => simp [committed] at ran
      | ok => simpa [committed] using ran
    · rintro ⟨session, ⟨rfl, rfl⟩, accepted⟩
      simp [accepted]

end Transact

end Relational
