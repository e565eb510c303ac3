import Mathlib.Data.List.Basic

/-!
# Traced computations

A computation that emits events while it runs and ends by returning or by raising.  What
it emitted before it raised is kept, so that a statement about its events is a statement
about every step it took and not only about its completed runs.

The pure steps of such a computation are `Except` values; the first section inverts their
combinators and bounds their errors (`Fails`).  Two rule sets are closed under the program
constructors:

* `Meets` is the one-run rule set: every event, the result and the error satisfy a
  predicate each;
* `Alike` is the two-run rule set: both return the same value, or both raise, with related
  errors.
-/

namespace Semantics

open List

/-! ## Fallible steps -/

section Fallible

variable {δ χ α β : Type}

variable {first : Except χ Unit} {next : α → Except χ β} {value : β} {body : Except χ α}
  {wrap : α → β} {fault : χ} {found : Prop} {items : List α} {check : α → Except χ Unit}

theorem bind_eq_ok {first : Except χ α} :
    first >>= next = .ok value ↔ ∃ middle, first = .ok middle ∧ next middle = .ok value := by
  obtain fault | middle := first
  · constructor
    · rintro ⟨⟩
    · rintro ⟨_, ⟨⟩, -⟩
  · constructor
    · exact fun returned => ⟨middle, rfl, returned⟩
    · rintro ⟨_, ⟨⟩, returned⟩
      exact returned

theorem map_eq_ok : body.map wrap = .ok value ↔ ∃ inner, body = .ok inner ∧ wrap inner = value := by
  obtain fault | inner := body
  · constructor
    · rintro ⟨⟩
    · rintro ⟨_, ⟨⟩, -⟩
  · constructor
    · rintro ⟨⟩
      exact ⟨inner, rfl, rfl⟩
    · rintro ⟨_, ⟨⟩, rfl⟩
      rfl

/-- Every error a step can end in satisfies `error`. -/
def Fails (error : χ → Prop) (body : Except χ α) : Prop :=
  ∀ fault, body = .error fault → error fault

variable {error : χ → Prop}

theorem Fails.ok {value : α} : Fails error (.ok value : Except χ α) := by
  rintro _ ⟨⟩

theorem Fails.raise (holds : error fault) : Fails error (.error fault : Except χ α) := by
  rintro _ ⟨⟩
  exact holds

theorem Fails.bind {first : Except χ α} (head : Fails error first)
    (tail : ∀ value, Fails error (next value)) : Fails error (first >>= next) := by
  obtain fault | value := first
  · exact Fails.raise (head fault rfl)
  · exact tail value

theorem Fails.map (inner : Fails error body) : Fails error (body.map wrap) := by
  obtain fault | value := body
  · exact Fails.raise (inner fault rfl)
  · exact Fails.ok

theorem Fails.mapError {body : Except δ α} {wrap : δ → χ} (wrapped : ∀ fault, error (wrap fault)) :
    Fails error (body.mapError wrap) := by
  obtain fault | value := body
  · exact Fails.raise (wrapped fault)
  · exact Fails.ok

theorem Fails.mono {error' : χ → Prop} (fails : Fails error body)
    (weaker : ∀ fault, error fault → error' fault) : Fails error' body :=
  fun fault raised => weaker fault (fails fault raised)

/-- Raise `fault` where a check finds something. -/
def refuse (found : Prop) [Decidable found] (fault : χ) : Except χ Unit :=
  if found then .error fault else .ok ()

theorem refuse_eq_ok [Decidable found] : refuse found fault = .ok () ↔ ¬ found := by
  unfold refuse
  split
  · rename_i holds
    exact ⟨by rintro ⟨⟩, fun fails => absurd holds fails⟩
  · rename_i fails
    exact ⟨fun _ => fails, fun _ => rfl⟩

theorem refuse_eq_error [Decidable found] {raised : χ} :
    refuse found fault = .error raised ↔ found ∧ fault = raised := by
  unfold refuse
  split
  · rename_i holds
    exact ⟨by rintro ⟨⟩; exact ⟨holds, rfl⟩, by rintro ⟨-, rfl⟩; rfl⟩
  · rename_i fails
    exact ⟨by rintro ⟨⟩, fun both => absurd both.1 fails⟩

theorem then_eq_ok {next : Except χ β} :
    (first >>= fun _ => next) = .ok value ↔ first = .ok () ∧ next = .ok value := by
  rw [bind_eq_ok]
  constructor
  · rintro ⟨⟨⟩, here, there⟩
    exact ⟨here, there⟩
  · exact fun both => ⟨(), both⟩

theorem then_eq_error {next : Except χ β} (raised : (first >>= fun _ => next) = .error fault) :
    first = .error fault ∨ next = .error fault := by
  obtain fault' | value := first
  · cases raised
    exact .inl rfl
  · exact .inr raised

/-- A loop of checks passes when each of them does. -/
theorem forM_eq_ok : items.forM check = .ok () ↔ ∀ item ∈ items, check item = .ok () := by
  induction items with
  | nil => exact ⟨fun _ _ mem => absurd mem not_mem_nil, fun _ => rfl⟩
  | cons item items ih =>
    show (check item >>= fun _ => items.forM check) = _ ↔ _
    rw [then_eq_ok, ih, forall_mem_cons]

/-- A loop of checks fails at one of them. -/
theorem forM_eq_error (raised : items.forM check = .error fault) :
    ∃ item ∈ items, check item = .error fault := by
  induction items with
  | nil => cases raised
  | cons item items ih =>
    change (check item >>= fun _ => items.forM check) = _ at raised
    rcases here : check item with fault' | value
    · rw [here] at raised
      cases raised
      exact ⟨item, mem_cons_self, here⟩
    · rw [here] at raised
      obtain ⟨other, mem, failed⟩ := ih raised
      exact ⟨other, mem_cons_of_mem _ mem, failed⟩

end Fallible

/-! ## Traced computations -/

/-- A computation with events in `ε`, errors in `χ` and results in `α`. -/
@[ext]
structure Traced (ε χ α : Type) where
  events : List ε
  outcome : Except χ α

namespace Traced

variable {ε χ α β : Type}

instance : Monad (Traced ε χ) where
  pure value := ⟨[], .ok value⟩
  bind first next :=
    match first.outcome with
    | .error fault => ⟨first.events, .error fault⟩
    | .ok value => ⟨first.events ++ (next value).events, (next value).outcome⟩

def raise (fault : χ) : Traced ε χ α := ⟨[], .error fault⟩

def emit (event : ε) : Traced ε χ Unit := ⟨[event], .ok ()⟩

/-- A fallible pure step: its errors are raised as `wrap` says. -/
def lift {δ : Type} (wrap : δ → χ) (step : Except δ α) : Traced ε χ α :=
  ⟨[], step.mapError wrap⟩

/-- `try … except`: an error is handed to `handler`, a result passes through. -/
def rescue (body : Traced ε χ α) (handler : χ → Traced ε χ α) : Traced ε χ α :=
  match body.outcome with
  | .error fault => ⟨body.events ++ (handler fault).events, (handler fault).outcome⟩
  | .ok value => ⟨body.events, .ok value⟩

variable {first body : Traced ε χ α} {next : α → Traced ε χ β} {value : α} {fault : χ}
  {handler : χ → Traced ε χ α}

theorem bind_of_ok (returned : first.outcome = .ok value) :
    (first >>= next).outcome = (next value).outcome := by
  obtain ⟨_, _⟩ := first
  cases returned
  rfl

theorem bind_of_error (raised : first.outcome = .error fault) :
    (first >>= next).outcome = .error fault := by
  obtain ⟨_, _⟩ := first
  cases raised
  rfl

theorem events_bind_of_ok (returned : first.outcome = .ok value) :
    (first >>= next).events = first.events ++ (next value).events := by
  obtain ⟨_, _⟩ := first
  cases returned
  rfl

@[simp]
theorem events_emit_bind (event : ε) (next : Unit → Traced ε χ β) :
    (emit event >>= next).events = event :: (next ()).events := rfl

@[simp]
theorem outcome_emit_bind (event : ε) (next : Unit → Traced ε χ β) :
    (emit event >>= next).outcome = (next ()).outcome := rfl

theorem rescue_of_error (raised : body.outcome = .error fault) :
    (body.rescue handler).outcome = (handler fault).outcome := by
  unfold rescue
  rw [raised]

theorem mem_events_rescue {event : ε} (mem : event ∈ body.events) :
    event ∈ (body.rescue handler).events := by
  unfold rescue
  split
  · exact mem_append_left _ mem
  · exact mem

/-! ## One run -/

/-- Every event satisfies `event`, a returned value `result`, a raised error `error`. -/
structure Meets (event : ε → Prop) (result : α → Prop) (error : χ → Prop)
    (body : Traced ε χ α) : Prop where
  events : ∀ emitted ∈ body.events, event emitted
  result : ∀ value, body.outcome = .ok value → result value
  error : ∀ fault, body.outcome = .error fault → error fault

section Meets

variable {event : ε → Prop} {result : α → Prop} {after : β → Prop} {error : χ → Prop}

theorem Meets.pure {value : α} (holds : result value) :
    Meets event result error (Pure.pure value : Traced ε χ α) where
  events := by rintro _ ⟨⟩
  result := by rintro _ ⟨⟩; exact holds
  error := by rintro _ ⟨⟩

theorem Meets.raise {fault : χ} (holds : error fault) :
    Meets event result error (raise fault : Traced ε χ α) where
  events := by rintro _ ⟨⟩
  result := by rintro _ ⟨⟩
  error := by rintro _ ⟨⟩; exact holds

variable {emitted : ε} {body : Traced ε χ α} {event' : ε → Prop} {result' : α → Prop}
  {error' : χ → Prop}

theorem Meets.emit (holds : event emitted) :
    Meets event (fun _ => True) error (emit emitted : Traced ε χ Unit) where
  events := by
    intro other mem
    rw [mem_singleton.mp mem]
    exact holds
  result := fun _ _ => trivial
  error := by rintro _ ⟨⟩

theorem Meets.lift {δ : Type} {wrap : δ → χ} {step : Except δ α}
    (returned : ∀ value, step = .ok value → result value)
    (raised : ∀ fault, step = .error fault → error (wrap fault)) :
    Meets event result error (lift wrap step : Traced ε χ α) := by
  obtain fault | value := step
  · exact Meets.raise (raised fault rfl)
  · exact Meets.pure (returned value rfl)

theorem Meets.bind {first : Traced ε χ α} {next : α → Traced ε χ β}
    (head : Meets event result error first)
    (tail : ∀ value, result value → Meets event after error (next value)) :
    Meets event after error (first >>= next) := by
  obtain ⟨emitted, fault | value⟩ := first
  · exact ⟨head.events, by rintro _ ⟨⟩, by rintro _ ⟨⟩; exact head.error _ rfl⟩
  · have rest := tail value (head.result value rfl)
    refine ⟨?_, rest.result, rest.error⟩
    intro event' mem
    rcases mem_append.mp mem with before | later
    · exact head.events event' before
    · exact rest.events event' later

theorem Meets.emit_bind {next : Unit → Traced ε χ β} (holds : event emitted)
    (rest : Meets event after error (next ())) :
    Meets event after error (Traced.emit emitted >>= next) :=
  Meets.bind (Meets.emit holds) fun _ _ => rest

theorem Meets.rescue {raised : χ → Prop} {handler : χ → Traced ε χ α}
    (inner : Meets event result raised body)
    (outer : ∀ fault, raised fault → Meets event result error (handler fault)) :
    Meets event result error (body.rescue handler) := by
  obtain ⟨emitted, fault | value⟩ := body
  · have rest := outer fault (inner.error fault rfl)
    refine ⟨?_, rest.result, rest.error⟩
    intro event' mem
    rcases mem_append.mp mem with before | later
    · exact inner.events event' before
    · exact rest.events event' later
  · exact ⟨inner.events, inner.result, by rintro _ ⟨⟩⟩

theorem Meets.mono (meets : Meets event result error body)
    (events : ∀ emitted, event emitted → event' emitted)
    (results : ∀ value, result value → result' value)
    (errors : ∀ fault, error fault → error' fault) : Meets event' result' error' body where
  events := fun emitted mem => events emitted (meets.events emitted mem)
  result := fun value returned => results value (meets.result value returned)
  error := fun fault raised => errors fault (meets.error fault raised)

theorem Meets.weaken (meets : Meets event result error body)
    (results : ∀ value, result value → result' value) : Meets event result' error body :=
  meets.mono (fun _ holds => holds) results fun _ holds => holds

theorem Meets.forget (meets : Meets event result error body) :
    Meets event (fun _ => True) error body :=
  meets.weaken fun _ _ => trivial

theorem Meets.top (body : Traced ε χ α) :
    Meets (fun _ => True) (fun _ => True) (fun _ => True) body :=
  ⟨fun _ _ => trivial, fun _ _ => trivial, fun _ _ => trivial⟩

/-- A second result predicate, from a second proof about the same run. -/
theorem Meets.and (first : Meets event result error body)
    (second : Meets event' result' error' body) :
    Meets event (fun value => result value ∧ result' value) error body where
  events := first.events
  result := fun value returned => ⟨first.result value returned, second.result value returned⟩
  error := first.error

end Meets

/-! ## Two runs -/

/-- Both runs return the same value, or both raise with related errors. -/
inductive Alike (error : χ → χ → Prop) : Traced ε χ α → Traced ε χ α → Prop where
  | returned {first second : Traced ε χ α} (value : α) (here : first.outcome = .ok value)
      (there : second.outcome = .ok value) : Alike error first second
  | raised {first second : Traced ε χ α} (fault fault' : χ)
      (here : first.outcome = .error fault) (there : second.outcome = .error fault')
      (related : error fault fault') : Alike error first second

section Alike

variable {error : χ → χ → Prop}

theorem Alike.refl (reflexive : ∀ fault, error fault fault) (body : Traced ε χ α) :
    Alike error body body := by
  obtain ⟨emitted, fault | value⟩ := body
  · exact .raised fault fault rfl rfl (reflexive fault)
  · exact .returned value rfl rfl

theorem Alike.bind {first second : Traced ε χ α} {next next' : α → Traced ε χ β}
    (heads : Alike error first second)
    (tails : ∀ value, Alike error (next value) (next' value)) :
    Alike error (first >>= next) (second >>= next') := by
  rcases heads with ⟨value, here, there⟩ | ⟨fault, fault', here, there, related⟩
  · rcases tails value with ⟨result, here', there'⟩ | ⟨fault, fault', here', there', related⟩
    · exact .returned result ((bind_of_ok here).trans here') ((bind_of_ok there).trans there')
    · exact .raised fault fault' ((bind_of_ok here).trans here')
        ((bind_of_ok there).trans there') related
  · exact .raised fault fault' (bind_of_error here) (bind_of_error there) related

/-- Two heads that return different values, before tails that are alike on these. -/
theorem Alike.bind_of_ok {first second : Traced ε χ α} {next next' : α → Traced ε χ β}
    {value value' : α} (here : first.outcome = .ok value) (there : second.outcome = .ok value')
    (tails : Alike error (next value) (next' value')) :
    Alike error (first >>= next) (second >>= next') := by
  have left : (first >>= next).outcome = (next value).outcome := Traced.bind_of_ok here
  have right : (second >>= next').outcome = (next' value').outcome := Traced.bind_of_ok there
  rcases tails with ⟨result, here', there'⟩ | ⟨fault, fault', here', there', related⟩
  · exact .returned result (left.trans here') (right.trans there')
  · exact .raised fault fault' (left.trans here') (right.trans there') related

theorem Alike.rescue {inner : χ → χ → Prop} {first second : Traced ε χ α}
    {handler handler' : χ → Traced ε χ α} (bodies : Alike inner first second)
    (handlers : ∀ fault fault', inner fault fault' →
      Alike error (handler fault) (handler' fault')) :
    Alike error (first.rescue handler) (second.rescue handler') := by
  obtain ⟨emitted, outcome⟩ := first
  obtain ⟨emitted', outcome'⟩ := second
  rcases bodies with ⟨value, here, there⟩ | ⟨fault, fault', here, there, related⟩
  · cases here
    cases there
    exact .returned value rfl rfl
  · cases here
    cases there
    rcases handlers fault fault' related with
      ⟨value, here, there⟩ | ⟨raised, raised', here, there, related⟩
    · exact .returned value here there
    · exact .raised raised raised' here there related

end Alike

end Traced

end Semantics
