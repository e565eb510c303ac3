import Mathlib.Data.List.Nodup

/-!
# Epoch-fenced exclusive seats

The general pattern behind a leader lock whose holder may pause for any length
of time.  Each resource has at most one seat; the seat names a holder (or is
vacant) and carries an epoch.  Every acquisition issues a token naming the
resource, the new holder and the new epoch, and a write is admitted only while
the seat still shows exactly that triple.  No clock and no expiry occurs here:
whether a seat *may* be taken over is a liveness question, and the safety
results hold for every takeover policy.

The load-bearing notion is `Covers`: the seat has reached the token's epoch, and
if it is still at that epoch, its holder is the token's worker or nobody.  It
holds of a token when it is issued and is kept by every step; together with a
failed fence it is permanent (`Spent`), because the only way back to a holder
is a strictly larger epoch.
-/

namespace Fencing

open Function Option

variable {R W : Type}

/-- A seat: its holder, if any, and its fencing epoch. -/
structure Seat (W : Type) where
  holder : Option W
  epoch : Nat

/-- The seats of all resources; `none` where no seat was minted yet. -/
abbrev Seats (R W : Type) := R → Option (Seat W)

/-- What an acquisition issues. -/
@[ext] structure Token (R W : Type) where
  resource : R
  worker : W
  epoch : Nat

/-- The fence: the seat shows exactly this token. -/
def Token.Holds (token : Token R W) (seats : Seats R W) : Prop :=
  seats token.resource = some ⟨some token.worker, token.epoch⟩

variable {seats : Seats R W} {token : Token R W}

/-- Two admitted tokens for one resource are the same token. -/
theorem Token.Holds.unique {left right : Token R W} (leftHolds : left.Holds seats)
    (rightHolds : right.Holds seats) (same : left.resource = right.resource) : left = right := by
  have equal : some (⟨some left.worker, left.epoch⟩ : Seat W) =
      some ⟨some right.worker, right.epoch⟩ := by
    rw [← leftHolds, ← rightHolds, same]
  obtain ⟨worker, epoch⟩ := Seat.mk.inj (some.inj equal)
  exact Token.ext same (some.inj worker) epoch

/-! ## Steps -/

section Steps

variable [DecidableEq R]

/-- One atomic step on the seats, with the token it issued. -/
inductive Step : Seats R W → Option (Token R W) → Seats R W → Prop where
  /-- Any step that leaves every holder and epoch alone. -/
  | stay (seats : Seats R W) : Step seats none seats
  /-- The first seat of a resource, at epoch one. -/
  | mint (seats : Seats R W) (resource : R) (worker : W)
      (absent : seats resource = none) :
      Step seats (some ⟨resource, worker, 1⟩)
        (update seats resource (some ⟨some worker, 1⟩))
  /-- A takeover bumps the epoch. -/
  | take (seats : Seats R W) (resource : R) (worker : W) (seat : Seat W)
      (present : seats resource = some seat) :
      Step seats (some ⟨resource, worker, seat.epoch + 1⟩)
        (update seats resource (some ⟨some worker, seat.epoch + 1⟩))
  /-- Vacating a seat keeps its epoch. -/
  | vacate (seats : Seats R W) (resource : R) (seat : Seat W)
      (present : seats resource = some seat) :
      Step seats none (update seats resource (some ⟨none, seat.epoch⟩))

/-- The seat exists and has reached at least `epoch`. -/
def Reached (seats : Seats R W) (resource : R) (epoch : Nat) : Prop :=
  ∃ seat, seats resource = some seat ∧ epoch ≤ seat.epoch

/-- The seat has reached the token's epoch, and at that epoch nobody but the
token's worker can be its holder. -/
def Covers (seats : Seats R W) (token : Token R W) : Prop :=
  ∃ seat, seats token.resource = some seat ∧ token.epoch ≤ seat.epoch ∧
    (seat.epoch = token.epoch → seat.holder = none ∨ seat.holder = some token.worker)

/-- The token can never be admitted again. -/
def Spent (seats : Seats R W) (token : Token R W) : Prop :=
  ∃ seat, seats token.resource = some seat ∧ token.epoch ≤ seat.epoch ∧
    (seat.epoch = token.epoch → seat.holder = none)

variable {seats seats' : Seats R W} {issued : Option (Token R W)} {resource : R} {epoch : Nat}
  {token : Token R W}

section

variable (step : Step seats issued seats')
include step

/-- **Epochs never decrease.** -/
theorem Step.reached (reached : Reached seats resource epoch) : Reached seats' resource epoch := by
  obtain ⟨seat, present, bound⟩ := reached
  cases step with
  | stay => exact ⟨seat, present, bound⟩
  | mint target worker absent =>
    have apart : resource ≠ target := by
      intro same
      rw [same, absent] at present
      exact some_ne_none _ present.symm
    exact ⟨seat, by rw [update_of_ne apart, present], bound⟩
  | take target worker old occupied =>
    by_cases same : resource = target
    · subst same
      rw [present] at occupied
      cases occupied
      exact ⟨_, update_self _ _ _, Nat.le_succ_of_le bound⟩
    · exact ⟨seat, by rw [update_of_ne same, present], bound⟩
  | vacate target old occupied =>
    by_cases same : resource = target
    · subst same
      rw [present] at occupied
      cases occupied
      exact ⟨_, update_self _ _ _, bound⟩
    · exact ⟨seat, by rw [update_of_ne same, present], bound⟩

/-- The common shape of `Covers` and `Spent`: a bound on the epoch and a
condition on the holder at that very epoch, which a vacant seat satisfies. -/
theorem Step.keeps_holder (allowed : Option W → Prop) (vacant : allowed none)
    (before : ∃ seat, seats resource = some seat ∧ epoch ≤ seat.epoch ∧
      (seat.epoch = epoch → allowed seat.holder)) :
    ∃ seat, seats' resource = some seat ∧ epoch ≤ seat.epoch ∧
      (seat.epoch = epoch → allowed seat.holder) := by
  obtain ⟨seat, present, bound, holder⟩ := before
  cases step with
  | stay => exact ⟨seat, present, bound, holder⟩
  | mint target worker absent =>
    have apart : resource ≠ target := by
      intro same
      rw [same, absent] at present
      exact some_ne_none _ present.symm
    exact ⟨seat, by rw [update_of_ne apart, present], bound, holder⟩
  | take target worker old occupied =>
    by_cases same : resource = target
    · subst same
      rw [present] at occupied
      cases occupied
      refine ⟨_, update_self _ _ _, Nat.le_succ_of_le bound, fun equal => ?_⟩
      -- The new epoch is past the bound, so the condition is void.
      have : seat.epoch + 1 = epoch := equal
      omega
    · exact ⟨seat, by rw [update_of_ne same, present], bound, holder⟩
  | vacate target old occupied =>
    by_cases same : resource = target
    · subst same
      rw [present] at occupied
      cases occupied
      exact ⟨_, update_self _ _ _, bound, fun _ => vacant⟩
    · exact ⟨seat, by rw [update_of_ne same, present], bound, holder⟩

theorem Step.covers (covers : Covers seats token) : Covers seats' token :=
  step.keeps_holder (fun holder => holder = none ∨ holder = some token.worker)
    (Or.inl rfl) covers

/-- **Once refused, always refused**, one step at a time. -/
theorem Step.spent (spent : Spent seats token) : Spent seats' token :=
  step.keeps_holder (fun holder => holder = none) rfl spent

end

/-- An issued token covers its seat at the moment it is issued. -/
theorem Step.covers_issued (step : Step seats (some token) seats') : Covers seats' token := by
  cases step with
  | mint | take =>
    exact ⟨_, update_self _ _ _, Nat.le_refl _, fun _ => Or.inr rfl⟩

/-- An issued token carries a larger epoch than the seat ever had. -/
theorem Step.issued_fresh (step : Step seats (some token) seats')
    (reached : Reached seats token.resource epoch) : epoch < token.epoch := by
  obtain ⟨seat, present, bound⟩ := reached
  cases step with
  | mint target worker absent =>
    rw [absent] at present
    exact absurd present.symm (some_ne_none _)
  | take target worker old occupied =>
    rw [occupied] at present
    cases present
    exact Nat.lt_succ_of_le bound

end Steps

theorem Covers.reached (covers : Covers seats token) :
    Reached seats token.resource token.epoch := by
  obtain ⟨seat, present, bound, -⟩ := covers
  exact ⟨seat, present, bound⟩

/-- A covered token that fails the fence is spent. -/
theorem Covers.spent (covers : Covers seats token) (refused : ¬ token.Holds seats) :
    Spent seats token := by
  obtain ⟨seat, present, bound, holder⟩ := covers
  refine ⟨seat, present, bound, fun equal => ?_⟩
  rcases holder equal with vacant | held
  · exact vacant
  · refine absurd ?_ refused
    unfold Token.Holds
    rw [present, ← equal, ← held]

/-- A spent token is refused. -/
theorem Spent.not_holds (spent : Spent seats token) : ¬ token.Holds seats := by
  intro holds
  obtain ⟨seat, present, -, vacant⟩ := spent
  rw [holds] at present
  cases present
  exact some_ne_none _ (vacant rfl)

/-! ## Runs -/

section Runs

variable [DecidableEq R]

/-- A run: steps in order, with the tokens they issued. -/
inductive Run : Seats R W → List (Token R W) → Seats R W → Prop where
  | nil (seats : Seats R W) : Run seats [] seats
  | cons {seats middle seats' : Seats R W} {issued : Option (Token R W)}
      {rest : List (Token R W)} (step : Step seats issued middle)
      (run : Run middle rest seats') : Run seats (issued.toList ++ rest) seats'

variable {seats seats' : Seats R W} {issued : List (Token R W)} {epoch : Nat} {token : Token R W}

section

variable (run : Run seats issued seats')
include run

theorem Run.reached {resource : R} (reached : Reached seats resource epoch) :
    Reached seats' resource epoch := by
  induction run with
  | nil => exact reached
  | cons step _ ih => exact ih (step.reached reached)

theorem Run.spent (spent : Spent seats token) : Spent seats' token := by
  induction run with
  | nil => exact spent
  | cons step _ ih => exact ih (step.spent spent)

theorem Run.covers (covers : Covers seats token) : Covers seats' token := by
  induction run with
  | nil => exact covers
  | cons step _ ih => exact ih (step.covers covers)

/-- Every token issued in a run covers its seat at the end of the run. -/
theorem Run.covers_issued (member : token ∈ issued) : Covers seats' token := by
  induction run with
  | nil => cases member
  | @cons seats middle seats' head rest step run ih =>
    rcases List.mem_append.mp member with inHead | inRest
    · rw [mem_toList] at inHead
      rw [mem_def.mp inHead] at step
      exact run.covers step.covers_issued
    · exact ih inRest

/-- A token issued in a run carries a larger epoch than its seat had before. -/
theorem Run.issued_fresh (member : token ∈ issued) (reached : Reached seats token.resource epoch) :
    epoch < token.epoch := by
  induction run with
  | nil => cases member
  | @cons seats middle seats' head rest step run ih =>
    rcases List.mem_append.mp member with inHead | inRest
    · rw [mem_toList] at inHead
      rw [mem_def.mp inHead] at step
      exact step.issued_fresh reached
    · exact ih inRest (step.reached reached)

/-- **No two acquisitions return the same resource and epoch.** -/
theorem Run.issued_nodup : (issued.map fun token => (token.resource, token.epoch)).Nodup := by
  induction run with
  | nil => exact List.nodup_nil
  | @cons seats middle seats' head rest step run ih =>
    cases head with
    | none => exact ih
    | some token =>
      refine List.nodup_cons.mpr ⟨fun member => ?_, ih⟩
      obtain ⟨later, laterMem, equal⟩ := List.mem_map.mp member
      obtain ⟨sameResource, sameEpoch⟩ := Prod.mk.inj equal
      have reached : Reached middle later.resource token.epoch := by
        rw [sameResource]
        exact step.covers_issued.reached
      have fresh := run.issued_fresh laterMem reached
      omega

end

end Runs

end Fencing
