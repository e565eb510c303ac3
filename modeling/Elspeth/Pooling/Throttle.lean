import Mathlib.Algebra.Order.Archimedean.Basic
import Mathlib.Algebra.Order.Group.MinMax

/-!
# The dispatch throttle of a pooled executor

A capacity error multiplies the delay between dispatches, a success takes a fixed step off it.
The delay is a rational number; the configured delays are integers in the source, and nothing
here depends on that.
-/

namespace Elspeth.Pooling

/-- A configuration that its validation accepts. -/
structure ThrottleConfig where
  minDispatchDelayMs : ℚ
  maxDispatchDelayMs : ℚ
  backoffMultiplier : ℚ
  recoveryStepMs : ℚ
  min_nonneg : 0 ≤ minDispatchDelayMs
  min_le_max : minDispatchDelayMs ≤ maxDispatchDelayMs
  one_lt_multiplier : 1 < backoffMultiplier
  step_nonneg : 0 ≤ recoveryStepMs
  not_both_zero : ¬(recoveryStepMs = 0 ∧ minDispatchDelayMs = 0)

structure AIMDThrottle where
  currentDelayMs : ℚ
  capacityRetries : Nat
  successes : Nat
  peakDelayMs : ℚ

inductive ThrottleCall where
  | onCapacityError
  | onSuccess
  deriving DecidableEq, Repr

namespace AIMDThrottle

def initial : AIMDThrottle := ⟨0, 0, 0, 0⟩

variable (config : ThrottleConfig)

section

variable (throttle : AIMDThrottle)

def onCapacityError : AIMDThrottle :=
  let bootstrapDelayMs := max config.recoveryStepMs config.minDispatchDelayMs
  let raised :=
    if throttle.currentDelayMs = 0 then bootstrapDelayMs
    else if throttle.currentDelayMs ≤ config.minDispatchDelayMs then
      max bootstrapDelayMs (throttle.currentDelayMs * config.backoffMultiplier)
    else throttle.currentDelayMs * config.backoffMultiplier
  let capped := if config.maxDispatchDelayMs < raised then config.maxDispatchDelayMs else raised
  { throttle with
    currentDelayMs := capped
    capacityRetries := throttle.capacityRetries + 1
    peakDelayMs := if throttle.peakDelayMs < capped then capped else throttle.peakDelayMs }

def onSuccess : AIMDThrottle :=
  let lowered := throttle.currentDelayMs - config.recoveryStepMs
  { throttle with
    currentDelayMs :=
      if lowered < config.minDispatchDelayMs then config.minDispatchDelayMs else lowered
    successes := throttle.successes + 1 }

def call : ThrottleCall → AIMDThrottle
  | .onCapacityError => onCapacityError config throttle
  | .onSuccess => onSuccess config throttle

/-- The throttle after some calls. -/
def after (calls : List ThrottleCall) : AIMDThrottle :=
  calls.foldl (call config) throttle

/-- The delay is off or within its bounds. -/
def InRange : Prop :=
  throttle.currentDelayMs = 0 ∨
    config.minDispatchDelayMs ≤ throttle.currentDelayMs ∧
      throttle.currentDelayMs ≤ config.maxDispatchDelayMs

end

variable {config} {throttle : AIMDThrottle}

theorem after_append (calls more : List ThrottleCall) :
    throttle.after config (calls ++ more) = (throttle.after config calls).after config more :=
  List.foldl_append

theorem after_replicate_succ (count : Nat) (same : ThrottleCall) :
    throttle.after config (List.replicate (count + 1) same) =
      (throttle.after config (List.replicate count same)).call config same := by
  rw [List.replicate_succ', after_append]
  rfl

/-! ## One call -/

theorem delay_onSuccess : (throttle.onSuccess config).currentDelayMs =
    max config.minDispatchDelayMs (throttle.currentDelayMs - config.recoveryStepMs) := by
  unfold onSuccess
  dsimp only
  split
  · next low => exact (max_eq_left low.le).symm
  · next high => exact (max_eq_right (not_lt.mp high)).symm

theorem bootstrap_pos : 0 < max config.recoveryStepMs config.minDispatchDelayMs := by
  rcases config.step_nonneg.lt_or_eq with step | step
  · exact lt_max_of_lt_left step
  · refine lt_max_of_lt_right (lt_of_le_of_ne config.min_nonneg fun zero => ?_)
    exact config.not_both_zero ⟨step.symm, zero.symm⟩

section

variable (range : throttle.InRange config)
include range

theorem InRange.nonneg : 0 ≤ throttle.currentDelayMs := by
  rcases range with off | ⟨low, -⟩
  · exact off.ge
  · exact config.min_nonneg.trans low

theorem InRange.le_max : throttle.currentDelayMs ≤ config.maxDispatchDelayMs := by
  rcases range with off | ⟨-, high⟩
  · exact off.le.trans (config.min_nonneg.trans config.min_le_max)
  · exact high

/-- An error multiplies the delay at least, up to the maximum. -/
theorem delay_onCapacityError :
    ∃ raised, 0 < raised ∧ config.minDispatchDelayMs ≤ raised ∧
      throttle.currentDelayMs * config.backoffMultiplier ≤ raised ∧
      (throttle.onCapacityError config).currentDelayMs = min config.maxDispatchDelayMs raised := by
  have capped : ∀ raised : ℚ, (if config.maxDispatchDelayMs < raised then config.maxDispatchDelayMs
      else raised) = min config.maxDispatchDelayMs raised := by
    intro raised
    split
    · next high => exact (min_eq_left high.le).symm
    · next low => exact (min_eq_right (not_lt.mp low)).symm
  refine ⟨_, ?_, ?_, ?_, capped _⟩
  · split
    · exact bootstrap_pos
    · split
      · exact lt_max_of_lt_left bootstrap_pos
      next high =>
        exact mul_pos (config.min_nonneg.trans_lt (not_le.mp high))
          (zero_lt_one.trans config.one_lt_multiplier)
  · split
    · exact le_max_right _ _
    · split
      · exact (le_max_right _ _).trans (le_max_left _ _)
      next high =>
        exact (not_le.mp high).le.trans
          (le_mul_of_one_le_right range.nonneg config.one_lt_multiplier.le)
  · split
    next off =>
      rw [off, zero_mul]
      exact config.step_nonneg.trans (le_max_left _ _)
    · split
      · exact le_max_right _ _
      · exact le_rfl

theorem InRange.bounds_call (next : ThrottleCall) :
    config.minDispatchDelayMs ≤ (throttle.call config next).currentDelayMs ∧
      (throttle.call config next).currentDelayMs ≤ config.maxDispatchDelayMs := by
  cases next with
  | onCapacityError =>
    obtain ⟨raised, -, low, -, delay⟩ := delay_onCapacityError range
    rw [AIMDThrottle.call, delay]
    exact ⟨le_min config.min_le_max low, min_le_left _ _⟩
  | onSuccess =>
    rw [AIMDThrottle.call, delay_onSuccess]
    exact ⟨le_max_left _ _, max_le config.min_le_max
      ((sub_le_self _ config.step_nonneg).trans range.le_max)⟩

theorem InRange.call (next : ThrottleCall) :
    (throttle.call config next).InRange config :=
  .inr (range.bounds_call next)

/-! ## Runs -/

theorem InRange.after (calls : List ThrottleCall) :
    (throttle.after config calls).InRange config := by
  induction calls generalizing throttle with
  | nil => exact range
  | cons next calls ih => exact ih (range.call next)

/-- Errors multiply the delay again and again, up to the maximum. -/
theorem InRange.min_le_errors (errors : Nat) :
    min config.maxDispatchDelayMs (throttle.currentDelayMs * config.backoffMultiplier ^ errors) ≤
      (throttle.after config (.replicate errors .onCapacityError)).currentDelayMs := by
  induction errors with
  | zero => exact (min_le_right _ _).trans (by rw [pow_zero, mul_one]; exact le_rfl)
  | succ errors ih =>
    have before := range.after (.replicate errors .onCapacityError)
    obtain ⟨raised, -, -, grown, delay⟩ := delay_onCapacityError before
    rw [after_replicate_succ, AIMDThrottle.call, delay]
    refine le_min (min_le_left _ _) (le_trans ?_ grown)
    have positive : (0 : ℚ) ≤ config.backoffMultiplier := by linarith [config.one_lt_multiplier]
    refine le_trans ?_ (mul_le_mul_of_nonneg_right ih positive)
    rw [min_mul_of_nonneg _ _ positive, mul_assoc, ← pow_succ]
    refine min_le_min_right _ (le_mul_of_one_le_right ?_ config.one_lt_multiplier.le)
    exact config.min_nonneg.trans config.min_le_max

theorem InRange.errors_of_pos (positive : 0 < throttle.currentDelayMs) :
    ∃ enough, ∀ errors, enough ≤ errors →
      (throttle.after config (.replicate errors .onCapacityError)).currentDelayMs =
        config.maxDispatchDelayMs := by
  obtain ⟨enough, large⟩ := pow_unbounded_of_one_lt
    (config.maxDispatchDelayMs / throttle.currentDelayMs) config.one_lt_multiplier
  refine ⟨enough, fun errors more => le_antisymm (range.after _).le_max ?_⟩
  refine le_trans (le_min le_rfl ?_) (range.min_le_errors errors)
  rw [mul_comm]
  exact ((div_le_iff₀ positive).mp large.le).trans (mul_le_mul_of_nonneg_right
    (pow_le_pow_right₀ config.one_lt_multiplier.le more) positive.le)

/-- Enough errors in a row bring the delay to its maximum. -/
theorem InRange.errors : ∃ enough, ∀ errors, enough ≤ errors →
    (throttle.after config (.replicate errors .onCapacityError)).currentDelayMs =
      config.maxDispatchDelayMs := by
  -- A throttle that is off is on after one error, unless its maximum is zero.
  rcases (config.min_nonneg.trans config.min_le_max).lt_or_eq with room | none
  · obtain ⟨raised, positive, -, -, delay⟩ := delay_onCapacityError range
    obtain ⟨enough, reached⟩ := (range.call .onCapacityError).errors_of_pos
      (delay ▸ lt_min room positive)
    refine ⟨enough + 1, fun errors more => ?_⟩
    obtain ⟨rest, rfl⟩ := Nat.exists_eq_add_of_le' more
    exact reached (rest + enough) (Nat.le_add_left _ _)
  · exact ⟨0, fun errors _ => le_antisymm (range.after _).le_max (none ▸ (range.after _).nonneg)⟩

end

theorem delay_successes (successes : Nat) :
    (throttle.after config (.replicate (successes + 1) .onSuccess)).currentDelayMs =
      max config.minDispatchDelayMs
        (throttle.currentDelayMs - (successes + 1) * config.recoveryStepMs) := by
  induction successes with
  | zero => exact delay_onSuccess.trans (by norm_num)
  | succ successes ih =>
    rw [after_replicate_succ, call, delay_onSuccess, ih, ← max_sub_sub_right, ← max_assoc,
      max_eq_left (sub_le_self _ config.step_nonneg), sub_sub, ← add_one_mul, Nat.cast_succ]

/-- With a recovery step, enough successes in a row bring the delay to its minimum. -/
theorem successes_of_step (step : 0 < config.recoveryStepMs) : ∃ successes,
    (throttle.after config (.replicate successes .onSuccess)).currentDelayMs =
      config.minDispatchDelayMs := by
  obtain ⟨enough, large⟩ := exists_nat_gt (throttle.currentDelayMs / config.recoveryStepMs)
  refine ⟨enough + 1, (delay_successes enough).trans (max_eq_left ?_)⟩
  have covered := (div_lt_iff₀ step).mp large
  linarith [config.min_nonneg]

/-- Without one, the delay stays where it is. -/
theorem successes_of_no_step (none : config.recoveryStepMs = 0)
    (low : config.minDispatchDelayMs ≤ throttle.currentDelayMs) (successes : Nat) :
    (throttle.after config (.replicate successes .onSuccess)).currentDelayMs =
      throttle.currentDelayMs := by
  cases successes with
  | zero => rfl
  | succ successes =>
    rw [delay_successes, none, mul_zero, sub_zero, max_eq_right low]

end AIMDThrottle

open AIMDThrottle

/-- A configuration without a recovery step, which the validation accepts for its minimum. -/
def zeroStep : ThrottleConfig where
  minDispatchDelayMs := 10
  maxDispatchDelayMs := 100
  backoffMultiplier := 2
  recoveryStepMs := 0
  min_nonneg := by norm_num
  min_le_max := by norm_num
  one_lt_multiplier := by norm_num
  step_nonneg := le_rfl
  not_both_zero := by norm_num

end Elspeth.Pooling
