import Elspeth.Coalesce.Executor

/-!
# How a coalesce group closes

An arrival, a loss, a timeout or the end of input closes a group by failing or by merging it,
or lets it wait.  Which of these, and what is answered and written then, is decided from the
members of the group alone; the executor's part is to carry it out.
-/

namespace Elspeth.Coalesce

open Collections Lineage Dict List

variable {Row : Type}

/-! ## Closings -/

/-- How a group closes: what is answered, and what is written. -/
structure Closing (Row : Type) where
  verdict : Verdict Row
  status : StateStatus
  stateIds : List Nat

/-- The group closes as failed. -/
def failing (pending : PendingCoalesce Row) (reason : FailureReason) : Closing Row :=
  ⟨.failed reason pending.tokens, .failed, pending.branches.values.map BranchEntry.stateId⟩

variable (env : Environment Row)

/-- How a merge closes its group, or what planning it raised. -/
def merging (settings : CoalesceSettings) (pending : PendingCoalesce Row) :
    Except CoalesceError (Closing Row) :=
  if settings.merge = .select ∧ ∀ branch ∈ settings.selectBranch,
    branch ∉ pending.branches.keys then
    .ok (failing pending .selectBranchNotArrived)
  else
    match env.planMerge settings fun branch =>
        (pending.branches.get branch).map fun entry => entry.token.rowData with
    | .contractTypeConflict message => .ok (failing pending (.contractTypeConflict message))
    | .unionFieldCollision => .ok (failing pending .unionFieldCollision)
    | .raises message => .error (.mergeRaised message)
    | .merged row =>
      let consumed := Executor.consumedEntries settings pending
      .ok ⟨.merged row (consumed.map BranchEntry.token), .completed,
        consumed.map BranchEntry.stateId⟩

/-- How an event closes a group, if it does not let the group wait. -/
def closingOf (settings : CoalesceSettings) (event : CoalesceEvent) (key : Key)
    (pending : PendingCoalesce Row) : Except CoalesceError (Option (Closing Row)) :=
  match decideCoalesce settings event pending.branches.size pending.lostBranches.keys key.2 with
  | .error error => .error error
  | .ok .merge => (merging env settings pending).map some
  | .ok (.fail reason) => .ok (some (failing pending reason))
  | .ok .wait => .ok none

namespace Executor

/-- The executor once a group has closed. -/
def close (executor : Executor Row) (key : Key) (closing : Closing Row) : Executor Row :=
  let completed := executor.completeNodeStates closing.status closing.stateIds
  let closed := markCompleted env { completed with pending := completed.pending.erase key } key
    (some (decide (closing.status = .completed)))
  { closed with
    failedWithoutMemberState :=
      if closing.status = .failed ∧ closing.stateIds = [] then
        key :: closed.failedWithoutMemberState
      else closed.failedWithoutMemberState }

/-- What the executor does about a group: `held` if the group waits. -/
def carryOut {α : Type} (executor : Executor Row) (key : Key) (raised : Executor Row)
    (wrap : CoalesceOutcome Row → α) (held : Except (Raised Row) (α × Executor Row)) :
    Except CoalesceError (Option (Closing Row)) → Except (Raised Row) (α × Executor Row)
  | .error error => .error ⟨error, raised⟩
  | .ok none => held
  | .ok (some closing) => .ok (wrap ⟨key, closing.verdict⟩, executor.close env key closing)

variable {env} {executor : Executor Row} {key : Key} {pending : PendingCoalesce Row}
  {settings : CoalesceSettings} {branch : String} {token : Token Row} {now : Int}

theorem failPending_eq (found : executor.pending.get key = some pending) (reason : FailureReason) :
    executor.failPending env key reason = .ok (⟨key, (failing pending reason).verdict⟩,
      executor.close env key (failing pending reason)) := by
  unfold failPending close failing PendingCoalesce.tokens
  rw [found]
  by_cases none_arrived : pending.branches.values = [] <;> simp [none_arrived]

/-- A merge, as the closing it comes to. -/
theorem executeMerge_eq (found : executor.pending.get key = some pending)
    (settings : CoalesceSettings) :
    ∃ raised, executor.executeMerge env settings key pending =
      match merging env settings pending with
      | .error error => .error ⟨error, raised⟩
      | .ok closing => .ok (⟨key, closing.verdict⟩, executor.close env key closing) := by
  unfold executeMerge merging
  split
  · exact ⟨executor, failPending_eq found _⟩
  · cases env.planMerge settings fun branch =>
        (pending.branches.get branch).map fun entry => entry.token.rowData with
    | contractTypeConflict | unionFieldCollision => exact ⟨executor, failPending_eq found _⟩
    | raises => exact ⟨_, rfl⟩
    | merged => exact ⟨executor, by simp [close]⟩

/-- A group that is resolved closes; it is an error if it waits. -/
theorem resolvePending_eq (found : executor.pending.get key = some pending)
    (settings : CoalesceSettings) (event : CoalesceEvent) :
    ∃ raised, resolvePending env settings event executor key pending =
      carryOut env executor key raised id (.error ⟨.waitAtResolution, executor⟩)
        (closingOf env settings event key pending) := by
  obtain ⟨raised, merge⟩ := @executeMerge_eq _ env _ _ _ found settings
  unfold resolvePending closingOf
  simp only [merge, failPending_eq found]
  cases decideCoalesce settings event pending.branches.size pending.lostBranches.keys key.2 with
  | error => exact ⟨executor, rfl⟩
  | ok decision =>
    refine ⟨raised, ?_⟩
    cases decision with
    | merge => cases merging env settings pending <;> rfl
    | fail | wait => rfl

theorem evaluateAfterLoss_eq (found : executor.pending.get key = some pending)
    (settings : CoalesceSettings) :
    ∃ raised, executor.evaluateAfterLoss env settings key =
      carryOut env executor key raised some (.ok (none, executor))
        (closingOf env settings .loss key pending) := by
  obtain ⟨raised, merge⟩ := @executeMerge_eq _ env _ _ _ found settings
  unfold evaluateAfterLoss closingOf
  simp only [found, merge, failPending_eq found]
  cases decideCoalesce settings .loss pending.branches.size pending.lostBranches.keys key.2 with
  | error => exact ⟨executor, rfl⟩
  | ok decision =>
    refine ⟨raised, ?_⟩
    cases decision with
    | merge => cases merging env settings pending <;> rfl
    | fail | wait => rfl

end Executor

/-! ## Reports -/

/-- The group with one more arrived branch. -/
def PendingCoalesce.arrive (pending : PendingCoalesce Row) (branch : String)
    (entry : BranchEntry Row) : PendingCoalesce Row :=
  { pending with
    firstArrival := min entry.arrivalTime pending.firstArrival
    branches := pending.branches.set branch entry }

/-- The group with one more lost branch. -/
def PendingCoalesce.lose (pending : PendingCoalesce Row) (branch reason : String) :
    PendingCoalesce Row :=
  { pending with lostBranches := pending.lostBranches.set branch reason }

namespace Executor

section

variable (executor : Executor Row) (key : Key)

/-- The group that a report is about. -/
def waitingFor (now : Int) : PendingCoalesce Row :=
  (executor.pending.get key).getD ⟨.empty, now, .empty⟩

/-- That group with the token that arrives. -/
def arriving (branch : String) (token : Token Row) (now : Int) : PendingCoalesce Row :=
  (executor.waitingFor key now).arrive branch ⟨token, now, executor.nextStateId⟩

/-- The executor once the group has other members. -/
def join (waiting : PendingCoalesce Row) (added : List NodeState) : Executor Row :=
  { executor with
    pending := executor.pending.set key waiting
    nodeStates := executor.nodeStates ++ added }

/-- The executor that holds one more token. -/
def holding (branch : String) (token : Token Row) (now : Int) : Executor Row :=
  executor.join key (executor.arriving key branch token now) [⟨key, token.tokenId, .pending⟩]

/-- The executor that knows of one more lost branch. -/
def losing (branch reason : String) (now : Int) : Executor Row :=
  executor.join key ((executor.waitingFor key now).lose branch reason) []

end

variable {env} {executor : Executor Row} {key : Key} {settings : CoalesceSettings}
  {branch : String} {token : Token Row} {now : Int}

theorem acceptHeld_of_new (settings : CoalesceSettings) (token : Token Row)
    (new : branch ∉ (executor.waitingFor key now).branches.keys) :
    executor.acceptHeld env settings key branch token now =
      match decideCoalesce settings .arrival
        (executor.arriving key branch token now).branches.size
        (executor.arriving key branch token now).lostBranches.keys key.2 with
      | .error error => .error ⟨error, executor.holding key branch token now⟩
      | .ok .merge => (executor.holding key branch token now).executeMerge env settings key
        (executor.arriving key branch token now)
      | .ok _ => .ok (⟨key, .held⟩, executor.holding key branch token now) :=
  if_neg new

theorem acceptHeld_eq (settings : CoalesceSettings) (token : Token Row)
    (new : branch ∉ (executor.waitingFor key now).branches.keys) :
    ∃ raised, executor.acceptHeld env settings key branch token now =
      carryOut env (executor.holding key branch token now) key raised id
        (.ok (⟨key, .held⟩, executor.holding key branch token now))
        (closingOf env settings .arrival key (executor.arriving key branch token now)) := by
  have found : (executor.holding key branch token now).pending.get key =
    some (executor.arriving key branch token now) := get_set_self executor.pending key _
  obtain ⟨raised, merge⟩ := @executeMerge_eq _ env _ _ _ found settings
  rw [acceptHeld_of_new settings token new, merge]
  unfold closingOf
  cases decided : decideCoalesce settings .arrival
      (executor.arriving key branch token now).branches.size
      (executor.arriving key branch token now).lostBranches.keys key.2 with
  | error => exact ⟨_, rfl⟩
  | ok decision =>
    refine ⟨raised, ?_⟩
    cases decision with
    | merge => cases merging env settings (executor.arriving key branch token now) <;> rfl
    | fail => exact absurd decided decideCoalesce_arrival_ne_fail
    | wait => rfl

end Executor

end Elspeth.Coalesce
