import Mathlib.Data.List.Sort
import Mathlib.Data.String.Basic

/-!
# The coalesce policy matrix

A coalesce joins the branches of a fork.  When a branch arrives, when the group times out,
at the end of input and when a branch is lost, its policy says whether to merge what
arrived, to fail the group, or to wait.
-/

namespace Elspeth.Coalesce

inductive CoalescePolicy where
  | requireAll
  | quorum
  | bestEffort
  | first
  deriving DecidableEq, Repr

inductive MergeStrategy where
  | union
  | nested
  | select
  deriving DecidableEq, Repr

/-- A validated coalesce configuration.  Instants and durations are ticks of one clock. -/
structure CoalesceSettings where
  name : String
  branches : List String
  policy : CoalescePolicy
  merge : MergeStrategy
  timeoutSeconds : Option Int
  quorumCount : Option Nat
  selectBranch : Option String
  nodup_branches : branches.Nodup
  two_le_branches : 2 ≤ branches.length
  quorum_bounds : ∀ count, quorumCount = some count →
    0 < count ∧ (policy = .quorum → count ≤ branches.length)
  quorum_set : policy = .quorum → quorumCount ≠ none
  timeout_set : policy = .bestEffort → timeoutSeconds ≠ none
  select_set : merge = .select → selectBranch ≠ none
  select_mem : ∀ branch, selectBranch = some branch → branch ∈ branches

/-- A coalesce that waits for every branch and unions their fields. -/
abbrev CoalesceSettings.requireAllUnion (name : String) (branches : List String)
    (nodup_branches : branches.Nodup) (two_le_branches : 2 ≤ branches.length) :
    CoalesceSettings where
  name := name
  branches := branches
  policy := .requireAll
  merge := .union
  timeoutSeconds := none
  quorumCount := none
  selectBranch := none
  nodup_branches := nodup_branches
  two_le_branches := two_le_branches
  quorum_bounds := nofun
  quorum_set := nofun
  timeout_set := nofun
  select_set := nofun
  select_mem := nofun

/-- The moment a verdict is needed for. -/
inductive CoalesceEvent where
  | arrival
  | timeout
  | flush
  | loss
  deriving DecidableEq, Repr

/-- Why a group or a token failed. -/
inductive FailureReason where
  | incompleteBranches
  | branchLost (branches : List String)
  | firstTimeoutNoArrivals
  | allBranchesLost
  | quorumNotMetAtTimeout
  | quorumNotMet
  | quorumImpossible (need : Nat) (maxPossible : Int)
  | bestEffortTimeoutNoArrivals
  | selectBranchNotArrived
  | contractTypeConflict (message : String)
  | unionFieldCollision
  | lateArrivalAfterMerge
  | scopeGroupFailed
  deriving DecidableEq, Repr

/-- A verdict.  Exactly a failure has a reason. -/
inductive CoalesceDecision where
  | merge
  | fail (reason : FailureReason)
  | wait
  deriving DecidableEq, Repr

/-- What a coalesce raises. -/
inductive CoalesceError where
  | notRegistered (name : String)
  | noBranchName (tokenId : String)
  | unexpectedBranch (branch : String)
  | noForkGroup (tokenId : String)
  | duplicateArrival (branch : String)
  | lostAfterArrival (branch : String)
  | duplicateLoss (branch : String)
  | quorumUnset (name : String)
  | firstHasArrivals (name groupId : String)
  | waitAtResolution
  | emptyPending (name groupId : String)
  | keyMissing (name groupId : String)
  | mergeRaised (message : String)
  deriving DecidableEq, Repr

section

variable (settings : CoalesceSettings)

def requireQuorumCount : Except CoalesceError Nat :=
  match settings.quorumCount with
  | none => .error (.quorumUnset settings.name)
  | some count => .ok count

/-- The whole policy matrix: one arm per policy, covering every event. -/
def decideCoalesce (event : CoalesceEvent) (arrived : Nat)
    (lost : List String) (groupId : String) : Except CoalesceError CoalesceDecision :=
  let expected := settings.branches.length
  match settings.policy with
  | .requireAll =>
    match event with
    | .arrival => .ok (if arrived = expected then .merge else .wait)
    | .timeout => .ok (.fail .incompleteBranches)
    | .flush => .ok (.fail .incompleteBranches)
    | .loss => .ok (.fail (.branchLost (lost.mergeSort (· ≤ ·))))
  | .first =>
    match event with
    | .arrival => .ok (if 1 ≤ arrived then .merge else .wait)
    | .timeout =>
      if arrived = 0 then .ok (.fail .firstTimeoutNoArrivals)
      else .error (.firstHasArrivals settings.name groupId)
    | .flush =>
      if arrived = 0 then .ok (.fail .allBranchesLost)
      else .error (.firstHasArrivals settings.name groupId)
    | .loss =>
      .ok (if arrived = 0 ∧ expected ≤ arrived + lost.length then .fail .allBranchesLost
        else .wait)
  | .quorum => do
      let quorum ← requireQuorumCount settings
      match event with
      | .arrival => pure (if quorum ≤ arrived then .merge else .wait)
      | .timeout => pure (if quorum ≤ arrived then .merge else .fail .quorumNotMetAtTimeout)
      | .flush => pure (if quorum ≤ arrived then .merge else .fail .quorumNotMet)
      | .loss =>
        let maxPossible : Int := expected - lost.length
        pure (if maxPossible < quorum then .fail (.quorumImpossible quorum maxPossible)
          else if quorum ≤ arrived then .merge
          else .wait)
  | .bestEffort =>
    match event with
    | .arrival => .ok (if expected ≤ arrived + lost.length then .merge else .wait)
    | .timeout => .ok (if 0 < arrived then .merge else .fail .bestEffortTimeoutNoArrivals)
    | .flush => .ok (if 0 < arrived then .merge else .fail .allBranchesLost)
    | .loss =>
      .ok (if expected ≤ arrived + lost.length then
        if 0 < arrived then .merge else .fail .allBranchesLost
        else .wait)

/-! ## What a verdict says -/

/-- The numbers of arrived branches a policy merges. -/
def CoalesceSettings.Admits (arrived : Nat) : Prop :=
  match settings.policy with
  | .requireAll => arrived = settings.branches.length
  | .quorum => ∃ count, settings.quorumCount = some count ∧ count ≤ arrived
  | .bestEffort => 0 < arrived
  | .first => 0 < arrived

end

variable {settings : CoalesceSettings} {arrived : Nat} {event : CoalesceEvent} {lost : List String}
  {groupId : String}

theorem CoalesceSettings.quorumCount_eq (policy : settings.policy = .quorum) :
    ∃ count, settings.quorumCount = some count :=
  Option.ne_none_iff_exists'.mp (settings.quorum_set policy)

theorem CoalesceSettings.Admits.pos (admits : settings.Admits arrived) : 0 < arrived := by
  have two := settings.two_le_branches
  unfold Admits at admits
  split at admits
  · omega
  · obtain ⟨count, set, enough⟩ := admits
    exact Nat.lt_of_lt_of_le (settings.quorum_bounds count set).1 enough
  · exact admits
  · exact admits

/-- The group resolves, unless a group of policy `first` still holds an arrival. -/
theorem decideCoalesce_ok (settings : CoalesceSettings) (event : CoalesceEvent)
    (lost : List String) (groupId : String) (unheld : settings.policy = .first →
      event = .timeout ∨ event = .flush → arrived = 0) :
    ∃ decision, decideCoalesce settings event arrived lost groupId = .ok decision := by
  unfold decideCoalesce
  cases policy : settings.policy with
  | requireAll | bestEffort => cases event <;> exact ⟨_, rfl⟩
  | quorum =>
    obtain ⟨count, set⟩ := CoalesceSettings.quorumCount_eq policy
    simp only [requireQuorumCount, set]
    cases event <;> exact ⟨_, rfl⟩
  | first =>
    cases event with
    | arrival | loss => exact ⟨_, rfl⟩
    | timeout => exact ⟨_, if_pos (unheld policy (.inl rfl))⟩
    | flush => exact ⟨_, if_pos (unheld policy (.inr rfl))⟩

/-- A verdict at a timeout or at the end of input is never to wait. -/
theorem decideCoalesce_resolves (forced : event = .timeout ∨ event = .flush) :
    decideCoalesce settings event arrived lost groupId ≠ .ok .wait := by
  unfold decideCoalesce
  rcases forced with rfl | rfl <;> split <;> simp only [requireQuorumCount] <;> intro waits
  all_goals (try split at waits) <;> simp [bind, Except.bind, pure, Except.pure] at waits
  all_goals (split at waits <;> simp at waits)

/-- An arrival never fails its group. -/
theorem decideCoalesce_arrival_ne_fail {reason : FailureReason} :
    decideCoalesce settings .arrival arrived lost groupId ≠ .ok (.fail reason) := by
  unfold decideCoalesce
  split <;> simp only [requireQuorumCount] <;> intro fails
  all_goals (try split at fails) <;> simp [bind, Except.bind, pure, Except.pure] at fails
  all_goals (split at fails <;> simp at fails)

/-- A merge has an arrival set its policy admits. -/
theorem admits_of_merge (merges : decideCoalesce settings event arrived lost groupId = .ok .merge)
    (arrives : event = .arrival → 0 < arrived) : settings.Admits arrived := by
  unfold decideCoalesce at merges
  unfold CoalesceSettings.Admits
  cases policy : settings.policy with
  | requireAll =>
    simp only [policy] at merges
    cases event <;> simp at merges
    exact merges
  | first =>
    simp only [policy] at merges
    cases event with
    | arrival => exact arrives rfl
    | timeout | flush | loss =>
      simp only at merges
      split at merges <;> simp at merges
  | quorum =>
    obtain ⟨count, set⟩ := CoalesceSettings.quorumCount_eq policy
    simp only [policy, requireQuorumCount, set, bind, Except.bind, pure, Except.pure] at merges
    refine ⟨count, set, ?_⟩
    cases event with
    | loss =>
      simp only [Except.ok.injEq] at merges
      split at merges
      · cases merges
      · split at merges
        · assumption
        · cases merges
    | _ =>
      simp only [Except.ok.injEq] at merges
      split at merges
      · assumption
      · cases merges
  | bestEffort =>
    simp only [policy] at merges
    cases event with
    | arrival => exact arrives rfl
    | timeout | flush =>
      simp only [Except.ok.injEq] at merges
      split at merges
      · assumption
      · cases merges
    | loss =>
      simp only [Except.ok.injEq] at merges
      split at merges
      · split at merges
        · assumption
        · cases merges
      · cases merges

end Elspeth.Coalesce
