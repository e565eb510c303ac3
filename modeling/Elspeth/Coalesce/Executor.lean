import Elspeth.Coalesce.Policy
import Elspeth.Collections.Dict
import Elspeth.Lineage.Frames

/-!
# The coalesce executor

The executor holds the branches of a fork group until its policy merges or fails the
group.  Closed groups are remembered in a bounded dictionary; a group that has been
forgotten is looked up in the Landscape, where it is found if some node state at the
coalesce was completed for it.

## Design notes

A merge is planned by `planMerge`, which may refuse the rows it is given; the executor
turns a type conflict or a collision into a failed group and re-raises anything else.  An
outcome carries the group it belongs to; the source keeps that in its caller's hands.
The Landscape lookup joins lineage frames at any depth.  The groups that one coalesce
closes do not nest in each other, so it is the group of the token that matches.
-/

namespace Elspeth.Coalesce

open Collections Lineage

/-- A coalesce name and a fork group. -/
abbrev Key : Type := String × String

/-- A token as it travels: its lineage and its row. -/
structure Token (Row : Type) where
  tokenId : String
  lineagePath : Path
  rowData : Row
  deriving DecidableEq, Repr

variable {Row : Type}

def Token.branchName (token : Token Row) : Option String := pathBranchName token.lineagePath

def Token.forkGroupId (token : Token Row) : Option String := pathForkGroupId token.lineagePath

/-- An arrived branch. -/
structure BranchEntry (Row : Type) where
  token : Token Row
  arrivalTime : Int
  /-- The node state of the hold. -/
  stateId : Nat

/-- A group that waits for more of its branches. -/
structure PendingCoalesce (Row : Type) where
  branches : Dict String (BranchEntry Row)
  firstArrival : Int
  /-- Lost branches with the reason of each. -/
  lostBranches : Dict String String

def PendingCoalesce.tokens (pending : PendingCoalesce Row) : List (Token Row) :=
  pending.branches.values.map BranchEntry.token

inductive StateStatus where
  | pending
  | completed
  | failed
  deriving DecidableEq, Repr

/-- A node state at a coalesce. -/
structure NodeState where
  key : Key
  tokenId : String
  status : StateStatus
  deriving DecidableEq, Repr

/-- What an outcome says of its group or token. -/
inductive Verdict (Row : Type) where
  | held
  /-- The row of the merged token, and the branches it replaces. -/
  | merged (row : Row) (consumed : List (Token Row))
  | failed (reason : FailureReason) (consumed : List (Token Row))
  /-- A token came after its group had closed.  `firstFailureEvidence` tells that its state
  is the first one written for a group that failed without an arrival. -/
  | late (reason : FailureReason) (token : Token Row) (firstFailureEvidence : Bool)

structure CoalesceOutcome (Row : Type) where
  key : Key
  verdict : Verdict Row

def CoalesceOutcome.consumedTokens (outcome : CoalesceOutcome Row) : List (Token Row) :=
  match outcome.verdict with
  | .held => []
  | .merged _ consumed => consumed
  | .failed _ consumed => consumed
  | .late _ token _ => [token]

/-- The outcome of planning a merge. -/
inductive MergePlan (Row : Type) where
  | merged (row : Row)
  | contractTypeConflict (message : String)
  | unionFieldCollision
  | raises (message : String)

/-- The executor's memory, and the node states it has written. -/
structure Executor (Row : Type) where
  pending : Dict Key (PendingCoalesce Row)
  /-- Closed groups: merged, failed, or closed in a way not known in memory. -/
  completedKeys : Dict Key (Option Bool)
  /-- Groups that failed with no arrived branch, and have no node state yet. -/
  failedWithoutMemberState : List Key
  /-- A state is known by its position. -/
  nodeStates : List NodeState

def Executor.initial : Executor Row := ⟨.empty, .empty, [], []⟩

/-- A raised error, with what had been done before. -/
structure Raised (Row : Type) where
  error : CoalesceError
  executor : Executor Row

/-- The registered coalesces, the planner of merges and the bound on closed groups. -/
structure Environment (Row : Type) where
  settings : String → Option CoalesceSettings
  settings_name : ∀ name registered, settings name = some registered → registered.name = name
  planMerge : CoalesceSettings → (String → Option Row) → MergePlan Row
  /-- `none` for an unbounded executor. -/
  maxCompletedKeys : Option ℕ+

/-! ## Node states -/

namespace Executor

variable (executor : Executor Row)

def beginNodeState (key : Key) (token : Token Row) : Executor Row :=
  { executor with nodeStates := executor.nodeStates ++ [⟨key, token.tokenId, .pending⟩] }

/-- The position of the state that begins next. -/
def nextStateId : Nat := executor.nodeStates.length

def completeNodeState (status : StateStatus) (executor : Executor Row) (stateId : Nat) :
    Executor Row :=
  { executor with
    nodeStates := executor.nodeStates.modify stateId fun state => { state with status } }

def completeNodeStates (status : StateStatus) (stateIds : List Nat) :
    Executor Row :=
  stateIds.foldl (completeNodeState status) executor

/-- Some node state of the group has been completed. -/
def hasCompletedGroup (key : Key) : Bool :=
  executor.nodeStates.any fun state => state.key = key && state.status ≠ .pending

/-- Some node state of the group was completed by a merge. -/
def hasReleasedGroup (key : Key) : Bool :=
  executor.nodeStates.any fun state => state.key = key && state.status = .completed

end Executor

namespace Executor

variable (env : Environment Row)

/-! ## Closed groups -/

section

variable (executor : Executor Row)

variable (key : Key)

/-- Remember a closed group, and forget the oldest beyond the bound. -/
def markCompleted (merged : Option Bool) : Executor Row :=
  let marked := executor.completedKeys.set key merged
  let kept := executor.completedKeys.put env.maxCompletedKeys key merged
  { executor with
    completedKeys := kept
    failedWithoutMemberState := executor.failedWithoutMemberState.filter fun failed =>
      ¬(failed ∈ marked.keys ∧ failed ∉ kept.keys) }

/-- Whether a group is closed: in memory, or else by the Landscape, which is remembered. -/
def checkCompletion : Option (Executor Row) :=
  if key ∈ executor.completedKeys.keys then some executor
  else if executor.hasCompletedGroup key then some (markCompleted env executor key none)
  else none

/-- How a closed group was closed. -/
def closureOf (merged : Option Bool) : Bool × Executor Row :=
  match merged with
  | some merged => (merged, executor)
  | none =>
    let merged := executor.hasReleasedGroup key
    (merged, markCompleted env executor key (some merged))

/-- A group has, from now on, a node state that shows its failure. -/
def discardEvidence : Executor Row :=
  { executor with
    failedWithoutMemberState := executor.failedWithoutMemberState.filter (· ≠ key) }

/-- Reject a token whose group has closed. -/
def acceptLate (token : Token Row) :
    Except (Raised Row) (CoalesceOutcome Row × Executor Row) :=
  match executor.completedKeys.get key with
  | none => .error ⟨.keyMissing key.1 key.2, executor⟩
  | some merged =>
    let firstFailureEvidence := decide (key ∈ executor.failedWithoutMemberState)
    let (merged, known) := closureOf env (executor.discardEvidence key) key merged
    let reason := if merged then FailureReason.lateArrivalAfterMerge else .scopeGroupFailed
    .ok (⟨key, .late reason token firstFailureEvidence⟩,
      (known.beginNodeState key token).completeNodeState .failed known.nextStateId)

/-! ## Merging and failing -/

/-- Fail all arrived tokens of a pending group. -/
def failPending (reason : FailureReason) :
    Except (Raised Row) (CoalesceOutcome Row × Executor Row) :=
  match executor.pending.get key with
  | none => .error ⟨.keyMissing key.1 key.2, executor⟩
  | some pending =>
    let failed := executor.completeNodeStates .failed
      (pending.branches.values.map BranchEntry.stateId)
    let closed := markCompleted env { failed with pending := failed.pending.erase key } key
      (some false)
    .ok (⟨key, .failed reason pending.tokens⟩,
      if pending.tokens = [] then
        { closed with failedWithoutMemberState := key :: closed.failedWithoutMemberState }
      else closed)

section

variable (settings : CoalesceSettings)

/-- The entries a merge consumes, in declared branch order. -/
def consumedEntries (pending : PendingCoalesce Row) :
    List (BranchEntry Row) :=
  settings.branches.filterMap pending.branches.get

/-- Merge the arrived branches of a pending group. -/
def executeMerge (key : Key)
    (pending : PendingCoalesce Row) :
    Except (Raised Row) (CoalesceOutcome Row × Executor Row) :=
  if settings.merge = .select ∧ ∀ branch ∈ settings.selectBranch,
    branch ∉ pending.branches.keys then
    failPending env executor key .selectBranchNotArrived
  else
    match env.planMerge settings fun branch =>
        (pending.branches.get branch).map fun entry => entry.token.rowData with
    | .contractTypeConflict message => failPending env executor key (.contractTypeConflict message)
    | .unionFieldCollision => failPending env executor key .unionFieldCollision
    | .raises message =>
      -- The states of the group fail before the error is raised again.
      let failed := executor.completeNodeStates .failed
        (pending.branches.values.map BranchEntry.stateId)
      .error ⟨.mergeRaised message,
        markCompleted env { failed with pending := failed.pending.erase key } key (some false)⟩
    | .merged row =>
      let consumed := consumedEntries settings pending
      let merged := executor.completeNodeStates .completed (consumed.map BranchEntry.stateId)
      .ok (⟨key, .merged row (consumed.map BranchEntry.token)⟩,
        markCompleted env { merged with pending := merged.pending.erase key } key (some true))

/-! ## Arrivals -/

/-- Hold a token, and merge its group if the policy says so. -/
def acceptHeld (key : Key)
    (branch : String) (token : Token Row) (now : Int) :
    Except (Raised Row) (CoalesceOutcome Row × Executor Row) :=
  let found := (executor.pending.get key).getD ⟨.empty, now, .empty⟩
  let anchored := { found with firstArrival := min now found.firstArrival }
  if branch ∈ anchored.branches.keys then
    .error ⟨.duplicateArrival branch,
      { executor with pending := executor.pending.set key anchored }⟩
  else
    let entry : BranchEntry Row := ⟨token, now, executor.nextStateId⟩
    let pending := { anchored with branches := anchored.branches.set branch entry }
    let holding : Executor Row :=
      { executor.beginNodeState key token with pending := executor.pending.set key pending }
    match decideCoalesce settings .arrival pending.branches.size pending.lostBranches.keys
      key.2 with
    | .error error => .error ⟨error, holding⟩
    | .ok .merge => executeMerge env holding settings key pending
    | .ok _ => .ok (⟨key, .held⟩, holding)

end

/-- Accept a token at a coalesce. -/
def accept (token : Token Row) (name : String) (now : Int) :
    Except (Raised Row) (CoalesceOutcome Row × Executor Row) :=
  match env.settings name with
  | none => .error ⟨.notRegistered name, executor⟩
  | some settings =>
    match token.branchName with
    | none => .error ⟨.noBranchName token.tokenId, executor⟩
    | some branch =>
      if branch ∉ settings.branches then .error ⟨.unexpectedBranch branch, executor⟩
      else
        match token.forkGroupId with
        | none => .error ⟨.noForkGroup token.tokenId, executor⟩
        | some groupId =>
          match checkCompletion env executor (name, groupId) with
          | some known => acceptLate env known (name, groupId) token
          | none => acceptHeld env executor settings (name, groupId) branch token now

/-! ## Losses -/

/-- Evaluate a group again after a loss. -/
def evaluateAfterLoss (settings : CoalesceSettings) (key : Key) :
    Except (Raised Row) (Option (CoalesceOutcome Row) × Executor Row) :=
  match executor.pending.get key with
  | none => .error ⟨.keyMissing key.1 key.2, executor⟩
  | some pending =>
    match decideCoalesce settings .loss pending.branches.size pending.lostBranches.keys key.2 with
    | .error error => .error ⟨error, executor⟩
    | .ok .merge => (executeMerge env executor settings key pending).map fun (outcome, next) =>
      (some outcome, next)
    | .ok (.fail reason) => (failPending env executor key reason).map fun (outcome, next) =>
      (some outcome, next)
    | .ok .wait => .ok (none, executor)

/-- Record that a branch will never arrive. -/
def notifyBranchLost (name groupId branch reason : String) (now : Int) :
    Except (Raised Row) (Option (CoalesceOutcome Row) × Executor Row) :=
  match env.settings name with
  | none => .error ⟨.notRegistered name, executor⟩
  | some settings =>
    match checkCompletion env executor (name, groupId) with
    | some known => .ok (none, known)
    | none =>
      if branch ∉ settings.branches then .error ⟨.unexpectedBranch branch, executor⟩
      else
        match executor.pending.get (name, groupId) with
        | none =>
          let pending := ⟨.empty, now, Dict.empty.set branch reason⟩
          evaluateAfterLoss env
            { executor with pending := executor.pending.set (name, groupId) pending }
            settings (name, groupId)
        | some pending =>
          if branch ∈ pending.branches.keys then .error ⟨.lostAfterArrival branch, executor⟩
          else if branch ∈ pending.lostBranches.keys then
            .error ⟨.duplicateLoss branch, executor⟩
          else
            let lost := { pending with lostBranches := pending.lostBranches.set branch reason }
            evaluateAfterLoss env
              { executor with pending := executor.pending.set (name, groupId) lost }
              settings (name, groupId)

/-! ## Timeouts and the end of input -/

/-- Resolve a pending group at a timeout or at the end of input. -/
def resolvePending (settings : CoalesceSettings) (event : CoalesceEvent) (executor : Executor Row)
    (key : Key) (pending : PendingCoalesce Row) :
    Except (Raised Row) (CoalesceOutcome Row × Executor Row) :=
  match decideCoalesce settings event pending.branches.size pending.lostBranches.keys key.2 with
  | .error error => .error ⟨error, executor⟩
  | .ok .merge => executeMerge env executor settings key pending
  | .ok (.fail reason) => failPending env executor key reason
  | .ok .wait => .error ⟨.waitAtResolution, executor⟩

/-- Resolve one group that timed out. -/
def timeOut (settings : CoalesceSettings) (executor : Executor Row) (key : Key) :
    Except (Raised Row) (CoalesceOutcome Row × Executor Row) :=
  match executor.pending.get key with
  | none => .error ⟨.keyMissing key.1 key.2, executor⟩
  | some pending => resolvePending env settings .timeout executor key pending

/-- Resolve one group at the end of input. -/
def flushKey :
    Except (Raised Row) (CoalesceOutcome Row × Executor Row) :=
  match env.settings key.1 with
  | none => .error ⟨.keyMissing key.1 key.2, executor⟩
  | some settings =>
    match executor.pending.get key with
    | none => .error ⟨.keyMissing key.1 key.2, executor⟩
    | some pending =>
      if settings.policy = .bestEffort ∧ pending.branches.size = 0 ∧
          pending.lostBranches.size = 0 then
        .error ⟨.emptyPending key.1 key.2, executor⟩
      else resolvePending env settings .flush executor key pending

end

/-- Resolve groups one after another. -/
def resolveAll (resolve : Executor Row → Key →
    Except (Raised Row) (CoalesceOutcome Row × Executor Row)) :
    List Key → Executor Row → Except (Raised Row) (List (CoalesceOutcome Row) × Executor Row)
  | [], executor => .ok ([], executor)
  | key :: keys, executor => do
      let (outcome, next) ← resolve executor key
      let (outcomes, last) ← resolveAll resolve keys next
      pure (outcome :: outcomes, last)

variable (executor : Executor Row)

/-- The pending groups of a coalesce that have waited long enough. -/
def timedOut (name : String) (timeout now : Int) : List Key :=
  (executor.pending.entries.filter fun (key, pending) =>
    key.1 = name ∧ timeout ≤ now - pending.firstArrival).map Prod.fst

def checkTimeouts (name : String) (now : Int) :
    Except (Raised Row) (List (CoalesceOutcome Row) × Executor Row) :=
  match env.settings name with
  | none => .error ⟨.notRegistered name, executor⟩
  | some settings =>
    match settings.timeoutSeconds with
    | none => .ok ([], executor)
    | some timeout =>
      resolveAll (timeOut env settings) (executor.timedOut name timeout now) executor

/-- Resolve every pending group, and forget the closed ones. -/
def flushPending :
    Except (Raised Row) (List (CoalesceOutcome Row) × Executor Row) := do
  let (outcomes, flushed) ← resolveAll (flushKey env) executor.pending.keys executor
  pure (outcomes, { flushed with completedKeys := .empty, failedWithoutMemberState := [] })

end Executor

/-! ## Calls -/

/-- What a leader asks of its coalesce executor. -/
inductive Call (Row : Type) where
  | accept (token : Token Row) (name : String) (now : Int)
  | notifyBranchLost (name groupId branch reason : String) (now : Int)
  | checkTimeouts (name : String) (now : Int)
  | flushPending

/-- One call, with the outcomes it returns. -/
def Call.run (env : Environment Row) (executor : Executor Row) :
    Call Row → Except (Raised Row) (List (CoalesceOutcome Row) × Executor Row)
  | .accept token name now => (executor.accept env token name now).map fun (outcome, next) =>
    ([outcome], next)
  | .notifyBranchLost name groupId branch reason now =>
    (executor.notifyBranchLost env name groupId branch reason now).map fun (outcome, next) =>
      (outcome.toList, next)
  | .checkTimeouts name now => executor.checkTimeouts env name now
  | .flushPending => executor.flushPending env

/-- The branch of a group that a call reports, as arrived or as lost. -/
def Call.member : Call Row → Option (Key × String)
  | .accept token name _ => do
      let groupId ← token.forkGroupId
      let branch ← token.branchName
      pure ((name, groupId), branch)
  | .notifyBranchLost name groupId branch _ _ => some ((name, groupId), branch)
  | .checkTimeouts _ _ => none
  | .flushPending => none

end Elspeth.Coalesce
