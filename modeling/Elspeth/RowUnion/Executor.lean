import Elspeth.Coalesce.Executor
import Mathlib.Data.List.Dedup

/-!
# The row union executor

A row union holds the branches of a fork group until every declared branch has arrived, and
then releases the tokens it was given, in declared order and without the FORK frame of the
group.  A timeout, the end of input or a lost branch fails the tokens that are held, and a
token that comes to a closed group fails alone.

## Design notes

A node state is known by its position and keeps its token and the instant it blocked at,
which the source reads from the journal row of the token.  The Landscape lookups join
lineage frames at any depth; the groups that one union closes do not nest in each other, so
it is the group of the token that matches.  An outcome carries the group it belongs to.
-/

namespace Elspeth.RowUnion

open Collections Lineage

export Coalesce (Key Token StateStatus)

variable {Row : Type}

/-- A validated row union configuration, with the branches in declared order. -/
structure RowUnionSettings where
  name : String
  branches : List String
  timeoutSeconds : Option Int
  nodup_branches : branches.Nodup
  two_le_branches : 2 ≤ branches.length

/-- Why a group closed or a token failed. -/
inductive Reason where
  | released
  | branchLost
  | groupFailed
  | timeout
  | incompleteAtFlush
  | lateArrivalAfterRelease
  deriving DecidableEq, Repr

/-- The reason a token fails with that comes to a group closed for `reason`. -/
def Reason.late (reason : Reason) : Reason :=
  if reason = .released then .lateArrivalAfterRelease else reason

/-- What a row union raises. -/
inductive RowUnionError where
  | notRegistered (name : String)
  | noBranchName (tokenId : String)
  | unexpectedBranch (branch : String)
  | noForkGroup (tokenId : String)
  | duplicateArrival (branch : String)
  | pendingNotEmpty
  | duplicateRestored (branch : String)
  | missingState (tokenId : String)
  | noForkFrame (tokenId : String)
  | mixedGroups
  | lineage (error : LineageError)
  | keyMissing (name groupId : String)
  deriving DecidableEq, Repr

/-- An arrived branch. -/
structure BranchEntry (Row : Type) where
  token : Token Row
  arrivalTime : Int
  /-- The node state of the hold. -/
  stateId : Nat

/-- A group that waits for more of its branches. -/
structure PendingRowUnion (Row : Type) where
  branches : Dict String (BranchEntry Row)
  firstArrival : Int

def PendingRowUnion.tokens (pending : PendingRowUnion Row) : List (Token Row) :=
  pending.branches.values.map BranchEntry.token

/-- A node state at a row union. -/
structure NodeState (Row : Type) where
  key : Key
  token : Token Row
  blockedAt : Int
  status : StateStatus

structure Landscape (Row : Type) where
  nodeStates : List (NodeState Row)
  /-- The tokens with a recorded failure. -/
  outcomes : List String
  losses : List (Key × String)

structure Executor (Row : Type) where
  pending : Dict Key (PendingRowUnion Row)
  completedKeys : Dict Key Reason
  /-- Groups closed by a loss before any branch arrived. -/
  failedWithoutMemberState : List Key
  recordedLosses : Dict (Key × String) Unit
  recordedLossGroups : Dict Key Unit
  landscape : Landscape Row

/-- What an outcome says of its group or token. -/
inductive Verdict (Row : Type) where
  | held
  | released (tokens : List (Token Row))
  | failed (reason : Reason) (tokens : List (Token Row))
  | late (reason : Reason) (token : Token Row) (firstFailureEvidence : Bool)

structure RowUnionOutcome (Row : Type) where
  key : Key
  verdict : Verdict Row

/-- A raised error, with what had been done before. -/
structure Raised (Row : Type) where
  error : RowUnionError
  executor : Executor Row

/-- The registered row unions and the bound on what is remembered. -/
structure Environment where
  settings : String → Option RowUnionSettings
  maxCompletedKeys : ℕ+

namespace Executor

/-- An executor without memory. -/
def fresh (landscape : Landscape Row) : Executor Row :=
  ⟨.empty, .empty, [], .empty, .empty, landscape⟩

def initial : Executor Row := fresh ⟨[], [], []⟩

/-! ## Node states -/

variable (executor : Executor Row)

def beginNodeState (key : Key) (token : Token Row) (now : Int) :
    Executor Row :=
  { executor with
    landscape.nodeStates := executor.landscape.nodeStates ++ [⟨key, token, now, .pending⟩] }

/-- The position of the state that begins next. -/
def nextStateId : Nat := executor.landscape.nodeStates.length

def completeNodeState (status : StateStatus) (stateId : Nat) :
    Executor Row :=
  { executor with
    landscape.nodeStates :=
      executor.landscape.nodeStates.modify stateId fun state => { state with status } }

def recordTokenOutcome (token : Token Row) : Executor Row :=
  { executor with landscape.outcomes := executor.landscape.outcomes ++ [token.tokenId] }

/-- Some node state of the group has been completed. -/
def hasCompletedGroup (key : Key) : Bool :=
  executor.landscape.nodeStates.any fun state => state.key = key && state.status ≠ .pending

/-- Some node state of the group was completed by a release. -/
def hasReleasedGroup (key : Key) : Bool :=
  executor.landscape.nodeStates.any fun state => state.key = key && state.status = .completed

def hasGroupLoss (key : Key) : Bool :=
  executor.landscape.losses.any fun loss => loss.1 = key

end Executor

/-! ## Releasing -/

/-- The group a released token leaves. -/
def releasedGroupId (token : Token Row) : Except RowUnionError String :=
  match innermostForkFrame token.lineagePath with
  | none => .error (.noForkFrame token.tokenId)
  | some frame => .ok frame.groupId

def popReleased (groupId : String) (token : Token Row) : Except RowUnionError (Token Row) :=
  match popForkFrame token.lineagePath groupId with
  | .error error => .error (.lineage error)
  | .ok lineagePath => .ok { token with lineagePath }

/-- Pop the shared FORK frame off every released token. -/
def popReleasedGroup (released : List (Token Row)) : Except RowUnionError (List (Token Row)) := do
  let groupIds ← released.mapM releasedGroupId
  match groupIds.dedup with
  | [groupId] => released.mapM (popReleased groupId)
  | _ => .error .mixedGroups

namespace Executor

variable (env : Environment)

/-! ## Memory -/

section

variable (executor : Executor Row)

/-- Remember a closed group, and forget the oldest beyond the bound. -/
def markCompleted (key : Key) (reason : Reason) : Executor Row :=
  let marked := executor.completedKeys.set key reason
  let kept := executor.completedKeys.put (some env.maxCompletedKeys) key reason
  { executor with
    completedKeys := kept
    failedWithoutMemberState := executor.failedWithoutMemberState.filter fun failed =>
      ¬(failed ∈ marked.keys ∧ failed ∉ kept.keys) }

/-- Remember a loss as the latest one, and forget the oldest beyond the bound. -/
def rememberBranchLoss (key : Key) (branch : String) : Executor Row :=
  { executor with
    recordedLosses :=
      ((executor.recordedLosses.erase (key, branch)).put (some env.maxCompletedKeys) (key, branch)
        ())
    recordedLossGroups :=
      ((executor.recordedLossGroups.erase key).put (some env.maxCompletedKeys) key ()) }

/-- The group has a recorded loss, in memory or in the ledger. -/
def knowsLoss (key : Key) : Bool :=
  key ∈ executor.recordedLossGroups.keys ∨ executor.hasGroupLoss key

/-- Whether a group is closed: in memory, or else by the Landscape, which is remembered with
the reason that it shows. -/
def checkCompletion (key : Key) : Option (Executor Row) :=
  if key ∈ executor.completedKeys.keys then some executor
  else if executor.hasCompletedGroup key then
    some (markCompleted env executor key
      (if executor.hasReleasedGroup key then .released
        else if executor.knowsLoss key then .branchLost
        else .groupFailed))
  else none

/-! ## Release and failure -/

section

variable (settings : RowUnionSettings)

/-- The entries of a group, in declared branch order. -/
def releasedEntries (pending : PendingRowUnion Row) :
    List (BranchEntry Row) :=
  settings.branches.filterMap pending.branches.get

/-- Release a group whose branches have all arrived. -/
def executeRelease (key : Key)
    (pending : PendingRowUnion Row) :
    Except (Raised Row) (RowUnionOutcome Row × Executor Row) :=
  let entries := releasedEntries settings pending
  let completed := entries.foldl (fun executor entry =>
    executor.completeNodeState .completed entry.stateId) executor
  let closed :=
    markCompleted env { completed with pending := completed.pending.erase key } key .released
  match popReleasedGroup (entries.map BranchEntry.token) with
  | .error error => .error ⟨error, closed⟩
  | .ok released => .ok (⟨key, .released released⟩, closed)

/-- Every declared branch has arrived. -/
def Complete (pending : PendingRowUnion Row) : Prop :=
  (∀ branch ∈ pending.branches.keys, branch ∈ settings.branches) ∧
    ∀ branch ∈ settings.branches, branch ∈ pending.branches.keys

instance (settings : RowUnionSettings) (pending : PendingRowUnion Row) :
    Decidable (Complete settings pending) :=
  inferInstanceAs (Decidable (_ ∧ _))

/-- Fail every held token of a pending group. -/
def failPending (key : Key) (reason : Reason) :
    Except (Raised Row) (RowUnionOutcome Row × Executor Row) :=
  match executor.pending.get key with
  | none => .error ⟨.keyMissing key.1 key.2, executor⟩
  | some pending =>
    let failed := pending.branches.values.foldl (fun executor entry =>
      (executor.completeNodeState .failed entry.stateId).recordTokenOutcome entry.token) executor
    .ok (⟨key, .failed reason pending.tokens⟩,
      markCompleted env { failed with pending := failed.pending.erase key } key reason)

/-- Fail a token that comes to a closed group. -/
def failLateArrival (key : Key) (token : Token Row) (now : Int)
    (closedReason : Reason) : RowUnionOutcome Row × Executor Row :=
  let firstFailureEvidence := executor.failedWithoutMemberState.any (· = key)
  let known := { executor with
    failedWithoutMemberState := executor.failedWithoutMemberState.filter (· ≠ key) }
  (⟨key, .late closedReason.late token firstFailureEvidence⟩,
    ((known.beginNodeState key token now).completeNodeState .failed
      known.nextStateId).recordTokenOutcome
      token)

/-! ## Arrivals -/

/-- Hold a token, and release its group if it is complete. -/
def acceptHeld (key : Key) (branch : String)
    (token : Token Row) (now : Int) : Except (Raised Row) (RowUnionOutcome Row × Executor Row) :=
  let found := (executor.pending.get key).getD ⟨.empty, now⟩
  let anchored := { found with firstArrival := min now found.firstArrival }
  if branch ∈ anchored.branches.keys then
    .error ⟨.duplicateArrival branch,
      { executor with pending := executor.pending.set key anchored }⟩
  else
    let pending := { anchored with
      branches := anchored.branches.set branch ⟨token, now, executor.nextStateId⟩ }
    let holding : Executor Row :=
      { executor.beginNodeState key token now with pending := executor.pending.set key pending }
    if Complete settings pending then executeRelease env holding settings key pending
    else .ok (⟨key, .held⟩, holding)

end

/-- Accept a token at a row union. -/
def accept (token : Token Row) (name : String) (now : Int) :
    Except (Raised Row) (RowUnionOutcome Row × Executor Row) :=
  match env.settings name with
  | none => .error ⟨.notRegistered name, executor⟩
  | some settings =>
    match token.branchName with
    | none => .error ⟨.noBranchName token.tokenId, executor⟩
    | some branch =>
      if branch ∉ settings.branches then .error ⟨.unexpectedBranch branch, executor⟩
      else
        match token.forkGroupId with
        | none => .error ⟨.noForkGroup token.tokenId, executor⟩
        | some groupId =>
          match checkCompletion env executor (name, groupId) with
          | some known =>
            match known.completedKeys.get (name, groupId) with
            | none => .error ⟨.keyMissing name groupId, known⟩
            | some reason => .ok (failLateArrival known (name, groupId) token now reason)
          | none =>
            if executor.knowsLoss (name, groupId) then
              .ok (failLateArrival (markCompleted env executor (name, groupId) .branchLost)
                (name, groupId) token now .branchLost)
            else acceptHeld env executor settings (name, groupId) branch token now

/-! ## Losses, timeouts and the end of input -/

/-- A branch of a group will never arrive. -/
def notifyBranchLost (name groupId lostBranch : String) :
    Except (Raised Row) (Option (RowUnionOutcome Row) × Executor Row) :=
  match env.settings name with
  | none => .error ⟨.notRegistered name, executor⟩
  | some _ =>
    match checkCompletion env executor (name, groupId) with
    | some known => .ok (none, known)
    | none =>
      let known := rememberBranchLoss env executor (name, groupId) lostBranch
      if (name, groupId) ∉ known.pending.keys then
        let marked := markCompleted env known (name, groupId) .branchLost
        .ok (none, { marked with
          failedWithoutMemberState := (name, groupId) :: marked.failedWithoutMemberState })
      else
        (failPending env known (name, groupId) .branchLost).map fun (outcome, next) =>
          (some outcome, next)

end

/-- Close groups one after another. -/
def closeEach {α : Type}
    (close : α → Executor Row → Except (Raised Row) (RowUnionOutcome Row × Executor Row)) :
    List α → Executor Row → Except (Raised Row) (List (RowUnionOutcome Row) × Executor Row)
  | [], executor => .ok ([], executor)
  | item :: items, executor => do
      let (outcome, next) ← close item executor
      let (outcomes, last) ← closeEach close items next
      pure (outcome :: outcomes, last)

def failAll (reason : Reason) : List Key → Executor Row →
    Except (Raised Row) (List (RowUnionOutcome Row) × Executor Row) :=
  closeEach fun key executor => failPending env executor key reason

variable (executor : Executor Row)

/-- The pending groups of a union that have waited too long. -/
def timedOut (name : String) (timeout now : Int) : List Key :=
  (executor.pending.entries.filter fun (key, pending) =>
    key.1 = name ∧ timeout < now - pending.firstArrival).map Prod.fst

def checkTimeouts (name : String) (now : Int) :
    Except (Raised Row) (List (RowUnionOutcome Row) × Executor Row) :=
  match env.settings name with
  | none => .error ⟨.notRegistered name, executor⟩
  | some settings =>
    match settings.timeoutSeconds with
    | none => .ok ([], executor)
    | some timeout => failAll env .timeout (executor.timedOut name timeout now) executor

/-- Every pending group fails at the end of input. -/
def flushPending :
    Except (Raised Row) (List (RowUnionOutcome Row) × Executor Row) :=
  failAll env .incompleteAtFlush executor.pending.keys executor

end Executor

/-! ## Restoring -/

/-- An adopted hold of the journal. -/
structure RestoreEntry (Row : Type) where
  token : Token Row
  rowUnionName : String
  stateId : Option Nat
  arrivalTime : Int

/-- Validate one hold and add it to its group. -/
def restoreEntry (env : Environment) (restored : Dict Key (PendingRowUnion Row))
    (entry : RestoreEntry Row) : Except RowUnionError (Dict Key (PendingRowUnion Row)) :=
  match env.settings entry.rowUnionName with
  | none => .error (.notRegistered entry.rowUnionName)
  | some settings =>
    match entry.token.branchName with
    | none => .error (.noBranchName entry.token.tokenId)
    | some branch =>
      match entry.token.forkGroupId with
      | none => .error (.noForkGroup entry.token.tokenId)
      | some groupId =>
        if branch ∉ settings.branches then .error (.unexpectedBranch branch)
        else
          let key := (entry.rowUnionName, groupId)
          let pending := (restored.get key).getD ⟨.empty, entry.arrivalTime⟩
          if branch ∈ pending.branches.keys then .error (.duplicateRestored branch)
          else
            match entry.stateId with
            | none => .error (.missingState entry.token.tokenId)
            | some stateId => .ok (restored.set key
                ⟨pending.branches.set branch ⟨entry.token, entry.arrivalTime, stateId⟩,
                  min pending.firstArrival entry.arrivalTime⟩)

namespace Executor

variable (env : Environment)

/-- The closed groups among some keys with the reason of each, and those with a loss. -/
def classify : List Key → Executor Row →
    Except (Raised Row) ((List (Key × Reason) × List Key) × Executor Row)
  | [], executor => .ok (([], []), executor)
  | key :: keys, executor =>
    match checkCompletion env executor key with
    | some known =>
      match known.completedKeys.get key with
      | none => .error ⟨.keyMissing key.1 key.2, known⟩
      | some reason => do
          let ((closed, lost), last) ← classify keys known
          pure (((key, reason) :: closed, lost), last)
    | none => do
        let ((closed, lost), last) ← classify keys executor
        pure ((closed, if executor.knowsLoss key then key :: lost else lost), last)

/-- Fail the residues at closed groups, which keep their reason. -/
def failClosed : List (Key × Reason) → Executor Row →
    Except (Raised Row) (List (RowUnionOutcome Row) × Executor Row) :=
  closeEach fun (key, reason) executor => do
    let (outcome, next) ← failPending env executor key reason.late
    pure (outcome, markCompleted env next key reason)

/-- Release the groups whose branches are all held. -/
def releaseComplete : List Key → Executor Row →
    Except (Raised Row) (List (RowUnionOutcome Row) × Executor Row)
  | [], executor => .ok ([], executor)
  | key :: keys, executor =>
    match env.settings key.1, executor.pending.get key with
    | some settings, some pending =>
      if Complete settings pending then do
        let (outcome, next) ← executeRelease env executor settings key pending
        let (outcomes, last) ← releaseComplete keys next
        pure (outcome :: outcomes, last)
      else releaseComplete keys executor
    | _, _ => .error ⟨.keyMissing key.1 key.2, executor⟩

/-- Restore the pending groups from the holds of the journal. -/
def restoreFromJournal (executor : Executor Row) (entries : List (RestoreEntry Row)) :
    Except (Raised Row) (List (RowUnionOutcome Row) × Executor Row) :=
  if executor.pending.keys ≠ [] then .error ⟨.pendingNotEmpty, executor⟩
  else
    match entries.foldlM (restoreEntry env) .empty with
    | .error error => .error ⟨error, executor⟩
    | .ok restored => do
        let ((closed, lost), known) ← classify env restored.keys executor
        let (late, first) ← failClosed env closed { known with pending := restored }
        let (failed, second) ← failAll env .branchLost lost first
        let (released, last) ← releaseComplete env second.pending.keys second
        pure (late ++ failed ++ released, last)

end Executor

end Elspeth.RowUnion
