import Elspeth.Landscape.Json
import Elspeth.Relational.Table

/-!
# The Landscape schema

The tables of the audit database that run coordination, the token scheduler, the
sink-effect protocol and the token lineage read and write, with the constraints the database itself
enforces (`core/landscape/schema.py`).  A table value carries the proof of its
constraints, so a duplicate work-item id or a leased item without an owner is
not a state of this model.

Three conventions:

* Timestamps are integers counting microseconds.  The database clock and the
  process clock deliver such integers; nothing else about calendars matters.
* Columns with a closed vocabulary and a `CHECK` are inductive types.  The
  pending-sink outcome and path columns have no `CHECK` and stay strings.
* `NULL`s never collide in a `UNIQUE` constraint.  The journal's four-column
  key therefore covers only rows with a node cursor; the partial index on the
  terminal lane covers the others, and `unique_attemptKey_iff` puts the two
  together.

Columns that no modelled statement reads or writes (run settings, plugin
metadata, process forensics of a worker) are left out, and so are columns that
another column determines (a sink effect's protocol version and the two slots its
input kind requires).  Format checks on digest columns are left out too: the
columns only ever receive digests.
-/

namespace Elspeth

open Relational Constraint

/-- Microseconds since the epoch, as the database clock reports them. -/
abbrev Time := Int

/-! ## Closed vocabularies -/

/-- Durable token work-item lifecycle states. -/
inductive TokenWorkStatus where
  | ready
  | leased
  | blocked
  | pendingSink
  | terminal
  | failed
  deriving DecidableEq, Repr

/-- Durable scheduler state-transition audit event types. -/
inductive SchedulerEventType where
  | enqueue
  | claimReady
  | claimPendingSink
  | recoverExpiredLease
  | leaseLost
  | markBlocked
  | markTerminal
  | markFailed
  | markPendingSink
  | markPendingSinkTerminal
  | markBlockedBarrierTerminal
  | resumeRequeueFailed
  deriving DecidableEq, Repr

inductive RunStatus where
  | running
  | completed
  | completedWithFailures
  | failed
  | empty
  | interrupted
  deriving DecidableEq, Repr

inductive WorkerRole where
  | leader
  | follower
  deriving DecidableEq, Repr

inductive WorkerStatus where
  | active
  | departed
  | evicted
  deriving DecidableEq, Repr

/-- Event vocabulary of the run-coordination ledger. -/
inductive CoordinationEventType where
  | workerRegister
  | workerDepart
  | workerEvict
  | workerStalled
  | leaderAcquire
  | leaderRelease
  | leadershipLost
  | fenceRefusal
  | heartbeatDegraded
  | finalize
  | resumeRefused
  deriving DecidableEq, Repr

inductive BatchStatus where
  | draft
  | executing
  | completed
  | failed
  deriving DecidableEq, Repr

inductive FrameKind where
  | fork
  | expand
  deriving DecidableEq, Repr

/-- The two databases the Landscape runs on. -/
inductive Dialect where
  | sqlite
  | postgresql
  deriving DecidableEq, Repr

inductive NodeType where
  | source
  | queue
  | transform
  | gate
  | aggregation
  | coalesce
  | rowUnion
  | collector
  | sink
  deriving DecidableEq, Repr

/-- One value of a JSON context object. -/
inductive ContextValue where
  | null
  | flag (value : Bool)
  | number (value : Int)
  | text (value : String)
  | texts (values : List String)
  | instant (value : Time)
  deriving DecidableEq, Repr

/-- A JSON context object: its keys with their values. -/
abbrev Context := List (String × ContextValue)

/-- `{**base, **extra}`: the entries of `extra` win. -/
def Context.update (base extra : Context) : Context :=
  base.filter (fun entry => entry.1 ∉ extra.map Prod.fst) ++ extra

/-! ## Rows -/

structure Run where
  runId : String
  status : RunStatus
  configHash : String
  completedAt : Option Time
  reproducibilityGrade : Option String
  deriving DecidableEq, Repr

/-- The run's leader seat.  `leaderWorkerId = none` is a vacant seat. -/
structure RunCoordination where
  runId : String
  leaderWorkerId : Option String
  leaderEpoch : Nat
  leaderHeartbeatExpiresAt : Option Time
  updatedAt : Time
  deriving DecidableEq, Repr

structure RunWorker where
  workerId : String
  runId : String
  role : WorkerRole
  status : WorkerStatus
  registeredAt : Time
  heartbeatExpiresAt : Time
  departedAt : Option Time
  evictedAt : Option Time
  evictedByWorkerId : Option String
  entryPoint : Option String
  deriving DecidableEq, Repr

/-- One row of the coordination ledger without its event id, which is a digest
of exactly these fields. -/
structure CoordinationEvent where
  runId : String
  eventType : CoordinationEventType
  workerId : String
  leaderEpoch : Option Nat
  recordedAt : Time
  context : Context
  deriving DecidableEq, Repr

structure RunCoordinationEvent where
  eventId : String
  event : CoordinationEvent
  deriving DecidableEq, Repr

structure Node where
  nodeId : String
  runId : String
  nodeType : NodeType
  deriving DecidableEq, Repr

structure SourceRow where
  rowId : String
  runId : String
  sourceNodeId : String
  rowIndex : Option Nat
  sourceRowIndex : Nat
  ingestSequence : Nat
  createdAt : Time
  deriving DecidableEq, Repr

structure Token where
  tokenId : String
  rowId : String
  runId : String
  joinGroupId : Option String
  createdAt : Time
  stepInPipeline : Option Nat := none
  tokenDataRef : Option String := none
  deriving DecidableEq, Repr

/-- One frame of a token's lineage path, outermost first in the path. -/
structure LineageFrame where
  kind : FrameKind
  groupId : String
  memberKey : String
  deriving DecidableEq, Repr

/-- A schedulable token continuation: one row of `token_work_items`. -/
structure TokenWorkItem where
  workItemId : String
  runId : String
  tokenId : String
  rowId : String
  nodeId : Option String
  stepIndex : Nat
  ingestSequence : Nat
  rowPayloadJson : String
  status : TokenWorkStatus
  queueKey : Option String
  barrierKey : Option String
  onSuccessSink : Option String
  pendingSinkName : Option String
  pendingOutcome : Option String
  pendingPath : Option String
  pendingErrorHash : Option String
  pendingErrorMessage : Option String
  joinGroupId : Option String
  lineagePath : List LineageFrame
  coalesceNodeId : Option String
  coalesceName : Option String
  rowUnionName : Option String
  collectorName : Option String
  attempt : Nat
  leaseOwner : Option String
  leaseExpiresAt : Option Time
  availableAt : Time
  barrierBlockedAt : Option Time
  barrierAdoptedEpoch : Option Nat
  createdAt : Time
  updatedAt : Time
  deriving DecidableEq, Repr

/-- One row of `scheduler_events`.  Sequence numbers are the list positions; the
event id is a digest of exactly these fields without the recording instant. -/
structure SchedulerEvent where
  runId : String
  tokenId : String
  workItemId : String
  nodeId : Option String
  eventType : SchedulerEventType
  fromStatus : Option TokenWorkStatus
  toStatus : TokenWorkStatus
  fromLeaseOwner : Option String
  toLeaseOwner : Option String
  fromLeaseExpiresAt : Option Time
  toLeaseExpiresAt : Option Time
  fromAttempt : Option Nat
  toAttempt : Nat
  recordedAt : Time
  callerOwner : Option String
  context : Context
  deriving DecidableEq, Repr

structure TokenOutcome where
  outcomeId : String
  runId : String
  tokenId : String
  outcome : Option String
  path : String
  completed : Bool
  recordedAt : Time
  sinkName : Option String := none
  batchId : Option String
  errorHash : Option String
  context : Option Context
  deriving DecidableEq, Repr

structure Batch where
  batchId : String
  runId : String
  status : BatchStatus
  expansionGroupId : Option String := none
  deriving DecidableEq, Repr

structure BatchMember where
  batchId : String
  runId : String
  tokenId : String
  ordinal : Nat
  deriving DecidableEq, Repr

structure GroupLoss where
  lossId : String
  runId : String
  closerName : String
  groupId : String
  memberKey : String
  tokenId : String
  reason : String
  recordedBy : String
  recordedAt : Time
  adoptedEpoch : Option Nat
  deriving DecidableEq, Repr

/-! ## Constraints -/

/-- The constraint a refused statement broke. -/
inductive Violation where
  | runsPrimaryKey
  | runCoordinationPrimaryKey
  | seatLivenessPaired
  | runWorkersPrimaryKey
  | evictedAtPaired
  | coordinationEventId
  | nodesPrimaryKey
  | rowsPrimaryKey
  | rowsSourceRowIndex
  | rowsIngestSequence
  | tokensPrimaryKey
  | leaseOwnerRequiredWhenLeased
  | pendingErrorHashHex
  | workItemsPrimaryKey
  | workItemsAttempt
  | workItemsTerminalIdentity
  | outcomesPrimaryKey
  | outcomesTerminalUnique
  | outcomesErrorHashHex
  | batchesPrimaryKey
  | batchMembersPrimaryKey
  | batchMembersOrdinal
  | groupLossesPrimaryKey
  | groupLossesNatural
  | foreignKey
  deriving DecidableEq, Repr

/-- A character the error-fingerprint columns admit. -/
def isLowerHex (character : Char) : Bool :=
  ('0' ≤ character && character ≤ '9') || ('a' ≤ character && character ≤ 'f')

/-- `NULL`, or sixteen lower-case hexadecimal digits. -/
def OptionalLowerHex16 (value : Option String) : Prop :=
  ∀ text ∈ value, text.length = 16 ∧ text.toList.all isLowerHex

instance (value : Option String) : Decidable (OptionalLowerHex16 value) :=
  inferInstanceAs (Decidable (∀ text ∈ value, text.length = 16 ∧ text.toList.all isLowerHex))

/-- A primary key or `UNIQUE` constraint with its label. -/
def uniqueConstraint {α κ : Type} [DecidableEq κ] (label : Violation) (key : α → κ) :
    Constraint α Violation :=
  ⟨label, Unique key, Unique.decidable key⟩

/-- A partial unique index with its label. -/
def uniqueWhereConstraint {α κ : Type} [DecidableEq κ] (label : Violation)
    (filter : α → Bool) (key : α → κ) : Constraint α Violation :=
  ⟨label, UniqueWhere filter key, UniqueWhere.decidable filter key⟩

/-- A row-level `CHECK` with its label. -/
def checkConstraint {α : Type} (label : Violation) (ok : α → Prop) [DecidablePred ok] :
    Constraint α Violation :=
  ⟨label, Check ok, Check.decidable ok⟩

def runConstraints : List (Constraint Run Violation) :=
  [uniqueConstraint .runsPrimaryKey (·.runId)]

/-- Vacant seat exactly when there is no liveness clock. -/
def SeatLivenessPaired (seat : RunCoordination) : Prop :=
  seat.leaderWorkerId = none ↔ seat.leaderHeartbeatExpiresAt = none

instance : DecidablePred SeatLivenessPaired := fun seat =>
  inferInstanceAs (Decidable (seat.leaderWorkerId = none ↔ seat.leaderHeartbeatExpiresAt = none))

def runCoordinationConstraints : List (Constraint RunCoordination Violation) :=
  [checkConstraint .seatLivenessPaired SeatLivenessPaired,
    uniqueConstraint .runCoordinationPrimaryKey (·.runId)]

def EvictedAtPaired (worker : RunWorker) : Prop :=
  worker.status = .evicted ↔ worker.evictedAt ≠ none

instance : DecidablePred EvictedAtPaired := fun worker =>
  inferInstanceAs (Decidable (worker.status = .evicted ↔ worker.evictedAt ≠ none))

def runWorkerConstraints : List (Constraint RunWorker Violation) :=
  [checkConstraint .evictedAtPaired EvictedAtPaired,
    uniqueConstraint .runWorkersPrimaryKey (·.workerId)]

def coordinationEventConstraints : List (Constraint RunCoordinationEvent Violation) :=
  [uniqueConstraint .coordinationEventId (·.eventId)]

def nodeConstraints : List (Constraint Node Violation) :=
  [uniqueConstraint .nodesPrimaryKey fun node => (node.nodeId, node.runId)]

def sourceRowConstraints : List (Constraint SourceRow Violation) :=
  [uniqueConstraint .rowsPrimaryKey (·.rowId),
    uniqueConstraint .rowsSourceRowIndex fun row =>
      (row.runId, row.sourceNodeId, row.sourceRowIndex),
    uniqueConstraint .rowsIngestSequence fun row => (row.runId, row.ingestSequence)]

def tokenConstraints : List (Constraint Token Violation) :=
  [uniqueConstraint .tokensPrimaryKey (·.tokenId)]

/-- A leased item names a non-empty owner. -/
def LeaseOwnerRequiredWhenLeased (item : TokenWorkItem) : Prop :=
  item.status = .leased → item.leaseOwner ≠ none ∧ item.leaseOwner ≠ some ""

instance : DecidablePred LeaseOwnerRequiredWhenLeased := fun item =>
  inferInstanceAs (Decidable (item.status = .leased →
    item.leaseOwner ≠ none ∧ item.leaseOwner ≠ some ""))

/-- The (run, token, node, attempt) identity of a work item. -/
def TokenWorkItem.attemptKey (item : TokenWorkItem) :
    String × String × Option String × Nat :=
  (item.runId, item.tokenId, item.nodeId, item.attempt)

/-- The journal's constraints.  SQLite checks the newest index first, so a row
that repeats another one's identity is reported against the four-column key and
not against the primary key. -/
def tokenWorkItemConstraints : List (Constraint TokenWorkItem Violation) :=
  [checkConstraint .leaseOwnerRequiredWhenLeased LeaseOwnerRequiredWhenLeased,
    checkConstraint .pendingErrorHashHex fun item => OptionalLowerHex16 item.pendingErrorHash,
    uniqueWhereConstraint .workItemsTerminalIdentity (·.nodeId.isNone)
      fun item => (item.runId, item.tokenId, item.attempt),
    uniqueWhereConstraint .workItemsAttempt (·.nodeId.isSome) TokenWorkItem.attemptKey,
    uniqueConstraint .workItemsPrimaryKey (·.workItemId)]

def tokenOutcomeConstraints : List (Constraint TokenOutcome Violation) :=
  [checkConstraint .outcomesErrorHashHex fun outcome => OptionalLowerHex16 outcome.errorHash,
    uniqueConstraint .outcomesPrimaryKey (·.outcomeId),
    uniqueWhereConstraint .outcomesTerminalUnique (·.completed) (·.tokenId)]

def batchConstraints : List (Constraint Batch Violation) :=
  [uniqueConstraint .batchesPrimaryKey (·.batchId)]

def batchMemberConstraints : List (Constraint BatchMember Violation) :=
  [uniqueConstraint .batchMembersPrimaryKey fun member => (member.batchId, member.tokenId),
    uniqueConstraint .batchMembersOrdinal fun member => (member.batchId, member.ordinal)]

def groupLossConstraints : List (Constraint GroupLoss Violation) :=
  [uniqueConstraint .groupLossesPrimaryKey (·.lossId),
    uniqueConstraint .groupLossesNatural fun loss =>
      (loss.runId, loss.closerName, loss.groupId, loss.memberKey)]

/-! ## The database -/

/-- The audit database. -/
structure Db where
  runs : Table Run Violation runConstraints
  runCoordination : Table RunCoordination Violation runCoordinationConstraints
  runWorkers : Table RunWorker Violation runWorkerConstraints
  runCoordinationEvents :
    Table RunCoordinationEvent Violation coordinationEventConstraints
  nodes : Table Node Violation nodeConstraints
  rows : Table SourceRow Violation sourceRowConstraints
  tokens : Table Token Violation tokenConstraints
  tokenWorkItems : Table TokenWorkItem Violation tokenWorkItemConstraints
  schedulerEvents : List SchedulerEvent
  tokenOutcomes : Table TokenOutcome Violation tokenOutcomeConstraints
  batches : Table Batch Violation batchConstraints
  batchMembers : Table BatchMember Violation batchMemberConstraints
  groupLosses : Table GroupLoss Violation groupLossConstraints

/-- A freshly created database: every table is empty. -/
def Db.empty : Db where
  runs := ⟨[], by decide⟩
  runCoordination := ⟨[], by decide⟩
  runWorkers := ⟨[], by decide⟩
  runCoordinationEvents := ⟨[], by decide⟩
  nodes := ⟨[], by decide⟩
  rows := ⟨[], by decide⟩
  tokens := ⟨[], by decide⟩
  tokenWorkItems := ⟨[], by decide⟩
  schedulerEvents := []
  tokenOutcomes := ⟨[], by decide⟩
  batches := ⟨[], by decide⟩
  batchMembers := ⟨[], by decide⟩
  groupLosses := ⟨[], by decide⟩

/-! ## What the constraints say about stored rows -/

theorem unique_runId (table : Table RunCoordination Violation runCoordinationConstraints) :
    Unique RunCoordination.runId table.rows :=
  table.holds (uniqueConstraint .runCoordinationPrimaryKey (·.runId))
    (by simp [runCoordinationConstraints])

theorem unique_workerId (table : Table RunWorker Violation runWorkerConstraints) :
    Unique RunWorker.workerId table.rows :=
  table.holds (uniqueConstraint .runWorkersPrimaryKey (·.workerId))
    (by simp [runWorkerConstraints])

variable (table : Table TokenWorkItem Violation tokenWorkItemConstraints)

theorem unique_workItemId :
    Unique TokenWorkItem.workItemId table.rows :=
  table.holds (uniqueConstraint .workItemsPrimaryKey (·.workItemId))
    (by simp [tokenWorkItemConstraints])

variable {rows : List TokenWorkItem}

/-- The four-column key and the partial index of the terminal lane together: no two
items share run, token, node and attempt. -/
theorem unique_attemptKey_iff :
    Unique TokenWorkItem.attemptKey rows ↔
      UniqueWhere (·.nodeId.isNone) (fun item => (item.runId, item.tokenId, item.attempt)) rows ∧
        UniqueWhere (·.nodeId.isSome) TokenWorkItem.attemptKey rows := by
  unfold UniqueWhere Relational.Unique List.Nodup
  simp only [List.pairwise_map, List.pairwise_filter, ← List.pairwise_and_iff]
  refine List.Pairwise.iff fun {left right} => ?_
  cases leftNode : left.nodeId <;> cases rightNode : right.nodeId <;>
    simp [TokenWorkItem.attemptKey, leftNode, rightNode]

/-- What has to be shown of rows for the journal to accept them. -/
theorem tokenWorkItems_accepted (checks : ∀ item ∈ rows, LeaseOwnerRequiredWhenLeased item ∧
      OptionalLowerHex16 item.pendingErrorHash) (attempts : Unique TokenWorkItem.attemptKey rows)
    (ids : Unique TokenWorkItem.workItemId rows) :
    violated tokenWorkItemConstraints rows = none := by
  obtain ⟨terminal, attempts⟩ := unique_attemptKey_iff.mp attempts
  refine violated_eq_none.mpr fun constraint declared => ?_
  simp only [tokenWorkItemConstraints, List.mem_cons, List.not_mem_nil, or_false] at declared
  rcases declared with rfl | rfl | rfl | rfl | rfl
  · exact fun item member => (checks item member).1
  · exact fun item member => (checks item member).2
  · exact terminal
  · exact attempts
  · exact ids

theorem tokenWorkItems_checked :
    ∀ item ∈ table.rows, LeaseOwnerRequiredWhenLeased item ∧
      OptionalLowerHex16 item.pendingErrorHash := by
  intro item member
  constructor
  · exact table.holds (checkConstraint .leaseOwnerRequiredWhenLeased LeaseOwnerRequiredWhenLeased)
      (by simp [tokenWorkItemConstraints]) item member
  · exact table.holds (checkConstraint .pendingErrorHashHex fun item =>
      OptionalLowerHex16 item.pendingErrorHash) (by simp [tokenWorkItemConstraints]) item member

/-- The constraint on run, token, node and attempt, under the name of either index. -/
def Violation.OfAttempt (broken : Violation) : Prop :=
  broken = .workItemsAttempt ∨ broken = .workItemsTerminalIdentity

instance : DecidablePred Violation.OfAttempt := fun broken =>
  inferInstanceAs (Decidable (broken = .workItemsAttempt ∨ broken = .workItemsTerminalIdentity))

/-- The identity constraint is reported only of rows that repeat an identity. -/
theorem not_ofAttempt_of_unique {broken : Violation}
    (report : violated tokenWorkItemConstraints rows = some broken)
    (unique : Unique TokenWorkItem.attemptKey rows) : ¬ broken.OfAttempt := by
  obtain ⟨constraint, declared, rfl, fails⟩ := violated_eq_some report
  obtain ⟨terminalLane, nodes⟩ := unique_attemptKey_iff.mp unique
  simp only [tokenWorkItemConstraints, List.mem_cons, List.not_mem_nil, or_false] at declared
  rcases declared with rfl | rfl | rfl | rfl | rfl
  · decide
  · decide
  · exact absurd terminalLane fails
  · exact absurd nodes fails
  · decide

theorem leased_owner
    {item : TokenWorkItem} (stored : item ∈ table.rows) (leased : item.status = .leased) :
    item.leaseOwner ≠ none ∧ item.leaseOwner ≠ some "" :=
  table.holds (checkConstraint .leaseOwnerRequiredWhenLeased LeaseOwnerRequiredWhenLeased)
    (by simp [tokenWorkItemConstraints]) item stored leased

end Elspeth
