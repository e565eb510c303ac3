import Mathlib.Data.Prod.Lex
import Mathlib.Data.String.Basic
import Elspeth.Landscape.Session

/-!
# Work items of the token scheduler

Shared row plumbing of the scheduler components
(`core/landscape/scheduler/work_items.py`, `events.py`, `payload_codec.py` and
the predicates of `schema.py` on `token_work_items`).

A work item's id is a digest of its run, token, node cursor and attempt.  The
idempotent insert keys on that id: an image whose id is already stored is a
replay, and a replay must agree with the stored row on every comparable field.
The status, the lease and the timestamps are not compared, so a replay is
accepted whatever happened to the item in between — as long as the item still
carries the id.

The foreign keys of `token_work_items` are not checked again at the insert:
every writer runs `validateWorkItemReferences` on the same image in the same
transaction, and no writer removes a token, a row or a node.
-/

namespace Elspeth

open Relational Txn

/-! ## Identity -/

/-- The node part of a work-item identity; the terminal lane has no node. -/
def nodeKey : Option String → String
  | none => "<terminal>"
  | some nodeId => nodeId

/-- The (run, token, node, attempt) identity a work-item id is derived from. -/
@[ext] structure WorkIdentity where
  runId : String
  tokenId : String
  nodeId : Option String
  attempt : Nat
  deriving DecidableEq, Repr

/-- The continuation an item works on, whatever the attempt. -/
structure Lane where
  runId : String
  tokenId : String
  nodeId : Option String
  deriving DecidableEq, Repr

def WorkIdentity.lane (identity : WorkIdentity) : Lane :=
  ⟨identity.runId, identity.tokenId, identity.nodeId⟩

namespace TokenWorkItem

def identity (item : TokenWorkItem) : WorkIdentity :=
  ⟨item.runId, item.tokenId, item.nodeId, item.attempt⟩

def lane (item : TokenWorkItem) : Lane :=
  ⟨item.runId, item.tokenId, item.nodeId⟩

end TokenWorkItem

section Digests

variable [Digest]

def workItemId (runId tokenId : String) (nodeId : Option String) (attempt : Nat) : String :=
  Digest.sha256
    (runId ++ ":" ++ tokenId ++ ":" ++ nodeKey nodeId ++ ":" ++ toString attempt)

/-- The id an identity is stored under. -/
def WorkIdentity.id (identity : WorkIdentity) : String :=
  workItemId identity.runId identity.tokenId identity.nodeId identity.attempt

/-- The payload retained after a row payload is purged. -/
def scrubbedRowPayloadJson (anchor : String) : String :=
  "\x7b\"payload_hash\":\"" ++ Digest.sha256 anchor ++ "\",\"row_payload\":\"purged\"\x7d"

end Digests

/-! ## Row predicates of the schema -/

section

variable (item : TokenWorkItem)

def noErrorEvidence : Bool :=
  item.pendingErrorHash.isNone && item.pendingErrorMessage.isNone

def errorEvidence : Bool :=
  item.pendingErrorHash.any (· ≠ "") && item.pendingErrorMessage.isSome

def pendingPair (outcome path : String) : Bool :=
  item.pendingOutcome = some outcome && item.pendingPath = some path

/-- The complete durable sink-redrive subtype predicate. -/
def pendingSinkBundle : Bool :=
  item.rowPayloadJson ≠ "" && item.pendingSinkName.any (· ≠ "") &&
    ((pendingPair item "success" "default_flow" && noErrorEvidence item) ||
      (pendingPair item "success" "gate_routed" && noErrorEvidence item) ||
      (pendingPair item "failure" "on_error_routed" && errorEvidence item) ||
      (pendingPair item "success" "coalesced" && item.joinGroupId.any (· ≠ "") &&
        noErrorEvidence item) ||
      (pendingPair item "failure" "quarantined_at_source" && errorEvidence item &&
        item.joinGroupId.isNone))

/-- Some column of the sink bundle is set. -/
def sinkRedriveShaped : Bool :=
  item.pendingSinkName.isSome || item.pendingOutcome.isSome || item.pendingPath.isSome ||
    item.pendingErrorHash.isSome || item.pendingErrorMessage.isSome

section

variable (outcomes : List TokenOutcome)

/-- The token carries a completed terminal outcome in the run. -/
def tokenDecided (runId tokenId : String) : Bool :=
  outcomes.any fun outcome =>
    outcome.runId = runId && outcome.tokenId = tokenId && outcome.completed

def workItemTokenDecided (item : TokenWorkItem) : Bool :=
  tokenDecided outcomes item.runId item.tokenId

/-- A failed item whose token has no completed outcome. -/
def undecidedFailedWork (item : TokenWorkItem) : Bool :=
  item.status = .failed && !workItemTokenDecided outcomes item

end

/-- The acting worker holds an active registry row. -/
def activeWorkerFence (workers : List RunWorker) (workerId runId : String) : Bool :=
  workers.any fun worker =>
    worker.workerId = workerId && worker.runId = runId && worker.status = .active

/-- The lenient fence of the claim verbs: active, or nobody is registered. -/
def claimVerbFence (workers : List RunWorker) (workerId runId : String) : Bool :=
  activeWorkerFence workers workerId runId || !workers.any (·.runId = runId)

/-! ## Orders -/

/-- `ORDER BY ingest_sequence, step_index, created_at, work_item_id`. -/
def TokenWorkItem.claimKey : ℕ ×ₗ ℕ ×ₗ Time ×ₗ String :=
  toLex (item.ingestSequence,
    toLex (item.stepIndex, toLex (item.createdAt, item.workItemId)))

/-- `ORDER BY ingest_sequence, step_index, work_item_id`. -/
def TokenWorkItem.sweepKey : ℕ ×ₗ ℕ ×ₗ String :=
  toLex (item.ingestSequence, toLex (item.stepIndex, item.workItemId))

end

/-- The rows in ascending key order. -/
def sortRows {κ : Type} [LinearOrder κ] (key : TokenWorkItem → κ)
    (rows : List TokenWorkItem) : List TokenWorkItem :=
  rows.insertionSort fun left right => key left ≤ key right

section Sorting

variable {κ : Type} [LinearOrder κ] (key : TokenWorkItem → κ)

theorem sortRows_perm (rows : List TokenWorkItem) : (sortRows key rows).Perm rows :=
  List.perm_insertionSort _ rows

@[simp] theorem mem_sortRows {rows : List TokenWorkItem} {row : TokenWorkItem} :
    row ∈ sortRows key rows ↔ row ∈ rows :=
  (sortRows_perm key rows).mem_iff

/-- The first row in order is a smallest one. -/
theorem head_sortRows_le {rows : List TokenWorkItem} {first other : TokenWorkItem}
    (head : (sortRows key rows).head? = some first) (member : other ∈ rows) :
    key first ≤ key other := by
  have sorted : (sortRows key rows).Pairwise fun left right => key left ≤ key right := by
    exact List.pairwise_insertionSort _ rows
  have inSorted := (mem_sortRows key).mpr member
  cases order : sortRows key rows with
  | nil => rw [order] at head; cases head
  | cons =>
    rw [order] at head sorted inSorted
    cases head
    rcases List.mem_cons.mp inSorted with rfl | later
    · exact le_refl _
    · exact (List.pairwise_cons.mp sorted).1 other later

end Sorting

/-! ## Values and events -/

/-- The arguments of a READY continuation. -/
structure ReadyValues where
  tokenId : String
  rowId : String
  nodeId : Option String
  stepIndex : Nat
  ingestSequence : Nat
  rowPayloadJson : String
  attempt : Nat
  queueKey : Option String
  barrierKey : Option String
  onSuccessSink : Option String
  joinGroupId : Option String
  lineagePath : List LineageFrame
  coalesceNodeId : Option String
  coalesceName : Option String
  rowUnionName : Option String
  collectorName : Option String
  deriving DecidableEq, Repr

def ReadyValues.identity (values : ReadyValues) (runId : String) : WorkIdentity :=
  ⟨runId, values.tokenId, values.nodeId, values.attempt⟩

/-- One output of a barrier completion or of an atomic child enqueue. -/
structure BarrierEmission where
  tokenId : String
  rowPayloadJson : String
  sinkName : Option String
  outcome : Option String
  path : Option String
  errorHash : Option String
  errorMessage : Option String
  rowId : Option String
  nodeId : Option String
  stepIndex : Option Nat
  ingestSequence : Option Nat
  queueKey : Option String
  barrierKey : Option String
  onSuccessSink : Option String
  joinGroupId : Option String
  lineagePath : List LineageFrame
  coalesceNodeId : Option String
  coalesceName : Option String
  rowUnionName : Option String
  collectorName : Option String
  attempt : Nat
  attempt_pos : 1 ≤ attempt
  deriving DecidableEq, Repr

/-- The identity of the row an emission inserts. -/
def BarrierEmission.identity (emission : BarrierEmission) (runId : String) : WorkIdentity :=
  ⟨runId, emission.tokenId, emission.nodeId, emission.attempt⟩

section Values

variable [Digest]

def readyWorkItemValues (runId : String) (values : ReadyValues) (availableAt : Time) :
    TokenWorkItem where
  workItemId := workItemId runId values.tokenId values.nodeId values.attempt
  runId := runId
  tokenId := values.tokenId
  rowId := values.rowId
  nodeId := values.nodeId
  stepIndex := values.stepIndex
  ingestSequence := values.ingestSequence
  rowPayloadJson := values.rowPayloadJson
  status := .ready
  queueKey := values.queueKey
  barrierKey := values.barrierKey
  onSuccessSink := values.onSuccessSink
  pendingSinkName := none
  pendingOutcome := none
  pendingPath := none
  pendingErrorHash := none
  pendingErrorMessage := none
  joinGroupId := values.joinGroupId
  lineagePath := values.lineagePath
  coalesceNodeId := values.coalesceNodeId
  coalesceName := values.coalesceName
  rowUnionName := values.rowUnionName
  collectorName := values.collectorName
  attempt := values.attempt
  leaseOwner := none
  leaseExpiresAt := none
  availableAt := availableAt
  barrierBlockedAt := none
  barrierAdoptedEpoch := none
  createdAt := availableAt
  updatedAt := availableAt

/-- The birth of a work item in the event log. -/
def enqueueEvent (item : TokenWorkItem) (recordedAt : Time) (context : Context) :
    SchedulerEvent where
  runId := item.runId
  tokenId := item.tokenId
  workItemId := item.workItemId
  nodeId := item.nodeId
  eventType := .enqueue
  fromStatus := none
  toStatus := .ready
  fromLeaseOwner := none
  toLeaseOwner := none
  fromLeaseExpiresAt := none
  toLeaseExpiresAt := none
  fromAttempt := none
  toAttempt := item.attempt
  recordedAt := recordedAt
  callerOwner := none
  context := context

end Values

/-- The event of a transition that keeps the item's id and attempt and leaves
no lease deadline. -/
def transitionEvent (eventType : SchedulerEventType) (row : TokenWorkItem)
    (toStatus : TokenWorkStatus) (toLeaseOwner : Option String) (recordedAt : Time)
    (callerOwner : Option String) (context : Context) : SchedulerEvent where
  runId := row.runId
  tokenId := row.tokenId
  workItemId := row.workItemId
  nodeId := row.nodeId
  eventType := eventType
  fromStatus := some row.status
  toStatus := toStatus
  fromLeaseOwner := row.leaseOwner
  toLeaseOwner := toLeaseOwner
  fromLeaseExpiresAt := row.leaseExpiresAt
  toLeaseExpiresAt := none
  fromAttempt := some row.attempt
  toAttempt := row.attempt
  recordedAt := recordedAt
  callerOwner := callerOwner
  context := context

/-- The terminal image of an item: payload purged, lease cleared. -/
def TokenWorkItem.terminalized (payload : String) (databaseNow : Time)
    (item : TokenWorkItem) : TokenWorkItem :=
  { item with
    status := .terminal, rowPayloadJson := payload, leaseOwner := none,
    leaseExpiresAt := none, updatedAt := databaseNow }

/-! ## The event store -/

/-- Append events in caller order on the caller's transaction. -/
def recordEvents (records : List SchedulerEvent) : Transaction Unit :=
  alter fun conn =>
    { conn with db := { conn.db with schedulerEvents := conn.db.schedulerEvents ++ records } }

/-- The key under which a rotation names the item it replaced. -/
def previousWorkItemKey : String := "previous_work_item_id"

/-- The newest recovery event that rotated this id away. -/
def recoveryEventForPreviousWorkItem (runId previousWorkItemId : String)
    (events : List SchedulerEvent) : Option SchedulerEvent :=
  events.reverse.find? fun event =>
    event.runId = runId && event.eventType = .recoverExpiredLease &&
      event.context.lookup previousWorkItemKey = some (.text previousWorkItemId)

/-! ## Reference validation -/

def validateNodeCursor (runId : String) (nodeId : Option String) (label : String) :
    Transaction Unit :=
  match nodeId with
  | none => pure ()
  | some nodeId => do
    let nodes ← nodesSlot.select fun node => node.runId = runId && node.nodeId = nodeId
    ensure (nodes ≠ []) (.auditIntegrity (.nodeOutsideRun label nodeId runId))

/-- The token's row and the row's ingest sequence, as the run records them. -/
def validateRowCursor (runId tokenId rowId : String) (ingestSequence : Nat) :
    Transaction Unit := do
  let tokens ← tokensSlot.select fun token => token.runId = runId && token.tokenId = tokenId
  match tokens with
  | [] => raise (.auditIntegrity (.tokenOutsideRun tokenId runId))
  | token :: _ => do
    ensure (token.rowId = rowId)
      (.auditIntegrity (.tokenOfAnotherRow tokenId token.rowId rowId))
    let rows ← rowsSlot.select fun row => row.runId = runId && row.rowId = rowId
    match rows with
    | [] => raise (.auditIntegrity (.rowOutsideRun rowId runId))
    | row :: _ =>
      ensure (row.ingestSequence = ingestSequence)
        (.auditIntegrity (.rowOfAnotherSequence rowId row.ingestSequence ingestSequence))

def validateWorkItemReferences (runId tokenId rowId : String) (ingestSequence : Nat)
    (nodeId coalesceNodeId : Option String) : Transaction Unit := do
  validateRowCursor runId tokenId rowId ingestSequence
  validateNodeCursor runId nodeId "node_id"
  validateNodeCursor runId coalesceNodeId "coalesce_node_id"

/-! ## Inserts -/

/-- The fields a replayed image must share with the stored row. -/
def comparableFields : List (String × (TokenWorkItem → TokenWorkItem → Bool)) :=
  let same {α : Type} [DecidableEq α] (field : TokenWorkItem → α)
      (values existing : TokenWorkItem) : Bool := field existing = field values
  [("work_item_id", same (·.workItemId)), ("run_id", same (·.runId)),
    ("token_id", same (·.tokenId)), ("row_id", same (·.rowId)), ("node_id", same (·.nodeId)),
    ("step_index", same (·.stepIndex)), ("ingest_sequence", same (·.ingestSequence)),
    ("row_payload_json", same (·.rowPayloadJson)), ("queue_key", same (·.queueKey)),
    ("barrier_key", same (·.barrierKey)), ("on_success_sink", same (·.onSuccessSink)),
    ("pending_sink_name", same (·.pendingSinkName)), ("pending_outcome", same (·.pendingOutcome)),
    ("pending_path", same (·.pendingPath)), ("pending_error_hash", same (·.pendingErrorHash)),
    ("pending_error_message", same (·.pendingErrorMessage)),
    ("join_group_id", same (·.joinGroupId)), ("lineage_path_json", same (·.lineagePath)),
    ("coalesce_node_id", same (·.coalesceNodeId)), ("coalesce_name", same (·.coalesceName)),
    ("row_union_name", same (·.rowUnionName)), ("collector_name", same (·.collectorName)),
    ("attempt", same (·.attempt))]

/-- The comparable fields on which the stored row contradicts the image. -/
def replayMismatches (values existing : TokenWorkItem) : List String :=
  (comparableFields.filter fun field => !field.2 values existing).map Prod.fst

def validateReplay (operation : String) (values existing : TokenWorkItem) :
    Transaction Unit :=
  ensure (replayMismatches values existing = [])
    (.landscapeRecord (.incompatibleReplay operation (replayMismatches values existing)))

/-- The `by_id` dictionary of a batch: the first image of each id, every later
one of the same id checked against it. -/
def firstImages (operation : String) :
    List TokenWorkItem → List TokenWorkItem → Transaction (List TokenWorkItem)
  | seen, [] => pure seen
  | seen, image :: images =>
    match seen.find? (·.workItemId = image.workItemId) with
    | some first => do
      validateReplay operation image first
      firstImages operation seen images
    | none => firstImages operation (seen ++ [image]) images

/-- A stored row the batch did not insert must be a replay of its image. -/
def validateStored (operation : String) (images fresh : List TokenWorkItem)
    (row : TokenWorkItem) : Transaction Unit :=
  if row.workItemId ∈ fresh.map TokenWorkItem.workItemId then pure ()
  else
    match images.find? (·.workItemId = row.workItemId) with
    | some image => validateReplay operation image row
    | none => pure ()

/-- `INSERT … ON CONFLICT (work_item_id) DO NOTHING`, returning the rows that
went in. -/
def insertFresh (operation : String) (images : List TokenWorkItem) :
    Transaction (List TokenWorkItem) := do
  let stored ← query itemsSlot.rows
  let fresh := images.filter fun image =>
    image.workItemId ∉ stored.map TokenWorkItem.workItemId
  mapError (LandscapeError.wrapRejection operation) (itemsSlot.insert fresh)
  pure fresh

/-- Insert an atomic continuation batch and validate every replayed image;
returns the inserted rows. -/
def insertWorkItemsIdempotent (values : List TokenWorkItem) (operation : String) :
    Transaction (List TokenWorkItem) := do
  let images ← firstImages operation [] values
  let fresh ← insertFresh operation images
  let existing ← itemsSlot.select fun row =>
    row.workItemId ∈ images.map TokenWorkItem.workItemId
  ensure (existing.length = images.length) (.landscapeRecord (.notReadBack operation))
  forEach (validateStored operation images fresh) existing
  pure fresh

/-- Insert a complete emission batch. -/
def insertWorkItems (values : List TokenWorkItem) (operation : String) : Transaction Unit :=
  mapError (LandscapeError.wrapRejection operation) (itemsSlot.insert values)

/-- The one row with this id. -/
def readItemOn (workItemId : String) : Transaction TokenWorkItem := do
  let rows ← itemsSlot.select fun row => row.workItemId = workItemId
  match rows with
  | [] => raise .noResultFound
  | row :: _ => pure row

/-! ## Fresh pending-sink rows -/

section Fresh

variable [Digest]

/-- The born-parked image of a sink-bound output without a producer. -/
def freshPendingSinkValues (runId : String) (emission : BarrierEmission) (rowId : String)
    (stepIndex ingestSequence : Nat) (databaseNow : Time)
    (parkedLeaseOwner : Option String) : TokenWorkItem where
  workItemId := workItemId runId emission.tokenId none emission.attempt
  runId := runId
  tokenId := emission.tokenId
  rowId := rowId
  nodeId := none
  stepIndex := stepIndex
  ingestSequence := ingestSequence
  rowPayloadJson := emission.rowPayloadJson
  status := .pendingSink
  queueKey := emission.queueKey
  barrierKey := emission.barrierKey
  onSuccessSink := emission.onSuccessSink
  pendingSinkName := emission.sinkName
  pendingOutcome := emission.outcome
  pendingPath := emission.path
  pendingErrorHash := emission.errorHash
  pendingErrorMessage := emission.errorMessage
  joinGroupId := emission.joinGroupId
  lineagePath := emission.lineagePath
  coalesceNodeId := emission.coalesceNodeId
  coalesceName := emission.coalesceName
  rowUnionName := emission.rowUnionName
  collectorName := emission.collectorName
  attempt := emission.attempt
  leaseOwner := parkedLeaseOwner
  leaseExpiresAt := none
  availableAt := databaseNow
  barrierBlockedAt := none
  barrierAdoptedEpoch := none
  createdAt := databaseNow
  updatedAt := databaseNow

/-- The one event that records the birth of a parked row. -/
def parkedEvent (item : TokenWorkItem) (recordedAt : Time) (context : Context) :
    SchedulerEvent where
  runId := item.runId
  tokenId := item.tokenId
  workItemId := item.workItemId
  nodeId := item.nodeId
  eventType := .markPendingSink
  fromStatus := none
  toStatus := .pendingSink
  fromLeaseOwner := none
  toLeaseOwner := item.leaseOwner
  fromLeaseExpiresAt := none
  toLeaseExpiresAt := none
  fromAttempt := none
  toAttempt := item.attempt
  recordedAt := recordedAt
  callerOwner := none
  context := context

/-- Build a fresh PENDING_SINK row on the terminal lane, and its event. -/
def prepareFreshPendingSinkItem (runId : String) (context : Context) (databaseNow : Time)
    (parkedLeaseOwner : Option String) (emission : BarrierEmission) :
    Transaction (TokenWorkItem × SchedulerEvent) :=
  match emission.nodeId, emission.rowId, emission.stepIndex, emission.ingestSequence with
  | some nodeId, _, _, _ =>
    raise (.auditIntegrity (.freshEmissionOnNode emission.tokenId nodeId))
  | none, some rowId, some stepIndex, some ingestSequence => do
    validateWorkItemReferences runId emission.tokenId rowId ingestSequence none
      emission.coalesceNodeId
    let item := freshPendingSinkValues runId emission rowId stepIndex ingestSequence
      databaseNow parkedLeaseOwner
    pure (item, parkedEvent item databaseNow context)
  | none, _, _, _ => raise (.auditIntegrity (.freshCursorIncomplete emission.tokenId))

/-- The READY arguments of an emission whose cursor is complete. -/
def BarrierEmission.readyValues? (emission : BarrierEmission) : Option ReadyValues :=
  match emission.rowId, emission.stepIndex, emission.ingestSequence with
  | some rowId, some stepIndex, some ingestSequence =>
    some
      { tokenId := emission.tokenId, rowId, nodeId := emission.nodeId, stepIndex,
        ingestSequence, rowPayloadJson := emission.rowPayloadJson,
        attempt := emission.attempt, queueKey := emission.queueKey,
        barrierKey := emission.barrierKey, onSuccessSink := emission.onSuccessSink,
        joinGroupId := emission.joinGroupId, lineagePath := emission.lineagePath,
        coalesceNodeId := emission.coalesceNodeId, coalesceName := emission.coalesceName,
        rowUnionName := emission.rowUnionName, collectorName := emission.collectorName }
  | _, _, _ => none

end Fresh

end Elspeth
