import Elspeth.Landscape.Frame
import Elspeth.Scheduler.Leases

/-!
# Enqueue and ingest

Persisting READY continuations and fresh pending-sink handoffs into the
scheduler queue (`core/landscape/scheduler/queue.py`).

`enqueueOn` is the insert-or-replay core shared by every enqueue; the
`*Claimed*` verbs follow it by a claim of the same row when it is READY.  The
node states, validation-error links and routing events that ride an ingest are
writes of other repositories and come in as a `BystanderWrite`.
-/

namespace Elspeth

open Relational

variable [Digest] (env : CallEnv)

/-! ## Enqueue -/

/-- Insert or reconcile one READY continuation and read the row back. -/
def enqueueOn (runId : String) (values : ReadyValues) (availableAt : Time)
    (operation : String) : Transaction TokenWorkItem := do
  validateWorkItemReferences runId values.tokenId values.rowId values.ingestSequence
    values.nodeId values.coalesceNodeId
  let inserted ← insertWorkItemsIdempotent [readyWorkItemValues runId values availableAt]
    operation
  recordEvents (inserted.map fun item => enqueueEvent item availableAt [])
  readItemOn (workItemId runId values.tokenId values.nodeId values.attempt)

def enqueueReadyOn (runId : String) (values : ReadyValues) : Transaction TokenWorkItem := do
  let availableAt ← readLandscapeTransactionTime env
  enqueueOn runId values availableAt "enqueue READY scheduler work"

/-- Persist a READY token continuation. -/
def enqueueReady (member : WorkerMembershipToken) (values : ReadyValues) (db : Db) :
    Except LandscapeError TokenWorkItem × Db :=
  fencedMemberTransaction env member "enqueue_ready"
    (enqueueReadyOn env member.runId values) db

/-- The strict entry check of the standalone enqueue-and-claim. -/
def requireActiveWorker (workerId : Option String) (runId : String) : Transaction Unit :=
  match workerId with
  | none => pure ()
  | some workerId => do
    let workers ← Txn.query workersSlot.rows
    Txn.ensure (activeWorkerFence workers workerId runId = true)
      (.runWorkerEvicted workerId runId)

/-- Claim the row just enqueued if it is READY; a claim that finds nothing
leaves the row as it is. -/
def claimEnqueuedOn (fence : ClaimFence) (row : TokenWorkItem) (runId leaseOwner : String)
    (lease : Int) : Transaction TokenWorkItem :=
  if row.status = .ready then do
    let claimed ← claimReadyRow env fence row.workItemId runId leaseOwner lease
    pure (claimed.getD row)
  else pure row

/-- Enqueue and claim on the caller's connection.  Ingest passes no worker: its
leader fence is the outer authority. -/
def enqueueReadyClaimedOn (runId : String) (values : ReadyValues) (leaseOwner : String)
    (lease : Int) (workerId : Option String) : Transaction TokenWorkItem := do
  let availableAt ← readLandscapeTransactionTime env
  requireActiveWorker workerId runId
  let row ← enqueueOn runId values availableAt "enqueue and claim READY scheduler work"
  claimEnqueuedOn env (if workerId.isSome then .strict else .unfenced) row runId leaseOwner
    lease

/-- Persist and claim READY work for an active registered worker. -/
def enqueueReadyClaimed (member : WorkerMembershipToken) (values : ReadyValues)
    (leaseOwner : String) (lease : Int) (db : Db) :
    Except LandscapeError TokenWorkItem × Db :=
  if leaseOwner = member.workerId then
    fencedMemberTransaction env member "enqueue_ready_claimed"
      (enqueueReadyClaimedOn env member.runId values leaseOwner lease
        (some member.workerId)) db
  else leaseOwnerMismatch leaseOwner member.workerId db

/-! ## Ingest -/

/-- Source identity of one atomic scheduler ingest. -/
structure SourceIngestSpec where
  sourceNodeId : String
  rowIndex : Nat
  sourceRowIndex : Nat
  ingestSequence : Nat
  rowId : String
  tokenId : String
  deriving DecidableEq, Repr

/-- `identifier or generate_id()`. -/
def orGenerated (identifier : String) : Transaction String :=
  if identifier = "" then generateId env else pure identifier

variable (token : CoordinationToken)

section

variable (source : SourceIngestSpec)

/-- Insert the source row and its root token under the leader's authority. -/
def insertRowWithTokenOn :
    Transaction Unit := do
  verifyAndExtendLeaderFence env token defaultRunLivenessWindow "insert_row_with_token_on"
  let rowId ← orGenerated env source.rowId
  let tokenId ← orGenerated env source.tokenId
  let nodes ← nodesSlot.select fun node =>
    node.runId = token.runId && node.nodeId = source.sourceNodeId
  Txn.ensure (nodes ≠ []) (.integrityError .foreignKey)
  rowsSlot.insert
    [{ rowId, runId := token.runId, sourceNodeId := source.sourceNodeId,
       rowIndex := some source.rowIndex, sourceRowIndex := source.sourceRowIndex,
       ingestSequence := source.ingestSequence, createdAt := env.processTime }]
  tokensSlot.insert
    [{ tokenId, rowId, runId := token.runId, joinGroupId := none,
       createdAt := env.processTime }]
  Txn.ensure (rowId = source.rowId ∧ tokenId = source.tokenId)
    (.auditIntegrity .ingestIdentityMismatch)

/-- The continuation an ingest enqueues: the source's token at its first attempt. -/
def SourceIngestSpec.initialValues (values : ReadyValues) :
    ReadyValues :=
  { values with
    tokenId := source.tokenId, rowId := source.rowId,
    ingestSequence := source.ingestSequence, attempt := 1 }

/-- Fenced leader ingest: row, token, source state and initial claim in one
transaction. -/
def ingestRowWithInitialClaim
    (sourceState : BystanderWrite) (values : ReadyValues) (leaseOwner : String)
    (lease : Int) (db : Db) : Except LandscapeError TokenWorkItem × Db :=
  if leaseOwner = token.workerId then
    fencedLeaderTransaction env token defaultRunLivenessWindow
      "ingest_row_with_initial_claim"
      (do
        insertRowWithTokenOn env token source
        sourceState.run env
        enqueueReadyClaimedOn env token.runId (source.initialValues values) leaseOwner lease
          none) db
  else leaseOwnerMismatch leaseOwner token.workerId db

/-- The pending-sink image describes this source row's quarantine handoff. -/
def SourceIngestSpec.quarantines (emission : BarrierEmission) :
    Bool :=
  emission.tokenId = source.tokenId && emission.rowId = some source.rowId &&
    emission.ingestSequence = some source.ingestSequence &&
    emission.outcome = some "failure" && emission.path = some "quarantined_at_source"

end

/-- Park the handoff of a quarantined source row; refused when the resume drain
could never claim it. -/
def parkSourceQuarantineOn (runId : String) (emission : BarrierEmission)
    (parkedLeaseOwner : String) : Transaction TokenWorkItem := do
  let databaseNow ← readLandscapeTransactionTime env
  let (item, event) ← prepareFreshPendingSinkItem runId
    [("reason", .text "source_quarantine_ingest")] databaseNow (some parkedLeaseOwner) emission
  insertWorkItems [item] "source-quarantine pending-sink handoff"
  recordEvents [event]
  let parked ← readItemOn item.workItemId
  Txn.ensure (pendingSinkBundle parked = true)
    (.auditIntegrity (.parkedIncompleteBundle emission.tokenId))
  pure parked

/-- Fenced leader quarantine ingest: a rejected source row's whole record and
its handoff in one transaction. -/
def ingestQuarantineRowWithPendingSink
    (source : SourceIngestSpec) (sourceState : BystanderWrite) (emission : BarrierEmission)
    (db : Db) : Except LandscapeError TokenWorkItem × Db :=
  if source.quarantines emission then
    fencedLeaderTransaction env token defaultRunLivenessWindow
      "ingest_quarantine_row_with_pending_sink"
      (do
        insertRowWithTokenOn env token source
        sourceState.run env
        parkSourceQuarantineOn env token.runId emission token.workerId) db
  else (.error (.auditIntegrity .quarantineImageMismatch), db)

end Elspeth
