import Mathlib.Data.List.Dedup
import Elspeth.Landscape.Coordination
import Elspeth.Scheduler.WorkItems

/-!
# Leases on work items

Claim, heartbeat, recovery and requeue
(`core/landscape/scheduler/leases.py`).

A claim is a compare-and-swap on one row; its predicate repeats everything the
discovery query checked.  A lease that expired is not lost: it is rotated by
the leader's sweep, and only when its owner is dead in the registry or the
lease is past the stall budget.  Rotation gives a transform item the id of its
next attempt, so a worker that still holds the old id no longer names any row;
an item that already carries a sink bundle keeps its id and only returns to
`PENDING_SINK`.

The recovery verb is modelled with both of its clock readings, both of its
statements and all of its cross-checks, in the order of the source.
-/

namespace Elspeth

open Relational Txn TokenWorkItem

variable [Digest] (env : CallEnv)

/-! ## Claims -/

/-- Which membership predicate rides a claim. -/
inductive ClaimFence where
  | unfenced
  | lenient
  | strict
  deriving DecidableEq, Repr

section

variable (fence : ClaimFence)

/-- The predicate inside the claim's UPDATE. -/
def ClaimFence.admits (workers : List RunWorker)
    (leaseOwner runId : String) : Bool :=
  match fence with
  | .unfenced => true
  | .lenient => claimVerbFence workers leaseOwner runId
  | .strict => activeWorkerFence workers leaseOwner runId

/-- The re-probe after a claim that matched nothing: is the claimant evicted? -/
def ClaimFence.evicted (workers : List RunWorker)
    (leaseOwner runId : String) : Bool :=
  match fence with
  | .unfenced => false
  | .lenient => workers.any fun worker =>
    worker.workerId = leaseOwner && worker.runId = runId && worker.status ≠ .active
  | .strict => !activeWorkerFence workers leaseOwner runId

/-- The item leased to an owner until a deadline. -/
def TokenWorkItem.leasedTo (item : TokenWorkItem) (leaseOwner : String)
    (expiresAt databaseNow : Time) : TokenWorkItem :=
  { item with
    status := .leased, leaseOwner := some leaseOwner, leaseExpiresAt := some expiresAt,
    updatedAt := databaseNow }

/-- The event of a claim. -/
def claimEvent (eventType : SchedulerEventType) (row : TokenWorkItem)
    (fromStatus : TokenWorkStatus) (leaseOwner : String) (expiresAt databaseNow : Time) :
    SchedulerEvent where
  runId := row.runId
  tokenId := row.tokenId
  workItemId := row.workItemId
  nodeId := row.nodeId
  eventType := eventType
  fromStatus := some fromStatus
  toStatus := .leased
  fromLeaseOwner := row.leaseOwner
  toLeaseOwner := some leaseOwner
  fromLeaseExpiresAt := row.leaseExpiresAt
  toLeaseExpiresAt := some expiresAt
  fromAttempt := some row.attempt
  toAttempt := row.attempt
  recordedAt := databaseNow
  callerOwner := some leaseOwner
  context := []

/-- What follows a claim that matched: the deadline, the event, the read-back. -/
def settleClaim (event : SchedulerEvent) (leaseOwner : String) (expiresAt : Time)
    (lease : Int) (rowcount : Nat) : Transaction (Option TokenWorkItem) := do
  ensure (rowcount = 1) (.auditIntegrity (.claimLostRace event.workItemId rowcount))
  recordIssuedDeadline env (.item event.workItemId) expiresAt lease
  recordEvents [event]
  let claimed ← itemsSlot.select fun row =>
    row.workItemId = event.workItemId && row.runId = event.runId && row.status = .leased &&
      row.leaseOwner = some leaseOwner
  match claimed with
  | [] => raise (.auditIntegrity (.claimNotOwned event.workItemId))
  | item :: _ => pure (some item)

/-- The predicate of the READY claim. -/
def claimableReady (workItemId runId : String) (databaseNow : Time) (admitted : Bool)
    (row : TokenWorkItem) : Bool :=
  row.workItemId = workItemId && row.runId = runId && row.status = .ready &&
    row.availableAt ≤ databaseNow && admitted

/-- A READY claim that matched nothing: evicted claimant, or nothing to claim. -/
def classifyMissedReady (workItemId runId leaseOwner : String) :
    Transaction (Option TokenWorkItem) := do
  let stillReady ← itemsSlot.select fun row =>
    row.workItemId = workItemId && row.runId = runId && row.status = .ready
  let workers ← query workersSlot.rows
  if stillReady ≠ [] ∧ fence.evicted workers leaseOwner runId then
    raise (.runWorkerEvicted leaseOwner runId)
  else pure none

/-- Claim one READY row under a lease. -/
def claimReadyRow (workItemId runId leaseOwner : String) (lease : Int) :
    Transaction (Option TokenWorkItem) := do
  let locked ← itemsSlot.select fun row => row.workItemId = workItemId && row.runId = runId
  match locked with
  | [] => pure none
  | row :: _ => do
    let databaseNow ← readLandscapeDecisionTime env
    let workers ← query workersSlot.rows
    let claimed ← itemsSlot.update
      (claimableReady row.workItemId runId databaseNow
        (fence.admits workers leaseOwner runId))
      fun item => item.leasedTo leaseOwner (databaseNow + lease) databaseNow
    if claimed = 0 then classifyMissedReady fence row.workItemId runId leaseOwner
    else
      settleClaim env
        (claimEvent .claimReady row .ready leaseOwner (databaseNow + lease) databaseNow)
        leaseOwner (databaseNow + lease) lease claimed

end

/-- The READY rows a claim may pick from. -/
def availableReady (runId : String) (databaseNow : Time) (row : TokenWorkItem) : Bool :=
  row.runId = runId && row.status = .ready && row.availableAt ≤ databaseNow

def claimReadyOn (runId leaseOwner : String) (lease : Int) :
    Transaction (Option TokenWorkItem) := do
  let databaseNow ← readLandscapeDecisionTime env
  let ready ← itemsSlot.select (availableReady runId databaseNow)
  match (sortRows claimKey ready).head? with
  | none => pure none
  | some row => claimReadyRow env .lenient row.workItemId runId leaseOwner lease

/-- The verb's lease owner must be the authority token's worker. -/
def leaseOwnerMismatch {α : Type} (leaseOwner authority : String) (db : Db) :
    Except LandscapeError α × Db :=
  (.error (.valueError (.leaseOwnerMismatch leaseOwner authority)), db)

/-- Claim the next available READY work item for a bounded lease. -/
def claimReady (member : WorkerMembershipToken) (leaseOwner : String) (lease : Int)
    (db : Db) : Except LandscapeError (Option TokenWorkItem) × Db :=
  if leaseOwner = member.workerId then
    fencedMemberTransaction env member "claim_ready"
      (claimReadyOn env member.runId leaseOwner lease) db
  else leaseOwnerMismatch leaseOwner member.workerId db

def incompleteBundle (runId workItemId : String) : LandscapeError :=
  .auditIntegrity (.incompletePendingSinkBundle runId workItemId)

/-- The predicate of the pending-sink claim. -/
def claimablePendingSink (workItemId runId : String) (admitted : Bool)
    (row : TokenWorkItem) : Bool :=
  row.workItemId = workItemId && row.runId = runId && row.status = .pendingSink &&
    pendingSinkBundle row && admitted

/-- A pending-sink claim that matched nothing: the row is refused, its claimant
is evicted, or there is nothing to claim. -/
def classifyMissedPendingSink (workItemId runId leaseOwner : String) :
    Transaction (Option TokenWorkItem) := do
  let stillPending ← itemsSlot.select fun row =>
    row.workItemId = workItemId && row.runId = runId && row.status = .pendingSink
  let workers ← query workersSlot.rows
  match stillPending with
  | [] => pure none
  | row :: _ =>
    if pendingSinkBundle row then
      if ClaimFence.lenient.evicted workers leaseOwner runId then
        raise (.runWorkerEvicted leaseOwner runId)
      else pure none
    else raise (incompleteBundle runId workItemId)

/-- Claim the selected pending-sink row. -/
def claimPendingSinkRow (workItemId runId leaseOwner : String) (lease : Int) :
    Transaction (Option TokenWorkItem) := do
  let locked ← itemsSlot.select fun row => row.workItemId = workItemId && row.runId = runId
  match locked with
  | [] => pure none
  | row :: _ => do
    let databaseNow ← readLandscapeDecisionTime env
    let workers ← query workersSlot.rows
    let claimed ← itemsSlot.update
      (claimablePendingSink row.workItemId runId (claimVerbFence workers leaseOwner runId))
      fun item => item.leasedTo leaseOwner (databaseNow + lease) databaseNow
    if claimed = 0 then classifyMissedPendingSink row.workItemId runId leaseOwner
    else
      settleClaim env
        (claimEvent .claimPendingSink row .pendingSink leaseOwner (databaseNow + lease)
          databaseNow)
        leaseOwner (databaseNow + lease) lease claimed

def claimPendingSinkOn (runId leaseOwner : String) (lease : Int) :
    Transaction (Option TokenWorkItem) := do
  let parked ← itemsSlot.select fun row => row.runId = runId && row.status = .pendingSink
  match (sortRows claimKey parked).head? with
  | none => pure none
  | some row => do
    ensure (pendingSinkBundle row = true) (incompleteBundle runId row.workItemId)
    claimPendingSinkRow env row.workItemId runId leaseOwner lease

/-- Claim a sink-bound token whose transform work is already durable. -/
def claimPendingSink (token : CoordinationToken) (leaseOwner : String) (lease : Int)
    (db : Db) : Except LandscapeError (Option TokenWorkItem) × Db :=
  if leaseOwner = token.workerId then
    fencedLeaderTransaction env token defaultRunLivenessWindow "claim_pending_sink"
      (claimPendingSinkOn env token.runId leaseOwner lease) db
  else leaseOwnerMismatch leaseOwner token.workerId db

/-! ## Recovery -/

/-- No active registry row of the owner has beaten since the threshold.  The
registry is matched on the worker id alone. -/
def ownerRegistryDead (workers : List RunWorker) (graceThreshold : Time)
    (item : TokenWorkItem) : Bool :=
  !workers.any fun worker =>
    item.leaseOwner = some worker.workerId && worker.status = .active &&
      graceThreshold ≤ worker.heartbeatExpiresAt

def leaseExpiredBefore (threshold : Time) (item : TokenWorkItem) : Bool :=
  item.leaseExpiresAt.any (· < threshold)

/-- What one sweep has read when it starts writing. -/
structure Sweep where
  runId : String
  callerOwner : String
  leaderEpoch : Nat
  discoveryNow : Time
  databaseNow : Time
  graceThreshold : Time
  stallThreshold : Time
  workers : List RunWorker
  candidateIds : List String
  ownerIds : List String

/-- The predicate of the discovery query. -/
def recoveryCandidate (runId callerOwner : String) (discoveryNow : Time)
    (item : TokenWorkItem) : Bool :=
  item.runId = runId && item.status = .leased && leaseExpiredBefore discoveryNow item &&
    item.leaseOwner ≠ some callerOwner

namespace Sweep

variable (sweep : Sweep)

section

variable (item : TokenWorkItem)

def ownerIsDead : Bool :=
  ownerRegistryDead sweep.workers sweep.graceThreshold item

def reapEligible : Bool :=
  sweep.ownerIsDead item || leaseExpiredBefore sweep.stallThreshold item

/-- The filters both rotation statements share. -/
def rotationFilter : Bool :=
  item.runId = sweep.runId && item.status = .leased &&
    leaseExpiredBefore sweep.databaseNow item &&
    item.leaseOwner ≠ some sweep.callerOwner && sweep.reapEligible item

/-- The owner is one of the discovered owners, or absent. -/
def ownerKnown : Bool :=
  item.leaseOwner.all (· ∈ sweep.ownerIds)

/-- The rows this sweep acts on, before sorting. -/
def selected : Bool :=
  item.workItemId ∈ sweep.candidateIds && sweep.ownerKnown item && sweep.rotationFilter item

/-- The rows the pending-sink statement returns to `PENDING_SINK`. -/
def sinkSelected : Bool :=
  sweep.rotationFilter item && leaseExpiredBefore sweep.discoveryNow item &&
    sweep.ownerKnown item && sinkRedriveShaped item && pendingSinkBundle item

def released : TokenWorkItem :=
  { item with
    status := .pendingSink, leaseOwner := none, leaseExpiresAt := none,
    updatedAt := sweep.databaseNow }

end

section

variable (row : TokenWorkItem)

def nextAttempt : Nat :=
  if sinkRedriveShaped row then row.attempt else row.attempt + 1

def nextId : String :=
  if sinkRedriveShaped row then row.workItemId
  else workItemId sweep.runId row.tokenId row.nodeId (row.attempt + 1)

def nextStatus : TokenWorkStatus :=
  if sinkRedriveShaped row then .pendingSink else .ready

/-- The rotated image of a transform item. -/
def rotated (row item : TokenWorkItem) : TokenWorkItem :=
  { item with
    workItemId := sweep.nextId row, attempt := nextAttempt row, status := .ready,
    leaseOwner := none, leaseExpiresAt := none, updatedAt := sweep.databaseNow }

/-- One statement of the transform rotation. -/
def rotateStatement : Transaction Nat :=
  itemsSlot.update
    (fun item => sweep.rotationFilter item && item.workItemId = row.workItemId &&
      !sinkRedriveShaped item)
    (sweep.rotated row)

def event : SchedulerEvent where
  runId := sweep.runId
  tokenId := row.tokenId
  workItemId := sweep.nextId row
  nodeId := row.nodeId
  eventType := .recoverExpiredLease
  fromStatus := some .leased
  toStatus := nextStatus row
  fromLeaseOwner := row.leaseOwner
  toLeaseOwner := none
  fromLeaseExpiresAt := row.leaseExpiresAt
  toLeaseExpiresAt := none
  fromAttempt := some row.attempt
  toAttempt := nextAttempt row
  recordedAt := sweep.databaseNow
  callerOwner := some sweep.callerOwner
  context :=
    if sweep.nextId row = row.workItemId then []
    else [(previousWorkItemKey, .text row.workItemId)]

/-- The ledger row of a live owner whose lease outlived the stall budget. -/
def stallEvent : Option CoordinationEvent :=
  if sweep.ownerIsDead row then none
  else
    row.leaseOwner.map fun leaseOwner =>
      { runId := sweep.runId, eventType := .workerStalled, workerId := leaseOwner,
        leaderEpoch := some sweep.leaderEpoch, recordedAt := sweep.databaseNow,
        context := [("reaped_work_item_id", .text row.workItemId),
          (previousWorkItemKey, .text row.workItemId),
          ("reason", .text "item_stall_budget")] }

/-- A selected item that carries part of a sink bundle must carry all of it. -/
def checkBundle : Transaction Unit :=
  ensure (sinkRedriveShaped row = true → pendingSinkBundle row = true)
    (incompleteBundle sweep.runId row.workItemId)

end

/-- A selected item that no statement changed must not be a malformed sink
handoff that is still leased. -/
def checkMissed (rows : List TokenWorkItem) (row : TokenWorkItem) : Transaction Unit :=
  match rows.find? fun current =>
      current.runId = sweep.runId && current.workItemId = row.workItemId with
  | none => pure ()
  | some current =>
    ensure
      (¬ (current.status = .leased ∧ pendingSinkBundle current = false ∧
        (sinkRedriveShaped row || sinkRedriveShaped current) = true))
      (incompleteBundle sweep.runId row.workItemId)

variable (expired : List TokenWorkItem)

/-- Return the selected sink handoffs to `PENDING_SINK`; the ids it changed. -/
def releaseSinks : Transaction (List String) := do
  let changing ← itemsSlot.select sweep.sinkSelected
  let _ ← itemsSlot.update sweep.sinkSelected sweep.released
  let sinkIds := (expired.filter sinkRedriveShaped).map TokenWorkItem.workItemId
  let changed := changing.map TokenWorkItem.workItemId
  ensure (changed ⊆ sinkIds) (.auditIntegrity (.recoveryRotatedUnselected sweep.runId))
  pure changed

/-- Rotate the selected transform items; the fresh ids that are now present. -/
def rotateTransforms : Transaction (List String) := do
  let transforms := expired.filter fun row => !sinkRedriveShaped row
  let rotated ← executeMany sweep.rotateStatement transforms
  let present ← itemsSlot.select fun item =>
    item.runId = sweep.runId && item.workItemId ∈ transforms.map sweep.nextId
  ensure (present.length = rotated)
    (.auditIntegrity (.recoveryIdentityMismatch sweep.runId rotated present.length))
  pure (present.map TokenWorkItem.workItemId)

/-- The writes of a sweep over the rows it selected. -/
def apply : Transaction Nat := do
  forEach sweep.checkBundle expired
  let sinkChanged ← sweep.releaseSinks expired
  let transformChanged ← sweep.rotateTransforms expired
  let changedIds := sinkChanged ++ transformChanged
  let rows ← query itemsSlot.rows
  forEach (sweep.checkMissed rows)
    (expired.filter fun row => sweep.nextId row ∉ changedIds)
  let recovered := expired.filter fun row => sweep.nextId row ∈ changedIds
  recordEvents (recovered.map sweep.event)
  forEach recordCoordinationEvent (recovered.filterMap sweep.stallEvent)
  pure changedIds.dedup.length

end Sweep

section

variable (token : CoordinationToken)

def rotateExpiredLeases (grace stallBudget : Int) :
    Transaction Nat := do
  let discoveryNow ← readLandscapeDecisionTime env
  let candidates ← itemsSlot.select
    (recoveryCandidate token.runId token.workerId discoveryNow)
  if candidates = [] then pure 0
  else do
    let databaseNow ← readLandscapeDecisionTime env
    let workers ← query workersSlot.rows
    let sweep : Sweep :=
      { runId := token.runId, callerOwner := token.workerId, leaderEpoch := token.leaderEpoch,
        discoveryNow, databaseNow, graceThreshold := databaseNow - grace,
        stallThreshold := databaseNow - stallBudget, workers,
        candidateIds := candidates.map TokenWorkItem.workItemId,
        ownerIds := candidates.filterMap leaseOwner }
    let selected ← itemsSlot.select sweep.selected
    if selected = [] then pure 0
    else sweep.apply (sortRows TokenWorkItem.sweepKey selected)

/-- Return expired LEASED work to READY under current leader authority. -/
def recoverExpiredLeases (grace stallBudget : Int) (db : Db) :
    Except LandscapeError Nat × Db :=
  fencedLeaderTransaction env token defaultRunLivenessWindow "recover_expired_leases"
    (rotateExpiredLeases env token grace stallBudget) db

/-! ## Requeue -/

/-- The requeued image of an undecided failed item. -/
def TokenWorkItem.requeued (nextId : String) (databaseNow : Time) (item : TokenWorkItem) :
    TokenWorkItem :=
  { item with
    workItemId := nextId, attempt := item.attempt + 1, status := .ready,
    leaseOwner := none, leaseExpiresAt := none, updatedAt := databaseNow }

def requeueId (row : TokenWorkItem) : String :=
  workItemId row.runId row.tokenId row.nodeId (row.attempt + 1)

/-- One statement of the requeue.  Its subquery reads the outcomes, which the batch
does not write. -/
def requeueStatement (outcomes : List TokenOutcome) (runId : String) (databaseNow : Time)
    (row : TokenWorkItem) : Transaction Nat :=
  itemsSlot.update
    (fun item => item.runId = runId && item.workItemId = row.workItemId &&
      undecidedFailedWork outcomes item)
    (requeued (requeueId row) databaseNow)

def requeueEvent (callerOwner : String) (databaseNow : Time) (row : TokenWorkItem) :
    SchedulerEvent where
  runId := row.runId
  tokenId := row.tokenId
  workItemId := requeueId row
  nodeId := row.nodeId
  eventType := .resumeRequeueFailed
  fromStatus := some .failed
  toStatus := .ready
  fromLeaseOwner := none
  toLeaseOwner := none
  fromLeaseExpiresAt := none
  toLeaseExpiresAt := none
  fromAttempt := some row.attempt
  toAttempt := row.attempt + 1
  recordedAt := databaseNow
  callerOwner := some callerOwner
  context := [(previousWorkItemKey, .text row.workItemId)]

/-- The item's payload is the purge marker of its own id. -/
def purgedPayload (row : TokenWorkItem) : Bool :=
  row.rowPayloadJson = scrubbedRowPayloadJson row.workItemId

/-- Rotate the selected failed items, after the two refusals. -/
def requeueSelected (undecided : List TokenWorkItem) :
    Transaction Nat := do
  ensure (undecided.filter purgedPayload = []) (.auditIntegrity (.requeuePurged token.runId))
  let losses ← groupLossesSlot.select fun loss =>
    loss.runId = token.runId && loss.tokenId ∈ undecided.map tokenId
  ensure (losses = []) (.auditIntegrity (.requeueGroupLoss token.runId))
  let databaseNow ← readLandscapeDecisionTime env
  let outcomes ← query outcomesSlot.rows
  let changed ← executeMany (requeueStatement outcomes token.runId databaseNow) undecided
  ensure (changed = undecided.length)
    (.auditIntegrity (.requeueMissed token.runId changed undecided.length))
  recordEvents (undecided.map (requeueEvent token.workerId databaseNow))
  pure undecided.length

def requeueUndecidedFailedWorkOn : Transaction Nat := do
  let outcomes ← query outcomesSlot.rows
  let undecided ← itemsSlot.select fun row =>
    row.runId = token.runId && undecidedFailedWork outcomes row
  if undecided = [] then pure 0
  else requeueSelected env token (sortRows sweepKey undecided)

/-- Return every FAILED item whose token has no completed outcome to READY. -/
def requeueUndecidedFailedWork (db : Db) :
    Except LandscapeError Nat × Db :=
  fencedLeaderTransaction env token defaultRunLivenessWindow "requeue_undecided_failed_work"
    (requeueUndecidedFailedWorkOn env token) db

end

/-! ## Heartbeats -/

/-- The predicate of the lease renewal. -/
def heldLease (workItemId runId leaseOwner : String) (row : TokenWorkItem) : Bool :=
  row.workItemId = workItemId && row.runId = runId && row.status = .leased &&
    row.leaseOwner = some leaseOwner

section

variable (runId workItemId leaseOwner : String)

/-- The event of a renewal that missed a row that still has the id. -/
def leaseLostEvent (databaseNow : Time)
    (current : TokenWorkItem) : SchedulerEvent where
  runId := runId
  tokenId := current.tokenId
  workItemId := workItemId
  nodeId := current.nodeId
  eventType := .leaseLost
  fromStatus := some .leased
  toStatus := current.status
  fromLeaseOwner := some leaseOwner
  toLeaseOwner := current.leaseOwner
  fromLeaseExpiresAt := none
  toLeaseExpiresAt := current.leaseExpiresAt
  fromAttempt := some current.attempt
  toAttempt := current.attempt
  recordedAt := databaseNow
  callerOwner := some leaseOwner
  context := [("reason", .text "heartbeat_cas_miss")]

/-- The event of a renewal of an id that a recovery rotated away. -/
def leaseRecoveredEvent (databaseNow : Time)
    (recovery : SchedulerEvent) : SchedulerEvent where
  runId := runId
  tokenId := recovery.tokenId
  workItemId := workItemId
  nodeId := recovery.nodeId
  eventType := .leaseLost
  fromStatus := some .leased
  toStatus := recovery.toStatus
  fromLeaseOwner := some leaseOwner
  toLeaseOwner := recovery.toLeaseOwner
  fromLeaseExpiresAt := recovery.fromLeaseExpiresAt
  toLeaseExpiresAt := recovery.toLeaseExpiresAt
  fromAttempt := recovery.fromAttempt
  toAttempt := recovery.toAttempt
  recordedAt := databaseNow
  callerOwner := some leaseOwner
  context := [("reason", .text "heartbeat_cas_miss_after_recovery"),
    ("recovered_work_item_id", .text recovery.workItemId),
    ("recovery_event_id", .text (Digest.schedulerEventId recovery))]

/-- The LEASE_LOST event of a missed renewal, if the journal explains it. -/
def lostLeaseEvents (databaseNow : Time)
    (rows : List TokenWorkItem) (events : List SchedulerEvent) : List SchedulerEvent :=
  match rows.find? fun row => row.runId = runId && row.workItemId = workItemId with
  | some current => [leaseLostEvent runId workItemId leaseOwner databaseNow current]
  | none =>
    ((recoveryEventForPreviousWorkItem runId workItemId events).map
      (leaseRecoveredEvent runId workItemId leaseOwner databaseNow)).toList

/-- The renewal; `none` when the lease is lost. -/
def heartbeatLeaseOn (lease : Int) :
    Transaction (Option Time) := do
  let databaseNow ← readLandscapeDecisionTime env
  let renewed ← itemsSlot.update (heldLease workItemId runId leaseOwner) fun row =>
    { row with leaseExpiresAt := some (databaseNow + lease), updatedAt := databaseNow }
  if renewed = 1 then do
    recordIssuedDeadline env (.item workItemId) (databaseNow + lease) lease
    pure (some (databaseNow + lease))
  else do
    let rows ← query itemsSlot.rows
    let events ← query fun conn => conn.db.schedulerEvents
    recordEvents (lostLeaseEvents runId workItemId leaseOwner databaseNow rows events)
    pure none

end

/-- Extend a held lease; a miss commits its LEASE_LOST event and then raises. -/
def heartbeatLease (member : WorkerMembershipToken) (workItemId leaseOwner : String)
    (lease : Int) (db : Db) : Except LandscapeError Time × Db :=
  if leaseOwner = member.workerId then
    match fencedMemberTransaction env member "heartbeat_lease"
        (heartbeatLeaseOn env member.runId workItemId leaseOwner lease) db with
    | (.ok (some expiresAt), db') => (.ok expiresAt, db')
    | (.ok none, db') =>
      (.error (.schedulerLeaseLost workItemId leaseOwner member.runId), db')
    | (.error raised, db') => (.error raised, db')
  else leaseOwnerMismatch leaseOwner member.workerId db

end Elspeth
