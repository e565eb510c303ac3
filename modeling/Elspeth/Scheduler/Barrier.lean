import Elspeth.Scheduler.GroupLosses
import Elspeth.Scheduler.Leases

/-!
# Barriers

Atomic completion of a barrier and adoption of its holds
(`core/landscape/scheduler/barrier.py`).

`completeBarrier` consumes BLOCKED rows, hands others to sinks in place, and
inserts fresh sink handoffs and READY continuations, in one leader-fenced
transaction.  Its refusals come in two tables: `argumentChecks` is evaluated
before the transaction opens, `heldChecks` against the holds the transaction
reads.  Each table lists the conditions in the order of the source with the
refusal each one raises; the first that fails is reported.

Ready emissions are stamped so that the claim query, which orders by creation
time, hands them out in emission order: the last one is created at the
transaction's instant and each earlier one a microsecond before its successor.
-/

namespace Elspeth

open Relational TokenWorkItem Txn

variable [Digest] (env : CallEnv)

/-- The arguments of a barrier completion. -/
structure BarrierCompletion where
  barrierKey : String
  consumed : List String
  pendingSink : List BarrierEmission
  ready : List BarrierEmission
  /-- Every hold of the barrier must be consumed or handed off. -/
  exhaustive : Bool
  scopeRowId : Option String
  snapshot : Option (List String)
  releaseContext : Option Context
  parkedLeaseOwner : Option String
  losses : List GroupLossSpec
  outcomes : List BarrierTerminalOutcomeSpec

/-- The first failed check of a table. -/
def firstFault (checks : List (Bool × BarrierFault)) : Option BarrierFault :=
  (checks.find? fun check => !check.1).map Prod.snd

namespace BarrierCompletion

variable (completion : BarrierCompletion)

/-! ## Checks -/

/-- A pending-sink emission names its sink, outcome and path. -/
def bundleNamed (emission : BarrierEmission) : Bool :=
  emission.sinkName.isSome && emission.outcome.isSome && emission.path.isSome

/-- An emission with a row lies in the scoped group. -/
def emissionInScope (emission : BarrierEmission) : Bool :=
  completion.scopeRowId.all fun scope => emission.rowId.all (· = scope)

/-- The checks made before the transaction, in order. -/
def argumentChecks : List (Bool × BarrierFault) :=
  [(completion.scopeRowId.isNone || completion.exhaustive, .scopeOnPartialRelease),
    (completion.snapshot.isNone || completion.exhaustive, .snapshotOnPartialRelease),
    (decide completion.consumed.Nodup, .duplicateConsumed),
    (decide (completion.pendingSink.map BarrierEmission.tokenId).Nodup,
      .duplicatePendingSink),
    (decide (completion.ready.map BarrierEmission.tokenId).Nodup, .duplicateReady),
    (decide (completion.outcomes.map BarrierTerminalOutcomeSpec.tokenId).Nodup,
      .duplicateTerminalOutcomes),
    (decide (completion.outcomes.map BarrierTerminalOutcomeSpec.tokenId ⊆
      completion.consumed), .outcomesOutsideConsumed),
    (decide (∀ tokenId ∈ completion.consumed,
      tokenId ∉ completion.pendingSink.map BarrierEmission.tokenId), .consumedAndHandedOff)] ++
  completion.pendingSink.map (fun emission =>
    (bundleNamed emission, .emissionWithoutBundle emission.tokenId)) ++
  [(completion.snapshot.all fun snapshot => decide (completion.consumed ⊆ snapshot),
    .consumedOutsideSnapshot)] ++
  (completion.pendingSink ++ completion.ready).map fun emission =>
    (completion.emissionInScope emission, .emissionOutsideScope emission.tokenId)

/-- A BLOCKED row of the barrier, in scope. -/
def holds (runId : String) (row : TokenWorkItem) : Bool :=
  row.runId = runId && row.barrierKey = some completion.barrierKey && row.status = .blocked &&
    completion.scopeRowId.all (row.rowId = ·)

section

variable (held : List TokenWorkItem)

/-- Pending-sink emissions of tokens the barrier holds. -/
def passthrough : List BarrierEmission :=
  completion.pendingSink.filter fun emission => emission.tokenId ∈ held.map tokenId

/-- Pending-sink emissions of generated tokens. -/
def fresh : List BarrierEmission :=
  completion.pendingSink.filter fun emission => emission.tokenId ∉ held.map tokenId

section

variable (runId : String)

/-- A snapshot token that is not held here is held in another row group. -/
def snapshotCrosses (rows held : List TokenWorkItem) : Bool :=
  completion.scopeRowId.any fun scope => rows.any fun row =>
    row.runId = runId && row.barrierKey = some completion.barrierKey &&
      row.status = .blocked && row.rowId ≠ scope &&
      completion.snapshot.any (row.tokenId ∈ ·) &&
      decide (row.tokenId ∉ held.map tokenId)

/-- A token of the exhaustiveness universe is consumed or handed off. -/
def covered (tokenId : String) : Bool :=
  completion.snapshot.any (tokenId ∉ ·) || tokenId ∈ completion.consumed ||
    tokenId ∈ (completion.passthrough held).map BarrierEmission.tokenId

/-- A sink-bound emission meets no held row, which only the exhaustive arm
accepts, or exactly one. -/
def handoffChecks (emission : BarrierEmission) :
    List (Bool × BarrierFault) :=
  let matching := held.countP (·.tokenId = emission.tokenId)
  [(completion.exhaustive || matching ≠ 0, .handoffMissing emission.tokenId),
    (matching ≤ 1, .handoffAmbiguous emission.tokenId matching)]

/-- The checks made against the held rows, in order. -/
def heldChecks (rows held : List TokenWorkItem) :
    List (Bool × BarrierFault) :=
  let durable := held.map tokenId
  [(decide (completion.consumed ⊆ durable), .consumedNotBlocked),
    (completion.snapshot.all fun snapshot => decide (snapshot ⊆ durable),
      if completion.snapshotCrosses runId rows held then .snapshotCrossesGroups
      else .snapshotNotBlocked)] ++
  completion.pendingSink.flatMap (completion.handoffChecks held) ++
  [(!completion.exhaustive || completion.snapshot.all fun snapshot =>
      decide ((completion.passthrough held).map BarrierEmission.tokenId ⊆ snapshot),
      .handedOffOutsideSnapshot),
    (!completion.exhaustive || durable.all (completion.covered held), .uncovered)]

/-! ## Contexts -/

/-- Held tokens outside the snapshot, which stay BLOCKED. -/
def lateArrivals : List String :=
  match completion.snapshot with
  | none => []
  | some snapshot =>
    ((held.map tokenId).filter (· ∉ snapshot)).dedup.insertionSort (· ≤ ·)

/-- The context of every emission event of this completion. -/
def emissionContext : Context :=
  [("barrier_key", .text completion.barrierKey)] ++
    (if completion.exhaustive then
      [("consumed_count", .number completion.consumed.length)] ++
        (if completion.lateArrivals held = [] then []
        else [("late_arrival_token_ids", .texts (completion.lateArrivals held))])
    else [])

/-- The context of every terminalization event of this completion. -/
def releaseEventContext : Context :=
  Context.update [("barrier_key", .text completion.barrierKey)]
    (completion.releaseContext.getD [])

/-! ## Writes -/

/-- The outcomes' tokens belong to the run and are not decided yet. -/
def checkTerminalOutcomes : Transaction Unit := do
  let tokens ← query tokensSlot.rows
  let recorded ← query outcomesSlot.rows
  ensure (∀ spec ∈ completion.outcomes,
      ∃ token ∈ tokens, token.tokenId = spec.tokenId ∧ token.runId = runId)
    (.auditIntegrity (.barrier .outcomeForForeignToken))
  ensure (∀ spec ∈ completion.outcomes, tokenDecided recorded runId spec.tokenId = false)
    (.auditIntegrity (.barrier .outcomeAlreadyRecorded))

/-- The statement predicate shared by both transitions of a held row. -/
def stillHeld (row item : TokenWorkItem) : Bool :=
  item.workItemId = row.workItemId && item.runId = runId &&
    item.barrierKey = some completion.barrierKey && item.status = .blocked &&
    item.tokenId = row.tokenId

/-- The consumed rows, in the order they are terminalized. -/
def consumedRows : List TokenWorkItem :=
  sortRows (fun row => toLex (row.tokenId, row.workItemId))
    (held.filter (·.tokenId ∈ completion.consumed))

/-- BLOCKED to TERMINAL for the consumed set: one row per consumed token. -/
def terminalizeConsumed (held : List TokenWorkItem) (databaseNow : Time) :
    Transaction Nat := do
  let candidates := completion.consumedRows held
  let terminalized ← executeMany
    (fun row => itemsSlot.update (completion.stillHeld runId row)
      (terminalized (scrubbedRowPayloadJson completion.barrierKey) databaseNow))
    candidates
  ensure (terminalized = completion.consumed.length ∧ terminalized = candidates.length)
    (.auditIntegrity (.barrier
      (.terminalizationMismatch completion.consumed.length terminalized)))
  recordEvents (candidates.map fun row =>
    transitionEvent .markBlockedBarrierTerminal row .terminal none databaseNow none
      completion.releaseEventContext)
  pure terminalized

end

/-- The parked image of a held row: the emission's bundle. -/
def handedOff (emission : BarrierEmission) (databaseNow : Time) (item : TokenWorkItem) :
    TokenWorkItem :=
  { item with
    status := .pendingSink, rowPayloadJson := emission.rowPayloadJson,
    pendingSinkName := emission.sinkName, pendingOutcome := emission.outcome,
    pendingPath := emission.path, pendingErrorHash := emission.errorHash,
    pendingErrorMessage := emission.errorMessage,
    leaseOwner := completion.parkedLeaseOwner, leaseExpiresAt := none,
    updatedAt := databaseNow }

/-- The held rows to hand off, each with its emission. -/
def handoffs : List (TokenWorkItem × BarrierEmission) :=
  held.filterMap fun row =>
    ((completion.passthrough held).find? (·.tokenId = row.tokenId)).map fun emission =>
      (row, emission)

end

/-- BLOCKED to PENDING_SINK in place for the held tokens that are emitted. -/
def transitionPassthrough (runId : String) (held : List TokenWorkItem) (databaseNow : Time) :
    Transaction Unit := do
  let pairs := completion.handoffs held
  let transitioned ← mapError
    (LandscapeError.wrapRejection "barrier pending-sink handoff")
    (executeMany
      (fun pair : TokenWorkItem × BarrierEmission =>
        itemsSlot.update (completion.stillHeld runId pair.1)
          (completion.handedOff pair.2 databaseNow))
      pairs)
  ensure (transitioned = (completion.passthrough held).length)
    (.auditIntegrity (.barrier
      (.handoffMismatch (completion.passthrough held).length transitioned)))
  recordEvents (pairs.map fun pair =>
    transitionEvent .markPendingSink pair.1 .pendingSink completion.parkedLeaseOwner
      databaseNow none (completion.emissionContext held))

/-- Build one READY continuation; its creation time fixes the claim order. -/
def prepareReadyEmission (runId : String) (context : Context) (databaseNow : Time)
    (emission : BarrierEmission × Nat) : Transaction (TokenWorkItem × SchedulerEvent) :=
  match emission.1.readyValues? with
  | none =>
    raise (.auditIntegrity (.barrier (.readyCursorIncomplete emission.1.tokenId)))
  | some values => do
    validateWorkItemReferences runId values.tokenId values.rowId values.ingestSequence
      values.nodeId values.coalesceNodeId
    let availableAt ← readLandscapeTransactionTime env
    let item :=
      { readyWorkItemValues runId values availableAt with
        createdAt := databaseNow - (completion.ready.length - emission.2 - 1) }
    pure (item, enqueueEvent item databaseNow context)

/-- Insert the generated outputs: fresh handoffs, then READY continuations. -/
def insertEmissions (runId : String) (held : List TokenWorkItem) (databaseNow : Time) :
    Transaction Unit := do
  let context := completion.emissionContext held
  let pending ← mapEach
    (prepareFreshPendingSinkItem runId context databaseNow completion.parkedLeaseOwner)
    (completion.fresh held)
  let ready ← mapEach (completion.prepareReadyEmission env runId context databaseNow)
    completion.ready.zipIdx
  insertWorkItems ((pending ++ ready).map Prod.fst) "barrier-completion emissions"
  recordEvents ((pending ++ ready).map Prod.snd)

end BarrierCompletion

/-- Raise the first failed check of a table. -/
def ensureChecks (checks : List (Bool × BarrierFault)) : Transaction Unit :=
  match firstFault checks with
  | some fault => raise (.auditIntegrity (.barrier fault))
  | none => pure ()

variable (token : CoordinationToken)

def completeBarrierOn (completion : BarrierCompletion) :
    Transaction Nat := do
  let databaseNow ← readLandscapeTransactionTime env
  completion.checkTerminalOutcomes token.runId
  let rows ← query itemsSlot.rows
  let held := sortRows sweepKey (rows.filter (completion.holds token.runId))
  ensureChecks (completion.heldChecks token.runId rows held)
  let terminalized ← completion.terminalizeConsumed token.runId held databaseNow
  recordTerminalOutcomesGuarded env token.runId completion.outcomes databaseNow
  completion.transitionPassthrough token.runId held databaseNow
  completion.insertEmissions env token.runId held databaseNow
  recordGroupLosses env token.runId completion.losses token.workerId databaseNow
  pure terminalized

/-- Complete a barrier atomically: consume BLOCKED inputs and emit outputs. -/
def completeBarrier (completion : BarrierCompletion) (db : Db) :
    Except LandscapeError Nat × Db :=
  match firstFault completion.argumentChecks with
  | some fault => (.error (.auditIntegrity (.barrier fault)), db)
  | none =>
    fencedLeaderTransaction env token defaultRunLivenessWindow "complete_barrier"
      (completeBarrierOn env token completion) db

/-! ## The partial-release wrappers -/

/-- Sink handoff metadata for a BLOCKED row released by a barrier. -/
structure BlockedPendingSinkHandoff where
  tokenId : String
  rowPayloadJson : String
  sinkName : String
  outcome : String
  path : String
  errorHash : Option String
  errorMessage : Option String
  deriving DecidableEq, Repr

def BlockedPendingSinkHandoff.emission (handoff : BlockedPendingSinkHandoff) :
    BarrierEmission where
  tokenId := handoff.tokenId
  rowPayloadJson := handoff.rowPayloadJson
  sinkName := some handoff.sinkName
  outcome := some handoff.outcome
  path := some handoff.path
  errorHash := handoff.errorHash
  errorMessage := handoff.errorMessage
  rowId := none
  nodeId := none
  stepIndex := none
  ingestSequence := none
  queueKey := none
  barrierKey := none
  onSuccessSink := none
  joinGroupId := none
  lineagePath := []
  coalesceNodeId := none
  coalesceName := none
  rowUnionName := none
  collectorName := none
  attempt := 1
  attempt_pos := Nat.le_refl 1

/-- A completion that releases only what it names. -/
def BarrierCompletion.partialRelease (barrierKey : String) (consumed : List String)
    (pendingSink : List BarrierEmission) (releaseContext : Option Context)
    (parkedLeaseOwner : Option String) (losses : List GroupLossSpec) : BarrierCompletion where
  barrierKey := barrierKey
  consumed := consumed
  pendingSink := pendingSink
  ready := []
  exhaustive := false
  scopeRowId := none
  snapshot := none
  releaseContext := releaseContext
  parkedLeaseOwner := parkedLeaseOwner
  losses := losses
  outcomes := []

/-- Move BLOCKED barrier work to PENDING_SINK before external sink writes. -/
def markBlockedBarrierPendingSinkMany (barrierKey : String)
    (handoffs : List BlockedPendingSinkHandoff) (parkedLeaseOwner : Option String) (db : Db) :
    Except LandscapeError Nat × Db :=
  if handoffs = [] then (.ok 0, db)
  else
    match completeBarrier env token
        (.partialRelease barrierKey [] (handoffs.map BlockedPendingSinkHandoff.emission) none
          parkedLeaseOwner []) db with
    | (.ok _, db') => (.ok handoffs.length, db')
    | (.error raised, db') => (.error raised, db')

/-- Mark BLOCKED work consumed by a resolved barrier as terminal. -/
def markBlockedBarrierTerminal (barrierKey : String)
    (tokenIds : List String) (releaseContext : Option Context)
    (losses : List GroupLossSpec) (db : Db) : Except LandscapeError Nat × Db :=
  if tokenIds = [] then (.error (.auditIntegrity (.barrier .noLiveEvidence)), db)
  else
    completeBarrier env token
      (.partialRelease barrierKey tokenIds [] releaseContext none losses) db

/-! ## Adoption -/

/-- The batch membership of an aggregation adoption. -/
structure BatchMembershipSpec where
  batchId : String
  ordinal : Nat
  deriving DecidableEq, Repr

/-- The BUFFERED outcome of an aggregation adoption. -/
structure BufferedOutcomeSpec where
  batchId : String
  context : Option Context
  deriving DecidableEq, Repr

/-- The arguments of an adoption. -/
structure BarrierAdoption where
  workItemId : String
  tokenId : String
  barrierKey : String
  membership : Option BatchMembershipSpec
  buffered : Option BufferedOutcomeSpec
  deriving DecidableEq, Repr

structure BarrierAdoptionResult where
  adopted : Bool
  barrierAdoptedEpoch : Nat
  outcomeId : Option String
  deriving DecidableEq, Repr

section

variable (adoption : BarrierAdoption)

/-- Both aggregation specs or neither, for one batch. -/
def BarrierAdoption.argumentFault : Option AdoptionFault :=
  if adoption.membership.isNone ≠ adoption.buffered.isNone then some .mixedSpecs
  else if adoption.membership.map BatchMembershipSpec.batchId ≠
      adoption.buffered.map BufferedOutcomeSpec.batchId then some .batchMismatch
  else none

/-- The named row, BLOCKED under the named barrier. -/
def BarrierAdoption.hold (runId : String)
    (row : TokenWorkItem) : Bool :=
  row.workItemId = adoption.workItemId && row.runId = runId &&
    row.tokenId = adoption.tokenId && row.barrierKey = some adoption.barrierKey &&
    row.status = .blocked

/-- An adoption that swapped nothing: already adopted, or a corrupt journal. -/
def classifyMissedAdoption (runId : String) (adoption : BarrierAdoption) :
    Transaction BarrierAdoptionResult := do
  let holds ← itemsSlot.select (adoption.hold runId)
  match holds.head?.bind barrierAdoptedEpoch with
  | some epoch => pure ⟨false, epoch, none⟩
  | none =>
    raise (.auditIntegrity (.adoption (.compareAndSwapMissed adoption.workItemId)))

/-- The BUFFERED outcome, backdated to the hold's arrival. -/
def recordAdoptedOutcome
    (databaseNow : Time) (spec : BufferedOutcomeSpec) : Transaction String := do
  let row ← readItemOn adoption.workItemId
  match row.barrierBlockedAt with
  | none => raise (.auditIntegrity (.adoption (.noArrivalStamp adoption.workItemId)))
  | some blockedAt =>
    recordBufferedOutcomeGuarded env token.runId adoption.tokenId spec.batchId blockedAt
      (Context.update (spec.context.getD [])
        [("adopted_epoch", .number token.leaderEpoch), ("adopted_at", .instant databaseNow)])

/-- The batch membership of an adopted hold, if the adoption carries one. -/
def recordAdoptedMembership :
    Transaction Unit :=
  match adoption.membership with
  | none => pure ()
  | some membership =>
    addBatchMemberGuarded membership.batchId adoption.tokenId membership.ordinal token.runId

/-- The durable payload of an adoption that swapped the marker. -/
def recordAdoption
    (databaseNow : Time) : Transaction BarrierAdoptionResult := do
  recordAdoptedMembership token adoption
  match adoption.buffered with
  | none => pure ⟨true, token.leaderEpoch, none⟩
  | some spec => do
    let outcomeId ← recordAdoptedOutcome env token adoption databaseNow spec
    pure ⟨true, token.leaderEpoch, some outcomeId⟩

def adoptBlockedBarrierItemOn :
    Transaction BarrierAdoptionResult := do
  let databaseNow ← readLandscapeTransactionTime env
  let swapped ← itemsSlot.update
    (fun row => adoption.hold token.runId row && row.barrierAdoptedEpoch.isNone)
    fun row => { row with barrierAdoptedEpoch := some token.leaderEpoch, updatedAt := databaseNow }
  if swapped = 1 then recordAdoption env token adoption databaseNow
  else classifyMissedAdoption token.runId adoption

/-- Fenced, backdated adoption of one durable BLOCKED barrier hold. -/
def adoptBlockedBarrierItem
    (db : Db) : Except LandscapeError BarrierAdoptionResult × Db :=
  match adoption.argumentFault with
  | some fault => (.error (.auditIntegrity (.adoption fault)), db)
  | none =>
    fencedLeaderTransaction env token defaultRunLivenessWindow "adopt_blocked_barrier_item"
      (adoptBlockedBarrierItemOn env token adoption) db

end

/-- One statement of the marker reset. -/
def resetStatement (runId workItemId : String) : Transaction Nat :=
  itemsSlot.update
    (fun row => row.runId = runId && row.workItemId = workItemId && row.status = .blocked)
    fun row => { row with barrierAdoptedEpoch := none }

/-- Return crash-window holds to intake. -/
def resetAdoptionMarkerToPending (workItemIds : List String)
    (db : Db) : Except LandscapeError Nat × Db :=
  if workItemIds = [] then (.ok 0, db)
  else
    fencedLeaderTransaction env token defaultRunLivenessWindow
      "reset_adoption_marker_to_pending"
      (executeMany (resetStatement token.runId) workItemIds.eraseDups) db

end Elspeth
