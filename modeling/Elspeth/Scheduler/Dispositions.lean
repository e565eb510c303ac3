import Elspeth.Scheduler.GroupLosses
import Elspeth.Scheduler.Leases

/-!
# Dispositions of leased work

What a worker does with an item it holds, and how sink handoffs end
(`core/landscape/scheduler/dispositions.py`).

A disposition is one conditional update: the row must still have the id the
caller was given, be LEASED, be transform work and be owned by the caller.  The
lease's expiry is not looked at.  The four images differ only in the columns
they write, so the four `mark*` verbs are one definition with an image
parameter.

The pending-sink terminalizers are leader verbs.  They anchor the purge marker
on the token id, where the transform dispositions anchor it on the work-item
id.
-/

namespace Elspeth

open Relational TokenWorkItem Txn

variable [Digest] (env : CallEnv)

/-! ## Images -/

/-- The column image of a disposition. -/
inductive DispositionImage where
  | blocked (queueKey barrierKey : Option String) (rowPayloadJson : String)
  | terminal (rowPayloadJson : String)
  | failed (purgedRowPayloadJson : String)
  | pendingSink (rowPayloadJson sinkName outcome path : String)
      (errorHash errorMessage : Option String) (leaseOwner : String)
  deriving DecidableEq, Repr

namespace DispositionImage

def status : DispositionImage → TokenWorkStatus
  | blocked .. => .blocked
  | terminal .. => .terminal
  | failed .. => .failed
  | pendingSink .. => .pendingSink

def eventType : DispositionImage → SchedulerEventType
  | blocked .. => .markBlocked
  | terminal .. => .markTerminal
  | failed .. => .markFailed
  | pendingSink .. => .markPendingSink

/-- A park keeps its owner; every other image clears the lease. -/
def nextLeaseOwner : DispositionImage → Option String
  | pendingSink _ _ _ _ _ _ leaseOwner => some leaseOwner
  | _ => none

def requiresBundle : DispositionImage → Bool
  | pendingSink .. => true
  | _ => false

/-- The row after the disposition. -/
def apply (image : DispositionImage) (outcomes : List TokenOutcome) (databaseNow : Time)
    (item : TokenWorkItem) : TokenWorkItem :=
  match image with
  | blocked queueKey barrierKey payload =>
    { item with
      status := .blocked, updatedAt := databaseNow, queueKey, barrierKey,
      rowPayloadJson := payload, barrierBlockedAt := some databaseNow, leaseOwner := none,
      leaseExpiresAt := none }
  | terminal payload => item.terminalized payload databaseNow
  | failed purged =>
    -- The payload survives exactly while the token is undecided.
    { item with
      status := .failed, updatedAt := databaseNow,
      rowPayloadJson := if workItemTokenDecided outcomes item then purged
        else item.rowPayloadJson,
      leaseOwner := none, leaseExpiresAt := none }
  | pendingSink payload sinkName outcome path errorHash errorMessage leaseOwner =>
    { item with
      status := .pendingSink, updatedAt := databaseNow, rowPayloadJson := payload,
      pendingSinkName := some sinkName, pendingOutcome := some outcome,
      pendingPath := some path, pendingErrorHash := errorHash,
      pendingErrorMessage := errorMessage, leaseOwner := some leaseOwner,
      leaseExpiresAt := none }

end DispositionImage

/-! ## One disposition -/

/-- The transform lease a disposition consumes. -/
def transformLease (workItemId runId leaseOwner : String) (row : TokenWorkItem) : Bool :=
  row.workItemId = workItemId && row.runId = runId && row.status = .leased &&
    row.pendingSinkName.isNone && row.leaseOwner = some leaseOwner

/-- The event of a disposition, from the row read before the write. -/
def recordTransition (before : List TokenWorkItem) (workItemId leaseOwner : String)
    (image : DispositionImage) (databaseNow : Time) : Transaction Unit :=
  match before with
  | [] => raise (.auditIntegrity (.transitionUnread workItemId))
  | row :: _ =>
    recordEvents
      [transitionEvent image.eventType row image.status image.nextLeaseOwner databaseNow
        (some leaseOwner) []]

section

variable (member : WorkerMembershipToken)

section

variable (workItemId leaseOwner : String)

variable (image : DispositionImage)

def transitionOn (losses : List GroupLossSpec) : Transaction TokenWorkItem := do
  let databaseNow ← readLandscapeTransactionTime env
  let before ← itemsSlot.select fun row => row.workItemId = workItemId
  let outcomes ← query outcomesSlot.rows
  let changed ← itemsSlot.update (transformLease workItemId member.runId leaseOwner)
    (image.apply outcomes databaseNow)
  ensure (changed = 1) (.auditIntegrity (.transitionMissed workItemId changed))
  let after ← readItemOn workItemId
  ensure (image.requiresBundle = true → pendingSinkBundle after = true)
    (incompleteBundle member.runId workItemId)
  recordTransition before workItemId leaseOwner image databaseNow
  recordGroupLosses env member.runId losses member.workerId databaseNow
  pure after

/-- One membership-fenced disposition. -/
def transition (losses : List GroupLossSpec) (db : Db) :
    Except LandscapeError TokenWorkItem × Db :=
  if leaseOwner = member.workerId then
    fencedMemberTransaction env member "_transition"
      (transitionOn env member workItemId leaseOwner image losses) db
  else leaseOwnerMismatch leaseOwner member.workerId db

/-! ## Dispositions with children -/

/-- Build one child READY cursor and its event. -/
def prepareReadyEmissionOn (runId : String) (emission : BarrierEmission) :
    Transaction (TokenWorkItem × SchedulerEvent) :=
  match emission.readyValues? with
  | none => raise (.auditIntegrity (.childCursorIncomplete emission.tokenId))
  | some values => do
    validateWorkItemReferences runId values.tokenId values.rowId values.ingestSequence
      values.nodeId values.coalesceNodeId
    let availableAt ← readLandscapeTransactionTime env
    let item := readyWorkItemValues runId values availableAt
    pure (item, enqueueEvent item availableAt [])

/-- Set one entry of a dictionary of events keyed by work-item id. -/
def setEvent (seen : List SchedulerEvent) (event : SchedulerEvent) : List SchedulerEvent :=
  if seen.any (·.workItemId = event.workItemId) then
    seen.map fun earlier => if earlier.workItemId = event.workItemId then event else earlier
  else seen ++ [event]

/-- The last event of each id, in the order the ids first occurred. -/
def eventsById (events : List SchedulerEvent) : List SchedulerEvent :=
  events.foldl setEvent []

/-- Enqueue the children of a disposition; the child rows in emission order. -/
def enqueueChildrenOn (runId workItemId : String) (emissions : List BarrierEmission) :
    Transaction (List TokenWorkItem) := do
  let children ← mapEach (prepareReadyEmissionOn env runId) emissions
  let inserted ← insertWorkItemsIdempotent (children.map Prod.fst)
    ("atomic child enqueue for parent work_item_id=" ++ workItemId)
  recordEvents ((eventsById (children.map Prod.snd)).filter fun event =>
    event.workItemId ∈ inserted.map TokenWorkItem.workItemId)
  mapEach (fun child => readItemOn child.1.workItemId) children

/-- Enqueue child continuations and dispose of their parent, atomically. -/
def transitionWithReadyChildren (emissions : List BarrierEmission)
    (losses : List GroupLossSpec) (db : Db) :
    Except LandscapeError (TokenWorkItem × List TokenWorkItem) × Db :=
  if emissions = [] then (.error (.valueError .childrenRequired), db)
  else if leaseOwner = member.workerId then
    fencedMemberTransaction env member "_transition_with_ready_children"
      (do
        let children ← enqueueChildrenOn env member.runId workItemId emissions
        let parent ← transitionOn env member workItemId leaseOwner image losses
        pure (parent, children)) db
  else leaseOwnerMismatch leaseOwner member.workerId db

end

/-! ## The public verbs -/

/-- Move an item to BLOCKED at a queue or barrier. -/
def markBlocked (workItemId : String)
    (queueKey barrierKey : Option String) (rowPayloadJson leaseOwner : String) (db : Db) :
    Except LandscapeError TokenWorkItem × Db :=
  if queueKey = none ∧ barrierKey = none then
    (.error (.auditIntegrity (.blockWithoutKey workItemId)), db)
  else
    transition env member workItemId leaseOwner (.blocked queueKey barrierKey rowPayloadJson)
      [] db

end

/-- The images of the other transform dispositions. -/
inductive Disposition where
  | terminal
  | failed
  | pendingSink (rowPayloadJson sinkName outcome path : String)
      (errorHash errorMessage : Option String)
  deriving DecidableEq, Repr

/-- The image a disposition writes; the purge marker is anchored on the item. -/
def Disposition.image (workItemId leaseOwner : String) : Disposition → DispositionImage
  | .terminal => .terminal (scrubbedRowPayloadJson workItemId)
  | .failed => .failed (scrubbedRowPayloadJson workItemId)
  | .pendingSink payload sinkName outcome path errorHash errorMessage =>
    .pendingSink payload sinkName outcome path errorHash errorMessage leaseOwner

/-- `mark_terminal`, `mark_failed` and `mark_pending_sink`. -/
def mark (disposition : Disposition) (member : WorkerMembershipToken)
    (workItemId leaseOwner : String) (losses : List GroupLossSpec) (db : Db) :
    Except LandscapeError TokenWorkItem × Db :=
  transition env member workItemId leaseOwner (disposition.image workItemId leaseOwner)
    losses db

def markTerminal := mark env .terminal

def markFailed := mark env .failed

def markPendingSink (rowPayloadJson sinkName outcome path : String)
    (errorHash errorMessage : Option String) :=
  mark env (.pendingSink rowPayloadJson sinkName outcome path errorHash errorMessage)

/-- `mark_terminal_with_ready_children` and its two siblings. -/
def markWithReadyChildren (disposition : Disposition) (member : WorkerMembershipToken)
    (workItemId leaseOwner : String) (emissions : List BarrierEmission)
    (losses : List GroupLossSpec) (db : Db) :
    Except LandscapeError (TokenWorkItem × List TokenWorkItem) × Db :=
  transitionWithReadyChildren env member workItemId leaseOwner
    (disposition.image workItemId leaseOwner) emissions losses db

def markTerminalWithReadyChildren := markWithReadyChildren env .terminal

def markFailedWithReadyChildren := markWithReadyChildren env .failed

def markPendingSinkWithReadyChildren (rowPayloadJson sinkName outcome path : String)
    (errorHash errorMessage : Option String) :=
  markWithReadyChildren env
    (.pendingSink rowPayloadJson sinkName outcome path errorHash errorMessage)

/-! ## Pending-sink terminalization -/

/-- The parked or re-claimed handoffs of a run. -/
def sinkHandoff (runId : String) (row : TokenWorkItem) : Bool :=
  row.runId = runId && (row.status = .pendingSink || row.status = .leased) &&
    row.pendingSinkName.isSome

/-- The event of a terminalized handoff. -/
def sinkTerminalEvent (callerOwner : String) (databaseNow : Time) (row : TokenWorkItem) :
    SchedulerEvent :=
  transitionEvent .markPendingSinkTerminal row .terminal none databaseNow (some callerOwner) []

def ownedHandoff (runId tokenId leaseOwner : String) (row : TokenWorkItem) : Bool :=
  sinkHandoff runId row && row.tokenId = tokenId && row.leaseOwner = some leaseOwner

def markPendingSinkTerminalOn (runId tokenId leaseOwner : String) : Transaction Nat := do
  let databaseNow ← readLandscapeTransactionTime env
  let rows ← itemsSlot.select (ownedHandoff runId tokenId leaseOwner)
  ensure (rows ≠ []) .pendingSinkTerminalMiss
  let changed ← itemsSlot.update (ownedHandoff runId tokenId leaseOwner)
    (terminalized (scrubbedRowPayloadJson tokenId) databaseNow)
  ensure (changed = rows.length) .pendingSinkTerminalMiss
  recordEvents ((sortRows TokenWorkItem.workItemId rows).map
    (sinkTerminalEvent leaseOwner databaseNow))
  pure changed

variable (token : CoordinationToken)

/-- Terminalize the handoffs of one token; a miss rolls everything back and
returns zero. -/
def markPendingSinkTerminal (tokenId leaseOwner : String)
    (db : Db) : Except LandscapeError Nat × Db :=
  match fencedLeaderTransaction env token defaultRunLivenessWindow
      "mark_pending_sink_terminal"
      (markPendingSinkTerminalOn env token.runId tokenId leaseOwner) db with
  | (.error .pendingSinkTerminalMiss, db') => (.ok 0, db')
  | outcome => outcome

/-- A token of the batch must resolve to exactly one complete, owned handoff. -/
def checkSinkMember (rows : List TokenWorkItem) (leaseOwner tokenId : String) :
    Transaction Unit :=
  match rows.filter (·.tokenId = tokenId) with
  | [] => raise (.auditIntegrity (.sink (.missingToken tokenId)))
  | [row] => do
    ensure (pendingSinkBundle row = true)
      (.auditIntegrity (.sink (.incompleteToken tokenId)))
    ensure (row.leaseOwner = some leaseOwner)
      (.auditIntegrity (.sink (.foreignOwner tokenId row.leaseOwner)))
  | several => raise (.auditIntegrity (.sink (.ambiguousToken tokenId several.length)))

/-- One statement of the batch terminalization. -/
def sinkMemberStatement (runId leaseOwner : String) (databaseNow : Time)
    (row : TokenWorkItem) : Transaction Nat :=
  itemsSlot.update
    (fun item => item.workItemId = row.workItemId && item.runId = runId &&
      item.status = row.status && item.tokenId = row.tokenId &&
      item.pendingSinkName.isSome && item.leaseOwner = some leaseOwner &&
      pendingSinkBundle item)
    (terminalized (scrubbedRowPayloadJson row.tokenId) databaseNow)

def markPendingSinkTerminalManyOn (runId leaseOwner : String) (tokenIds : List String) :
    Transaction Nat := do
  let databaseNow ← readLandscapeTransactionTime env
  let handoffs ← itemsSlot.select fun row => sinkHandoff runId row && row.tokenId ∈ tokenIds
  let rows := sortRows sweepKey handoffs
  forEach (checkSinkMember rows leaseOwner) tokenIds
  let changed ← executeMany (sinkMemberStatement runId leaseOwner databaseNow) rows
  ensure (changed = rows.length)
    (.auditIntegrity (.sink (.compareAndSwapMissed changed rows.length)))
  recordEvents (rows.map (sinkTerminalEvent leaseOwner databaseNow))
  pure changed

/-- The first token id that occurs twice. -/
def firstDuplicate : List String → Option String
  | [] => none
  | tokenId :: rest => if tokenId ∈ rest then some tokenId else firstDuplicate rest

/-- Terminalize the handoffs of a durable sink batch, all or nothing. -/
def markPendingSinkTerminalMany (tokenIds : List String)
    (leaseOwner : String) (db : Db) : Except LandscapeError Nat × Db :=
  if tokenIds = [] then (.ok 0, db)
  else
    match firstDuplicate tokenIds with
    | some tokenId => (.error (.auditIntegrity (.sink (.duplicateToken tokenId))), db)
    | none =>
      fencedLeaderTransaction env token defaultRunLivenessWindow
        "mark_pending_sink_terminal_many"
        (markPendingSinkTerminalManyOn env token.runId leaseOwner tokenIds) db

/-- Parked handoffs whose token outcome is already durable. -/
def decidedHandoff (outcomes : List TokenOutcome) (runId : String) (row : TokenWorkItem) :
    Bool :=
  row.runId = runId && row.status = .pendingSink && row.pendingSinkName.isSome &&
    tokenDecided outcomes runId row.tokenId

/-- One statement of the crash repair. -/
def repairStatement (runId : String) (databaseNow : Time) (row : TokenWorkItem) :
    Transaction Nat :=
  itemsSlot.update
    (fun item => item.workItemId = row.workItemId && item.runId = runId &&
      item.status = .pendingSink && item.pendingSinkName.isSome)
    (terminalized (scrubbedRowPayloadJson row.tokenId) databaseNow)

def terminalizeDecidedOn (runId callerOwner : String) : Transaction Nat := do
  let databaseNow ← readLandscapeTransactionTime env
  let outcomes ← query outcomesSlot.rows
  let decided ← itemsSlot.select (decidedHandoff outcomes runId)
  let rows := sortRows sweepKey decided
  let changed ← executeMany (repairStatement runId databaseNow) rows
  ensure (changed = rows.length)
    (.auditIntegrity (.sink (.compareAndSwapMissed changed rows.length)))
  recordEvents (rows.map (sinkTerminalEvent callerOwner databaseNow))
  pure changed

/-- Repair parked handoffs whose terminal token outcome is already durable. -/
def terminalizePendingSinksWithTerminalOutcomes
    (callerOwner : String) (db : Db) : Except LandscapeError Nat × Db :=
  fencedLeaderTransaction env token defaultRunLivenessWindow
    "terminalize_pending_sinks_with_terminal_outcomes"
    (terminalizeDecidedOn env token.runId callerOwner) db

end Elspeth
