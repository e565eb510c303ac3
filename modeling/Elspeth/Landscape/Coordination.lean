import Elspeth.Landscape.Session

/-!
# Run coordination

The persistence boundary of multi-worker coordination
(`core/landscape/run_coordination_repository.py`): the leader seat with its
fencing epoch, the worker registry, and the coordination ledger.

Two fences open almost every write transaction of the system.

* The **leader fence** matches the caller's token `(run, worker, epoch)` against
  the seat.  It never looks at the seat's expiry: an idle leader whose seat
  lapsed still passes its own fence until somebody takes the seat over.
* The **membership fence** matches `(run, worker)` against an active registry
  row.

A refused fence rolls the transaction back and then writes one best-effort
`fence_refusal` ledger row on a fresh connection.  That second write is modelled
as the source has it: it is its own transaction, and any database fault (a lock,
a vanished run, an event id already present) silently loses it.

Row locks (`SELECT … FOR UPDATE`) have no effect in a model where each
transaction is atomic; the reads that ride on them are kept.
-/

namespace Elspeth

open Relational Txn

/-- Leader fencing token, carried by value into every leader-fenced verb. -/
structure CoordinationToken where
  runId : String
  workerId : String
  leaderEpoch : Nat
  deriving DecidableEq, Repr

/-- Membership fencing token. -/
structure WorkerMembershipToken where
  runId : String
  workerId : String
  deriving DecidableEq, Repr

/-- The leader's own membership, the weaker authority derived from the stronger. -/
def CoordinationToken.membership (token : CoordinationToken) : WorkerMembershipToken :=
  ⟨token.runId, token.workerId⟩

/-- The default run-level liveness window: eighty seconds. -/
def defaultRunLivenessWindow : Int := 80 * second

/-- Run statuses a takeover flips back to running. -/
def takeoverFlippableRunStatuses : List RunStatus := [.failed, .interrupted]

/-- Successful terminal runs are immutable. -/
def immutableSuccessRunStatuses : List RunStatus :=
  [.completed, .completedWithFailures, .empty]

/-- Every terminal status. -/
def exportSeatRunStatuses : List RunStatus :=
  takeoverFlippableRunStatuses ++ immutableSuccessRunStatuses

variable [Digest] (env : CallEnv)

/-! ## The coordination ledger -/

/-- Append one ledger row in the caller's transaction. -/
def recordCoordinationEvent (event : CoordinationEvent) : Transaction Unit := do
  let runs ← query fun conn => conn.db.runs.rows
  ensure (event.runId ∈ runs.map Run.runId) (.integrityError .foreignKey)
  coordinationEventsSlot.insert [⟨Digest.coordinationEventId event, event⟩]

/-- Write a ledger row on a fresh connection; best-effort, never raises. -/
def recordBestEffortEvent (event : CoordinationEvent) (db : Db) : Db :=
  if env.bestEffortLost then db
  else (beginWrite env (recordCoordinationEvent event) db).2

/-! ## The leader fence -/

/-- The seat row is held by exactly this token. -/
def CoordinationToken.holds (token : CoordinationToken) (seat : RunCoordination) : Bool :=
  seat.runId = token.runId && seat.leaderWorkerId = some token.workerId &&
    seat.leaderEpoch = token.leaderEpoch

def leaderDeadlineKey (token : CoordinationToken) : DeadlineKey :=
  .leader token.runId token.workerId token.leaderEpoch

def leadershipLost (token : CoordinationToken) (verb : String) : LandscapeError :=
  .runLeadershipLost token.runId token.workerId token.leaderEpoch verb

/-- Renew the exact seat after its authority lock has been acquired. -/
def renewLeaderDeadlineOn (token : CoordinationToken) (window : Int) (verb : String) :
    Transaction Unit := do
  let databaseNow ← readLandscapeDecisionTime env
  let renewed ← seatsSlot.update token.holds fun seat =>
    { seat with
      leaderHeartbeatExpiresAt := some (databaseNow + window), updatedAt := databaseNow }
  ensure (renewed = 1) (leadershipLost token verb)
  recordIssuedDeadline env (leaderDeadlineKey token) (databaseNow + window) window

/-- The leader epoch fence: verify by a conditional update, then extend. -/
def verifyAndExtendLeaderFence (token : CoordinationToken) (window : Int)
    (verb : String) : Transaction Unit := do
  -- The verifying statement writes the epoch back to itself.
  let matched ← seatsSlot.update token.holds fun seat =>
    { seat with leaderEpoch := seat.leaderEpoch }
  ensure (matched = 1) (leadershipLost token verb)
  renewLeaderDeadlineOn env token window verb

/-- A body whose leader deadline is still issued renews it once more. -/
def renewIfStillIssued (token : CoordinationToken) (window : Int) (verb : String) :
    Transaction Unit := do
  let issued ← hasIssuedDeadline (leaderDeadlineKey token)
  if issued then renewLeaderDeadlineOn env token window verb else pure ()

/-- The transaction inside `fenced_leader_transaction`. -/
def leaderFenced {α : Type} (token : CoordinationToken) (window : Int) (verb : String)
    (body : Transaction α) : Transaction α := do
  verifyAndExtendLeaderFence env token window verb
  let value ← body
  renewIfStillIssued env token window verb
  pure value

/-- The ledger row of a refused leader fence. -/
def leaderRefusal (token : CoordinationToken) (verb : String) : CoordinationEvent where
  runId := token.runId
  eventType := .fenceRefusal
  workerId := token.workerId
  leaderEpoch := some token.leaderEpoch
  recordedAt := env.processTime
  context := [("verb", .text verb)]

/-- One leader-fenced transaction, refusal-evented. -/
def fencedLeaderTransaction {α : Type} (token : CoordinationToken) (window : Int)
    (verb : String) (body : Transaction α) (db : Db) : Except LandscapeError α × Db :=
  match beginWrite env (leaderFenced env token window verb body) db with
  | (.error (.runLeadershipLost runId workerId leaderEpoch refused), db') =>
    (.error (.runLeadershipLost runId workerId leaderEpoch refused),
      recordBestEffortEvent env (leaderRefusal env token verb) db')
  | outcome => outcome

/-! ## The membership fence -/

section

variable (token : WorkerMembershipToken)

/-- The registry row of exactly this member. -/
def WorkerMembershipToken.names (worker : RunWorker) : Bool :=
  worker.runId = token.runId && worker.workerId = token.workerId

/-- The registry row of exactly this member, still active. -/
def WorkerMembershipToken.active (token : WorkerMembershipToken) (worker : RunWorker) : Bool :=
  token.names worker && worker.status = .active

def verifyMembershipFence (verb : String) :
    Transaction Unit := do
  let matched ← workersSlot.update token.active fun worker => { worker with status := .active }
  if matched = 1 then pure ()
  else do
    let registered ← workersSlot.select token.names
    if registered.isEmpty then
      raise (.auditIntegrity (.unregisteredWorker verb token.workerId token.runId))
    else raise (.runMembershipLost token.runId token.workerId verb)

/-- The ledger row of a refused membership fence. -/
def membershipRefusal (verb : String) :
    CoordinationEvent where
  runId := token.runId
  eventType := .fenceRefusal
  workerId := token.workerId
  leaderEpoch := none
  recordedAt := env.processTime
  context := [("verb", .text verb), ("fence", .text "membership")]

end

/-- One membership-fenced transaction, refusal-evented. -/
def fencedMemberTransaction {α : Type} (token : WorkerMembershipToken) (verb : String)
    (body : Transaction α) (db : Db) : Except LandscapeError α × Db :=
  match beginWrite env (do verifyMembershipFence token verb; body) db with
  | (.error (.runMembershipLost runId workerId refused), db') =>
    (.error (.runMembershipLost runId workerId refused),
      recordBestEffortEvent env (membershipRefusal env token verb) db')
  | outcome => outcome

/-! ## Seat lifecycle -/

section

variable (runId workerId : String)

def workerDeadlineKey : DeadlineKey := .worker runId workerId

/-- Register an active member whose first deadline is database time plus window. -/
def insertWorkerRow (role : WorkerRole) (window : Int)
    (entryPoint : String) (databaseNow : Time) : Transaction Unit := do
  let runs ← query fun conn => conn.db.runs.rows
  ensure (runId ∈ runs.map Run.runId) (.integrityError .foreignKey)
  workersSlot.insert
    [{ workerId, runId, role, status := .active, registeredAt := databaseNow,
       heartbeatExpiresAt := databaseNow + window, departedAt := none, evictedAt := none,
       evictedByWorkerId := none, entryPoint := some entryPoint }]
  recordIssuedDeadline env (workerDeadlineKey runId workerId) (databaseNow + window) window

/-- Renew a newly minted seat and its member together. -/
def finalizeLeaderRegistrationOn (token : CoordinationToken) (window : Int) :
    Transaction Unit := do
  let databaseNow ← readLandscapeDecisionTime env
  let seat ← seatsSlot.update token.holds fun seat =>
    { seat with
      leaderHeartbeatExpiresAt := some (databaseNow + window), updatedAt := databaseNow }
  ensure (seat = 1) (leadershipLost token "finalize_leader_registration")
  let member ← workersSlot.update
    (fun worker => token.membership.active worker && worker.role = .leader)
    fun worker => { worker with heartbeatExpiresAt := databaseNow + window }
  ensure (member = 1) (.auditIntegrity (.newLeaderWithoutMembership token.workerId))
  recordIssuedDeadline env (leaderDeadlineKey token) (databaseNow + window) window
  recordIssuedDeadline env (workerDeadlineKey token.runId token.workerId)
    (databaseNow + window) window

/-- The registration and acquisition rows of a new leader. -/
def recordLeaderAcquired (token : CoordinationToken) (databaseNow : Time)
    (entryPoint : String) (acquired : Context) : Transaction Unit := do
  recordCoordinationEvent
    { runId := token.runId, eventType := .workerRegister, workerId := token.workerId,
      leaderEpoch := some token.leaderEpoch, recordedAt := databaseNow,
      context := [("role", .text "leader"), ("entry_point", .text entryPoint)] }
  recordCoordinationEvent
    { runId := token.runId, eventType := .leaderAcquire, workerId := token.workerId,
      leaderEpoch := some token.leaderEpoch, recordedAt := databaseNow, context := acquired }

section

variable (window : Int)

/-- Seat mint: composes into the transaction that creates the run. -/
def registerRunLeaderOn (entryPoint : String) :
    Transaction CoordinationToken := do
  let databaseNow ← readLandscapeDecisionTime env
  let runs ← query fun conn => conn.db.runs.rows
  ensure (runId ∈ runs.map Run.runId) (.integrityError .foreignKey)
  seatsSlot.insert
    [{ runId, leaderWorkerId := some workerId, leaderEpoch := 1,
       leaderHeartbeatExpiresAt := some (databaseNow + window), updatedAt := databaseNow }]
  let token : CoordinationToken := ⟨runId, workerId, 1⟩
  recordIssuedDeadline env (leaderDeadlineKey token) (databaseNow + window) window
  insertWorkerRow env runId workerId .leader window entryPoint databaseNow
  recordLeaderAcquired token databaseNow entryPoint [("entry_point", .text entryPoint)]
  pure token

/-- The coordination part of `begin_run`: the run row, its seat and its leader,
in one transaction. -/
def beginRun (runId configHash : String) (status : RunStatus) (workerId : String)
    (db : Db) : Except LandscapeError CoordinationToken × Db :=
  beginWrite env (do
    runsSlot.insert
      [{ runId, status, configHash, completedAt := none, reproducibilityGrade := none }]
    let token ← registerRunLeaderOn env runId workerId defaultRunLivenessWindow "run"
    finalizeLeaderRegistrationOn env token defaultRunLivenessWindow
    pure token) db

/-- The seat admits a takeover: it is vacant, or its deadline has passed. -/
def seatAdmitsTakeover (runId : String) (databaseNow : Time) (seat : RunCoordination) : Bool :=
  seat.runId = runId &&
    (seat.leaderWorkerId.isNone ||
      seat.leaderHeartbeatExpiresAt.any fun expiresAt => expiresAt < databaseNow)

/-- The seat compare-and-swap shared by every acquisition: claim the seat and
bump its epoch, or refuse while it is live. -/
def claimSeatOn (databaseNow : Time)
    (seat : RunCoordination) : Transaction CoordinationToken := do
  let swapped ← seatsSlot.update (seatAdmitsTakeover runId databaseNow) fun seat =>
    { seat with
      leaderWorkerId := some workerId, leaderEpoch := seat.leaderEpoch + 1,
      leaderHeartbeatExpiresAt := some (databaseNow + window), updatedAt := databaseNow }
  ensure (swapped = 1)
    (.nonResumableRun runId (.leaderLive seat.leaderWorkerId seat.leaderHeartbeatExpiresAt))
  let token : CoordinationToken := ⟨runId, workerId, seat.leaderEpoch + 1⟩
  recordIssuedDeadline env (leaderDeadlineKey token) (databaseNow + window) window
  pure token

/-- Identity-eviction of the deposed leader.  The statement names the worker
only, not the run. -/
def evictDeposedLeaderOn (token : CoordinationToken) (prior : Option String)
    (databaseNow : Time) (reason : String) : Transaction Unit :=
  match prior with
  | none => pure ()
  | some priorWorker =>
    if priorWorker = token.workerId then pure ()
    else do
      let evicted ← workersSlot.update
        (fun worker => worker.workerId = priorWorker && worker.status = .active)
        fun worker =>
          { worker with
            status := .evicted, evictedAt := some databaseNow,
            evictedByWorkerId := some token.workerId }
      if evicted = 1 then
        recordCoordinationEvent
          { runId := token.runId, eventType := .workerEvict, workerId := priorWorker,
            leaderEpoch := some token.leaderEpoch, recordedAt := databaseNow,
            context := [("evicted_by_worker_id", .text token.workerId),
              ("reason", .text reason)] }
      else pure ()

/-- A worker identity as a JSON value. -/
def contextText : Option String → ContextValue
  | none => .null
  | some text => .text text

/-- The run's seat row, or the corruption that it has none. -/
def readSeatOn (runId : String) : Transaction RunCoordination := do
  let seats ← seatsSlot.select fun seat => seat.runId = runId
  match seats with
  | [] => raise (.auditIntegrity (.noSeatRow runId))
  | seat :: _ => pure seat

/-- The run's status, if the run exists. -/
def readRunStatusOn (runId : String) : Transaction (Option RunStatus) := do
  let runs ← runsSlot.select fun run => run.runId = runId
  pure (runs.head?.map Run.status)

/-- A successful terminal run is immutable: nobody may resume it. -/
def refuseImmutableSuccess (runId : String) : Option RunStatus → Transaction Unit
  | none => pure ()
  | some status =>
    ensure (status ∉ immutableSuccessRunStatuses)
      (.auditIntegrity (.immutableSuccessfulRun runId status))

def acquireRunLeadershipOn (entryPoint : String) :
    Transaction CoordinationToken := do
  let seat ← readSeatOn runId
  let databaseNow ← readLandscapeDecisionTime env
  let runStatus ← readRunStatusOn runId
  refuseImmutableSuccess runId runStatus
  let token ← claimSeatOn env runId workerId window databaseNow seat
  -- The winner's run-status normalisation rides the same transaction.
  let _ ← runsSlot.update
    (fun run => run.runId = runId &&
      run.status ∈ takeoverFlippableRunStatuses ++ [RunStatus.running])
    fun run => { run with status := .running, completedAt := none, reproducibilityGrade := none }
  evictDeposedLeaderOn token seat.leaderWorkerId databaseNow "deposed_leader_takeover"
  insertWorkerRow env runId workerId .leader window entryPoint databaseNow
  recordLeaderAcquired token databaseNow entryPoint
    [("entry_point", .text entryPoint),
      ("deposed_leader_worker_id", contextText seat.leaderWorkerId)]
  pure token

def acquireRunLeadership (entryPoint : String)
    (db : Db) : Except LandscapeError CoordinationToken × Db :=
  beginWrite env (do
    let token ← acquireRunLeadershipOn env runId workerId window entryPoint
    finalizeLeaderRegistrationOn env token window
    pure token) db

/-- Why the seat of a finalized run is taken. -/
inductive TerminalPurpose where
  | export
  | reconciliation
  deriving DecidableEq, Repr

def TerminalPurpose.text : TerminalPurpose → String
  | .export => "export"
  | .reconciliation => "reconciliation"

def acquireTerminalLeadershipOn
    (purpose : TerminalPurpose) (expectedStatus : Option RunStatus) :
    Transaction CoordinationToken := do
  let seat ← readSeatOn runId
  let databaseNow ← readLandscapeDecisionTime env
  let runStatus ← readRunStatusOn runId
  ensure (expectedStatus = none ∨ runStatus = expectedStatus)
    (.nonResumableRun runId .terminalStatusChanged)
  ensure (runStatus ≠ some .running) (.nonResumableRun runId .runNotFinalized)
  ensure (runStatus.any (· ∈ exportSeatRunStatuses) = true)
    (.auditIntegrity (.exportOfUnfinishedRun runId runStatus))
  let token ← claimSeatOn env runId workerId window databaseNow seat
  evictDeposedLeaderOn token seat.leaderWorkerId databaseNow
    ("deposed_leader_" ++ purpose.text ++ "_takeover")
  insertWorkerRow env runId workerId .leader window purpose.text databaseNow
  recordLeaderAcquired token databaseNow purpose.text
    [("entry_point", .text purpose.text),
      ("deposed_leader_worker_id", contextText seat.leaderWorkerId)]
  pure token

def acquireExportLeadership (db : Db) :
    Except LandscapeError CoordinationToken × Db :=
  beginWrite env (do
    let token ← acquireTerminalLeadershipOn env runId workerId window .export none
    finalizeLeaderRegistrationOn env token window
    pure token) db

def acquireReconciliationLeadership
    (expectedStatus : RunStatus) (db : Db) : Except LandscapeError CoordinationToken × Db :=
  if expectedStatus ∈ exportSeatRunStatuses then
    beginWrite env (do
      let token ← acquireTerminalLeadershipOn env runId workerId window .reconciliation
        (some expectedStatus)
      finalizeLeaderRegistrationOn env token window
      pure token) db
  else (.error (.valueError .reconciliationNeedsTerminalStatus), db)

end

inductive SeatReleaseOutcome where
  | released
  | fenceRefused
  deriving DecidableEq, Repr

def releaseSeatOn (token : CoordinationToken) : Transaction Unit := do
  let databaseNow ← readLandscapeDecisionTime env
  let released ← seatsSlot.update token.holds fun seat =>
    { seat with
      leaderWorkerId := none, leaderHeartbeatExpiresAt := none, updatedAt := databaseNow }
  ensure (released = 1) (.auditIntegrity (.vacateMissed token.runId released))
  forgetIssuedDeadline (leaderDeadlineKey token)
  let departed ← workersSlot.update token.membership.active fun worker =>
    { worker with status := .departed, departedAt := some databaseNow }
  ensure (departed = 1)
    (.auditIntegrity (.leaderWithoutMembership token.runId token.workerId departed))
  recordCoordinationEvent
    { runId := token.runId, eventType := .leaderRelease, workerId := token.workerId,
      leaderEpoch := some token.leaderEpoch, recordedAt := databaseNow,
      context := [("worker_row_departed", .flag true)] }

/-- Graceful leader shutdown; a refused fence is the declared no-op. -/
def releaseSeat (token : CoordinationToken) (db : Db) :
    Except LandscapeError SeatReleaseOutcome × Db :=
  match fencedLeaderTransaction env token defaultRunLivenessWindow "release_seat"
      (releaseSeatOn env token) db with
  | (.ok _, db') => (.ok .released, db')
  | (.error (.runLeadershipLost _ _ _ _), db') => (.ok .fenceRefused, db')
  | (.error raised, db') => (.error raised, db')

/-! ## Registry membership -/

/-- What an admitted heartbeat reports about the seat. -/
structure CoordinationSnapshot where
  leaderWorkerId : Option String
  leaderEpoch : Nat
  seatLive : Bool
  workerRole : WorkerRole
  deriving DecidableEq, Repr

/-- A heartbeat's declared outcomes: admitted, or membership lost. -/
inductive HeartbeatOutcome where
  | snapshot (snapshot : CoordinationSnapshot)
  | membershipLost
  deriving DecidableEq, Repr

/-- The seat's deadline has not passed. -/
def RunCoordination.live (seat : RunCoordination) (databaseNow : Time) : Bool :=
  seat.leaderWorkerId.isSome &&
    seat.leaderHeartbeatExpiresAt.any fun expiresAt => databaseNow ≤ expiresAt

section

variable (token : WorkerMembershipToken)

/-- A leader beats its seat too, by identity: there is no epoch parameter. -/
def beatSeatOn (role : WorkerRole) (databaseNow : Time)
    (window : Int) : Transaction Bool :=
  if role = .leader then do
    let renewed ← seatsSlot.update
      (fun seat => seat.runId = token.runId && seat.leaderWorkerId = some token.workerId)
      fun seat =>
        { seat with
          leaderHeartbeatExpiresAt := some (databaseNow + window), updatedAt := databaseNow }
    pure (decide (renewed = 1))
  else pure false

/-- Issue the leader deadline of a beaten seat. -/
def issueBeatenSeatOn (seat : RunCoordination)
    (renewed : Bool) (expiresAt : Time) (window : Int) : Transaction Unit :=
  if renewed then
    recordIssuedDeadline env (.leader token.runId token.workerId seat.leaderEpoch)
      expiresAt window
  else pure ()

def workerHeartbeatOn (window : Int) :
    Transaction CoordinationSnapshot := do
  let lockedSeat ← seatsSlot.select fun seat => seat.runId = token.runId
  verifyMembershipFence token "worker_heartbeat"
  ensure (lockedSeat ≠ []) (.auditIntegrity (.membershipWithoutSeat token.runId))
  let workers ← workersSlot.select token.names
  match workers with
  | [] => raise (.auditIntegrity (.unregisteredWorker "worker_heartbeat"
      token.workerId token.runId))
  | worker :: _ => do
    let databaseNow ← readLandscapeDecisionTime env
    let _ ← workersSlot.update token.names fun worker =>
      { worker with heartbeatExpiresAt := databaseNow + window }
    recordIssuedDeadline env (workerDeadlineKey token.runId token.workerId)
      (databaseNow + window) window
    let renewed ← beatSeatOn token worker.role databaseNow window
    let seat ← readSeatOn token.runId
    issueBeatenSeatOn env token seat renewed (databaseNow + window) window
    pure ⟨seat.leaderWorkerId, seat.leaderEpoch, seat.live databaseNow, worker.role⟩

/-- Member-fenced worker beat with a seat snapshot; lost membership is a
declared outcome. -/
def workerHeartbeat (window : Int) (db : Db) :
    Except LandscapeError HeartbeatOutcome × Db :=
  match beginWrite env (workerHeartbeatOn env token window) db with
  | (.ok snapshot, db') => (.ok (.snapshot snapshot), db')
  | (.error (.runMembershipLost _ _ _), db') =>
    (.ok .membershipLost,
      recordBestEffortEvent env (membershipRefusal env token "worker_heartbeat") db')
  | (.error raised, db') => (.error raised, db')

def finalizeFollowerAdmissionOn (window : Int) :
    Transaction Unit := do
  let databaseNow ← readLandscapeDecisionTime env
  let liveSeat ← seatsSlot.select fun seat => seat.runId = runId && seat.live databaseNow
  ensure (liveSeat ≠ []) (.joinRefused runId .seatExpiredDuringAdmission)
  let renewed ← workersSlot.update
    (fun worker => WorkerMembershipToken.active ⟨runId, workerId⟩ worker &&
      worker.role = .follower)
    fun worker => { worker with heartbeatExpiresAt := databaseNow + window }
  ensure (renewed = 1) (.auditIntegrity (.newFollowerWithoutMembership workerId))
  recordIssuedDeadline env (workerDeadlineKey runId workerId) (databaseNow + window) window

/-- The checks of a follower admission, in order. -/
def checkAdmissionOn (runId configHash : String) (databaseNow : Time) :
    Transaction Unit := do
  let runs ← runsSlot.select fun run => run.runId = runId
  match runs with
  | [] => raise (.joinRefused runId .runNotFound)
  | run :: _ => do
    ensure (run.status = .running) (.joinRefused runId (.runStatus run.status))
    ensure (run.configHash = configHash)
      (.joinRefused runId (.configHash configHash run.configHash))
    let seats ← seatsSlot.select fun seat => seat.runId = runId
    ensure (seats.head?.any (·.live databaseNow) = true)
      (.joinRefused runId .noLiveLeader)

/-- Atomic follower admission; returns the membership token. -/
def admitFollower (runId workerId configHash : String) (window : Int) (db : Db) :
    Except LandscapeError WorkerMembershipToken × Db :=
  beginWrite env (do
    let databaseNow ← readLandscapeDecisionTime env
    checkAdmissionOn runId configHash databaseNow
    insertWorkerRow env runId workerId .follower window "join" databaseNow
    recordCoordinationEvent
      { runId, eventType := .workerRegister, workerId, leaderEpoch := none,
        recordedAt := databaseNow,
        context := [("role", .text "follower"), ("entry_point", .text "join")] }
    finalizeFollowerAdmissionOn env runId workerId window
    pure ⟨runId, workerId⟩) db

def departWorkerOn : Transaction Unit := do
  let databaseNow ← readLandscapeDecisionTime env
  let departed ← workersSlot.update token.active fun worker =>
    { worker with status := .departed, departedAt := some databaseNow }
  ensure (departed = 1) (.auditIntegrity (.departureMissed token.workerId departed))
  recordCoordinationEvent
    { runId := token.runId, eventType := .workerDepart, workerId := token.workerId,
      leaderEpoch := none, recordedAt := databaseNow, context := [] }

/-- Member-fenced departure; a refused fence is the declared no-op. -/
def departWorker (db : Db) :
    Except LandscapeError Unit × Db :=
  match fencedMemberTransaction env token "depart_worker" (departWorkerOn env token) db with
  | (.error (.runMembershipLost _ _ _), db') => (.ok (), db')
  | outcome => outcome

end

/-- The registry row `evict_worker` may act on: a follower of the run that is
not the caller. -/
def evictionTarget (token : CoordinationToken) (targetWorkerId : String)
    (worker : RunWorker) : Bool :=
  worker.workerId = targetWorkerId && worker.runId = token.runId &&
    worker.role = .follower && worker.workerId ≠ token.workerId

/-- An unexpired item lease of the run held by the target. -/
def holdsLiveLease (databaseNow : Time)
    (item : TokenWorkItem) : Bool :=
  item.runId = runId && item.status = .leased && item.leaseOwner = some workerId &&
    item.leaseExpiresAt.any fun expiresAt => databaseNow ≤ expiresAt

end

variable (token : CoordinationToken)

variable (targetWorkerId : String)

/-- The eviction compare-and-swap with its ledger row. -/
def evictOn (grace : Int)
    (databaseNow : Time) : Transaction Bool := do
  let evicted ← workersSlot.update
    (fun worker => evictionTarget token targetWorkerId worker && worker.status = .active &&
      worker.heartbeatExpiresAt < databaseNow - grace)
    fun worker =>
      { worker with
        status := .evicted, evictedAt := some databaseNow,
        evictedByWorkerId := some token.workerId }
  if evicted = 1 then do
    recordCoordinationEvent
      { runId := token.runId, eventType := .workerEvict, workerId := targetWorkerId,
        leaderEpoch := some token.leaderEpoch, recordedAt := databaseNow,
        context := [("evicted_by_worker_id", .text token.workerId),
          ("reason", .text "liveness_expired")] }
    pure true
  else pure false

def evictWorkerOn (grace : Int) :
    Transaction Bool := do
  let registered ← workersSlot.select (evictionTarget token targetWorkerId)
  if registered.isEmpty then pure false
  else do
    let databaseNow ← readLandscapeDecisionTime env
    let live ← itemsSlot.select (holdsLiveLease token.runId targetWorkerId databaseNow)
    if live.isEmpty then evictOn token targetWorkerId grace databaseNow else pure false

/-- The leader evicts a dead follower; `true` exactly when it did. -/
def evictWorker
    (grace window : Int) (db : Db) : Except LandscapeError Bool × Db :=
  fencedLeaderTransaction env token window "evict_worker"
    (evictWorkerOn env token targetWorkerId grace) db

end Elspeth
