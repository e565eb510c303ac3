import Elspeth.Relational.History
import Elspeth.System.Verbs

/-!
# The whole service

Every coordination verb and every scheduler verb as one request of one service.
A call is a request together with its environment; `serve` answers it in one
atomic step, so a history of any number of workers, leaders and leader
generations is a list of calls, in the order in which their transactions
committed or were rolled back.

The repositories outside the model enter as three more requests: a leader-fenced,
a member-fenced and an unfenced write of theirs.

`serve_performs` is the one statement about all requests: the seats and the
registry change as `Governs` lists, outcomes are only added, and the journal
moves within the request's scope.  The system properties are derived from it by
induction over histories.
-/

namespace Elspeth

open Relational

/-! ## Requests and replies -/

/-- One request, with its arguments. -/
inductive Request where
  | beginRun (runId configHash : String) (status : RunStatus) (workerId : String)
  | acquireRunLeadership (runId workerId : String) (window : Int) (entryPoint : String)
  | acquireExportLeadership (runId workerId : String) (window : Int)
  | acquireReconciliationLeadership (runId workerId : String) (window : Int)
      (expectedStatus : RunStatus)
  | releaseSeat (token : CoordinationToken)
  | workerHeartbeat (member : WorkerMembershipToken) (window : Int)
  | admitFollower (runId workerId configHash : String) (window : Int)
  | departWorker (member : WorkerMembershipToken)
  | evictWorker (token : CoordinationToken) (targetWorkerId : String) (grace window : Int)
  | enqueueReady (member : WorkerMembershipToken) (values : ReadyValues)
  | enqueueReadyClaimed (member : WorkerMembershipToken) (values : ReadyValues)
      (leaseOwner : String) (lease : Int)
  | ingestRowWithInitialClaim (token : CoordinationToken) (source : SourceIngestSpec)
      (sourceState : BystanderWrite) (values : ReadyValues) (leaseOwner : String) (lease : Int)
  | ingestQuarantineRowWithPendingSink (token : CoordinationToken) (source : SourceIngestSpec)
      (sourceState : BystanderWrite) (emission : BarrierEmission)
  | claimReady (member : WorkerMembershipToken) (leaseOwner : String) (lease : Int)
  | claimPendingSink (token : CoordinationToken) (leaseOwner : String) (lease : Int)
  | heartbeatLease (member : WorkerMembershipToken) (workItemId leaseOwner : String)
      (lease : Int)
  | recoverExpiredLeases (token : CoordinationToken) (grace stallBudget : Int)
  | requeueUndecidedFailedWork (token : CoordinationToken)
  | markBlocked (member : WorkerMembershipToken) (workItemId : String)
      (queueKey barrierKey : Option String) (rowPayloadJson leaseOwner : String)
  | mark (disposition : Disposition) (member : WorkerMembershipToken)
      (workItemId leaseOwner : String) (losses : List GroupLossSpec)
  | markWithReadyChildren (disposition : Disposition) (member : WorkerMembershipToken)
      (workItemId leaseOwner : String) (emissions : List BarrierEmission)
      (losses : List GroupLossSpec)
  | markPendingSinkTerminal (token : CoordinationToken) (tokenId leaseOwner : String)
  | markPendingSinkTerminalMany (token : CoordinationToken) (tokenIds : List String)
      (leaseOwner : String)
  | terminalizePendingSinksWithTerminalOutcomes (token : CoordinationToken)
      (callerOwner : String)
  | completeBarrier (token : CoordinationToken) (completion : BarrierCompletion)
  | markBlockedBarrierPendingSinkMany (token : CoordinationToken) (barrierKey : String)
      (handoffs : List BlockedPendingSinkHandoff) (parkedLeaseOwner : Option String)
  | markBlockedBarrierTerminal (token : CoordinationToken) (barrierKey : String)
      (tokenIds : List String) (releaseContext : Option Context) (losses : List GroupLossSpec)
  | adoptBlockedBarrierItem (token : CoordinationToken) (adoption : BarrierAdoption)
  | resetAdoptionMarkerToPending (token : CoordinationToken) (workItemIds : List String)
  /-- A leader-fenced write of another repository. -/
  | leaderWrite (token : CoordinationToken) (window : Int) (verb : String)
      (write : BystanderWrite)
  /-- A member-fenced write of another repository. -/
  | memberWrite (member : WorkerMembershipToken) (verb : String) (write : BystanderWrite)
  /-- An unfenced write of another repository. -/
  | plainWrite (write : BystanderWrite)

/-- What a request returns when it does not raise. -/
inductive Reply where
  | leadership (token : CoordinationToken)
  | seatRelease (outcome : SeatReleaseOutcome)
  | heartbeat (outcome : HeartbeatOutcome)
  | membership (member : WorkerMembershipToken)
  | evicted (evicted : Bool)
  | item (item : TokenWorkItem)
  | claimed (item : Option TokenWorkItem)
  | deadline (expiresAt : Time)
  | family (parent : TokenWorkItem) (children : List TokenWorkItem)
  | adoption (result : BarrierAdoptionResult)
  | count (changed : Nat)
  | done
  deriving DecidableEq, Repr

abbrev Response := Except LandscapeError Reply

/-- A request in its environment. -/
structure Call where
  env : CallEnv
  request : Request

/-- The token a response hands out. -/
def tokenIssued : Response → Option CoordinationToken
  | .ok (.leadership token) => some token
  | _ => none

/-- The item a response reports as its lease, or as the row it wrote. -/
def itemReported : Response → Option TokenWorkItem
  | .ok (.item item) => some item
  | .ok (.claimed item) => item
  | _ => none

/-- Read a verb's own result as a reply. -/
def answer {α : Type} (wrap : α → Reply) (outcome : Except LandscapeError α × Db) :
    Response × Db :=
  (outcome.1.map wrap, outcome.2)

section Service

variable [Digest]

/-- Answer one call. -/
def serve (call : Call) (db : Db) : Response × Db :=
  let env := call.env
  match call.request with
  | .beginRun runId configHash status workerId =>
    answer .leadership (beginRun env runId configHash status workerId db)
  | .acquireRunLeadership runId workerId window entryPoint =>
    answer .leadership (acquireRunLeadership env runId workerId window entryPoint db)
  | .acquireExportLeadership runId workerId window =>
    answer .leadership (acquireExportLeadership env runId workerId window db)
  | .acquireReconciliationLeadership runId workerId window expectedStatus =>
    answer .leadership
      (acquireReconciliationLeadership env runId workerId window expectedStatus db)
  | .releaseSeat token => answer .seatRelease (releaseSeat env token db)
  | .workerHeartbeat member window => answer .heartbeat (workerHeartbeat env member window db)
  | .admitFollower runId workerId configHash window =>
    answer .membership (admitFollower env runId workerId configHash window db)
  | .departWorker member => answer (fun _ => .done) (departWorker env member db)
  | .evictWorker token targetWorkerId grace window =>
    answer .evicted (evictWorker env token targetWorkerId grace window db)
  | .enqueueReady member values => answer .item (enqueueReady env member values db)
  | .enqueueReadyClaimed member values leaseOwner lease =>
    answer .item (enqueueReadyClaimed env member values leaseOwner lease db)
  | .ingestRowWithInitialClaim token source sourceState values leaseOwner lease =>
    answer .item
      (ingestRowWithInitialClaim env token source sourceState values leaseOwner lease db)
  | .ingestQuarantineRowWithPendingSink token source sourceState emission =>
    answer .item
      (ingestQuarantineRowWithPendingSink env token source sourceState emission db)
  | .claimReady member leaseOwner lease =>
    answer .claimed (claimReady env member leaseOwner lease db)
  | .claimPendingSink token leaseOwner lease =>
    answer .claimed (claimPendingSink env token leaseOwner lease db)
  | .heartbeatLease member workItemId leaseOwner lease =>
    answer .deadline (heartbeatLease env member workItemId leaseOwner lease db)
  | .recoverExpiredLeases token grace stallBudget =>
    answer .count (recoverExpiredLeases env token grace stallBudget db)
  | .requeueUndecidedFailedWork token =>
    answer .count (requeueUndecidedFailedWork env token db)
  | .markBlocked member workItemId queueKey barrierKey rowPayloadJson leaseOwner =>
    answer .item
      (markBlocked env member workItemId queueKey barrierKey rowPayloadJson leaseOwner db)
  | .mark disposition member workItemId leaseOwner losses =>
    answer .item (mark env disposition member workItemId leaseOwner losses db)
  | .markWithReadyChildren disposition member workItemId leaseOwner emissions losses =>
    answer (fun family => .family family.1 family.2)
      (markWithReadyChildren env disposition member workItemId leaseOwner emissions losses db)
  | .markPendingSinkTerminal token tokenId leaseOwner =>
    answer .count (markPendingSinkTerminal env token tokenId leaseOwner db)
  | .markPendingSinkTerminalMany token tokenIds leaseOwner =>
    answer .count (markPendingSinkTerminalMany env token tokenIds leaseOwner db)
  | .terminalizePendingSinksWithTerminalOutcomes token callerOwner =>
    answer .count (terminalizePendingSinksWithTerminalOutcomes env token callerOwner db)
  | .completeBarrier token completion =>
    answer .count (completeBarrier env token completion db)
  | .markBlockedBarrierPendingSinkMany token barrierKey handoffs parkedLeaseOwner =>
    answer .count
      (markBlockedBarrierPendingSinkMany env token barrierKey handoffs parkedLeaseOwner db)
  | .markBlockedBarrierTerminal token barrierKey tokenIds releaseContext losses =>
    answer .count
      (markBlockedBarrierTerminal env token barrierKey tokenIds releaseContext losses db)
  | .adoptBlockedBarrierItem token adoption =>
    answer .adoption (adoptBlockedBarrierItem env token adoption db)
  | .resetAdoptionMarkerToPending token workItemIds =>
    answer .count (resetAdoptionMarkerToPending env token workItemIds db)
  | .leaderWrite token window verb write =>
    answer (fun _ => .done) (fencedLeaderTransaction env token window verb (write.run env) db)
  | .memberWrite member verb write =>
    answer (fun _ => .done) (fencedMemberTransaction env member verb (write.run env) db)
  | .plainWrite write => answer (fun _ => .done) (beginWrite env (write.run env) db)

/-! ## Scopes -/

/-- A call that does not touch the journal. -/
def Scope.still : Scope := .births fun _ => False

/-- What a request may do to the journal, given the database it is served in and
the item its response reports. -/
def Request.scope (db : Db) (reported : Option TokenWorkItem) : Request → Scope
  | .enqueueReady member values => .births (readyBirth [values.identity member.runId])
  | .enqueueReadyClaimed member values leaseOwner _ =>
    .claiming (readyBirth [values.identity member.runId]) .ready member.runId leaseOwner
      reported
  | .ingestRowWithInitialClaim token source _ values leaseOwner _ =>
    .claiming (readyBirth [(source.initialValues values).identity token.runId]) .ready
      token.runId leaseOwner reported
  | .ingestQuarantineRowWithPendingSink token _ _ emission =>
    .births fun item =>
      item.identity = emission.identity token.runId ∧ pendingSinkBundle item = true
  | .claimReady member leaseOwner _ =>
    .claiming (fun _ => False) .ready member.runId leaseOwner reported
  | .claimPendingSink token leaseOwner _ =>
    .claiming (fun _ => False) .pendingSink token.runId leaseOwner reported
  | .heartbeatLease member workItemId leaseOwner _ =>
    .renewing workItemId member.runId leaseOwner
  | .recoverExpiredLeases token _ _ => .recovering token.runId
  | .requeueUndecidedFailedWork token => .requeueing token.runId
  | .markBlocked member workItemId queueKey barrierKey rowPayloadJson leaseOwner =>
    .disposing (fun _ => False) workItemId member.runId leaseOwner
      (.blocked queueKey barrierKey rowPayloadJson)
  | .mark disposition member workItemId leaseOwner _ =>
    .disposing (fun _ => False) workItemId member.runId leaseOwner
      (disposition.image workItemId leaseOwner)
  | .markWithReadyChildren disposition member workItemId leaseOwner emissions _ =>
    .disposing (readyBirth (emissions.map (·.identity member.runId))) workItemId member.runId
      leaseOwner (disposition.image workItemId leaseOwner)
  | .markPendingSinkTerminal token tokenId _ =>
    .finishing token.runId fun item => item.tokenId = tokenId
  | .markPendingSinkTerminalMany token tokenIds _ =>
    .finishing token.runId fun item => item.tokenId ∈ tokenIds
  | .terminalizePendingSinksWithTerminalOutcomes token _ =>
    .finishing token.runId fun item =>
      tokenDecided db.tokenOutcomes.rows token.runId item.tokenId = true
  | .completeBarrier token completion =>
    completion.scope token.runId (completion.held token.runId db)
  | .markBlockedBarrierPendingSinkMany token barrierKey handoffs parkedLeaseOwner =>
    (handoffRelease barrierKey handoffs parkedLeaseOwner).scope token.runId
      ((handoffRelease barrierKey handoffs parkedLeaseOwner).held token.runId db)
  | .markBlockedBarrierTerminal token barrierKey tokenIds releaseContext losses =>
    (terminalRelease barrierKey tokenIds releaseContext losses).scope token.runId
      ((terminalRelease barrierKey tokenIds releaseContext losses).held token.runId db)
  | .adoptBlockedBarrierItem token adoption => .adopting token adoption true
  | .resetAdoptionMarkerToPending token workItemIds => .resetting token.runId workItemIds
  | _ => .still

/-! ## What a call does -/

/-- What one answered call did to the modelled tables. -/
structure Performs (scope : Option TokenWorkItem → Scope) (response : Response)
    (before after : Db) : Prop where
  governs : Governs before (tokenIssued response) after
  outcomes : before.tokenOutcomes.rows <+: after.tokenOutcomes.rows
  travels : Travels before.tokenOutcomes.rows (scope (itemReported response)) before after

/-- The answer to a call in `db` is what the call did. -/
abbrev Answered (scope : Option TokenWorkItem → Scope) (db : Db) (answered : Response × Db) :
    Prop :=
  Performs scope answered.1 db answered.2

section Performs

variable {α : Type} {env : CallEnv} {db after : Db} {scope : Option TokenWorkItem → Scope}
  {response : Response} {returned : α → Db → Prop}
  {outcome : Except LandscapeError α × Db} {wrap : α → Reply}

theorem Performs.of_advances (issues : tokenIssued response = none)
    (advances : Advances db.tokenOutcomes.rows (scope (itemReported response)) db after) :
    Performs scope response db after :=
  ⟨issues ▸ Governs.of_steady advances.toSteady, advances.outcomes, advances.travels⟩

theorem Performs.of_quiet (issues : tokenIssued response = none) (quiet : Quiet db after) :
    Performs scope response db after :=
  .of_advances issues (.of_quiet quiet)

theorem Performs.of_apart (governs : Governs db (tokenIssued response) after)
    (apart : Apart db after) : Performs scope response db after :=
  ⟨governs, apart.outcomes, travels_of_apart apart⟩

omit [Digest] in
/-- A verb whose replies carry no token issues none. -/
theorem tokenIssued_answer (silent : ∀ value, tokenIssued (.ok (wrap value)) = none)
    (outcome : Except LandscapeError α × Db) : tokenIssued (answer wrap outcome).1 = none := by
  unfold answer
  cases outcome.1 with
  | error => rfl
  | ok value => exact silent value

/-- What every returned value is shown to do, the answered call does. -/
theorem performs_answer (settles : Settles db returned outcome)
    (performs : ∀ value after, returned value after →
      Performs scope (.ok (wrap value)) db after) :
    Answered scope db (answer wrap outcome) := by
  obtain ⟨reply, after⟩ := outcome
  cases reply with
  | error => exact .of_quiet rfl settles.quiet
  | ok value => exact performs value after settles

variable {token : CoordinationToken} {body : Transaction α} {value : α}

/-- The body of a leader-fenced verb moves the journal as the verb does. -/
theorem LeaderRun.advances {scope : Scope} (run : LeaderRun token body value db after)
    (step : ∀ opened closed : Conn, opened.db.tokenWorkItems = db.tokenWorkItems →
      opened.db.tokenOutcomes = db.tokenOutcomes → body opened = .ok (value, closed) →
      Advances db.tokenOutcomes.rows scope opened.db closed.db) :
    Advances db.tokenOutcomes.rows scope db after := by
  obtain ⟨opened, closed, -, start, inner, finish⟩ := run.ran
  have startQuiet := start.quiet
  obtain ⟨table, -, openedDb⟩ := start
  have body := step opened closed (by rw [openedDb]) (by rw [openedDb]) inner
  exact (Advances.of_quiet startQuiet).trans (body.trans (.of_quiet finish.quiet))

theorem MemberRun.advances {member : WorkerMembershipToken} {scope : Scope}
    (run : MemberRun member body value db after)
    (step : ∀ opened closed : Conn, opened.db = db → body opened = .ok (value, closed) →
      Advances db.tokenOutcomes.rows scope opened.db closed.db) :
    Advances db.tokenOutcomes.rows scope db after := by
  obtain ⟨closed, inner, rfl⟩ := run.ran
  exact step (Conn.start db) closed rfl inner

/-- A transaction that hands out a token, or changes seats and registry only. -/
theorem performs_transaction
    (governs : ∀ value after, beginWrite env body db = (.ok value, after) →
      Governs db (tokenIssued (.ok (wrap value))) after) (apart : Txn.Respects (OnDb Apart) body) :
    Answered scope db (answer wrap (beginWrite env body db)) := by
  have whole : Apart db (beginWrite env body db).2 := beginWrite_respects apart env db
  cases ran : beginWrite env body db with
  | mk reply after =>
    rw [ran] at whole
    cases reply with
    | error => exact .of_quiet rfl (beginWrite_error ran ▸ Quiet.refl db)
    | ok value => exact .of_apart (governs value after ran) whole

/-- Everything a completion does to the journal, it does to the rows it holds. -/
theorem LeaderRun.completes {completion : BarrierCompletion} {count : Nat}
    (accepted : completion.Accepted)
    (run : LeaderRun token (completeBarrierOn env token completion) count db after) :
    Advances db.tokenOutcomes.rows (completion.scope token.runId (completion.held token.runId db))
      db after := by
  refine run.advances fun opened closed items _ ran => ?_
  have heldRows : completion.held token.runId opened.db = completion.held token.runId db := by
    unfold BarrierCompletion.held
    rw [items]
  rw [← heldRows]
  exact (BarrierCompletion.completeBarrierOn_ok accepted ran).2

end Performs

/-! ## Coordination requests -/

section Coordination

variable {env : CallEnv} {db : Db} {scope : Option TokenWorkItem → Scope}

/-- The transaction of an acquisition: a body that takes the seat, and the
registration's final renewal. -/
theorem acquisition_performs {body : Transaction CoordinationToken} {window : Int}
    (governs : ∀ {conn conn' token}, body conn = .ok (token, conn') →
      Governs conn.db (some token) conn'.db)
    (apart : Txn.Respects (OnDb Apart) body) :
    Answered scope db
      (answer .leadership (beginWrite env (do
        let token ← body
        finalizeLeaderRegistrationOn env token window
        pure token) db)) := by
  refine performs_transaction (fun token after ran => acquired_governs governs ran) ?_
  exact .bind apart fun _ =>
    .bind (respects_apart respects_finalizeLeaderRegistrationOn) fun _ => .pure

theorem beginRun_performs (runId configHash : String) (status : RunStatus) (workerId : String) :
    Answered scope db (answer .leadership (beginRun env runId configHash status workerId db)) := by
  refine performs_transaction (fun token after ran => beginRun_ok ran) ?_
  exact .bind (Slot.insert_respects fun _ _ _ => ⟨rfl, rfl, List.prefix_rfl⟩) fun _ =>
    .bind respects_registerRunLeaderOn fun _ =>
      .bind (respects_apart respects_finalizeLeaderRegistrationOn) fun _ => .pure

theorem acquireReconciliationLeadership_performs (runId workerId : String) (window : Int)
    (expectedStatus : RunStatus) :
    Answered scope db (answer .leadership
      (acquireReconciliationLeadership env runId workerId window expectedStatus db)) := by
  unfold acquireReconciliationLeadership
  split
  · exact acquisition_performs acquireTerminalLeadershipOn_ok respects_acquireTerminalLeadershipOn
  · exact .of_quiet rfl (Quiet.refl db)

theorem releaseSeat_performs (token : CoordinationToken) :
    Answered scope db (answer .seatRelease (releaseSeat env token db)) := by
  have apart : Apart db (fencedLeaderTransaction env token defaultRunLivenessWindow
      "release_seat" (releaseSeatOn env token) db).2 :=
    fencedLeaderTransaction_respects (fun _ _ => Quiet.apart) respects_releaseSeatOn _ _ _ _ _
  unfold releaseSeat
  cases ran : fencedLeaderTransaction env token defaultRunLivenessWindow "release_seat"
      (releaseSeatOn env token) db with
  | mk reply after =>
    rw [ran] at apart
    cases reply with
    | ok =>
      refine .of_apart ?_ apart
      exact (fencedLeaderTransaction_ok ran).governs fun _ _ inner _ => releaseSeatOn_ok inner
    | error raised =>
      have quiet := (fencedLeaderTransaction_error ran).quiet
      cases raised <;> exact .of_quiet rfl quiet

theorem admitFollower_performs (runId workerId configHash : String) (window : Int) :
    Answered scope db
      (answer .membership (admitFollower env runId workerId configHash window db)) := by
  refine performs_transaction (fun member after ran => admitFollower_ok ran) ?_
  refine .bind respects_decisionTime fun _ => .bind ?_ fun _ =>
    .bind respects_insertWorkerRow fun _ =>
      .bind (respects_apart respects_recordCoordinationEvent) fun _ =>
        .bind (respects_apart respects_finalizeFollowerAdmissionOn) fun _ => .pure
  intro conn value conn' ran
  rw [checkAdmissionOn_ok ran]
  exact Apart.refl conn.db

theorem evictWorker_performs (token : CoordinationToken) (targetWorkerId : String)
    (grace window : Int) :
    Answered scope db
      (answer .evicted (evictWorker env token targetWorkerId grace window db)) := by
  have apart : Apart db (evictWorker env token targetWorkerId grace window db).2 :=
    fencedLeaderTransaction_respects (fun _ _ => Quiet.apart) respects_evictWorkerOn _ _ _ _ _
  unfold evictWorker at apart ⊢
  cases ran : fencedLeaderTransaction env token window "evict_worker"
      (evictWorkerOn env token targetWorkerId grace) db with
  | mk reply after =>
    rw [ran] at apart
    cases reply with
    | ok =>
      refine .of_apart ?_ apart
      exact (fencedLeaderTransaction_ok ran).governs fun _ _ inner held =>
        (evictWorkerOn_ok held inner).1
    | error => exact .of_quiet rfl (fencedLeaderTransaction_error ran).quiet

end Coordination

/-! ## All requests -/

omit [Digest] in
theorem Scope.adopting_within (token : CoordinationToken) (adoption : BarrierAdoption)
    (adopted : Bool) :
    (Scope.adopting token adoption adopted).Within (.adopting token adoption true) :=
  ⟨fun _ never => never, fun _ _ allowed => ⟨rfl, allowed.2⟩, fun _ never => never⟩

/-- A disposition other than a block names no key, so it needs none. -/
theorem Disposition.image_keyed (disposition : Disposition) (workItemId leaseOwner : String) :
    (disposition.image workItemId leaseOwner).Keyed := by
  intro queueKey barrierKey payload same
  cases disposition <;> cases same

theorem heartbeatLease_performs (env : CallEnv) (db : Db) (member : WorkerMembershipToken)
    (workItemId leaseOwner : String) (lease : Int) :
    Answered (fun _ => .renewing workItemId member.runId leaseOwner) db
      (answer .deadline (heartbeatLease env member workItemId leaseOwner lease db)) := by
  have issues : tokenIssued (answer .deadline
      (heartbeatLease env member workItemId leaseOwner lease db)).1 = none :=
    tokenIssued_answer (fun _ => rfl) _
  rcases heartbeatLease_cases member workItemId leaseOwner lease with
    ⟨renewed, -, -, outcome, -⟩ | ⟨quiet, -⟩
  · exact .of_advances issues outcome.advances
  · exact .of_quiet issues quiet

/-- **Every call** changes seats and registry as coordination does, adds outcomes
only, and moves the journal within the scope of its request. -/
theorem serve_performs (call : Call) (db : Db) :
    Answered (fun reported => call.request.scope db reported) db (serve call db) := by
  obtain ⟨env, request⟩ := call
  cases request with
  | beginRun => exact beginRun_performs ..
  | acquireRunLeadership =>
    exact acquisition_performs acquireRunLeadershipOn_ok respects_acquireRunLeadershipOn
  | acquireExportLeadership =>
    exact acquisition_performs acquireTerminalLeadershipOn_ok
      respects_acquireTerminalLeadershipOn
  | acquireReconciliationLeadership =>
    exact acquireReconciliationLeadership_performs ..
  | releaseSeat token => exact releaseSeat_performs token
  | workerHeartbeat =>
    exact .of_quiet (tokenIssued_answer (fun _ => rfl) _) (workerHeartbeat_quiet ..)
  | admitFollower => exact admitFollower_performs ..
  | departWorker =>
    exact .of_quiet (tokenIssued_answer (fun _ => rfl) _) (departWorker_quiet ..)
  | evictWorker => exact evictWorker_performs ..
  | enqueueReady =>
    refine performs_answer (enqueueReady_settles ..) fun item after run => ?_
    exact .of_advances rfl (run.advances fun _ _ _ ran => enqueueReadyOn_ok ran)
  | enqueueReadyClaimed =>
    refine performs_answer (enqueueReadyClaimed_settles ..) fun item after run => ?_
    exact .of_advances rfl (run.2.advances fun _ _ _ ran => enqueueReadyClaimedOn_ok ran)
  | ingestRowWithInitialClaim =>
    refine performs_answer (ingestRowWithInitialClaim_settles ..) fun item after run => ?_
    exact .of_advances rfl (run.2.advances fun _ _ _ _ ran =>
      advances_of_ingest (fun last => enqueueReadyClaimedOn_ok last) ran)
  | ingestQuarantineRowWithPendingSink =>
    refine performs_answer (ingestQuarantineRowWithPendingSink_settles ..) fun item after run => ?_
    exact .of_advances rfl (run.advances fun _ _ _ _ ran =>
      advances_of_ingest (fun last => parkSourceQuarantineOn_ok last) ran)
  | claimReady =>
    refine performs_answer (claimReady_settles ..) fun claimed after run => ?_
    exact .of_advances rfl (run.2.advances fun _ _ _ ran => (claimReadyOn_ok ran).1.advances)
  | claimPendingSink =>
    refine performs_answer (claimPendingSink_settles ..) fun claimed after run => ?_
    exact .of_advances rfl (run.2.advances fun _ _ _ _ ran =>
      (claimPendingSinkOn_ok ran).advances)
  | heartbeatLease => exact heartbeatLease_performs ..
  | recoverExpiredLeases =>
    refine performs_answer (recoverExpiredLeases_settles ..) fun count after run => ?_
    exact .of_advances rfl (run.advances fun _ _ _ _ ran => (rotateExpiredLeases_ok ran).advances)
  | requeueUndecidedFailedWork =>
    refine performs_answer (requeueUndecidedFailedWork_settles ..) fun count after run => ?_
    exact .of_advances rfl (run.advances fun _ _ _ outcomes ran =>
      outcomes ▸ (requeueUndecidedFailedWorkOn_ok ran).2)
  | markBlocked member workItemId queueKey barrierKey rowPayloadJson leaseOwner =>
    refine performs_answer (markBlocked_settles member workItemId queueKey barrierKey
      rowPayloadJson leaseOwner) fun item after run => ?_
    have keyed : (DispositionImage.blocked queueKey barrierKey rowPayloadJson).Keyed := by
      rintro _ _ _ ⟨⟩
      exact run.1
    exact .of_advances rfl (run.2.2.advances fun _ _ same ran =>
      same ▸ (transitionOn_ok keyed ran).1)
  | mark disposition member workItemId leaseOwner losses =>
    refine performs_answer (transition_settles member workItemId leaseOwner _ losses)
      fun item after run => ?_
    exact .of_advances rfl (run.2.advances fun _ _ same ran =>
      same ▸ (transitionOn_ok (disposition.image_keyed workItemId leaseOwner) ran).1)
  | markWithReadyChildren disposition member workItemId leaseOwner emissions losses =>
    refine performs_answer (markWithReadyChildren_settles disposition member workItemId
      leaseOwner emissions losses) fun family after run => ?_
    exact .of_advances rfl (run.2.advances fun _ _ same ran =>
      same ▸ (transitionWithChildren_ok (disposition.image_keyed workItemId leaseOwner) ran).1)
  | markPendingSinkTerminal =>
    refine performs_answer (markPendingSinkTerminal_settles ..) ?_
    rintro count after (quiet | run)
    · exact .of_quiet rfl quiet
    · exact .of_advances rfl (run.advances fun _ _ _ _ ran => markPendingSinkTerminalOn_ok ran)
  | markPendingSinkTerminalMany =>
    refine performs_answer (markPendingSinkTerminalMany_settles ..) ?_
    rintro count after (quiet | run)
    · exact .of_quiet rfl quiet
    · exact .of_advances rfl (run.advances fun _ _ _ _ ran =>
        markPendingSinkTerminalManyOn_ok ran)
  | terminalizePendingSinksWithTerminalOutcomes token callerOwner =>
    refine performs_answer (terminalizePendingSinksWithTerminalOutcomes_settles token callerOwner)
      fun count after run => ?_
    refine .of_advances rfl (run.advances fun opened closed _ outcomes ran => ?_)
    change Advances _ (.finishing token.runId fun item =>
      tokenDecided db.tokenOutcomes.rows token.runId item.tokenId = true) _ _
    rw [← outcomes]
    exact terminalizeDecidedOn_ok ran
  | completeBarrier =>
    refine performs_answer (completeBarrier_settles ..) fun count after run => ?_
    exact .of_advances rfl (run.2.completes run.1)
  | markBlockedBarrierPendingSinkMany =>
    refine performs_answer (markBlockedBarrierPendingSinkMany_settles ..) ?_
    rintro count after (quiet | ⟨-, accepted, terminalized, run⟩)
    · exact .of_quiet rfl quiet
    · exact .of_advances rfl (run.completes accepted)
  | markBlockedBarrierTerminal =>
    refine performs_answer (markBlockedBarrierTerminal_settles ..) fun count after run => ?_
    exact .of_advances rfl (run.2.completes run.1)
  | adoptBlockedBarrierItem =>
    refine performs_answer (adoptBlockedBarrierItem_settles ..) fun result after run => ?_
    exact .of_advances rfl (run.advances fun _ _ _ _ ran =>
      (adoptBlockedBarrierItemOn_ok ran).advances.mono (Scope.adopting_within ..))
  | resetAdoptionMarkerToPending =>
    refine performs_answer (resetAdoptionMarkerToPending_settles ..) ?_
    rintro count after (quiet | run)
    · exact .of_quiet rfl quiet
    · exact .of_advances rfl (run.advances fun _ _ _ _ ran =>
        resetAdoptionMarkers_ok (fun name => List.mem_eraseDups.mp) ran)
  | leaderWrite token window verb write =>
    refine performs_answer settles_leaderFenced fun value after run => ?_
    exact .of_advances rfl (run.advances fun _ _ _ _ ran =>
      .of_quiet (write.respects env ran).toQuiet)
  | memberWrite member verb write =>
    refine performs_answer settles_memberFenced fun value after run => ?_
    exact .of_advances rfl (run.advances fun _ _ _ ran =>
      .of_quiet (write.respects env ran).toQuiet)
  | plainWrite write =>
    have quiet : Quiet db (beginWrite env (write.run env) db).2 :=
      beginWrite_respects (fun _ _ _ ran => (write.respects env ran).toQuiet) env db
    exact .of_quiet (tokenIssued_answer (fun _ => rfl) _) quiet

end Service

end Elspeth
