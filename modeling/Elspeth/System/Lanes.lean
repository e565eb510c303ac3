import Elspeth.System.Journal

/-!
# One item per continuation

A continuation — a token at a node of its run — is meant to have one work item,
however often its enqueue is replayed.  The idempotent insert recognises a replay
by the work-item id, and the id is a digest of the attempt as well.  Recovery and
requeue raise the attempt, so after either of them the same enqueue meets an
unknown id and inserts a second item of the same continuation.

What the code does guarantee is stated here as a run theorem: as long as every
insert either repeats a stored id or opens a continuation that has no item, there
is one item per continuation in every state reached, and no rotation of an
attempt ever collides with another item.
-/

namespace Elspeth

open Relational EventSourcing Worked TokenWorkItem Request

/-! ## Lanes -/

/-- Of two items of one continuation, neither is open. -/
def Db.OneOpenItemPerLane (db : Db) : Prop :=
  ∀ left ∈ db.tokenWorkItems.rows, ∀ right ∈ db.tokenWorkItems.rows,
    left.lane = right.lane → left.workItemId ≠ right.workItemId →
      (left.status = .terminal ∨ left.status = .failed) ∧
        (right.status = .terminal ∨ right.status = .failed)

instance (db : Db) : Decidable db.OneOpenItemPerLane :=
  inferInstanceAs (Decidable (∀ left ∈ db.tokenWorkItems.rows,
    ∀ right ∈ db.tokenWorkItems.rows, left.lane = right.lane →
      left.workItemId ≠ right.workItemId →
        (left.status = .terminal ∨ left.status = .failed) ∧
          (right.status = .terminal ∨ right.status = .failed)))

/-- Every continuation has one item. -/
def Db.LanesUnique (db : Db) : Prop := Unique lane db.tokenWorkItems.rows

theorem Db.LanesUnique.oneOpen {db : Db} (unique : db.LanesUnique) : db.OneOpenItemPerLane := by
  intro left leftMem right rightMem sameLane otherId
  exact absurd (congrArg _ (unique.eq_of_key leftMem rightMem sameLane)) otherId

/-- The identity determines the continuation. -/
theorem unique_attemptKey_of_lane {rows : List TokenWorkItem}
    (unique : Unique lane rows) : Unique attemptKey rows := by
  refine unique.nodup.map_on fun left leftMem right rightMem same => ?_
  refine unique.eq_of_key leftMem rightMem ?_
  simp only [attemptKey, Prod.mk.injEq] at same
  simp only [lane, same]

section Histories

variable [Digest]

theorem Action.next_lane (outcomes : List TokenOutcome) (action : Action)
    (item : TokenWorkItem) : (action.next outcomes item).lane = item.lane := by
  cases action with
  | dispose image databaseNow => cases image <;> rfl
  | _ => rfl

/-- An edge that gives its item the id of another attempt. -/
def Action.Rotates : Action → Prop
  | .rotate _ | .requeue _ => True
  | _ => False

variable {action : Action} {item : TokenWorkItem} {db : Db} {request : Request}
  {reported : Option TokenWorkItem}

theorem Action.next_workItemId {outcomes : List TokenOutcome} (stays : ¬ action.Rotates) :
    (action.next outcomes item).workItemId = item.workItemId := by
  cases action with
  | rotate | requeue => exact absurd trivial stays
  | dispose image databaseNow => cases image <;> rfl
  | _ => rfl

theorem Born.workItemId {event : SchedulerEvent} (born : Born item event) :
    item.workItemId = item.identity.id := by
  cases born <;> rfl

/-! ## What a call inserts -/

/-- The identities of a completion's generated outputs. -/
def BarrierCompletion.inserts (completion : BarrierCompletion) (runId : String) (db : Db) :
    List WorkIdentity :=
  (completion.ready ++ completion.fresh (completion.held runId db)).map (·.identity runId)

/-- The identities of the items a request inserts unless their ids are stored. -/
def Request.inserts (db : Db) : Request → List WorkIdentity
  | .enqueueReady member values => [values.identity member.runId]
  | .enqueueReadyClaimed member values _ _ => [values.identity member.runId]
  | .ingestRowWithInitialClaim token source _ values _ _ =>
    [(source.initialValues values).identity token.runId]
  | .ingestQuarantineRowWithPendingSink token _ _ emission => [emission.identity token.runId]
  | .markWithReadyChildren _ member _ _ emissions _ =>
    emissions.map (·.identity member.runId)
  | .completeBarrier token completion => completion.inserts token.runId db
  | .markBlockedBarrierPendingSinkMany token barrierKey handoffs parkedLeaseOwner =>
    (handoffRelease barrierKey handoffs parkedLeaseOwner).inserts token.runId db
  | .markBlockedBarrierTerminal token barrierKey tokenIds releaseContext losses =>
    (terminalRelease barrierKey tokenIds releaseContext losses).inserts token.runId db
  | _ => []

theorem BarrierCompletion.inserts_of_birth {completion : BarrierCompletion} {runId : String}
    (birth : (completion.scope runId (completion.held runId db)).birth item) :
    item.identity ∈ completion.inserts runId db := by
  unfold BarrierCompletion.inserts
  rw [List.map_append, List.mem_append]
  rcases birth with ⟨-, continued⟩ | ⟨emission, emitted, parked⟩
  · exact Or.inl continued
  · exact Or.inr (List.mem_map.mpr ⟨emission, emitted, parked.identity.symm⟩)

/-- Whatever a call may give birth to, its request inserts. -/
theorem Request.inserts_of_birth (birth : (request.scope db reported).birth item) :
    item.identity ∈ request.inserts db := by
  cases request with
  | enqueueReady | enqueueReadyClaimed | ingestRowWithInitialClaim | markWithReadyChildren =>
    exact birth.2
  | ingestQuarantineRowWithPendingSink => exact List.mem_singleton.mpr birth.1
  | completeBarrier | markBlockedBarrierPendingSinkMany | markBlockedBarrierTerminal =>
    exact BarrierCompletion.inserts_of_birth birth
  | _ => exact birth.elim

/-- A request that rotates attempts inserts nothing. -/
theorem Request.inserts_of_rotates (allowed : (request.scope db reported).action action item)
    (rotates : action.Rotates) : request.inserts db = [] := by
  cases request with
  | recoverExpiredLeases | requeueUndecidedFailedWork => rfl
  | enqueueReady | ingestQuarantineRowWithPendingSink => exact allowed.elim
  | enqueueReadyClaimed | ingestRowWithInitialClaim =>
    obtain ⟨_, _, rfl, -⟩ := allowed
    exact rotates.elim
  | markWithReadyChildren =>
    obtain ⟨⟨_, rfl⟩, -⟩ := allowed
    exact rotates.elim
  | completeBarrier | markBlockedBarrierPendingSinkMany | markBlockedBarrierTerminal =>
    rcases allowed.2 with ⟨_, -, rfl⟩ | ⟨_, -, _, -, rfl⟩ <;> exact rotates.elim
  | _ => rfl

/-- Every inserted identity is stored under its id already or opens a continuation
that has no item, and no two of them open the same one. -/
def Request.InsertsFreely (request : Request) (db : Db) : Prop :=
  (∀ identity ∈ request.inserts db,
    identity.id ∈ db.tokenWorkItems.rows.map TokenWorkItem.workItemId ∨
      identity.lane ∉ db.tokenWorkItems.rows.map lane) ∧
  ∀ left ∈ request.inserts db, ∀ right ∈ request.inserts db,
    left.lane = right.lane → left.id = right.id

instance (request : Request) (db : Db) : Decidable (request.InsertsFreely db) :=
  inferInstanceAs (Decidable ((∀ identity ∈ request.inserts db,
    identity.id ∈ db.tokenWorkItems.rows.map TokenWorkItem.workItemId ∨
      identity.lane ∉ db.tokenWorkItems.rows.map lane) ∧
    ∀ left ∈ request.inserts db, ∀ right ∈ request.inserts db,
      left.lane = right.lane → left.id = right.id))

/-- **One call that inserts freely** keeps one item per continuation. -/
theorem serve_lanesUnique {call : Call} (freely : call.request.InsertsFreely db)
    (unique : db.LanesUnique) : (serve call db).2.LanesUnique := by
  have path := (serve_performs call db).travels
  have ids := unique_workItemId db.tokenWorkItems
  by_cases inserts : call.request.inserts db = []
  · -- Nothing is inserted, and every edge stays in its lane.
    have lanes := path.column_of_unborn lane ids (by
      rintro item event ⟨-, birth⟩
      have member := inserts_of_birth birth
      rw [inserts] at member
      cases member) (by
      rintro old new entry ⟨action, -, -, rfl, -⟩
      exact action.next_lane _ old)
    change ((serve call db).2.journal.rows.map lane).Nodup
    rw [lanes]
    exact unique
  · -- Items are inserted, so no id changes on the way.
    refine path.unique_column ids unique ?_ ?_ ?_
    · rintro old new entry ⟨action, allowed, -, rfl, -⟩
      refine ⟨action.next_lane _ old, Action.next_workItemId fun rotates => ?_⟩
      exact inserts (inserts_of_rotates allowed rotates)
    · rintro new event ⟨born, birth⟩
      rw [born.workItemId]
      exact freely.1 new.identity (inserts_of_birth birth)
    · rintro left right leftEvent rightEvent ⟨leftBorn, leftBirth⟩ ⟨rightBorn, rightBirth⟩ same
      rw [leftBorn.workItemId, rightBorn.workItemId]
      exact freely.2 _ (inserts_of_birth leftBirth) _
        (inserts_of_birth rightBirth) same

/-! ## Rotations meet no other item -/

/-- The journal has one item per lane. -/
def LanesUniqueIn (conn : Conn) : Prop := conn.db.LanesUnique

/-- Not a violation of the identity constraint. -/
def NoAttemptClash (raised : LandscapeError) : Prop :=
  ∀ broken, raised = .integrityError broken → ¬ broken.OfAttempt

section Guards

variable {env : CallEnv}

omit [Digest] in
/-- A statement on the journal that leaves lanes alone. -/
theorem itemsUpdate_noClash {selected : TokenWorkItem → Bool}
    {change : TokenWorkItem → TokenWorkItem} (kept : ∀ row, (change row).lane = row.lane) :
    Txn.Guarded LanesUniqueIn NoAttemptClash (itemsSlot.update selected change) := by
  have stays : ∀ conn : Conn, LanesUniqueIn conn →
      Unique lane (updateRows selected change (itemsSlot.rows conn)) := by
    intro conn unique
    unfold Relational.Unique
    rw [map_updateRows kept]
    exact unique
  refine Slot.update_guarded ?_ ?_
  · rintro conn unique broken violated _ ⟨⟩
    exact not_ofAttempt_of_unique violated (unique_attemptKey_of_lane (stays conn unique))
  · intro table conn unique rows
    have := stays conn unique
    rwa [← rows] at this

omit [Digest] in
theorem decisionTime_noClash :
    Txn.Guarded LanesUniqueIn NoAttemptClash (readLandscapeDecisionTime env) :=
  readLandscapeDecisionTime_guarded fun _ unique => unique

omit [Digest] in
theorem recordEvents_noClash {records : List SchedulerEvent} :
    Txn.Guarded LanesUniqueIn NoAttemptClash (recordEvents records) :=
  .alter fun _ unique => unique

omit [Digest] in
theorem noAttemptClash_audit (fault : AuditFault) : NoAttemptClash (.auditIntegrity fault) := by
  rintro broken ⟨⟩

theorem recordCoordinationEvent_noClash (event : CoordinationEvent) :
    Txn.Guarded LanesUniqueIn NoAttemptClash (recordCoordinationEvent event) := by
  refine .bind .query fun _ => .bind (.ensure ?_) fun _ => Slot.insert_guarded ?_ ?_
  · rintro broken ⟨⟩
    decide
  · rintro conn - broken violated _ ⟨⟩
    obtain ⟨constraint, declared, rfl, -⟩ := Constraint.violated_eq_some violated
    rw [coordinationEventConstraints, List.mem_singleton] at declared
    rw [declared]
    decide
  · intro table conn unique _
    exact unique

omit [Digest] in
theorem seatsUpdate_noClash {selected : RunCoordination → Bool}
    {change : RunCoordination → RunCoordination} :
    Txn.Guarded LanesUniqueIn NoAttemptClash (seatsSlot.update selected change) := by
  refine Slot.update_guarded ?_ fun _ _ unique _ => unique
  rintro conn - broken violated _ ⟨⟩
  obtain ⟨constraint, declared, rfl, -⟩ := Constraint.violated_eq_some violated
  simp only [runCoordinationConstraints, List.mem_cons, List.not_mem_nil, or_false] at declared
  rcases declared with rfl | rfl <;> decide

variable {window : Int} {token : CoordinationToken} {verb : String} {α : Type} {db : Db}
  {raised : LandscapeError}

omit [Digest] in
theorem recordIssuedDeadline_noClash {key : DeadlineKey} {expiresAt : Time} :
    Txn.Guarded LanesUniqueIn NoAttemptClash (recordIssuedDeadline env key expiresAt window) := by
  refine .bind (.ensure ?_) fun _ => .bind (.ensure ?_) fun _ => .bind (.ensure ?_) fun _ =>
    .alter fun _ unique => unique
  all_goals rintro broken ⟨⟩

omit [Digest] in
theorem renewLeaderDeadlineOn_noClash :
    Txn.Guarded LanesUniqueIn NoAttemptClash (renewLeaderDeadlineOn env token window verb) :=
  .bind decisionTime_noClash fun _ => .bind seatsUpdate_noClash fun _ =>
    .bind (.ensure fun _ same => by cases same) fun _ => recordIssuedDeadline_noClash

omit [Digest] in
theorem leaderFenced_noClash {body : Transaction α}
    (guarded : Txn.Guarded LanesUniqueIn NoAttemptClash body) :
    Txn.Guarded LanesUniqueIn NoAttemptClash (leaderFenced env token window verb body) := by
  refine .bind (.bind seatsUpdate_noClash fun _ => .bind (.ensure ?_) fun _ =>
    renewLeaderDeadlineOn_noClash) fun _ => .bind guarded fun _ => .bind ?_ fun _ => .pure
  · rintro broken ⟨⟩
  · exact .bind .query fun _ => .ite (fun _ => renewLeaderDeadlineOn_noClash) fun _ => .pure

/-- A leader-fenced verb raises what its guarded body may raise. -/
theorem fencedLeaderTransaction_noClash {body : Transaction α}
    (guarded : Txn.Guarded LanesUniqueIn NoAttemptClash body) (unique : db.LanesUnique)
    (ran : (fencedLeaderTransaction env token window verb body db).1 = .error raised) :
    NoAttemptClash raised := by
  unfold fencedLeaderTransaction at ran
  split at ran
  next => cases ran; rintro broken ⟨⟩
  next =>
    cases outcome : beginWrite env (leaderFenced env token window verb body) db with
    | mk =>
      rw [outcome] at ran
      cases ran
      rcases transact_raises outcome with inner | ⟨_, session, -, refused⟩
      · have opened : LanesUniqueIn (Conn.start db) := unique
        exact (leaderFenced_noClash guarded).raises opened inner
      · unfold commit at refused
        split at refused
        · cases refused
        · cases refused
          rintro broken ⟨⟩

/-! ### The sweep -/

theorem sweepApply_noClash (sweep : Sweep) (expired : List TokenWorkItem) :
    Txn.Guarded LanesUniqueIn NoAttemptClash (sweep.apply expired) := by
  have bundles : Txn.Guarded LanesUniqueIn NoAttemptClash
      (Txn.forEach sweep.checkBundle expired) :=
    .forEach (fun _ => .ensure (noAttemptClash_audit _)) expired
  have sinks : Txn.Guarded LanesUniqueIn NoAttemptClash (sweep.releaseSinks expired) :=
    .bind .query fun _ => .bind (itemsUpdate_noClash fun _ => rfl) fun _ =>
      .bind (.ensure (noAttemptClash_audit _)) fun _ => .pure
  have statement : ∀ row, Txn.Guarded LanesUniqueIn NoAttemptClash (sweep.rotateStatement row) :=
    fun row => itemsUpdate_noClash fun _ => rfl
  have transforms : Txn.Guarded LanesUniqueIn NoAttemptClash (sweep.rotateTransforms expired) :=
    .bind (.executeMany statement _) fun _ => .bind .query fun _ =>
      .bind (.ensure (noAttemptClash_audit _)) fun _ => .pure
  have missed : ∀ rows row, Txn.Guarded LanesUniqueIn NoAttemptClash
      (sweep.checkMissed rows row) := by
    intro rows row
    unfold Sweep.checkMissed
    split
    · exact .pure
    · exact .ensure (noAttemptClash_audit _)
  exact .bind bundles fun _ => .bind sinks fun _ => .bind transforms fun _ => .bind .query
    fun rows => .bind (.forEach (missed rows) _) fun _ => .bind recordEvents_noClash fun _ =>
      .bind (.forEach recordCoordinationEvent_noClash _) fun _ => .pure

/-- **Recovery never meets another attempt of its item.** -/
theorem recoverExpiredLeases_noClash {grace stallBudget : Int} (unique : db.LanesUnique)
    (ran : (recoverExpiredLeases env token grace stallBudget db).1 = .error raised) :
    NoAttemptClash raised := by
  refine fencedLeaderTransaction_noClash ?_ unique ran
  refine .bind decisionTime_noClash fun _ => .bind .query fun _ => .ite (fun _ => .pure) fun _ =>
    .bind decisionTime_noClash fun _ => .bind .query fun _ => .bind .query fun _ =>
      .ite (fun _ => .pure) fun _ => ?_
  exact sweepApply_noClash _ _

/-- **Requeue never meets another attempt of its item.** -/
theorem requeueUndecidedFailedWork_noClash (unique : db.LanesUnique)
    (ran : (requeueUndecidedFailedWork env token db).1 = .error raised) :
    NoAttemptClash raised := by
  refine fencedLeaderTransaction_noClash ?_ unique ran
  have statement : ∀ outcomes databaseNow row, Txn.Guarded LanesUniqueIn NoAttemptClash
      (requeueStatement outcomes token.runId databaseNow row) :=
    fun _ _ _ => itemsUpdate_noClash fun _ => rfl
  refine .bind .query fun _ => .bind .query fun _ => .ite (fun _ => .pure) fun _ => ?_
  exact .bind (.ensure (noAttemptClash_audit _)) fun _ => .bind .query fun _ =>
    .bind (.ensure (noAttemptClash_audit _)) fun _ => .bind decisionTime_noClash fun _ =>
      .bind .query fun _ => .bind (.executeMany (statement _ _) _) fun _ =>
        .bind (.ensure (noAttemptClash_audit _)) fun _ =>
          .bind recordEvents_noClash fun _ => .pure

end Guards

/-! ## Histories -/

/-- In every state such a history reaches, every continuation has one item. -/
theorem after_lanesUnique {db : Db} (empty : db.tokenWorkItems.rows = []) {calls : List Call}
    (freely : Complies serve (fun db call => call.request.InsertsFreely db) db calls) :
    (after serve db calls).LanesUnique := by
  refine complies_induction Db.LanesUnique (fun call db => serve_lanesUnique) ?_ freely
  unfold Db.LanesUnique
  rw [empty]
  exact unique_nil _

/-- **One item per continuation.**  In every state a history reaches from an empty
journal, if each of its inserts repeats a stored id or opens a continuation that
has no item: no continuation has two items one of which is open, and neither a
recovery nor a requeue is refused because an identity is taken. -/
theorem one_open_item_per_lane {db : Db} (empty : db.tokenWorkItems.rows = [])
    {calls : List Call}
    (freely : Complies serve (fun db call => call.request.InsertsFreely db) db calls) :
    (after serve db calls).OneOpenItemPerLane ∧
      ∀ env token grace stallBudget broken, broken.OfAttempt →
        (serve ⟨env, .recoverExpiredLeases token grace stallBudget⟩ (after serve db calls)).1 ≠
            .error (.integrityError broken) ∧
          (serve ⟨env, .requeueUndecidedFailedWork token⟩ (after serve db calls)).1 ≠
            .error (.integrityError broken) := by
  have unique : (after serve db calls).LanesUnique := after_lanesUnique empty freely
  refine ⟨unique.oneOpen, fun env token grace stallBudget broken clash => ⟨?_, ?_⟩⟩
  · intro reply
    simp only [serve, answer] at reply
    rcases ran : (recoverExpiredLeases env token grace stallBudget (after serve db calls)).1
      with _ | _ <;>
      rw [ran] at reply <;> cases reply
    exact recoverExpiredLeases_noClash unique ran broken rfl clash
  · intro reply
    simp only [serve, answer] at reply
    rcases ran : (requeueUndecidedFailedWork env token (after serve db calls)).1 with _ | _ <;>
      rw [ran] at reply <;> cases reply
    exact requeueUndecidedFailedWork_noClash unique ran broken rfl clash

end Histories

/-- Before its rotation the enqueue may be replayed: the worked history with one
replay is as the theorem says. -/
theorem one_open_item_per_lane_worked :
    Complies Worked.serve (fun db call => @Request.InsertsFreely Worked.digest call.request db)
        Db.empty (opening ++ call 0 (.enqueueReady follower values) ::
          Worked.rotation) ∧
      (after Worked.serve Db.empty
        (opening ++ call 0 (.enqueueReady follower values) ::
          Worked.rotation)).OneOpenItemPerLane := by
  have freely : Complies Worked.serve
      (fun db call => @Request.InsertsFreely digest call.request db) Db.empty
      (opening ++ call 0 (.enqueueReady follower values) ::
        Worked.rotation) := by decide +kernel
  exact ⟨freely, (@one_open_item_per_lane digest Db.empty rfl _ freely).1⟩

/-- The enqueue repeated after the rotation, and both items claimed. -/
def Worked.replay : List Call :=
  [call (1000 * second) (.enqueueReady follower values),
    call (1000 * second) (.claimReady follower "worker-1" (300 * second)),
    call (1000 * second) (.claimReady follower "worker-1" (300 * second))]

/-- **A replay after the rotation splits the continuation**: it has two open items,
and the next recovery is refused because the rotated identity is taken. -/
theorem replay_after_rotation_splits_lane :
    ¬ (after Worked.serve Db.empty
        (Worked.opening ++ Worked.rotation ++ Worked.replay)).OneOpenItemPerLane ∧
      (Worked.serve
        (call (2000 * second) (.recoverExpiredLeases leader 0 (1000 * second)))
        (after Worked.serve Db.empty
          (Worked.opening ++ Worked.rotation ++ Worked.replay))).1 =
        .error (.integrityError .workItemsAttempt) := by
  decide +kernel

end Elspeth
