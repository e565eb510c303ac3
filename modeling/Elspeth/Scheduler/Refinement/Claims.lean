import Elspeth.Scheduler.Refinement.Inserts

/-!
# Claims and renewals refine the lifecycle

A claim is one compare-and-swap.  When it reports a row, that row was READY (or
parked with a complete bundle) a moment before, is the caller's lease now, and
one event says so; when it reports none, nothing changed.  A renewal moves a
deadline and logs nothing; a missed renewal changes no row and logs at most one
LEASE_LOST.
-/

namespace Elspeth

open Relational EventSourcing Txn List Slot Advances

variable {env : CallEnv} {conn conn' : Conn}

/-! ## Scopes -/

/-- A call that takes at most one lease, the one it reports. -/
def Scope.claiming (birth : TokenWorkItem → Prop) (source : ClaimSource)
    (runId leaseOwner : String) (claimed : Option TokenWorkItem) : Scope where
  birth := birth
  action action item := ∃ expiresAt databaseNow,
    action = .claim source leaseOwner expiresAt databaseNow ∧ item.runId = runId ∧
      claimed = some (item.leasedTo leaseOwner expiresAt databaseNow)
  note _ := False

/-- A call that renews one lease or notes its loss. -/
def Scope.renewing (workItemId runId leaseOwner : String) : Scope where
  birth _ := False
  action action item := (∃ expiresAt databaseNow, action = .renew expiresAt databaseNow) ∧
    heldLease workItemId runId leaseOwner item = true
  note _ := True

/-! ## One claim -/

/-- The claim of `old` succeeded: its row is leased and one event records it. -/
structure Claims (source : ClaimSource) (runId leaseOwner : String) (expiresAt databaseNow : Time)
    (old : TokenWorkItem) (before after : Db) : Prop where
  stored : old ∈ before.tokenWorkItems.rows
  run : old.runId = runId
  offered : source.Offers old
  written : ∃ table : Table TokenWorkItem Violation tokenWorkItemConstraints,
    table.rows = replaceRow TokenWorkItem.workItemId old
        (old.leasedTo leaseOwner expiresAt databaseNow) before.tokenWorkItems.rows ∧
      after = before.withJournal table (before.schedulerEvents ++
        [claimEvent source.eventType old source.status leaseOwner expiresAt databaseNow])

variable {source : ClaimSource} {old : TokenWorkItem} {recorded : List TokenOutcome}
  {birth : TokenWorkItem → Prop} {runId leaseOwner workItemId : String}
  {expiresAt databaseNow : Time} {lease : Int} {claimed : Option TokenWorkItem}
  {selected : TokenWorkItem → Bool} {updated : Conn} {fence : ClaimFence}

theorem describes_claim (offered : source.Offers old) (leaseOwner : String)
    (expiresAt databaseNow : Time) :
    Describes source.eventType old (old.leasedTo leaseOwner expiresAt databaseNow)
      (claimEvent source.eventType old source.status leaseOwner expiresAt databaseNow) where
  eventType := rfl
  runId := rfl
  tokenId := rfl
  nodeId := rfl
  workItemId := rfl
  fromStatus := congrArg some offered.1.symm
  fromAttempt := rfl
  toStatus := rfl
  toLeaseOwner := rfl
  toAttempt := rfl
  previous := by
    refine Or.inr ⟨?_, rfl⟩
    cases source <;> rfl

theorem Claims.advances [Digest] {before after : Db}
    (claims : Claims source runId leaseOwner expiresAt databaseNow old before after) :
    Advances recorded
      (.claiming birth source runId leaseOwner
        (some (old.leasedTo leaseOwner expiresAt databaseNow))) before after := by
  obtain ⟨table, tableRows, rfl⟩ := claims.written
  exact advances_of_action (.claim source leaseOwner expiresAt databaseNow)
    (some (claimEvent source.eventType old source.status leaseOwner expiresAt databaseNow))
    claims.stored ⟨expiresAt, databaseNow, rfl, claims.run, rfl⟩ claims.offered
    ⟨_, rfl, describes_claim claims.offered leaseOwner expiresAt databaseNow⟩ (Or.inl rfl)
    tableRows

theorem settleClaim_ok {event : SchedulerEvent} {rowcount : Nat}
    (ran : settleClaim env event leaseOwner expiresAt lease rowcount conn =
      .ok (claimed, conn')) :
    conn'.db = { conn.db with schedulerEvents := conn.db.schedulerEvents ++ [event] } ∧
      ∃ item ∈ conn.db.tokenWorkItems.rows, item.workItemId = event.workItemId ∧
        claimed = some item := by
  simp only [settleClaim, bind_eq_ok, ensure_eq_ok, recordIssuedDeadline_eq_ok,
    recordEvents, alter_eq_ok, select_eq_ok] at ran
  obtain ⟨_, _, ⟨-, rfl⟩, _, _, ⟨-, rfl⟩, _, _, rfl, found, _, ⟨foundRows, rfl⟩, inner⟩ := ran
  cases found with
  | nil => exact (raise_eq_ok.mp inner).elim
  | cons item rest =>
    obtain ⟨rfl, rfl⟩ := pure_eq_ok.mp inner
    have member := foundRows ▸ mem_cons_self (a := item) (l := rest)
    obtain ⟨stored, held⟩ := mem_filter.mp member
    simp only [Bool.and_eq_true, decide_eq_true_eq] at held
    exact ⟨rfl, item, stored, held.1.1.1, rfl⟩

/-- Either nothing was claimed and nothing changed, or this row was. -/
inductive ClaimOutcome (source : ClaimSource) (runId leaseOwner : String) (lease : Int)
    (before after : Db) : Option TokenWorkItem → Prop where
  | missed (same : after = before) : ClaimOutcome source runId leaseOwner lease before after none
  | taken (old : TokenWorkItem) (databaseNow : Time)
      (claims : Claims source runId leaseOwner (databaseNow + lease) databaseNow old before
        after) :
      ClaimOutcome source runId leaseOwner lease before after
        (some (old.leasedTo leaseOwner (databaseNow + lease) databaseNow))

/-- The course of a claim statement that matched `row`, up to its read-back. -/
theorem claim_settled {row : TokenWorkItem} {count : Nat} (update : itemsSlot.update selected
      (fun item => item.leasedTo leaseOwner (databaseNow + lease) databaseNow) conn =
        .ok (count, updated)) (positive : count ≠ 0) (settle : settleClaim env
      (claimEvent source.eventType row source.status leaseOwner (databaseNow + lease) databaseNow)
      leaseOwner (databaseNow + lease) lease count updated = .ok (claimed, conn'))
    (stored : row ∈ conn.db.tokenWorkItems.rows) (run : row.runId = runId)
    (hits : ∀ item, selected item = true →
      item.workItemId = row.workItemId ∧ source.Offers item) :
    ClaimOutcome source runId leaseOwner lease conn.db conn'.db claimed ∧
      ∀ item ∈ claimed, item.workItemId = row.workItemId := by
  rcases update_keyed unique_workItemId (fun item hit => (hits item hit).1) update with
    ⟨none, -⟩ | ⟨-, old, oldMem, hit, -, table, tableRows, rfl⟩
  · exact absurd none positive
  · have same : old = row := (unique_workItemId _).eq_of_key oldMem stored (hits old hit).1
    subst same
    obtain ⟨written, item, itemMem, itemId, rfl⟩ := settleClaim_ok settle
    have newMem : old.leasedTo leaseOwner (databaseNow + lease) databaseNow ∈ table.rows := by
      rw [tableRows]
      exact (mem_replaceRow oldMem).mpr (Or.inl rfl)
    have read : item = old.leasedTo leaseOwner (databaseNow + lease) databaseNow :=
      (unique_workItemId table).eq_of_key itemMem newMem itemId
    rw [read]
    refine ⟨.taken old databaseNow ⟨stored, run, (hits old hit).2, table, tableRows, written⟩, ?_⟩
    intro other otherMem
    rw [← Option.mem_some_iff.mp otherMem]
    rfl

/-- A keyed claim statement that matched nothing changed nothing. -/
theorem claim_missed {change : TokenWorkItem → TokenWorkItem} {name : String}
    (keyed : ∀ item : TokenWorkItem, selected item = true → item.workItemId = name)
    (update : itemsSlot.update selected change conn = .ok (0, updated)) : updated = conn := by
  rcases update_keyed unique_workItemId keyed update with ⟨-, same, -⟩ | ⟨one, -⟩
  · exact same
  · omega

theorem classifyMissedReady_ok
    (ran : classifyMissedReady fence workItemId runId leaseOwner conn = .ok (claimed, conn')) :
    claimed = none ∧ conn' = conn := by
  simp only [classifyMissedReady, bind_eq_ok, select_eq_ok, query_eq_ok,
    ite_eq_ok, raise_eq_ok, pure_eq_ok, and_false, false_or] at ran
  obtain ⟨_, _, ⟨-, rfl⟩, _, _, ⟨-, rfl⟩, -, rfl, rfl⟩ := ran
  exact ⟨rfl, rfl⟩

theorem claimReadyRow_ok (ran : claimReadyRow env fence workItemId runId leaseOwner lease conn =
      .ok (claimed, conn')) :
    ClaimOutcome .ready runId leaseOwner lease conn.db conn'.db claimed ∧
      ∀ item ∈ claimed, item.workItemId = workItemId := by
  obtain ⟨locked, conn, select, inner⟩ := bind_eq_ok.mp ran
  obtain ⟨lockedRows, rfl⟩ := select_eq_ok.mp select
  cases locked with
  | nil =>
    obtain ⟨rfl, rfl⟩ := pure_eq_ok.mp inner
    exact ⟨.missed rfl, by simp⟩
  | cons row rest =>
    have member := lockedRows ▸ mem_cons_self (a := row) (l := rest)
    obtain ⟨stored, named⟩ := mem_filter.mp member
    simp only [Bool.and_eq_true, decide_eq_true_eq] at named
    simp only [bind_eq_ok, readLandscapeDecisionTime_eq_ok, query_eq_ok,
      ite_eq_ok] at inner
    obtain ⟨databaseNow, _, ⟨nowEq, rfl⟩, workers, _, ⟨-, rfl⟩, count, updated, update,
      outcome⟩ := inner
    have keyed : ∀ item : TokenWorkItem, claimableReady row.workItemId runId databaseNow
        (fence.admits workers leaseOwner runId) item = true →
        item.workItemId = row.workItemId ∧ ClaimSource.ready.Offers item := by
      intro item hit
      simp only [claimableReady, Bool.and_eq_true, decide_eq_true_eq] at hit
      exact ⟨hit.1.1.1.1, hit.1.1.2, by simp⟩
    rcases outcome with ⟨rfl, missed⟩ | ⟨positive, settle⟩
    · obtain ⟨rfl, rfl⟩ := classifyMissedReady_ok missed
      rw [claim_missed (fun item hit => (keyed item hit).1) update]
      exact ⟨.missed rfl, by simp⟩
    · have taken := claim_settled update positive settle stored named.2 keyed
      rw [named.1] at taken
      exact taken

/-! ## The claim verbs -/

/-- A READY claim reports a row only if it is first among the available ones. -/
theorem claimReadyOn_ok
    (ran : claimReadyOn env runId leaseOwner lease conn = .ok (claimed, conn')) :
    ClaimOutcome .ready runId leaseOwner lease conn.db conn'.db claimed ∧
      ∀ item ∈ claimed, ∃ discoveryNow, ∃ first ∈ conn.db.tokenWorkItems.rows,
        item.workItemId = first.workItemId ∧ availableReady runId discoveryNow first = true ∧
          ∀ other ∈ conn.db.tokenWorkItems.rows, availableReady runId discoveryNow other = true →
            first.claimKey ≤ other.claimKey := by
  simp only [claimReadyOn, bind_eq_ok, readLandscapeDecisionTime_eq_ok,
    select_eq_ok] at ran
  obtain ⟨discoveryNow, _, ⟨-, rfl⟩, ready, _, ⟨readyRows, rfl⟩, inner⟩ := ran
  have available : ∀ row, row ∈ ready ↔ row ∈ conn.db.tokenWorkItems.rows ∧
      availableReady runId discoveryNow row = true := by
    intro row
    rw [readyRows]
    exact mem_filter
  cases order : (sortRows TokenWorkItem.claimKey ready).head? with
  | none =>
    rw [order] at inner
    obtain ⟨rfl, rfl⟩ := pure_eq_ok.mp inner
    exact ⟨.missed rfl, by simp⟩
  | some first =>
    rw [order] at inner
    obtain ⟨outcome, sameId⟩ := claimReadyRow_ok inner
    refine ⟨outcome, fun item itemMem => ?_⟩
    have firstMem : first ∈ ready :=
      (mem_sortRows TokenWorkItem.claimKey).mp (mem_of_head? order)
    obtain ⟨stored, firstAvailable⟩ := (available first).mp firstMem
    exact ⟨discoveryNow, first, stored, sameId item itemMem, firstAvailable,
      fun other otherMem otherAvailable =>
        head_sortRows_le _ order ((available other).mpr ⟨otherMem, otherAvailable⟩)⟩

theorem classifyMissedPendingSink_ok
    (ran : classifyMissedPendingSink workItemId runId leaseOwner conn = .ok (claimed, conn')) :
    claimed = none ∧ conn' = conn := by
  simp only [classifyMissedPendingSink, bind_eq_ok, select_eq_ok,
    query_eq_ok] at ran
  obtain ⟨still, _, ⟨-, rfl⟩, _, _, ⟨-, rfl⟩, inner⟩ := ran
  cases still with
  | nil => exact pure_eq_ok.mp inner
  | cons =>
    simp only [ite_eq_ok, raise_eq_ok, pure_eq_ok, and_false, false_or,
      or_false] at inner
    exact inner.2.2

theorem claimPendingSinkRow_ok
    (ran : claimPendingSinkRow env workItemId runId leaseOwner lease conn =
      .ok (claimed, conn')) :
    ClaimOutcome .pendingSink runId leaseOwner lease conn.db conn'.db claimed := by
  obtain ⟨locked, conn, select, inner⟩ := bind_eq_ok.mp ran
  obtain ⟨lockedRows, rfl⟩ := select_eq_ok.mp select
  cases locked with
  | nil =>
    obtain ⟨rfl, rfl⟩ := pure_eq_ok.mp inner
    exact .missed rfl
  | cons row rest =>
    have member := lockedRows ▸ mem_cons_self (a := row) (l := rest)
    obtain ⟨stored, named⟩ := mem_filter.mp member
    simp only [Bool.and_eq_true, decide_eq_true_eq] at named
    simp only [bind_eq_ok, readLandscapeDecisionTime_eq_ok, query_eq_ok,
      ite_eq_ok] at inner
    obtain ⟨databaseNow, _, ⟨-, rfl⟩, workers, _, ⟨-, rfl⟩, count, updated, update,
      outcome⟩ := inner
    have keyed : ∀ item : TokenWorkItem, claimablePendingSink row.workItemId runId
        (claimVerbFence workers leaseOwner runId) item = true →
        item.workItemId = row.workItemId ∧ ClaimSource.pendingSink.Offers item := by
      intro item hit
      simp only [claimablePendingSink, Bool.and_eq_true, decide_eq_true_eq] at hit
      exact ⟨hit.1.1.1.1, hit.1.1.2, fun _ => hit.1.2⟩
    rcases outcome with ⟨rfl, missed⟩ | ⟨positive, settle⟩
    · obtain ⟨rfl, rfl⟩ := classifyMissedPendingSink_ok missed
      rw [claim_missed (fun item hit => (keyed item hit).1) update]
      exact .missed rfl
    · exact (claim_settled update positive settle stored named.2 keyed).1

theorem claimPendingSinkOn_ok
    (ran : claimPendingSinkOn env runId leaseOwner lease conn = .ok (claimed, conn')) :
    ClaimOutcome .pendingSink runId leaseOwner lease conn.db conn'.db claimed := by
  simp only [claimPendingSinkOn, bind_eq_ok, select_eq_ok] at ran
  obtain ⟨parked, _, ⟨-, rfl⟩, inner⟩ := ran
  cases order : (sortRows TokenWorkItem.claimKey parked).head? with
  | none =>
    rw [order] at inner
    obtain ⟨rfl, rfl⟩ := pure_eq_ok.mp inner
    exact .missed rfl
  | some =>
    rw [order] at inner
    obtain ⟨_, _, bundle, claim⟩ := bind_eq_ok.mp inner
    obtain ⟨-, rfl⟩ := ensure_eq_ok.mp bundle
    exact claimPendingSinkRow_ok claim

theorem ClaimOutcome.advances [Digest] {before after : Db}
    (outcome : ClaimOutcome source runId leaseOwner lease before after claimed) :
    Advances recorded (.claiming birth source runId leaseOwner claimed) before after := by
  cases outcome with
  | missed same =>
    rw [same]
    exact refl before
  | taken old databaseNow claims => exact claims.advances

/-! ## Enqueue and claim -/

theorem requireActiveWorker_ok {workerId : Option String} {value : Unit}
    (ran : requireActiveWorker workerId runId conn = .ok (value, conn')) : conn' = conn := by
  cases workerId with
  | none => exact (pure_eq_ok.mp ran).2
  | some =>
    simp only [requireActiveWorker, bind_eq_ok, query_eq_ok, ensure_eq_ok] at ran
    obtain ⟨_, _, ⟨-, rfl⟩, -, rfl⟩ := ran
    rfl

section Enqueue

variable [Digest] {recorded : List TokenOutcome}

variable {item : TokenWorkItem} {runId leaseOwner : String} {lease : Int} {values : ReadyValues}
  {token : CoordinationToken} {source : SourceIngestSpec}

/-- What is claimed right after an enqueue is the enqueued row, and it is the one
that is returned. -/
theorem claimEnqueuedOn_ok {fence : ClaimFence} {row : TokenWorkItem}
    {birth : TokenWorkItem → Prop}
    (ran : claimEnqueuedOn env fence row runId leaseOwner lease conn = .ok (item, conn')) :
    Advances recorded (.claiming birth .ready runId leaseOwner (some item)) conn.db conn'.db := by
  rcases ite_eq_ok.mp ran with ⟨-, inner⟩ | ⟨-, same⟩
  · obtain ⟨claimed, _, claim, returned⟩ := bind_eq_ok.mp inner
    obtain ⟨rfl, rfl⟩ := pure_eq_ok.mp returned
    cases (claimReadyRow_ok claim).1 with
    | missed same =>
      rw [same]
      exact refl _
    | taken old databaseNow claims => exact claims.advances
  · obtain ⟨-, rfl⟩ := pure_eq_ok.mp same
    exact refl _

theorem enqueueReadyClaimedOn_ok {workerId : Option String}
    (ran : enqueueReadyClaimedOn env runId values leaseOwner lease workerId conn =
      .ok (item, conn')) :
    Advances recorded
      (.claiming (readyBirth [values.identity runId]) .ready runId leaseOwner (some item))
      conn.db conn'.db := by
  simp only [enqueueReadyClaimedOn, bind_eq_ok, readLandscapeTransactionTime_eq_ok] at ran
  obtain ⟨_, _, ⟨rfl, rfl⟩, _, _, active, row, middle, enqueue, claim⟩ := ran
  have same := requireActiveWorker_ok active
  subst same
  refine trans ((enqueueOn_ok enqueue).1.mono ?_) (claimEnqueuedOn_ok claim)
  exact ⟨fun _ born => born, fun _ _ never => never.elim, fun _ never => never⟩

theorem enqueueReadyOn_ok (ran : enqueueReadyOn env runId values conn = .ok (item, conn')) :
    Advances recorded (.births (readyBirth [values.identity runId])) conn.db conn'.db := by
  simp only [enqueueReadyOn, bind_eq_ok, readLandscapeTransactionTime_eq_ok] at ran
  obtain ⟨_, _, ⟨rfl, rfl⟩, enqueue⟩ := ran
  exact (enqueueOn_ok enqueue).1

/-! ## Ingest -/

omit [Digest] in
theorem respects_orGenerated {identifier : String} :
    Txn.Respects (OnDb Quiet) (orGenerated env identifier) :=
  .ite (fun _ => respects_generateId) fun _ => .pure

omit [Digest] in
theorem respects_insertRowWithTokenOn :
    Txn.Respects (OnDb Quiet) (insertRowWithTokenOn env token source) := by
  unfold insertRowWithTokenOn
  refine .bind (respects_quiet respects_verifyAndExtendLeaderFence) fun _ => ?_
  refine .bind respects_orGenerated fun _ => .bind respects_orGenerated fun _ => ?_
  refine .bind .query fun _ => .bind .ensure fun _ => ?_
  refine .bind (insert_respects fun table session _ => ?_) fun _ => ?_
  · exact ⟨⟨rfl, forall₂_serves_refl _, prefix_rfl⟩, rfl, rfl⟩
  refine .bind (insert_respects fun table session _ => ?_) fun _ => .ensure
  exact ⟨⟨rfl, forall₂_serves_refl _, prefix_rfl⟩, rfl, rfl⟩

/-- The audit record of a source row does not touch the journal, so an ingest
advances it as its last part does. -/
theorem advances_of_ingest {α : Type} {sourceState : BystanderWrite} {enqueue : Transaction α}
    {value : α} {scope : Scope} (last : ∀ {opened : Conn}, enqueue opened = .ok (value, conn') →
      Advances recorded scope opened.db conn'.db)
    (ran : (do insertRowWithTokenOn env token source; sourceState.run env; enqueue) conn =
      .ok (value, conn')) : Advances recorded scope conn.db conn'.db := by
  obtain ⟨_, inserted, insert, inner⟩ := bind_eq_ok.mp ran
  obtain ⟨_, written, write, rest⟩ := bind_eq_ok.mp inner
  have before : Quiet conn.db written.db :=
    (respects_insertRowWithTokenOn insert).trans (sourceState.respects env write).toQuiet
  exact (of_quiet before).trans (last rest)

end Enqueue

/-! ## Renewals -/

/-- A renewal moved the deadline of a held lease, or changed no row and noted at
most one lost lease. -/
inductive RenewalOutcome (workItemId runId leaseOwner : String) (lease : Int)
    (before after : Db) : Option Time → Prop where
  | renewed (old : TokenWorkItem) (databaseNow : Time)
      (table : Table TokenWorkItem Violation tokenWorkItemConstraints)
      (stored : old ∈ before.tokenWorkItems.rows)
      (held : heldLease workItemId runId leaseOwner old = true)
      (rows : table.rows = replaceRow TokenWorkItem.workItemId old
        { old with leaseExpiresAt := some (databaseNow + lease), updatedAt := databaseNow }
        before.tokenWorkItems.rows)
      (written : after = before.withJournal table before.schedulerEvents) :
      RenewalOutcome workItemId runId leaseOwner lease before after (some (databaseNow + lease))
  | lost (notes : List SchedulerEvent)
      (missed : ∀ row ∈ before.tokenWorkItems.rows,
        heldLease workItemId runId leaseOwner row = false)
      (atMostOne : notes.length ≤ 1) (noted : ∀ note ∈ notes, note.eventType = .leaseLost)
      (written : after = before.withJournal before.tokenWorkItems
        (before.schedulerEvents ++ notes)) :
      RenewalOutcome workItemId runId leaseOwner lease before after none

section Renewals

variable [Digest]

theorem lostLeaseEvents_spec (runId workItemId leaseOwner : String) (databaseNow : Time)
    (rows : List TokenWorkItem) (events : List SchedulerEvent) :
    (lostLeaseEvents runId workItemId leaseOwner databaseNow rows events).length ≤ 1 ∧
      ∀ note ∈ lostLeaseEvents runId workItemId leaseOwner databaseNow rows events,
        note.eventType = .leaseLost := by
  unfold lostLeaseEvents
  split
  · simp [leaseLostEvent]
  · cases recoveryEventForPreviousWorkItem runId workItemId events with
    | none => simp
    | some => simp [leaseRecoveredEvent]

variable {runId workItemId leaseOwner : String} {lease : Int} {renewed : Option Time}

theorem heartbeatLeaseOn_ok (ran : heartbeatLeaseOn env runId workItemId leaseOwner lease conn =
      .ok (renewed, conn')) :
    RenewalOutcome workItemId runId leaseOwner lease conn.db conn'.db renewed := by
  simp only [heartbeatLeaseOn, bind_eq_ok, readLandscapeDecisionTime_eq_ok,
    ite_eq_ok, recordIssuedDeadline_eq_ok, pure_eq_ok, query_eq_ok, recordEvents,
    alter_eq_ok] at ran
  obtain ⟨databaseNow, _, ⟨-, rfl⟩, count, middle, update, outcome⟩ := ran
  have keyed : ∀ row, heldLease workItemId runId leaseOwner row = true →
      row.workItemId = workItemId := by
    intro row held
    simp only [heldLease, Bool.and_eq_true, decide_eq_true_eq] at held
    exact held.1.1.1
  rcases update_keyed unique_workItemId keyed update with
    ⟨rfl, rfl, missed⟩ | ⟨rfl, old, stored, held, -, table, tableRows, rfl⟩
  · rcases outcome with ⟨impossible, -⟩ | ⟨-, rows, _, ⟨-, rfl⟩, events, _, ⟨-, rfl⟩, _, _, rfl,
      rfl, rfl⟩
    · omega
    · obtain ⟨atMostOne, noted⟩ := lostLeaseEvents_spec runId workItemId leaseOwner databaseNow
        rows events
      exact .lost _ missed atMostOne noted rfl
  · rcases outcome with ⟨-, _, _, ⟨-, rfl⟩, rfl, rfl⟩ | ⟨impossible, -⟩
    · exact .renewed old databaseNow table stored held tableRows rfl
    · exact absurd rfl impossible

theorem RenewalOutcome.advances {recorded : List TokenOutcome} {before after : Db}
    (outcome : RenewalOutcome workItemId runId leaseOwner lease before after renewed) :
    Advances recorded (.renewing workItemId runId leaseOwner) before after := by
  cases outcome with
  | renewed old databaseNow table stored held rows written =>
    rw [written, ← append_nil before.schedulerEvents]
    have leased : old.status = .leased := by
      simp only [heldLease, Bool.and_eq_true, decide_eq_true_eq] at held
      exact held.1.2
    exact advances_of_action (.renew (databaseNow + lease) databaseNow) none stored
      ⟨⟨_, _, rfl⟩, held⟩ leased rfl (Or.inl rfl) rows
  | lost notes missed atMostOne noted written =>
    rw [written]
    refine advances_withJournal ?_
    cases notes with
    | nil =>
      rw [append_nil]
      exact Course.refl _
    | cons note rest =>
      have single : rest = [] := by
        rw [length_cons] at atMostOne
        exact length_eq_zero_iff.mp (by omega)
      subst single
      exact Course.single (.note ⟨noted note mem_cons_self, trivial⟩)

end Renewals

end Elspeth
