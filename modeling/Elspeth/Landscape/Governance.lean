import Elspeth.Landscape.Fences
import Elspeth.Relational.Edit

/-!
# What a coordination verb does to seats and registry

`Governs before issued after` lists everything one call can do to who holds
which seat and who is registered, and the token it hands out.  There are six
kinds of steps: nothing, minting a seat, taking a seat over, vacating it,
enlisting a follower, and evicting one.  Each verb is shown to be one of them,
and every whole-run statement about seats and membership is derived from the
six cases alone.
-/

namespace Elspeth

open Relational Txn Slot RunCoordination List

/-! ## Registry changes -/

/-- A worker evolves; it is evicted only if it was, or was doomed. -/
def RunWorker.Spared (doomed : RunWorker → Prop) (old new : RunWorker) : Prop :=
  old.Evolves new ∧ (new.status = .evicted → old.status = .evicted ∨ doomed old)

/-- The identity a worker is registered under. -/
def RunWorker.identity (worker : RunWorker) : String × String × WorkerRole :=
  (worker.workerId, worker.runId, worker.role)

/-- The registered workers live on, except that the doomed ones may be evicted,
and the hired ones are appended. -/
def Staffs (doomed : RunWorker → Prop) (hired : List (String × String × WorkerRole))
    (before after : List RunWorker) : Prop :=
  ∃ kept added, after = kept ++ added ∧ Forall₂ (RunWorker.Spared doomed) before kept ∧
    added.map RunWorker.identity = hired ∧ ∀ worker ∈ added, worker.status ≠ .evicted

/-- Nobody is doomed. -/
def nobody : RunWorker → Prop := fun _ => False

theorem Staffs.of_serves {before after : List RunWorker}
    (serves : Forall₂ RunWorker.Serves before after) : Staffs nobody [] before after :=
  ⟨after, [], (append_nil after).symm,
    serves.imp fun _ _ serve => ⟨serve.toEvolves, fun evicted => Or.inl (serve.evicted evicted)⟩,
    rfl, by simp⟩

theorem Staffs.of_hire {before : List RunWorker} {worker : RunWorker}
    (active : worker.status = .active) :
    Staffs nobody [worker.identity] before (before ++ [worker]) :=
  ⟨before, [worker], rfl,
    forall₂_same.mpr fun old _ => ⟨.refl old, fun evicted => Or.inl evicted⟩, rfl,
    by simp [active]⟩

/-- Whatever happened first, later service and hiring evict nobody more. -/
theorem Staffs.serve {doomed : RunWorker → Prop}
    {hired more : List (String × String × WorkerRole)} {first second third : List RunWorker}
    (left : Staffs doomed hired first second) (right : Staffs nobody more second third) :
    Staffs doomed (hired ++ more) first third := by
  obtain ⟨kept, added, rfl, keptSpared, addedHired, addedLive⟩ := left
  obtain ⟨rows, fresh, rfl, rowsSpared, freshHired, freshLive⟩ := right
  obtain ⟨front, back, rfl, frontSpared, backSpared⟩ := forall₂_append_left rowsSpared
  have sameIdentity : ∀ old new : RunWorker, old.Spared nobody new →
      new.identity = old.identity := by
    intro old new spared
    unfold RunWorker.identity
    rw [spared.1.workerId, spared.1.runId, spared.1.role]
  refine ⟨front, back ++ fresh, append_assoc _ _ _, ?_, ?_, ?_⟩
  · refine forall₂_comp (fun old middle new first second => ?_) keptSpared frontSpared
    refine ⟨first.1.trans second.1, fun evicted => ?_⟩
    rcases second.2 evicted with already | never
    · exact first.2 already
    · exact never.elim
  · rw [map_append, map_eq_of_forall₂ sameIdentity backSpared, addedHired, freshHired]
  · intro worker member
    rcases mem_append.mp member with inBack | inFresh
    · obtain ⟨old, oldMem, spared⟩ := mem_of_forall₂_right backSpared inBack
      intro evicted
      rcases spared.2 evicted with already | never
      · exact addedLive old oldMem already
      · exact never
    · exact freshLive worker inFresh

/-! ## One step -/

/-- The seat's previous holder, whom a takeover evicts. -/
def deposed (seat : SeatHolding) (worker : RunWorker) : Prop :=
  seat.leaderWorkerId = some worker.workerId

/-- What `evict_worker` has checked of its target when it evicts. -/
structure Evictable (token : CoordinationToken) (targetWorkerId : String) (grace : Int)
    (databaseNow : Time) (items : List TokenWorkItem) (worker : RunWorker) : Prop where
  target : evictionTarget token targetWorkerId worker = true
  active : worker.status = .active
  expired : worker.heartbeatExpiresAt < databaseNow - grace
  idle : ∀ item ∈ items, holdsLiveLease token.runId targetWorkerId databaseNow item = false

/-- What one call does to seats and registry, with the token it issues. -/
inductive Governs : Db → Option CoordinationToken → Db → Prop where
  /-- Seats keep their holders; at most followers are enlisted. -/
  | keep {before after : Db} (hired : List (String × String × WorkerRole))
      (followers : ∀ identity ∈ hired, identity.2.2 = .follower)
      (seats : after.holdings = before.holdings)
      (workers : Staffs nobody hired before.runWorkers.rows after.runWorkers.rows) :
      Governs before none after
  /-- The first seat of a run, at epoch one. -/
  | mint {before after : Db} (runId workerId : String)
      (absent : ∀ seat ∈ before.holdings, seat.runId ≠ runId)
      (seats : after.holdings = before.holdings ++ [⟨runId, some workerId, 1⟩])
      (workers : Staffs nobody [(workerId, runId, .leader)] before.runWorkers.rows
        after.runWorkers.rows) :
      Governs before (some ⟨runId, workerId, 1⟩) after
  /-- A takeover bumps the epoch and evicts the previous holder. -/
  | take {before after : Db} (workerId : String) (seat : SeatHolding)
      (present : seat ∈ before.holdings)
      (seats : after.holdings = replaceRow SeatHolding.runId seat
        ⟨seat.runId, some workerId, seat.leaderEpoch + 1⟩ before.holdings)
      (workers : Staffs (deposed seat) [(workerId, seat.runId, .leader)]
        before.runWorkers.rows after.runWorkers.rows) :
      Governs before (some ⟨seat.runId, workerId, seat.leaderEpoch + 1⟩) after
  /-- The holder vacates the seat. -/
  | vacate {before after : Db} (seat : SeatHolding) (present : seat ∈ before.holdings)
      (seats : after.holdings = replaceRow SeatHolding.runId seat
        ⟨seat.runId, none, seat.leaderEpoch⟩ before.holdings)
      (workers : Staffs nobody [] before.runWorkers.rows after.runWorkers.rows) :
      Governs before none after
  /-- The holder evicts a follower. -/
  | evict {before after : Db} (token : CoordinationToken) (targetWorkerId : String)
      (grace : Int) (databaseNow : Time) (held : before.Holds token)
      (seats : after.holdings = before.holdings)
      (workers : Staffs
        (Evictable token targetWorkerId grace databaseNow before.tokenWorkItems.rows) []
        before.runWorkers.rows after.runWorkers.rows) :
      Governs before none after

variable {after middle db db' : Db} {issued : Option CoordinationToken} {token : CoordinationToken}
  {runId workerId entryPoint reason configHash : String} {role : WorkerRole} {window : Int}
  {databaseNow : Time} {value : Unit} {seat : RunCoordination} {status : Option RunStatus}

theorem Governs.of_steady {before : Db} (steady : Steady before after) :
    Governs before none after :=
  .keep [] (by simp) steady.seats (.of_serves steady.workers)

/-- A step followed by service is the same step. -/
theorem Governs.quiet {before : Db} (step : Governs before issued middle)
    (quiet : Quiet middle after) : Governs before issued after := by
  have serve : ∀ {doomed hired}, Staffs doomed hired before.runWorkers.rows
      middle.runWorkers.rows → Staffs doomed hired before.runWorkers.rows
        after.runWorkers.rows := by
    intro doomed hired staffs
    have served := staffs.serve (.of_serves quiet.workers)
    rwa [append_nil] at served
  have seats := quiet.seats
  cases step with
  | keep hired followers same workers =>
    exact .keep hired followers (seats.trans same) (serve workers)
  | mint runId workerId absent same workers =>
    exact .mint runId workerId absent (seats.trans same) (serve workers)
  | take workerId seat present same workers =>
    exact .take workerId seat present (seats.trans same) (serve workers)
  | vacate seat present same workers =>
    exact .vacate seat present (seats.trans same) (serve workers)
  | evict token target grace now held same workers =>
    exact .evict token target grace now held (seats.trans same) (serve workers)

/-- A step after a renewal of deadlines is the same step. -/
theorem Governs.renewed {before : Db} (renewed : Renewed before middle)
    (step : Governs middle issued after) : Governs before issued after := by
  have same : middle.holdings = before.holdings := renewed.quiet.seats
  obtain ⟨table, -, rfl⟩ := renewed
  cases step with
  | keep hired followers seats workers =>
    exact .keep hired followers (seats.trans same) workers
  | mint runId workerId absent seats workers =>
    rw [same] at absent seats
    exact .mint runId workerId absent seats workers
  | take workerId seat present seats workers =>
    rw [same] at present seats
    exact .take workerId seat present seats workers
  | vacate seat present seats workers =>
    rw [same] at present seats
    exact .vacate seat present seats workers
  | evict token target grace now held seats workers =>
    have held' : before.Holds token := Db.holds_iff.mpr (same ▸ Db.holds_iff.mp held)
    exact .evict token target grace now held' (seats.trans same) workers

/-- The step of a leader-fenced body is the step of its transaction. -/
theorem LeaderRun.governs {α : Type} {body : Transaction α} {value : α}
    (run : LeaderRun token body value db db')
    (step : ∀ opened closed : Conn, body opened = .ok (value, closed) →
      opened.db.Holds token → Governs opened.db issued closed.db) : Governs db issued db' := by
  obtain ⟨opened, closed, -, start, inner, finish⟩ := run.ran
  have held : opened.db.Holds token :=
    Db.holds_iff.mpr (start.quiet.seats ▸ Db.holds_iff.mp run.held)
  exact ((step opened closed inner held).quiet finish.quiet).renewed start

/-! ## Pieces of the verbs -/

variable {env : CallEnv} {conn conn' : Conn}

theorem holdings_replaceRow (old new : RunCoordination) (rows : List RunCoordination) :
    (replaceRow RunCoordination.runId old new rows).map RunCoordination.holding =
      replaceRow SeatHolding.runId old.holding new.holding
        (rows.map holding) := by
  refine map_replaceRow_of_key holding SeatHolding.runId ?_ old new rows
  exact fun row => rfl

theorem insertWorkerRow_ok
    (ran : insertWorkerRow env runId workerId role window entryPoint databaseNow conn =
      .ok (value, conn')) :
    conn'.db.holdings = conn.db.holdings ∧
      Staffs nobody [(workerId, runId, role)] conn.db.runWorkers.rows
        conn'.db.runWorkers.rows := by
  simp only [insertWorkerRow, bind_eq_ok, query_eq_ok, ensure_eq_ok,
    insert_eq_ok, recordIssuedDeadline_eq_ok] at ran
  obtain ⟨_, _, ⟨rfl, rfl⟩, _, _, ⟨-, rfl⟩, _, _, ⟨table, tableRows, rfl⟩, -, rfl⟩ := ran
  refine ⟨rfl, ?_⟩
  change Staffs _ _ _ table.rows
  rw [tableRows]
  exact Staffs.of_hire rfl

theorem respects_finalizeLeaderRegistrationOn :
    Txn.Respects (OnDb Quiet) (finalizeLeaderRegistrationOn env token window) := by
  refine .bind respects_decisionTime fun databaseNow => .bind ?_ fun _ => .bind .ensure fun _ =>
    .bind ?_ fun _ => .bind .ensure fun _ => .bind respects_recordIssuedDeadline fun _ =>
      respects_recordIssuedDeadline
  · exact respects_quiet (respects_seatsUpdate fun seat => rfl)
  · exact respects_workersUpdate fun worker _ => .renewed worker _

theorem respects_recordLeaderAcquired [Digest] {acquired : Context} :
    Txn.Respects (OnDb Quiet) (recordLeaderAcquired token databaseNow entryPoint acquired) :=
  .bind respects_recordCoordinationEvent fun _ => respects_recordCoordinationEvent

/-- The seat a read found is the run's seat row. -/
theorem readSeatOn_ok (ran : readSeatOn runId conn = .ok (seat, conn')) :
    conn' = conn ∧ seat ∈ conn.db.runCoordination.rows ∧ seat.runId = runId := by
  simp only [readSeatOn, bind_eq_ok, select_eq_ok] at ran
  obtain ⟨found, _, ⟨foundRows, rfl⟩, inner⟩ := ran
  cases found with
  | nil => simp at inner
  | cons first rest =>
    obtain ⟨rfl, rfl⟩ := pure_eq_ok.mp inner
    have member : seat ∈ seatsSlot.rows conn' ∧ seat.runId = runId := by
      have := foundRows ▸ mem_cons_self (a := seat) (l := rest)
      simpa using this
    exact ⟨rfl, member⟩

/-- The seat compare-and-swap: the epoch goes up by one. -/
theorem claimSeatOn_ok (stored : seat ∈ conn.db.runCoordination.rows)
    (sameRun : seat.runId = runId)
    (ran : claimSeatOn env runId workerId window databaseNow seat conn = .ok (token, conn')) :
    token = ⟨runId, workerId, seat.leaderEpoch + 1⟩ ∧
      conn'.db.holdings = replaceRow SeatHolding.runId seat.holding
        ⟨runId, some workerId, seat.leaderEpoch + 1⟩ conn.db.holdings ∧
      conn'.db.runWorkers = conn.db.runWorkers := by
  simp only [claimSeatOn, bind_eq_ok, ensure_eq_ok, recordIssuedDeadline_eq_ok,
    pure_eq_ok] at ran
  obtain ⟨swapped, _, swap, _, _, ⟨one, rfl⟩, _, _, ⟨-, rfl⟩, rfl, rfl⟩ := ran
  have keyed : ∀ row : RunCoordination, seatAdmitsTakeover runId databaseNow row = true →
      row.runId = runId := by
    intro row admits
    simp only [seatAdmitsTakeover, Bool.and_eq_true, decide_eq_true_eq] at admits
    exact admits.1
  rcases update_keyed unique_runId keyed swap with
    ⟨none, -⟩ | ⟨-, old, oldMem, hit, -, table, tableRows, rfl⟩
  · omega
  · have same : old = seat :=
      (unique_runId _).eq_of_key oldMem stored ((keyed old hit).trans sameRun.symm)
    subst same
    refine ⟨rfl, ?_, rfl⟩
    change table.rows.map holding = _
    rw [tableRows, holdings_replaceRow, ← sameRun]
    rfl

/-- The previous holder is evicted by identity, nobody else. -/
theorem evictDeposedLeaderOn_ok [Digest] {prior : Option String}
    (ran : evictDeposedLeaderOn token prior databaseNow reason conn = .ok (value, conn')) :
    conn'.db.holdings = conn.db.holdings ∧
      Staffs (fun worker => prior = some worker.workerId) [] conn.db.runWorkers.rows
        conn'.db.runWorkers.rows := by
  have unchanged : ∀ workers : List RunWorker,
      Staffs (fun worker => prior = some worker.workerId) [] workers workers := fun workers =>
    ⟨workers, [], (append_nil _).symm,
      forall₂_same.mpr fun old _ => ⟨.refl old, fun evicted => Or.inl evicted⟩, rfl, by simp⟩
  cases prior with
  | none =>
    obtain ⟨-, rfl⟩ := pure_eq_ok.mp ran
    exact ⟨rfl, unchanged _⟩
  | some =>
    simp only [evictDeposedLeaderOn, ite_eq_ok, pure_eq_ok, bind_eq_ok] at ran
    rcases ran with ⟨-, -, rfl⟩ | ⟨-, evicted, middle, statement, rest⟩
    · exact ⟨rfl, unchanged _⟩
    · have frame : conn'.db.holdings = middle.db.holdings ∧
          conn'.db.runWorkers = middle.db.runWorkers := by
        rcases rest with ⟨-, event⟩ | ⟨-, -, rfl⟩
        · obtain ⟨table, -, same⟩ := recordCoordinationEvent_ok event
          rw [same]
          exact ⟨rfl, rfl⟩
        · exact ⟨rfl, rfl⟩
      rw [frame.1, frame.2]
      obtain ⟨-, table, tableRows, rfl⟩ := update_eq_ok.mp statement
      refine ⟨rfl, table.rows, [], (append_nil _).symm, ?_, rfl, by simp⟩
      rw [tableRows]
      refine forall₂_updateRows (fun worker _ _ => ⟨.refl worker, fun already => Or.inl already⟩)
        fun worker _ hit => ?_
      simp only [Bool.and_eq_true, decide_eq_true_eq] at hit
      refine ⟨⟨rfl, rfl, rfl, fun inactive => absurd hit.2 inactive⟩, fun _ => Or.inr ?_⟩
      exact congrArg some hit.1.symm

/-! ## The verbs -/

theorem registerRunLeaderOn_ok [Digest]
    (ran : registerRunLeaderOn env runId workerId window entryPoint conn = .ok (token, conn')) :
    token = ⟨runId, workerId, 1⟩ ∧ (∀ seat ∈ conn.db.holdings, seat.runId ≠ runId) ∧
      conn'.db.holdings = conn.db.holdings ++ [⟨runId, some workerId, 1⟩] ∧
      Staffs nobody [(workerId, runId, .leader)] conn.db.runWorkers.rows
        conn'.db.runWorkers.rows := by
  simp only [registerRunLeaderOn, bind_eq_ok, readLandscapeDecisionTime_eq_ok,
    query_eq_ok, ensure_eq_ok, insert_eq_ok, recordIssuedDeadline_eq_ok,
    pure_eq_ok] at ran
  obtain ⟨_, _, ⟨rfl, rfl⟩, _, _, ⟨rfl, rfl⟩, _, _, ⟨-, rfl⟩, _, _, ⟨table, tableRows, rfl⟩,
    _, _, ⟨-, rfl⟩, _, hired, hire, _, acquired, record, rfl, rfl⟩ := ran
  obtain ⟨hireSeats, hireWorkers⟩ := insertWorkerRow_ok hire
  have recorded := respects_recordLeaderAcquired record
  have absent : ∀ seat ∈ conn.db.holdings, seat.runId ≠ runId := by
    have unique := unique_runId table
    rw [tableRows] at unique
    obtain ⟨-, -, apart⟩ := unique_append.mp unique
    intro seat seatMem
    obtain ⟨row, rowMem, rfl⟩ := mem_map.mp seatMem
    exact apart row rowMem _ (mem_singleton.mpr rfl)
  refine ⟨rfl, absent, ?_, ?_⟩
  · rw [recorded.seats, hireSeats]
    change table.rows.map holding = _
    rw [tableRows, map_append]
    rfl
  · exact hireWorkers.serve (.of_serves recorded.workers)

/-- The common course of the three acquisitions. -/
theorem governs_of_takeover [Digest] {claimed flipped evicted hired : Conn}
    (claim : claimSeatOn env runId workerId window databaseNow seat conn = .ok (token, claimed))
    (evict : evictDeposedLeaderOn token seat.leaderWorkerId databaseNow reason flipped =
      .ok ((), evicted))
    (hire : insertWorkerRow env runId workerId .leader window entryPoint databaseNow evicted =
      .ok ((), hired)) (stored : seat ∈ conn.db.runCoordination.rows)
    (sameRun : seat.runId = runId) (flip : flipped.db.holdings = claimed.db.holdings ∧
      flipped.db.runWorkers = claimed.db.runWorkers) (quiet : Quiet hired.db after) :
    Governs conn.db (some token) after := by
  obtain ⟨rfl, claimSeats, claimWorkers⟩ := claimSeatOn_ok stored sameRun claim
  obtain ⟨evictSeats, evictWorkers⟩ := evictDeposedLeaderOn_ok evict
  obtain ⟨hireSeats, hireWorkers⟩ := insertWorkerRow_ok hire
  subst sameRun
  refine Governs.quiet (.take workerId seat.holding (mem_map_of_mem stored) ?_ ?_) quiet
  · rw [hireSeats, evictSeats, flip.1, claimSeats]
    rfl
  · rw [flip.2, claimWorkers] at evictWorkers
    exact evictWorkers.serve hireWorkers

theorem readRunStatusOn_ok (ran : readRunStatusOn runId conn = .ok (status, conn')) :
    conn' = conn := by
  obtain ⟨_, _, ⟨-, rfl⟩, -, rfl⟩ := ran
  rfl

theorem refuseImmutableSuccess_ok
    (ran : refuseImmutableSuccess runId status conn = .ok (value, conn')) : conn' = conn := by
  cases status with
  | none => exact (pure_eq_ok.mp ran).2
  | some => exact (ensure_eq_ok.mp ran).2

theorem acquireRunLeadershipOn_ok [Digest]
    (ran : acquireRunLeadershipOn env runId workerId window entryPoint conn =
      .ok (token, conn')) : Governs conn.db (some token) conn'.db := by
  simp only [acquireRunLeadershipOn, bind_eq_ok, readLandscapeDecisionTime_eq_ok,
    update_eq_ok, pure_eq_ok] at ran
  obtain ⟨seat, _, read, _, _, ⟨rfl, rfl⟩, _, _, status, _, _, refuse, _, claimed, claim, _, _,
    ⟨-, table, -, rfl⟩, _, evicted, evict, _, hired, hire, _, recorded, record, rfl, rfl⟩ := ran
  obtain ⟨rfl, stored, sameRun⟩ := readSeatOn_ok read
  have statusSame := readRunStatusOn_ok status
  have refuseSame := refuseImmutableSuccess_ok refuse
  subst statusSame refuseSame
  have takeover := governs_of_takeover claim evict hire stored sameRun ⟨rfl, rfl⟩
    (respects_recordLeaderAcquired record)
  exact takeover

theorem acquireTerminalLeadershipOn_ok [Digest] {purpose : TerminalPurpose}
    {expectedStatus : Option RunStatus}
    (ran : acquireTerminalLeadershipOn env runId workerId window purpose expectedStatus conn =
      .ok (token, conn')) : Governs conn.db (some token) conn'.db := by
  simp only [acquireTerminalLeadershipOn, bind_eq_ok, readLandscapeDecisionTime_eq_ok,
    ensure_eq_ok, pure_eq_ok] at ran
  obtain ⟨seat, _, read, _, _, ⟨rfl, rfl⟩, _, _, status, _, _, ⟨-, rfl⟩, _, _, ⟨-, rfl⟩, _, _,
    ⟨-, rfl⟩, _, claimed, claim, _, evicted, evict, _, hired, hire, _, recorded, record, rfl,
    rfl⟩ := ran
  obtain ⟨rfl, stored, sameRun⟩ := readSeatOn_ok read
  have statusSame := readRunStatusOn_ok status
  subst statusSame
  have takeover := governs_of_takeover claim evict hire stored sameRun ⟨rfl, rfl⟩
    (respects_recordLeaderAcquired record)
  exact takeover

/-- An acquisition body followed by the finalization of the registration. -/
theorem acquired_governs {body : Transaction CoordinationToken}
    (governs : ∀ {conn conn' token}, body conn = .ok (token, conn') →
      Governs conn.db (some token) conn'.db) (ran : beginWrite env (do
      let token ← body
      finalizeLeaderRegistrationOn env token window
      pure token) db = (.ok token, db')) : Governs db (some token) db' := by
  obtain ⟨conn, returned, rfl⟩ := beginWrite_ok ran
  simp only [bind_eq_ok, pure_eq_ok] at returned
  obtain ⟨_, _, acquire, _, _, finalize, rfl, rfl⟩ := returned
  exact (governs acquire).quiet (respects_finalizeLeaderRegistrationOn finalize)

theorem beginRun_ok [Digest] {status : RunStatus}
    (ran : beginRun env runId configHash status workerId db = (.ok token, db')) :
    Governs db (some token) db' := by
  obtain ⟨conn, returned, rfl⟩ := beginWrite_ok ran
  simp only [bind_eq_ok, insert_eq_ok, pure_eq_ok] at returned
  obtain ⟨_, _, ⟨table, -, rfl⟩, _, _, register, _, _, finalize, rfl, rfl⟩ := returned
  obtain ⟨rfl, absent, seats, workers⟩ := registerRunLeaderOn_ok register
  exact Governs.quiet (.mint runId workerId absent seats workers)
    (respects_finalizeLeaderRegistrationOn finalize)

theorem releaseSeatOn_ok [Digest] (ran : releaseSeatOn env token conn = .ok (value, conn')) :
    Governs conn.db none conn'.db := by
  simp only [releaseSeatOn, bind_eq_ok, readLandscapeDecisionTime_eq_ok, ensure_eq_ok,
    forgetIssuedDeadline, alter_eq_ok] at ran
  obtain ⟨_, _, ⟨rfl, rfl⟩, released, _, vacate, _, _, ⟨one, rfl⟩, _, _, rfl, _, departed, depart,
    _, _, ⟨-, rfl⟩, record⟩ := ran
  have keyed : ∀ seat : RunCoordination, token.holds seat = true → seat.runId = token.runId := by
    intro seat holds
    simp only [CoordinationToken.holds, Bool.and_eq_true, decide_eq_true_eq] at holds
    exact holds.1.1
  rcases update_keyed unique_runId keyed vacate with
    ⟨none, -⟩ | ⟨-, old, oldMem, -, -, table, tableRows, rfl⟩
  · omega
  · have departs := respects_workersUpdate
      (fun worker active => .departed (WorkerMembershipToken.active_iff.mp active).2.2 _) depart
    refine Governs.quiet ?_ (recordCoordinationEvent_ok record).quiet
    refine Governs.vacate old.holding (mem_map_of_mem oldMem) ?_ (.of_serves departs.workers)
    refine departs.seats.trans ?_
    change table.rows.map holding = _
    rw [tableRows, holdings_replaceRow]
    rfl

theorem respects_verifyMembershipFence {token : WorkerMembershipToken} {verb : String} :
    Txn.Respects (OnDb Quiet) (verifyMembershipFence token verb) := by
  intro conn value conn' ran
  rw [(verifyMembershipFence_ok ran).2]
  exact Quiet.refl conn.db

theorem respects_readSeatOn : Txn.Respects (OnDb Quiet) (readSeatOn runId) := by
  intro conn seat conn' ran
  rw [(readSeatOn_ok ran).1]
  exact Quiet.refl conn.db

theorem respects_beatSeatOn {token : WorkerMembershipToken} :
    Txn.Respects (OnDb Quiet) (beatSeatOn token role databaseNow window) := by
  refine .ite (fun _ => .bind ?_ fun _ => .pure) fun _ => .pure
  exact respects_quiet (respects_seatsUpdate fun seat => rfl)

/-- A heartbeat moves deadlines only. -/
theorem respects_workerHeartbeatOn {token : WorkerMembershipToken} :
    Txn.Respects (OnDb Quiet) (workerHeartbeatOn env token window) := by
  refine .bind .query fun _ => .bind respects_verifyMembershipFence fun _ =>
    .bind .ensure fun _ => .bind .query fun workers => ?_
  cases workers with
  | nil => exact .raise
  | cons worker rest =>
    refine .bind respects_decisionTime fun _ => .bind ?_ fun _ =>
      .bind respects_recordIssuedDeadline fun _ => .bind respects_beatSeatOn fun renewed =>
        .bind respects_readSeatOn fun seat => .bind ?_ fun _ => .pure
    · exact respects_workersUpdate fun worker _ => .renewed worker _
    · exact .ite (fun _ => respects_recordIssuedDeadline) fun _ => .pure

theorem workerHeartbeat_quiet [Digest] (env : CallEnv) (token : WorkerMembershipToken)
    (window : Int) (db : Db) : Quiet db (workerHeartbeat env token window db).2 := by
  unfold workerHeartbeat
  split
  next snapshot db' ran =>
    obtain ⟨conn, returned, rfl⟩ := beginWrite_ok ran
    exact respects_workerHeartbeatOn returned
  next ran =>
    rw [beginWrite_error ran]
    exact (recordBestEffortEvent_noted env _ db).quiet
  next ran =>
    rw [beginWrite_error ran]
    exact Quiet.refl db

theorem respects_departWorkerOn [Digest] {token : WorkerMembershipToken} :
    Txn.Respects (OnDb Quiet) (departWorkerOn env token) := by
  refine .bind respects_decisionTime fun _ => .bind ?_ fun _ => .bind .ensure fun _ =>
    respects_recordCoordinationEvent
  exact respects_workersUpdate
    fun worker active => .departed (WorkerMembershipToken.active_iff.mp active).2.2 _

/-- A departing worker is the only one whose status changes. -/
theorem departWorker_quiet [Digest] (env : CallEnv) (token : WorkerMembershipToken) (db : Db) :
    Quiet db (departWorker env token db).2 := by
  have quiet : Quiet db (fencedMemberTransaction env token "depart_worker"
      (departWorkerOn env token) db).2 :=
    fencedMemberTransaction_respects (fun _ _ => id) respects_departWorkerOn env token _ db
  unfold departWorker
  split
  next refused =>
    rw [refused] at quiet
    exact quiet
  next => exact quiet

theorem checkAdmissionOn_ok
    (ran : checkAdmissionOn runId configHash databaseNow conn = .ok (value, conn')) :
    conn' = conn := by
  obtain ⟨runs, _, select, inner⟩ := bind_eq_ok.mp ran
  obtain ⟨-, rfl⟩ := select_eq_ok.mp select
  cases runs with
  | nil => exact (raise_eq_ok.mp inner).elim
  | cons =>
    simp only [bind_eq_ok, ensure_eq_ok, select_eq_ok] at inner
    obtain ⟨_, _, ⟨-, rfl⟩, _, _, ⟨-, rfl⟩, _, _, ⟨-, rfl⟩, -, rfl⟩ := inner
    rfl

theorem respects_finalizeFollowerAdmissionOn :
    Txn.Respects (OnDb Quiet) (finalizeFollowerAdmissionOn env runId workerId window) := by
  refine .bind respects_decisionTime fun _ => .bind .query fun _ => .bind .ensure fun _ =>
    .bind ?_ fun _ => .bind .ensure fun _ => respects_recordIssuedDeadline
  exact respects_workersUpdate fun worker _ => .renewed worker _

theorem admitFollower_ok [Digest] {member : WorkerMembershipToken}
    (ran : admitFollower env runId workerId configHash window db = (.ok member, db')) :
    Governs db none db' := by
  obtain ⟨conn, returned, rfl⟩ := beginWrite_ok ran
  simp only [bind_eq_ok, readLandscapeDecisionTime_eq_ok, pure_eq_ok] at returned
  obtain ⟨_, _, ⟨rfl, rfl⟩, _, _, check, _, _, hire, _, _, record, _, _, finalize, rfl, rfl⟩ :=
    returned
  have checked := checkAdmissionOn_ok check
  subst checked
  obtain ⟨seats, workers⟩ := insertWorkerRow_ok hire
  have rest := (recordCoordinationEvent_ok record).quiet.trans
    (respects_finalizeFollowerAdmissionOn finalize)
  exact Governs.quiet (.keep [(workerId, runId, .follower)] (by simp) seats workers) rest

/-- An eviction that reports success found an evictable worker; any other changes
nothing. -/
theorem evictWorkerOn_ok [Digest] {targetWorkerId : String} {grace : Int} {evicted : Bool}
    (held : conn.db.Holds token)
    (ran : evictWorkerOn env token targetWorkerId grace conn = .ok (evicted, conn')) :
    Governs conn.db none conn'.db ∧
      (evicted = true → ∃ worker ∈ conn.db.runWorkers.rows,
        Evictable token targetWorkerId grace (env.decisionTime conn.decisionReads)
          conn.db.tokenWorkItems.rows worker) := by
  have same : Governs conn.db none conn.db := .of_steady (Steady.refl _)
  simp only [evictWorkerOn, bind_eq_ok, select_eq_ok, ite_eq_ok, pure_eq_ok,
    readLandscapeDecisionTime_eq_ok, evictOn] at ran
  obtain ⟨_, conn, ⟨-, rfl⟩, ⟨-, rfl, rfl⟩ | ⟨-, databaseNow, _, ⟨rfl, rfl⟩, live, _, ⟨rfl, rfl⟩,
    ⟨idle, count, middle, update, outcome⟩ | ⟨-, rfl, rfl⟩⟩⟩ := ran
  · exact ⟨same, by simp⟩
  · obtain ⟨countEq, table, tableRows, rfl⟩ := update_eq_ok.mp update
    have idle' : ∀ item ∈ conn.db.tokenWorkItems.rows,
        holdsLiveLease token.runId targetWorkerId (env.decisionTime conn.decisionReads) item =
          false := by
      intro item itemMem
      have empty := isEmpty_iff.mp idle
      have missed := filter_eq_nil_iff.mp empty item itemMem
      simpa using missed
    have doomed : ∀ worker : RunWorker,
        (evictionTarget token targetWorkerId worker && worker.status = .active &&
          worker.heartbeatExpiresAt < env.decisionTime conn.decisionReads - grace) = true →
        Evictable token targetWorkerId grace (env.decisionTime conn.decisionReads)
          conn.db.tokenWorkItems.rows worker := by
      intro worker hit
      simp only [Bool.and_eq_true, decide_eq_true_eq] at hit
      exact ⟨hit.1.1, hit.1.2, hit.2, idle'⟩
    have step : Governs conn.db none (workersSlot.put table
        { conn with decisionReads := conn.decisionReads + 1 }).db := by
      refine .evict token targetWorkerId grace (env.decisionTime conn.decisionReads) held rfl
        ⟨table.rows, [], (append_nil _).symm, ?_, rfl, by simp⟩
      rw [tableRows]
      refine forall₂_updateRows
        (fun worker _ _ => ⟨.refl worker, fun already => Or.inl already⟩) fun worker _ hit => ?_
      exact ⟨⟨rfl, rfl, rfl, fun inactive => absurd (doomed worker hit).active inactive⟩,
        fun _ => Or.inr (doomed worker hit)⟩
    rcases outcome with ⟨one, _, _, record, rfl, rfl⟩ | ⟨-, rfl, rfl⟩
    · refine ⟨Governs.quiet step (recordCoordinationEvent_ok record).quiet, fun _ => ?_⟩
      have positive : 0 < (workersSlot.rows conn).countP _ := countEq ▸ one ▸ Nat.one_pos
      obtain ⟨worker, workerMem, hit⟩ := countP_pos_iff.mp positive
      exact ⟨worker, workerMem, doomed worker hit⟩
    · exact ⟨step, by simp⟩
  · exact ⟨same, by simp⟩

/-! ## Coordination leaves the journal alone -/

section Apart

theorem respects_apart {α : Type} {body : Transaction α}
    (quiet : Txn.Respects (OnDb Quiet) body) : Txn.Respects (OnDb Apart) body :=
  fun _ _ _ ran => (quiet ran).apart

variable {runId workerId entryPoint : String} {window : Int} {databaseNow : Time}
  {token : CoordinationToken}

theorem respects_insertWorkerRow {role : WorkerRole} :
    Txn.Respects (OnDb Apart)
      (insertWorkerRow env runId workerId role window entryPoint databaseNow) := by
  refine .bind .query fun _ => .bind .ensure fun _ => .bind ?_ fun _ =>
    respects_recordIssuedDeadline
  exact insert_respects fun _ _ _ => ⟨rfl, rfl, prefix_rfl⟩

theorem respects_claimSeatOn {seat : RunCoordination} :
    Txn.Respects (OnDb Apart) (claimSeatOn env runId workerId window databaseNow seat) := by
  refine .bind ?_ fun _ => .bind .ensure fun _ => .bind respects_recordIssuedDeadline fun _ =>
    .pure
  exact update_respects fun _ _ _ => ⟨rfl, rfl, prefix_rfl⟩

theorem respects_readRunStatusOn : Txn.Respects (OnDb Apart) (readRunStatusOn runId) :=
  .bind .query fun _ => .pure

theorem respects_refuseImmutableSuccess {status : Option RunStatus} :
    Txn.Respects (OnDb Apart) (refuseImmutableSuccess runId status) := by
  cases status with
  | none => exact .pure
  | some => exact .ensure

variable [Digest]

theorem respects_evictDeposedLeaderOn {prior : Option String} {reason : String} :
    Txn.Respects (OnDb Apart) (evictDeposedLeaderOn token prior databaseNow reason) := by
  cases prior with
  | none => exact .pure
  | some =>
    refine .ite (fun _ => .pure) fun _ => .bind ?_ fun _ =>
      .ite (fun _ => respects_apart respects_recordCoordinationEvent) fun _ => .pure
    exact update_respects fun _ _ _ => ⟨rfl, rfl, prefix_rfl⟩

theorem respects_registerRunLeaderOn :
    Txn.Respects (OnDb Apart) (registerRunLeaderOn env runId workerId window entryPoint) := by
  refine .bind respects_decisionTime fun _ => .bind .query fun _ => .bind .ensure fun _ =>
    .bind ?_ fun _ => .bind respects_recordIssuedDeadline fun _ =>
      .bind respects_insertWorkerRow fun _ =>
        .bind (respects_apart respects_recordLeaderAcquired) fun _ => .pure
  exact insert_respects fun _ _ _ => ⟨rfl, rfl, prefix_rfl⟩

theorem respects_acquireRunLeadershipOn :
    Txn.Respects (OnDb Apart)
      (acquireRunLeadershipOn env runId workerId window entryPoint) := by
  refine .bind (respects_apart respects_readSeatOn) fun _ => .bind respects_decisionTime fun _ =>
    .bind respects_readRunStatusOn fun _ => .bind respects_refuseImmutableSuccess fun _ =>
      .bind respects_claimSeatOn fun _ => .bind ?_ fun _ =>
        .bind respects_evictDeposedLeaderOn fun _ => .bind respects_insertWorkerRow fun _ =>
          .bind (respects_apart respects_recordLeaderAcquired) fun _ => .pure
  exact update_respects fun _ _ _ => ⟨rfl, rfl, prefix_rfl⟩

theorem respects_acquireTerminalLeadershipOn {purpose : TerminalPurpose}
    {expectedStatus : Option RunStatus} :
    Txn.Respects (OnDb Apart)
      (acquireTerminalLeadershipOn env runId workerId window purpose expectedStatus) := by
  exact .bind (respects_apart respects_readSeatOn) fun _ => .bind respects_decisionTime fun _ =>
    .bind respects_readRunStatusOn fun _ => .bind .ensure fun _ => .bind .ensure fun _ =>
      .bind .ensure fun _ => .bind respects_claimSeatOn fun _ =>
        .bind respects_evictDeposedLeaderOn fun _ => .bind respects_insertWorkerRow fun _ =>
          .bind (respects_apart respects_recordLeaderAcquired) fun _ => .pure

theorem respects_releaseSeatOn : Txn.Respects (OnDb Apart) (releaseSeatOn env token) := by
  refine .bind respects_decisionTime fun _ => .bind ?_ fun _ => .bind .ensure fun _ =>
    .bind respects_forgetIssuedDeadline fun _ => .bind ?_ fun _ => .bind .ensure fun _ =>
      respects_apart respects_recordCoordinationEvent
  · exact update_respects fun _ _ _ => ⟨rfl, rfl, prefix_rfl⟩
  · exact update_respects fun _ _ _ => ⟨rfl, rfl, prefix_rfl⟩

theorem respects_evictWorkerOn {targetWorkerId : String} {grace : Int} :
    Txn.Respects (OnDb Apart) (evictWorkerOn env token targetWorkerId grace) := by
  refine .bind .query fun _ => .ite (fun _ => .pure) fun _ => .bind respects_decisionTime fun _ =>
    .bind .query fun _ => .ite (fun _ => .bind ?_ fun _ => .ite (fun _ => ?_) fun _ => .pure)
      fun _ => .pure
  · exact update_respects fun _ _ _ => ⟨rfl, rfl, prefix_rfl⟩
  · exact .bind (respects_apart respects_recordCoordinationEvent) fun _ => .pure

end Apart

end Elspeth
