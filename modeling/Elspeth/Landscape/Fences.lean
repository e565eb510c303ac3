import Elspeth.Landscape.Frame

/-!
# What the two fences guarantee

Almost every write transaction of the system is a fence followed by a body.  The
lemmas here take such a transaction apart once and for all:

* a leader-fenced transaction that commits was called by the holder of the seat,
  ran its body on the database it found (up to seat deadlines), and published
  what the body left (again up to seat deadlines);
* a member-fenced transaction that commits was called by an active member and
  ran its body on exactly the database it found;
* either one, when it raises, leaves the database as it was, except for at most
  one ledger row that records the refusal.
-/

namespace Elspeth

open Relational Txn WorkerMembershipToken Slot CoordinationToken

variable {env : CallEnv} {conn conn' : Conn} {db db' : Db}

/-! ## Deadlines and ledger rows -/

/-- The arguments with which a deadline may be issued. -/
structure Issuable (env : CallEnv) (key : DeadlineKey) (window : Int) : Prop where
  wellFormed : key.wellFormed = true
  positive : 0 < window
  reserve : decisionResolution env.dialect ≤ deadlineReserve window

variable {window : Int} {value : Unit} {token : CoordinationToken} {verb : String} {α : Type}

theorem recordIssuedDeadline_eq_ok {key : DeadlineKey} {expiresAt : Time} :
    recordIssuedDeadline env key expiresAt window conn = .ok (value, conn') ↔
      Issuable env key window ∧
        conn' = { conn with
          issued := setDeadline key ⟨expiresAt, deadlineReserve window⟩ conn.issued } := by
  simp only [recordIssuedDeadline, bind_eq_ok, ensure_eq_ok, alter_eq_ok]
  constructor
  · rintro ⟨_, _, ⟨wellFormed, rfl⟩, _, _, ⟨positive, rfl⟩, _, _, ⟨reserve, rfl⟩, rfl⟩
    exact ⟨⟨wellFormed, positive, reserve⟩, rfl⟩
  · rintro ⟨issuable, rfl⟩
    exact ⟨(), _, ⟨issuable.wellFormed, rfl⟩, (), _, ⟨issuable.positive, rfl⟩, (), _,
      ⟨issuable.reserve, rfl⟩, rfl⟩

section Ledger

variable [Digest]

/-- The stored form of a ledger row. -/
def ledgerRow (event : CoordinationEvent) : RunCoordinationEvent :=
  ⟨Digest.coordinationEventId event, event⟩

/-- The ledger has one row more, and nothing else changed. -/
def Ledgered (event : CoordinationEvent) (before after : Db) : Prop :=
  ∃ table : Table RunCoordinationEvent Violation coordinationEventConstraints,
    table.rows = before.runCoordinationEvents.rows ++ [ledgerRow event] ∧
      after = { before with runCoordinationEvents := table }

variable {event : CoordinationEvent}

theorem recordCoordinationEvent_ok {value : Unit}
    (ran : recordCoordinationEvent event conn = .ok (value, conn')) :
    Ledgered event conn.db conn'.db := by
  simp only [recordCoordinationEvent, bind_eq_ok, query_eq_ok, ensure_eq_ok,
    insert_eq_ok] at ran
  obtain ⟨_, _, ⟨rfl, rfl⟩, _, _, ⟨-, rfl⟩, table, tableRows, rfl⟩ := ran
  exact ⟨table, tableRows, rfl⟩

theorem Ledgered.quiet (ledgered : Ledgered event db db') : Quiet db db' := by
  obtain ⟨table, -, rfl⟩ := ledgered
  exact ⟨⟨rfl, forall₂_serves_refl _, List.prefix_rfl⟩, rfl, rfl⟩

theorem respects_recordCoordinationEvent :
    Txn.Respects (OnDb Quiet) (recordCoordinationEvent event) :=
  fun _ _ _ ran => (recordCoordinationEvent_ok ran).quiet

/-- At most one ledger row was added. -/
def Noted (event : CoordinationEvent) (before after : Db) : Prop :=
  after = before ∨ Ledgered event before after

theorem Noted.quiet (noted : Noted event db db') : Quiet db db' := by
  rcases noted with rfl | ledgered
  · exact Quiet.refl _
  · exact ledgered.quiet

/-- Nothing changed, except that the ledger may have gained a refusal. -/
def OnlyRefusal (before after : Db) : Prop :=
  after = before ∨
    ∃ event : CoordinationEvent, event.eventType = .fenceRefusal ∧ Ledgered event before after

theorem OnlyRefusal.refl (db : Db) : OnlyRefusal db db := .inl rfl

theorem OnlyRefusal.quiet (refusal : OnlyRefusal db db') : Quiet db db' := by
  rcases refusal with rfl | ⟨event, -, ledgered⟩
  · exact Quiet.refl _
  · exact ledgered.quiet

theorem Noted.onlyRefusal (noted : Noted event db db') (refusal : event.eventType = .fenceRefusal) :
    OnlyRefusal db db' :=
  noted.imp_right fun ledgered => ⟨event, refusal, ledgered⟩

theorem recordBestEffortEvent_noted (env : CallEnv) (event : CoordinationEvent) (db : Db) :
    Noted event db (recordBestEffortEvent env event db) := by
  unfold recordBestEffortEvent
  split
  · exact .inl rfl
  · cases outcome : beginWrite env (recordCoordinationEvent event) db with
    | mk reply db' =>
      cases reply with
      | error => exact .inl (beginWrite_error outcome)
      | ok =>
        obtain ⟨conn, ran, rfl⟩ := beginWrite_ok outcome
        exact .inr (recordCoordinationEvent_ok ran)

end Ledger

/-! ## The leader fence -/

/-- The token is the one its run's seat shows. -/
def Db.Holds (db : Db) (token : CoordinationToken) : Prop :=
  ∃ seat ∈ db.runCoordination.rows, token.holds seat = true

instance (db : Db) (token : CoordinationToken) : Decidable (db.Holds token) :=
  inferInstanceAs (Decidable (∃ seat ∈ db.runCoordination.rows, token.holds seat = true))

theorem respects_renewLeaderDeadlineOn :
    Txn.Respects (OnDb Renewed) (renewLeaderDeadlineOn env token window verb) :=
  .bind respects_decisionTime fun _ => .bind (respects_seatsUpdate fun _ => rfl) fun _ =>
    .bind .ensure fun _ => respects_recordIssuedDeadline

/-- The fence reads the seat's holder and nothing else of it. -/
theorem Db.holds_iff :
    db.Holds token ↔
      ⟨token.runId, some token.workerId, token.leaderEpoch⟩ ∈ db.holdings := by
  unfold Db.Holds Db.holdings
  rw [List.mem_map]
  refine exists_congr fun seat => and_congr_right fun _ => ?_
  simp only [holds, Bool.and_eq_true, decide_eq_true_eq, and_assoc,
    RunCoordination.holding, SeatHolding.mk.injEq]

/-- A passed leader fence: the token holds the seat, and only the seat's deadline
moved. -/
theorem verifyAndExtendLeaderFence_ok
    (ran : verifyAndExtendLeaderFence env token window verb conn = .ok (value, conn')) :
    conn.db.Holds token ∧ Renewed conn.db conn'.db := by
  simp only [verifyAndExtendLeaderFence, bind_eq_ok, ensure_eq_ok] at ran
  obtain ⟨matched, _, verified, _, _, ⟨rfl, rfl⟩, extended⟩ := ran
  obtain ⟨one, -⟩ := update_eq_ok.mp verified
  have held : conn.db.Holds token := List.countP_pos_iff.mp (one ▸ Nat.one_pos)
  rw [update_same verified fun _ _ _ => rfl] at extended
  exact ⟨held, respects_renewLeaderDeadlineOn extended⟩

/-- The fence refuses every token that the seat does not show. -/
theorem verifyAndExtendLeaderFence_refused (failing : ¬ conn.db.Holds token) :
    verifyAndExtendLeaderFence env token window verb conn =
      .error (leadershipLost token verb) := by
  have missed : conn.db.runCoordination.rows.countP token.holds = 0 :=
    List.countP_eq_zero.mpr fun seat seatMem holds => failing ⟨seat, seatMem, holds⟩
  refine bind_eq_error.mpr (.inr ⟨0, conn, ?_, ?_⟩)
  · refine update_eq_ok.mpr ⟨missed.symm, conn.db.runCoordination, ?_, rfl⟩
    exact (updateRows_of_forall_eq fun _ _ _ => rfl).symm
  · exact bind_eq_error.mpr (.inl (ensure_eq_error.mpr ⟨by decide, rfl⟩))

/-- A held seat is one row, whatever else the statement asks. -/
theorem Db.Holds.countP (held : db.Holds token) :
    db.runCoordination.rows.countP token.holds = 1 := by
  refine (countP_eq_one_iff (unique_runId db.runCoordination) ?_).mpr held
  intro left _ right _ leftHit rightHit
  simp only [holds, Bool.and_eq_true, decide_eq_true_eq] at leftHit rightHit
  exact leftHit.1.1.trans rightHit.1.1.symm

/-- Renewing a held seat may be refused, but not as lost leadership. -/
theorem renewLeaderDeadlineOn_held (held : conn.db.Holds token) :
    renewLeaderDeadlineOn env token window verb conn ≠ .error (leadershipLost token verb) := by
  intro ran
  obtain ⟨databaseNow, _, read, ran⟩ := (bind_eq_error.mp ran).resolve_left (by simp)
  obtain ⟨-, rfl⟩ := readLandscapeDecisionTime_eq_ok.mp read
  rcases bind_eq_error.mp ran with broken | ⟨renewed, middle, update, ran⟩
  · obtain ⟨_, -, wrong⟩ := update_eq_error.mp broken
    cases wrong
  rcases bind_eq_error.mp ran with missed | ⟨_, _, -, ran⟩
  · exact (ensure_eq_error.mp missed).1 ((update_eq_ok.mp update).1.trans held.countP)
  · simp [recordIssuedDeadline, leadershipLost] at ran

/-- The fence reports lost leadership only of a token that the seat does not show. -/
theorem verifyAndExtendLeaderFence_lost
    (ran : verifyAndExtendLeaderFence env token window verb conn =
      .error (leadershipLost token verb)) : ¬ conn.db.Holds token := by
  intro held
  rcases bind_eq_error.mp ran with broken | ⟨matched, middle, verified, ran⟩
  · obtain ⟨_, -, wrong⟩ := update_eq_error.mp broken
    cases wrong
  rw [update_same verified fun _ _ _ => rfl] at ran
  rcases bind_eq_error.mp ran with missed | ⟨_, _, passed, renewal⟩
  · exact (ensure_eq_error.mp missed).1 ((update_eq_ok.mp verified).1.trans held.countP)
  · rw [(ensure_eq_ok.mp passed).2] at renewal
    exact renewLeaderDeadlineOn_held held renewal

/-- The fence reads the decision clock once. -/
theorem verifyAndExtendLeaderFence_reads
    (ran : verifyAndExtendLeaderFence env token window verb conn = .ok (value, conn')) :
    conn'.decisionReads = conn.decisionReads + 1 := by
  simp only [verifyAndExtendLeaderFence, renewLeaderDeadlineOn, bind_eq_ok, ensure_eq_ok,
    update_eq_ok, readLandscapeDecisionTime_eq_ok, recordIssuedDeadline_eq_ok] at ran
  obtain ⟨_, _, ⟨-, _, -, rfl⟩, _, _, ⟨-, rfl⟩, _, _, ⟨-, rfl⟩, _, _, ⟨-, _, -, rfl⟩, _, _,
    ⟨-, rfl⟩,
    -, rfl⟩ := ran
  rfl

theorem respects_verifyAndExtendLeaderFence :
    Txn.Respects (OnDb Renewed) (verifyAndExtendLeaderFence env token window verb) :=
  fun _ _ _ ran => (verifyAndExtendLeaderFence_ok ran).2

theorem respects_renewIfStillIssued :
    Txn.Respects (OnDb Renewed) (renewIfStillIssued env token window verb) := by
  refine .bind .query fun issued => .ite (fun _ => ?_) fun _ => .pure
  exact respects_renewLeaderDeadlineOn

/-- A committed leader-fenced transaction, taken apart. -/
structure LeaderRun {α : Type} (token : CoordinationToken) (body : Transaction α) (value : α)
    (before after : Db) : Prop where
  held : before.Holds token
  /-- The fence read the decision clock once before the body began. -/
  ran : ∃ opened closed : Conn, opened.decisionReads = 1 ∧ Renewed before opened.db ∧
    body opened = .ok (value, closed) ∧ Renewed closed.db after

variable {body : Transaction α}

theorem beginWrite_leaderFenced_ok {value : α}
    (ran : beginWrite env (leaderFenced env token window verb body) db = (.ok value, db')) :
    LeaderRun token body value db db' := by
  obtain ⟨conn, returned, rfl⟩ := beginWrite_ok ran
  simp only [leaderFenced, bind_eq_ok, pure_eq_ok] at returned
  obtain ⟨_, opened, fence, _, closed, inner, _, _, renewal, rfl, rfl⟩ := returned
  obtain ⟨held, renewed⟩ := verifyAndExtendLeaderFence_ok fence
  exact ⟨held, opened, closed, verifyAndExtendLeaderFence_reads fence, renewed, inner,
    respects_renewIfStillIssued renewal⟩

section Refusals

variable [Digest]

variable {α : Type} {token : CoordinationToken} {window : Int} {verb : String}
  {raised : LandscapeError}

variable {body : Transaction α}

theorem fencedLeaderTransaction_ok {value : α}
    (ran : fencedLeaderTransaction env token window verb body db = (.ok value, db')) :
    LeaderRun token body value db db' := by
  unfold fencedLeaderTransaction at ran
  split at ran
  · cases ran
  · exact beginWrite_leaderFenced_ok ran

/-- A raised leader-fenced transaction adds at most its refusal to the ledger. -/
theorem fencedLeaderTransaction_error
    (ran : fencedLeaderTransaction env token window verb body db = (.error raised, db')) :
    Noted (leaderRefusal env token verb) db db' := by
  unfold fencedLeaderTransaction at ran
  split at ran
  next refused =>
    obtain ⟨-, rfl⟩ := Prod.mk.inj ran
    rw [beginWrite_error refused]
    exact recordBestEffortEvent_noted env _ db
  next => exact .inl (beginWrite_error ran)

/-- **A token that does not hold the seat is refused**, and its call leaves every
table as it was but for at most the refusal's ledger row. -/
theorem fencedLeaderTransaction_refused (failing : ¬ db.Holds token) :
    (fencedLeaderTransaction env token window verb body db).1 =
        .error (leadershipLost token verb) ∧
      Noted (leaderRefusal env token verb) db
        (fencedLeaderTransaction env token window verb body db).2 := by
  have raises : verifyAndExtendLeaderFence env token window verb (Conn.start db) =
      .error (leadershipLost token verb) := verifyAndExtendLeaderFence_refused failing
  have refused : beginWrite env (leaderFenced env token window verb body) db =
      (.error (leadershipLost token verb), db) := by
    unfold beginWrite transact leaderFenced
    rw [bind_eq_error.mpr (.inl raises)]
  unfold fencedLeaderTransaction
  rw [refused]
  exact ⟨rfl, recordBestEffortEvent_noted env _ db⟩

/-! ### What the fence itself raises -/

omit [Digest] in
/-- The errors of a leader fence and of the commit it ends with. -/
def LandscapeError.OfFence : LandscapeError → Prop
  | .runLeadershipLost .. | .leaseDeadlineExpired _ => True
  | .valueError (.deadlineIdentity _) | .valueError .deadlineWindowNotPositive
  | .valueError .deadlineWindowTooSmall => True
  | _ => False

omit [Digest] in
/-- A write to a held seat that leaves it held breaks no constraint. -/
theorem seatsUpdate_ne_error {change : RunCoordination → RunCoordination}
    (kept : ∀ seat, (change seat).runId = seat.runId)
    (paired : ∀ seat, token.holds seat = true → SeatLivenessPaired seat →
      SeatLivenessPaired (change seat)) :
    seatsSlot.update token.holds change conn ≠ .error raised := by
  intro ran
  obtain ⟨broken, violated, -⟩ := update_eq_error.mp ran
  obtain ⟨constraint, declared, -, fails⟩ := Constraint.violated_eq_some violated
  simp only [runCoordinationConstraints, List.mem_cons, List.not_mem_nil, or_false] at declared
  rcases declared with rfl | rfl
  · refine fails fun seat seatMem => ?_
    have before : ∀ seat ∈ conn.db.runCoordination.rows, SeatLivenessPaired seat :=
      conn.db.runCoordination.holds (checkConstraint .seatLivenessPaired SeatLivenessPaired)
        (by simp [runCoordinationConstraints])
    rcases mem_updateRows.mp seatMem with ⟨old, oldMem, held, rfl⟩ | ⟨stored, -⟩
    · exact paired old held (before old oldMem)
    · exact before seat stored
  · refine fails ?_
    have unique := unique_runId conn.db.runCoordination
    change Relational.Unique RunCoordination.runId _
    unfold Relational.Unique at unique ⊢
    rw [map_updateRows kept]
    exact unique

omit [Digest] in
theorem recordIssuedDeadline_raises {key : DeadlineKey} {expiresAt : Time}
    (ran : recordIssuedDeadline env key expiresAt window conn = .error raised) :
    raised.OfFence := by
  simp only [recordIssuedDeadline, bind_eq_error, ensure_eq_error, ensure_eq_ok,
    alter_eq_error] at ran
  rcases ran with ⟨-, rfl⟩ | ⟨_, _, -, ⟨-, rfl⟩ | ⟨_, _, -, ⟨-, rfl⟩ | ⟨_, _, -, never⟩⟩⟩
  · trivial
  · trivial
  · trivial
  · exact never.elim

omit [Digest] in
theorem renewLeaderDeadlineOn_raises
    (ran : renewLeaderDeadlineOn env token window verb conn = .error raised) : raised.OfFence := by
  obtain ⟨databaseNow, _, read, ran⟩ := (bind_eq_error.mp ran).resolve_left (by simp)
  obtain ⟨-, rfl⟩ := readLandscapeDecisionTime_eq_ok.mp read
  rcases bind_eq_error.mp ran with broken | ⟨renewed, middle, update, ran⟩
  · refine absurd broken (seatsUpdate_ne_error (fun _ => rfl) fun seat held _ => ?_)
    simp only [holds, Bool.and_eq_true, decide_eq_true_eq] at held
    simp [SeatLivenessPaired, held.1.2]
  rcases bind_eq_error.mp ran with missed | ⟨_, _, -, ran⟩
  · rw [← (ensure_eq_error.mp missed).2]
    trivial
  · exact recordIssuedDeadline_raises ran

omit [Digest] in
theorem verifyAndExtendLeaderFence_raises
    (ran : verifyAndExtendLeaderFence env token window verb conn = .error raised) :
    raised.OfFence := by
  rcases bind_eq_error.mp ran with broken | ⟨matched, middle, -, ran⟩
  · exact absurd broken (seatsUpdate_ne_error (fun _ => rfl) fun _ _ paired => paired)
  rcases bind_eq_error.mp ran with missed | ⟨_, _, -, renewal⟩
  · rw [← (ensure_eq_error.mp missed).2]
    trivial
  · exact renewLeaderDeadlineOn_raises renewal

omit [Digest] in
theorem renewIfStillIssued_raises
    (ran : renewIfStillIssued env token window verb conn = .error raised) : raised.OfFence := by
  rcases bind_eq_error.mp ran with query | ⟨issued, middle, -, ran⟩
  · simp [hasIssuedDeadline] at query
  · cases issued with
    | true => exact renewLeaderDeadlineOn_raises ran
    | false => simp at ran

/-- **A leader-fenced verb raises what its fence raises, or what its body raises**, run
under a passed fence. -/
theorem fencedLeaderTransaction_raises
    (ran : (fencedLeaderTransaction env token window verb body db).1 = .error raised) :
    raised.OfFence ∨
      db.Holds token ∧ ∃ opened : Conn, opened.decisionReads = 1 ∧ Renewed db opened.db ∧
        body opened = .error raised := by
  unfold fencedLeaderTransaction at ran
  split at ran
  next =>
    cases ran
    exact .inl trivial
  next =>
    cases outcome : beginWrite env (leaderFenced env token window verb body) db with
    | mk =>
      rw [outcome] at ran
      cases ran
      rcases transact_raises outcome with inner | ⟨_, session, -, refused⟩
      · rcases bind_eq_error.mp inner with fence | ⟨_, opened, fence, inner⟩
        · exact .inl (verifyAndExtendLeaderFence_raises fence)
        rcases bind_eq_error.mp inner with raised | ⟨_, closed, -, inner⟩
        · obtain ⟨held, renewed⟩ := verifyAndExtendLeaderFence_ok fence
          exact .inr ⟨held, opened, verifyAndExtendLeaderFence_reads fence, renewed, raised⟩
        rcases bind_eq_error.mp inner with renewal | ⟨_, _, -, pure⟩
        · exact .inl (renewIfStillIssued_raises renewal)
        · simp at pure
      · unfold commit at refused
        split at refused
        · cases refused
        · cases refused
          exact .inl trivial

end Refusals

/-! ## The membership fence -/

/-- The token names an active member. -/
def Db.Member (db : Db) (token : WorkerMembershipToken) : Prop :=
  ∃ worker ∈ db.runWorkers.rows, token.active worker = true

instance (db : Db) (token : WorkerMembershipToken) : Decidable (db.Member token) :=
  inferInstanceAs (Decidable (∃ worker ∈ db.runWorkers.rows, token.active worker = true))

theorem WorkerMembershipToken.active_iff {token : WorkerMembershipToken} {worker : RunWorker} :
    token.active worker = true ↔
      worker.runId = token.runId ∧ worker.workerId = token.workerId ∧
        worker.status = .active := by
  simp [active, names, and_assoc]

/-- A passed membership fence: the worker is active, and nothing changed. -/
theorem verifyMembershipFence_ok {token : WorkerMembershipToken}
    (ran : verifyMembershipFence token verb conn = .ok (value, conn')) :
    conn.db.Member token ∧ conn' = conn := by
  simp only [verifyMembershipFence, bind_eq_ok, ite_eq_ok, pure_eq_ok,
    select_eq_ok, raise_eq_ok, and_false, or_false, exists_false] at ran
  obtain ⟨matched, middle, verified, rfl, -, rfl⟩ := ran
  obtain ⟨one, -⟩ := update_eq_ok.mp verified
  refine ⟨List.countP_pos_iff.mp (one ▸ Nat.one_pos), update_same verified ?_⟩
  intro worker _ active
  rw [← (active_iff.mp active).2.2]

/-- A committed member-fenced transaction, taken apart. -/
structure MemberRun {α : Type} (token : WorkerMembershipToken) (body : Transaction α)
    (value : α) (before after : Db) : Prop where
  member : before.Member token
  ran : ∃ closed : Conn, body (Conn.start before) = .ok (value, closed) ∧ after = closed.db

theorem fencedMemberTransaction_ok [Digest] {token : WorkerMembershipToken} {value : α}
    (ran : fencedMemberTransaction env token verb body db = (.ok value, db')) :
    MemberRun token body value db db' := by
  unfold fencedMemberTransaction at ran
  split at ran
  · cases ran
  · obtain ⟨conn, returned, rfl⟩ := beginWrite_ok ran
    obtain ⟨_, opened, fence, inner⟩ := bind_eq_ok.mp returned
    obtain ⟨member, rfl⟩ := verifyMembershipFence_ok fence
    exact ⟨member, conn, inner, rfl⟩

theorem fencedMemberTransaction_error [Digest] {token : WorkerMembershipToken}
    {raised : LandscapeError}
    (ran : fencedMemberTransaction env token verb body db = (.error raised, db')) :
    Noted (membershipRefusal env token verb) db db' := by
  unfold fencedMemberTransaction at ran
  split at ran
  next refused =>
    obtain ⟨-, rfl⟩ := Prod.mk.inj ran
    rw [beginWrite_error refused]
    exact recordBestEffortEvent_noted env _ db
  next => exact .inl (beginWrite_error ran)

/-! ## Whole transactions

What a body respects, its transaction respects, whatever the transaction
answers. -/

section Whole

variable {α : Type} {relation : Db → Db → Prop} {body : Transaction α}

theorem beginWrite_respects [Std.Refl relation]
    (respects : Txn.Respects (OnDb relation) body) (env : CallEnv) (db : Db) :
    relation db (beginWrite env body db).2 := by
  cases outcome : beginWrite env body db with
  | mk reply db' =>
    cases reply with
    | error =>
      rw [beginWrite_error outcome]
      exact Std.Refl.refl db
    | ok =>
      obtain ⟨conn, ran, rfl⟩ := beginWrite_ok outcome
      exact respects ran

variable [Digest] [IsTrans Db relation]

theorem fencedLeaderTransaction_respects
    (wide : ∀ before after, Quiet before after → relation before after)
    (respects : Txn.Respects (OnDb relation) body) (env : CallEnv) (token : CoordinationToken)
    (window : Int) (verb : String) (db : Db) :
    relation db (fencedLeaderTransaction env token window verb body db).2 := by
  cases outcome : fencedLeaderTransaction env token window verb body db with
  | mk reply db' =>
    cases reply with
    | error => exact wide _ _ (fencedLeaderTransaction_error outcome).quiet
    | ok =>
      obtain ⟨opened, closed, -, start, inner, finish⟩ :=
        (fencedLeaderTransaction_ok outcome).ran
      exact IsTrans.trans _ _ _ (wide _ _ start.quiet)
        (IsTrans.trans _ _ _ (respects inner) (wide _ _ finish.quiet))

omit [IsTrans Db relation] in
theorem fencedMemberTransaction_respects
    (wide : ∀ before after, Quiet before after → relation before after)
    (respects : Txn.Respects (OnDb relation) body) (env : CallEnv)
    (token : WorkerMembershipToken) (verb : String) (db : Db) :
    relation db (fencedMemberTransaction env token verb body db).2 := by
  cases outcome : fencedMemberTransaction env token verb body db with
  | mk reply db' =>
    cases reply with
    | error => exact wide _ _ (fencedMemberTransaction_error outcome).quiet
    | ok =>
      obtain ⟨closed, inner, rfl⟩ := (fencedMemberTransaction_ok outcome).ran
      exact respects inner

end Whole

/-! ## The result of a verb -/

section Settles

variable {α : Type} [Digest]

/-- The verb returned and `returned` holds of what it returned, or it raised and
changed nothing but for a refusal in the ledger. -/
def Settles (db : Db) (returned : α → Db → Prop) : Except LandscapeError α × Db → Prop
  | (.ok value, after) => returned value after
  | (.error _, after) => OnlyRefusal db after

variable {returned wider : α → Db → Prop} {outcome : Except LandscapeError α × Db}

theorem Settles.raised (raised : LandscapeError) : Settles db returned (.error raised, db) :=
  OnlyRefusal.refl db

theorem Settles.mono (weaken : ∀ value after, returned value after → wider value after)
    (settles : Settles db returned outcome) : Settles db wider outcome := by
  obtain ⟨reply, after⟩ := outcome
  cases reply with
  | error => exact settles
  | ok value => exact weaken value after settles

theorem Settles.ok {value : α} (settles : Settles db returned outcome)
    (ran : outcome = (.ok value, db')) : returned value db' := by
  rw [ran] at settles
  exact settles

theorem Settles.error {raised : LandscapeError} (settles : Settles db returned outcome)
    (ran : outcome = (.error raised, db')) : OnlyRefusal db db' := by
  rw [ran] at settles
  exact settles

variable {verb : String} {body : Transaction α}

theorem settles_leaderFenced {token : CoordinationToken} {window : Int} :
    Settles db (fun value after => LeaderRun token body value db after)
      (fencedLeaderTransaction env token window verb body db) := by
  cases ran : fencedLeaderTransaction env token window verb body db with
  | mk reply after =>
    cases reply with
    | ok => exact fencedLeaderTransaction_ok ran
    | error => exact (fencedLeaderTransaction_error ran).onlyRefusal rfl

theorem settles_memberFenced {member : WorkerMembershipToken} :
    Settles db (fun value after => MemberRun member body value db after)
      (fencedMemberTransaction env member verb body db) := by
  cases ran : fencedMemberTransaction env member verb body db with
  | mk reply after =>
    cases reply with
    | ok => exact fencedMemberTransaction_ok ran
    | error => exact (fencedMemberTransaction_error ran).onlyRefusal rfl

end Settles

end Elspeth
