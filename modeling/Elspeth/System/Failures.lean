import Elspeth.System.StaleLeases

/-!
# Undecided failures

A failed item keeps its payload exactly while its token is undecided, and the
choice is made at the moment of failure by a look at the outcomes.  Completed
outcomes are never deleted, so an item that is undecided now was undecided then:
it still is what was claimed, but for its status and its lease.

The requeue refuses an undecided item whose payload is the purge marker of the
item's id, taking it for one that was purged.  As no undecided item ever is, this
can only be an item that was claimed with such a payload.
-/

namespace Elspeth

open Relational EventSourcing Worked List

/-! ## Items in hand -/

/-- The exchange reports this item as a transform lease it granted. -/
def Grants (granted : TokenWorkItem) (request : Request) (response : Response) : Prop :=
  request.claimsReady = true ∧ itemReported response = some granted ∧
    granted.status = .leased ∧ granted.pendingSinkName = none

/-- The item is under a transform lease, or failed with nothing decided. -/
def TokenWorkItem.InHand (outcomes : List TokenOutcome) (item : TokenWorkItem) : Prop :=
  (item.status = .leased ∧ item.pendingSinkName = none) ∨
    undecidedFailedWork outcomes item = true

/-- The item is the granted one but for status, lease and time of update. -/
def TokenWorkItem.SameWork (granted item : TokenWorkItem) : Prop :=
  item = { granted with
    status := item.status, leaseOwner := item.leaseOwner,
    leaseExpiresAt := item.leaseExpiresAt, updatedAt := item.updatedAt }

/-- Every item in hand is one of the granted ones. -/
def Db.HandsOf (db : Db) (granted : TokenWorkItem → Prop) : Prop :=
  ∀ item ∈ db.tokenWorkItems.rows, item.InHand db.tokenOutcomes.rows →
    ∃ claimed, granted claimed ∧ claimed.SameWork item

variable {outcomes : List TokenOutcome} {item : TokenWorkItem}

theorem undecidedFailedWork_iff :
    undecidedFailedWork outcomes item = true ↔
      item.status = .failed ∧ workItemTokenDecided outcomes item = false := by
  simp [undecidedFailedWork]

theorem TokenWorkItem.InHand.status (inHand : item.InHand outcomes) :
    item.status = .leased ∨ item.status = .failed :=
  inHand.imp And.left fun undecided => (undecidedFailedWork_iff.mp undecided).1

/-- What is undecided was undecided before outcomes were added. -/
theorem TokenWorkItem.InHand.earlier {earlier later : List TokenOutcome}
    (added : earlier <+: later) (inHand : item.InHand later) : item.InHand earlier := by
  rcases inHand with leased | undecided
  · exact .inl leased
  · obtain ⟨failed, open_⟩ := undecidedFailedWork_iff.mp undecided
    refine .inr (undecidedFailedWork_iff.mpr ⟨failed, ?_⟩)
    simp only [workItemTokenDecided, tokenDecided, any_eq_false] at open_ ⊢
    exact fun outcome outcomeMem => open_ outcome (added.subset outcomeMem)

section Histories

variable [Digest]

variable {outcomes : List TokenOutcome} {db before : Db} {granted : TokenWorkItem → Prop}
  {runId : String} {env : CallEnv} {token : CoordinationToken}

/-- An edge to an item in hand is a claim, or starts from the same work in hand. -/
theorem Action.inHand_next {action : Action} {item : TokenWorkItem}
    (enabled : action.Enabled outcomes item)
    (inHand : (action.next outcomes item).InHand outcomes) :
    (∃ leaseOwner expiresAt databaseNow,
        action = .claim .ready leaseOwner expiresAt databaseNow) ∨
      item.InHand outcomes ∧ ∀ granted : TokenWorkItem, granted.SameWork item →
        granted.SameWork (action.next outcomes item) := by
  have status := inHand.status
  cases action with
  | claim source leaseOwner expiresAt databaseNow =>
    cases source with
    | ready => exact .inl ⟨leaseOwner, expiresAt, databaseNow, rfl⟩
    | pendingSink =>
      -- A parked item is claimed with its sink, and is no transform lease.
      have bundle := enabled.2 rfl
      rcases inHand with ⟨-, unnamed⟩ | undecided
      · have unnamed : item.pendingSinkName = none := unnamed
        simp [pendingSinkBundle, unnamed] at bundle
      · cases (undecidedFailedWork_iff.mp undecided).1
  | renew =>
    have leased : item.status = .leased := enabled
    refine .inr ⟨?_, fun granted same => ?_⟩
    · rcases inHand with ⟨-, unnamed⟩ | undecided
      · exact .inl ⟨leased, unnamed⟩
      · have failed : item.status = .failed := (undecidedFailedWork_iff.mp undecided).1
        rw [leased] at failed
        cases failed
    · rw [TokenWorkItem.SameWork] at same ⊢
      simp only [Action.next]
      rw [same]
  | rotate | requeue | release | handOff | finishSink | consume =>
    rcases status with impossible | impossible <;> cases impossible
  | dispose image databaseNow =>
    obtain ⟨leased, unnamed, -⟩ := enabled
    cases image with
    | blocked | terminal | pendingSink =>
      rcases status with impossible | impossible <;> cases impossible
    | failed =>
      -- Undecided, so the payload was kept.
      have undecided : workItemTokenDecided outcomes item = false := by
        rcases inHand with ⟨impossible, -⟩ | undecided
        · cases impossible
        · exact (undecidedFailedWork_iff.mp undecided).2
      refine .inr ⟨.inl ⟨leased, unnamed⟩, fun granted same => ?_⟩
      simp only [Action.next, DispositionImage.apply, undecided]
      rw [same]
      rfl
  | adopt =>
    have blocked : item.status = .blocked := enabled.1
    rcases status with other | other <;> cases blocked.symm.trans other
  | reset =>
    have blocked : item.status = .blocked := enabled
    rcases status with other | other <;> cases blocked.symm.trans other

/-- **One call**: items in hand afterwards were in hand, or were granted by it. -/
theorem serve_handsOf (call : Call) (hands : db.HandsOf granted) :
    (serve call db).2.HandsOf fun claimed =>
      granted claimed ∨ Grants claimed call.request (serve call db).1 := by
  have performs := serve_performs call db
  have followed : ∀ row ∈ (serve call db).2.tokenWorkItems.rows,
      row.InHand db.tokenOutcomes.rows → ∃ claimed,
        (granted claimed ∨ Grants claimed call.request (serve call db).1) ∧
          claimed.SameWork row := by
    refine Course.forall_rows performs.travels ?_ ?_ ?_
    · rintro row event ⟨born, -⟩ inHand
      rcases inHand.status with impossible | impossible <;> cases born <;> cases impossible
    · rintro old new entry ⟨action, allowed, enabled, rfl, -⟩ before inHand
      rcases Action.inHand_next enabled inHand with
        ⟨leaseOwner, expiresAt, databaseNow, rfl⟩ | ⟨oldInHand, same⟩
      · obtain ⟨claims, reported⟩ := Request.claimsReady_of_action allowed
        have transform : old.pendingSinkName = none := by
          rcases inHand with ⟨-, unnamed⟩ | undecided
          · exact unnamed
          · cases (undecidedFailedWork_iff.mp undecided).1
        exact ⟨_, .inr ⟨claims, reported, rfl, transform⟩, rfl⟩
      · obtain ⟨claimed, source, work⟩ := before oldInHand
        exact ⟨claimed, source, same claimed work⟩
    · intro row stored inHand
      obtain ⟨claimed, source, work⟩ := hands row stored inHand
      exact ⟨claimed, .inl source, work⟩
  intro item stored inHand
  exact followed item stored (inHand.earlier performs.outcomes)

theorem handsOf_history (hands : db.HandsOf granted) (calls : List Call) :
    (after serve db calls).HandsOf fun claimed => granted claimed ∨
      ∃ exchange ∈ exchanges serve db calls, Grants claimed exchange.call.request
          exchange.reply := by
  induction calls generalizing db granted with
  | nil =>
    intro item stored inHand
    obtain ⟨claimed, source, work⟩ := hands item stored inHand
    exact ⟨claimed, .inl source, work⟩
  | cons call calls ih =>
    intro item stored inHand
    obtain ⟨claimed, source, work⟩ := ih (serve_handsOf call hands) item stored inHand
    refine ⟨claimed, ?_, work⟩
    rcases source with (past | now) | ⟨exchange, member, later⟩
    · exact .inl past
    · exact .inr ⟨_, mem_cons_self, now⟩
    · exact .inr ⟨exchange, mem_cons_of_mem _ member, later⟩

/-! ## The requeue -/

/-- The error is not the refusal of a purged payload. -/
def NotPurged (raised : LandscapeError) : Prop :=
  ∀ runId, raised ≠ .auditIntegrity (.requeuePurged runId)

theorem requeueStatement_notPurged {databaseNow : Time} (row : TokenWorkItem) :
    Txn.Guarded (fun _ : Conn => True) NotPurged
      (requeueStatement outcomes runId databaseNow row) := by
  refine Slot.update_guarded (fun _ _ _ _ => ?_) fun _ _ _ _ => trivial
  rintro _ ⟨⟩

/-- The requeue refuses as purged only for an undecided failure whose payload is the
marker. -/
theorem requeueUndecidedFailedWorkOn_purged {conn : Conn}
    (ran : requeueUndecidedFailedWorkOn env token conn =
      .error (.auditIntegrity (.requeuePurged runId))) :
    ∃ row ∈ undecidedFailures token.runId conn.db, purgedPayload row = true := by
  rcases Txn.bind_eq_error.mp ran with never | ⟨outcomes, _, query, ran⟩
  · simp at never
  obtain ⟨rfl, rfl⟩ := Txn.query_eq_ok.mp query
  rcases Txn.bind_eq_error.mp ran with never | ⟨undecided, conn, select, inner⟩
  · simp at never
  obtain ⟨undecidedRows, rfl⟩ := Slot.select_eq_ok.mp select
  rcases Txn.ite_eq_error.mp inner with ⟨-, never⟩ | ⟨-, inner⟩
  · simp at never
  have selected : sortRows TokenWorkItem.sweepKey undecided =
      undecidedFailures token.runId conn.db := by
    rw [undecidedRows]
    rfl
  rw [selected] at inner
  rcases Txn.bind_eq_error.mp inner with purged | ⟨_, _, -, inner⟩
  · have found := (Txn.ensure_eq_error.mp purged).1
    obtain ⟨row, member⟩ := exists_mem_of_ne_nil _ found
    exact ⟨row, (mem_filter.mp member).1, (mem_filter.mp member).2⟩
  -- No later step of the requeue raises this error.
  refine absurd rfl (Txn.Guarded.raises (?_ : Txn.Guarded (fun _ => True) NotPurged _) trivial
    inner runId)
  refine .bind .query fun _ => .bind (.ensure ?_) fun _ =>
    .bind (readLandscapeDecisionTime_guarded fun _ _ => trivial) fun _ => .bind .query fun _ =>
      .bind (.executeMany requeueStatement_notPurged _) fun _ => .bind (.ensure ?_) fun _ =>
        .bind (.alter fun _ _ => trivial) fun _ => .pure
  all_goals rintro _ ⟨⟩

/-- The requeue turned exactly the undecided failures of the run into READY rows of their
next attempt, with its id, without an owner and with the payload they had.  Of the other rows,
those of decided tokens among them, none changed, and no undecided failure is left in the
run. -/
structure Redriven (runId : String) (before after : Db) : Prop where
  rows : ∃ databaseNow, ∀ item, item ∈ after.tokenWorkItems.rows ↔
    (∃ row ∈ undecidedFailures runId before,
      { row with
        workItemId := workItemId row.runId row.tokenId row.nodeId (row.attempt + 1)
        attempt := row.attempt + 1, status := .ready, leaseOwner := none
        leaseExpiresAt := none, updatedAt := databaseNow } = item) ∨
    item ∈ before.tokenWorkItems.rows ∧ item ∉ undecidedFailures runId before
  noneLeft : undecidedFailures runId after = []
  decidedKept : ∀ item, workItemTokenDecided before.tokenOutcomes.rows item = true →
    (item ∈ after.tokenWorkItems.rows ↔ item ∈ before.tokenWorkItems.rows)

theorem Requeued.redriven {count : Nat} {after : Db}
    (requeued : Requeued token count before after) : Redriven token.runId before after := by
  obtain ⟨items, databaseNow, itemRows, rfl⟩ := requeued.written
  have rows : ∀ item, item ∈ items.rows ↔
      (∃ row ∈ undecidedFailures token.runId before,
        row.requeued (requeueId row) databaseNow = item) ∨
      item ∈ before.tokenWorkItems.rows ∧ item ∉ undecidedFailures token.runId before := by
    intro item
    rw [itemRows, mem_editRows (undecidedFailures_edits token.runId before databaseNow)]
    refine or_congr (by simp) (and_congr_right fun stored => not_congr ?_)
    -- Ids are unique, so a row with the id of an undecided failure is that failure.
    simp only [oldKeys, map_map, mem_map, Function.comp_apply]
    constructor
    · rintro ⟨row, rowMem, same⟩
      have same : row = item := (unique_workItemId before.tokenWorkItems).eq_of_key
        (mem_undecidedFailures.mp rowMem).1 stored same
      exact same ▸ rowMem
    · intro undecided
      exact ⟨item, undecided, rfl⟩
  refine ⟨⟨databaseNow, rows⟩, ?_, fun item decided => ?_⟩
  · refine eq_nil_iff_forall_not_mem.mpr fun item left => ?_
    obtain ⟨stored, run, undecided⟩ := mem_undecidedFailures.mp left
    rcases (rows item).mp stored with ⟨row, -, rfl⟩ | ⟨old, others⟩
    · cases (undecidedFailedWork_iff.mp undecided).1
    · exact others (mem_undecidedFailures.mpr ⟨old, run, undecided⟩)
  · have open_ : ∀ row ∈ undecidedFailures token.runId before,
        workItemTokenDecided before.tokenOutcomes.rows row = false := fun row rowMem =>
      (undecidedFailedWork_iff.mp (mem_undecidedFailures.mp rowMem).2.2).2
    change item ∈ items.rows ↔ _
    rw [rows item]
    constructor
    · rintro (⟨row, rowMem, rfl⟩ | ⟨stored, -⟩)
      · rw [show workItemTokenDecided _ (row.requeued _ _) = workItemTokenDecided _ row from rfl,
          open_ row rowMem] at decided
        cases decided
      · exact stored
    · intro stored
      refine .inr ⟨stored, fun rowMem => ?_⟩
      rw [open_ item rowMem] at decided
      cases decided

/-- Rows and outcomes are all that is spoken of. -/
theorem Redriven.congr {before' after after' : Db} (redriven : Redriven runId before after)
    (same : before'.tokenWorkItems = before.tokenWorkItems ∧
      before'.tokenOutcomes = before.tokenOutcomes)
    (same' : after'.tokenWorkItems = after.tokenWorkItems ∧
      after'.tokenOutcomes = after.tokenOutcomes) : Redriven runId before' after' := by
  obtain ⟨rows, noneLeft, decidedKept⟩ := redriven
  have failures : undecidedFailures runId before' = undecidedFailures runId before := by
    rw [undecidedFailures, same.1, same.2, undecidedFailures]
  have failures' : undecidedFailures runId after' = undecidedFailures runId after := by
    rw [undecidedFailures, same'.1, same'.2, undecidedFailures]
  constructor
  · rw [failures, same.1, same'.1]
    exact rows
  · rw [failures', noneLeft]
  · rw [same.1, same.2, same'.1]
    exact decidedKept

omit [Digest] in
/-- The fence around the body moves seat deadlines only. -/
theorem Renewed.kept {after : Db} (renewed : Renewed before after) :
    before.tokenWorkItems = after.tokenWorkItems ∧ before.tokenOutcomes = after.tokenOutcomes := by
  obtain ⟨table, -, rfl⟩ := renewed
  exact ⟨rfl, rfl⟩

theorem serve_redrives {reply : Reply}
    (ok : (serve ⟨env, .requeueUndecidedFailedWork token⟩ db).1 = .ok reply) :
    Redriven token.runId db (serve ⟨env, .requeueUndecidedFailedWork token⟩ db).2 := by
  obtain ⟨count, -, run⟩ := returned_of_answer (requeueUndecidedFailedWork_settles token) ok
  obtain ⟨opened, closed, -, start, ran, finish⟩ := run.ran
  have same := finish.kept
  exact (requeueUndecidedFailedWorkOn_ok ran).1.redriven.congr start.kept
    ⟨same.1.symm, same.2.symm⟩

theorem serve_purged (refused : (serve ⟨env, .requeueUndecidedFailedWork token⟩ db).1 =
      .error (.auditIntegrity (.requeuePurged runId))) :
    ∃ row ∈ undecidedFailures token.runId db, purgedPayload row = true := by
  rcases fencedLeaderTransaction_raises (raised_of_answer refused) with
    fence | ⟨-, opened, -, renewed, inner⟩
  · exact fence.elim
  · obtain ⟨table, -, openedDb⟩ := renewed
    have found := requeueUndecidedFailedWorkOn_purged inner
    rw [openedDb] at found
    exact found

/-- **Undecided failures are re-drivable**, in every history from an empty journal.  What
failed undecided is what some exchange granted, payload and all; the requeue refuses a payload
as purged only where the granted item already carried the marker of its own id; and a
requeue that returns has turned every undecided failure of the run, and nothing else, into
the next attempt. -/
theorem undecided_failures_redrivable {db : Db} (empty : db.tokenWorkItems.rows = [])
    (calls : List Call) :
    (∀ item ∈ (after serve db calls).tokenWorkItems.rows,
        undecidedFailedWork (after serve db calls).tokenOutcomes.rows item = true →
        ∃ claimed, claimed.SameWork item ∧ ∃ exchange ∈ exchanges serve db calls,
          Grants claimed exchange.call.request exchange.reply) ∧
      (∀ env token runId,
        (serve ⟨env, .requeueUndecidedFailedWork token⟩ (after serve db calls)).1 =
            .error (.auditIntegrity (.requeuePurged runId)) →
          ∃ claimed, purgedPayload claimed = true ∧ ∃ exchange ∈ exchanges serve db calls,
            Grants claimed exchange.call.request exchange.reply) ∧
      ∀ env token reply,
        (serve ⟨env, .requeueUndecidedFailedWork token⟩ (after serve db calls)).1 = .ok reply →
          Redriven token.runId (after serve db calls)
            (serve ⟨env, .requeueUndecidedFailedWork token⟩ (after serve db calls)).2 := by
  have granted : ∀ item ∈ (after serve db calls).tokenWorkItems.rows,
      undecidedFailedWork (after serve db calls).tokenOutcomes.rows item = true →
      ∃ claimed, claimed.SameWork item ∧ ∃ exchange ∈ exchanges serve db calls,
        Grants claimed exchange.call.request exchange.reply := by
    intro item stored undecided
    have none_ : db.HandsOf fun _ => False := by
      intro item stored
      rw [empty] at stored
      cases stored
    obtain ⟨claimed, source, work⟩ := handsOf_history none_ calls item stored (.inr undecided)
    exact ⟨claimed, work, source.resolve_left id⟩
  refine ⟨granted, fun env token runId refused => ?_, fun env token reply ok => serve_redrives ok⟩
  obtain ⟨row, rowMem, purged⟩ := serve_purged refused
  obtain ⟨stored, -, undecided⟩ := mem_undecidedFailures.mp rowMem
  obtain ⟨claimed, work, source⟩ := granted row stored undecided
  refine ⟨claimed, ?_, source⟩
  rw [work] at purged
  exact purged

end Histories

namespace Worked

/-- The continuation is enqueued with the given payload, claimed, and fails. -/
def failing (rowPayloadJson : String) : List Call :=
  [call 0 (.enqueueReady follower { values with rowPayloadJson }),
    call 0 (.claimReady follower "worker-1" (300 * second)),
    call 0 (.mark .failed follower firstAttempt "worker-1" [])]

def requeue : Call := call 0 (.requeueUndecidedFailedWork leader)

/-- The purge marker of the first attempt. -/
def marker : String := @scrubbedRowPayloadJson digest firstAttempt

end Worked

/-- The worked failure is requeued as its second attempt. -/
theorem undecided_failures_redrivable_worked :
    (Worked.serve Worked.requeue
        (after Worked.serve Db.empty (Worked.opening ++ Worked.failing "[1]"))).1 =
        .ok (.count 1) ∧
      @Redriven digest "run-1"
        (after Worked.serve Db.empty (Worked.opening ++ Worked.failing "[1]"))
        (Worked.serve Worked.requeue
          (after Worked.serve Db.empty (Worked.opening ++ Worked.failing "[1]"))).2 := by
  have ok : (Worked.serve Worked.requeue
      (after Worked.serve Db.empty (Worked.opening ++ Worked.failing "[1]"))).1 =
      .ok (.count 1) := by
    decide +kernel
  refine ⟨ok, ?_⟩
  exact (@undecided_failures_redrivable digest Db.empty rfl
    (opening ++ failing "[1]")).2.2 _ leader _ ok

/-- **A payload that reads as purged is refused**: enqueued with the marker of its own id,
claimed and failed, the continuation keeps what it was claimed with, and the requeue of
the run is refused. -/
theorem requeue_refuses_claimed_marker :
    (after Worked.serve Db.empty
        (opening ++ failing marker)).tokenWorkItems.rows.map
        (fun item => (item.status, item.rowPayloadJson)) = [(.failed, marker)] ∧
      (after Worked.serve Db.empty
        (opening ++ failing marker)).tokenOutcomes.rows = [] ∧
      (Worked.serve Worked.requeue (after Worked.serve Db.empty
        (opening ++ failing marker))).1 =
        .error (.auditIntegrity (.requeuePurged "run-1")) := by
  decide +kernel

end Elspeth
