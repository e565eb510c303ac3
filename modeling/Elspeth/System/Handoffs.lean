import Elspeth.System.Journal

/-!
# Parked sink handoffs

A PENDING_SINK row is a promise that the sink write can be redone from the row
alone, so the claim of such a row refuses one whose bundle is incomplete.  The
dispositions and the source quarantine check the bundle they write.  A barrier
completion does not: it asks only that sink, outcome and path are named.  The
invariant therefore needs that every completion emits complete bundles, and a
completion that does not parks a row which no claim accepts.
-/

namespace Elspeth

open Relational EventSourcing Worked Txn Scope

section Histories

variable [Digest]

/-! ## Complete emissions -/

/-- An emission is complete beside the join group of its row: it has a payload and a sink, and
its outcome and path go with the error evidence and the join group they call for. -/
def BarrierEmission.Whole (emission : BarrierEmission) (joinGroupId : Option String) : Prop :=
  let goes (outcome path : String) := emission.outcome = some outcome ∧ emission.path = some path
  let clean := emission.errorHash = none ∧ emission.errorMessage = none
  let explained := (∃ hash ∈ emission.errorHash, hash ≠ "") ∧ emission.errorMessage ≠ none
  emission.rowPayloadJson ≠ "" ∧ (∃ sink ∈ emission.sinkName, sink ≠ "") ∧
    ((goes "success" "default_flow" ∨ goes "success" "gate_routed") ∧ clean ∨
      goes "success" "coalesced" ∧ (∃ group ∈ joinGroupId, group ≠ "") ∧ clean ∨
      goes "failure" "on_error_routed" ∧ explained ∨
      goes "failure" "quarantined_at_source" ∧ explained ∧ joinGroupId = none)

instance (emission : BarrierEmission) (joinGroupId : Option String) :
    Decidable (emission.Whole joinGroupId) := by
  unfold BarrierEmission.Whole
  infer_instance

/-- Every pending-sink emission is complete where the completion parks it: on the held row of its
token, or on the terminal lane with the join group of its own. -/
def BarrierCompletion.HandsOffWhole (completion : BarrierCompletion) (runId : String) (db : Db) :
    Prop :=
  (∀ emission ∈ completion.passthrough (completion.held runId db),
    ∀ row ∈ completion.held runId db, emission.tokenId = row.tokenId →
      emission.Whole row.joinGroupId) ∧
    ∀ emission ∈ completion.fresh (completion.held runId db), emission.Whole emission.joinGroupId

instance (completion : BarrierCompletion) (runId : String) (db : Db) :
    Decidable (completion.HandsOffWhole runId db) := by
  unfold BarrierCompletion.HandsOffWhole
  infer_instance

/-- The barrier completion behind a request, with its run. -/
def Request.completion : Request → Option (String × BarrierCompletion)
  | .completeBarrier token completion => some (token.runId, completion)
  | .markBlockedBarrierPendingSinkMany token barrierKey handoffs parkedLeaseOwner =>
    some (token.runId, handoffRelease barrierKey handoffs parkedLeaseOwner)
  | .markBlockedBarrierTerminal token barrierKey tokenIds releaseContext losses =>
    some (token.runId, terminalRelease barrierKey tokenIds releaseContext losses)
  | _ => none

/-- The request parks complete bundles only. -/
def Request.ParksWhole (request : Request) (db : Db) : Prop :=
  ∀ asked ∈ request.completion, asked.2.HandsOffWhole asked.1 db

instance (request : Request) (db : Db) : Decidable (request.ParksWhole db) := by
  unfold Request.ParksWhole
  infer_instance

/-! ## One call -/

omit [Digest] in
/-- A row with the fields of a complete emission carries a complete bundle. -/
theorem BarrierEmission.Whole.bundle {emission : BarrierEmission} {item : TokenWorkItem}
    (whole : emission.Whole item.joinGroupId)
    (payload : item.rowPayloadJson = emission.rowPayloadJson)
    (sink : item.pendingSinkName = emission.sinkName)
    (outcome : item.pendingOutcome = emission.outcome) (path : item.pendingPath = emission.path)
    (hash : item.pendingErrorHash = emission.errorHash)
    (message : item.pendingErrorMessage = emission.errorMessage) :
    pendingSinkBundle item = true := by
  obtain ⟨some_payload, ⟨name, named, some_name⟩, pair⟩ := whole
  have filled : (item.rowPayloadJson ≠ "" && item.pendingSinkName.any (· ≠ "")) = true := by
    simp_all
  unfold pendingSinkBundle pendingPair noErrorEvidence errorEvidence
  rw [filled, Bool.true_and, outcome, path, hash, message]
  rcases pair with ⟨⟨goes, goes'⟩ | ⟨goes, goes'⟩, clean, clean'⟩ |
    ⟨⟨goes, goes'⟩, ⟨group, joined, some_group⟩, clean, clean'⟩ |
    ⟨⟨goes, goes'⟩, ⟨digest, failed, some_digest⟩, explained⟩ |
    ⟨⟨goes, goes'⟩, ⟨⟨digest, failed, some_digest⟩, explained⟩, alone⟩
  all_goals simp_all [Option.isSome_iff_ne_none]

/-- A parked row carries a complete bundle. -/
def TokenWorkItem.ParkedWhole (item : TokenWorkItem) : Prop :=
  item.status = .pendingSink → pendingSinkBundle item = true

variable {runId leaseOwner workItemId : String} {emission : BarrierEmission} {databaseNow : Time}
  {parkedLeaseOwner : Option String} {request : Request} {db : Db} {reported : Option TokenWorkItem}
  {item : TokenWorkItem} {outcomes : List TokenOutcome} {raised : LandscapeError} {env : CallEnv}
  {conn : Conn} {lease : Int}

/-- Births of a request that parks whole bundles. -/
theorem Request.parkedWhole_of_birth (whole : request.ParksWhole db)
    (birth : (request.scope db reported).birth item) : item.ParkedWhole := by
  have ready : ∀ {identities}, readyBirth identities item → item.ParkedWhole := by
    rintro identities ⟨ready, -⟩ parked
    rw [ready] at parked
    cases parked
  have completed : ∀ {runId} {completion : BarrierCompletion},
      completion.HandsOffWhole runId db →
      (completion.scope runId (completion.held runId db)).birth item → item.ParkedWhole := by
    rintro runId completion handsOff (⟨ready, -⟩ | ⟨emission, fresh, -, _, _, _, _, rfl⟩) parked
    · rw [ready] at parked
      cases parked
    · exact (handsOff.2 emission fresh).bundle rfl rfl rfl rfl rfl rfl
  cases request with
  | enqueueReady | enqueueReadyClaimed | ingestRowWithInitialClaim | markWithReadyChildren =>
    exact ready birth
  | ingestQuarantineRowWithPendingSink => exact fun _ => birth.2
  | completeBarrier | markBlockedBarrierPendingSinkMany | markBlockedBarrierTerminal =>
    exact completed (whole _ rfl) birth
  | _ => exact birth.elim

/-- A handoff within a completion that parks whole bundles. -/
theorem BarrierCompletion.HandsOffWhole.handOff {completion : BarrierCompletion}
    (whole : completion.HandsOffWhole runId db)
    (allowed : (completion.scope runId (completion.held runId db)).action
      (.handOff emission parkedLeaseOwner databaseNow) item) :
    pendingSinkBundle
      ((Action.handOff emission parkedLeaseOwner databaseNow).next outcomes item) = true := by
  obtain ⟨held, ⟨_, -, other⟩ | ⟨handed, passes, _, token, same⟩⟩ := allowed
  · cases other
  · obtain ⟨rfl, rfl, rfl⟩ := Action.handOff.inj same
    have complete : emission.Whole
        ((Action.handOff emission completion.parkedLeaseOwner databaseNow).next outcomes
          item).joinGroupId := whole.1 emission passes item held token
    exact complete.bundle rfl rfl rfl rfl rfl rfl

/-- Edges of a request that parks whole bundles. -/
theorem Request.parkedWhole_of_action {action : Action} (whole : request.ParksWhole db)
    (allowed : (request.scope db reported).action action item)
    (enabled : action.Enabled outcomes item) (before : item.ParkedWhole) :
    (action.next outcomes item).ParkedWhole := by
  intro parked
  cases action with
  | claim | rotate | requeue | finishSink | consume => cases parked
  | renew | adopt | reset => exact before parked
  | release => exact enabled.2
  | dispose image databaseNow =>
    cases image with
    | pendingSink => exact enabled.2.2
    | blocked | terminal | failed => cases parked
  | handOff =>
    cases request with
    | completeBarrier | markBlockedBarrierPendingSinkMany | markBlockedBarrierTerminal =>
      exact (whole _ rfl).handOff allowed
    | _ =>
      simp [Request.scope, still, births, claiming, renewing,
        recovering, requeueing, disposing, finishing,
        adopting, resetting] at allowed

/-- **A call that parks whole bundles leaves only whole bundles parked.** -/
theorem serve_parkedWhole {call : Call} (whole : call.request.ParksWhole db)
    (before : ∀ item ∈ db.tokenWorkItems.rows, item.ParkedWhole) :
    ∀ item ∈ (serve call db).2.tokenWorkItems.rows, item.ParkedWhole := by
  refine Course.forall_rows (serve_performs call db).travels ?_ ?_ before
  · rintro item event ⟨-, birth⟩
    exact Request.parkedWhole_of_birth whole birth
  · rintro old new entry ⟨action, allowed, enabled, rfl, -⟩ parked
    exact Request.parkedWhole_of_action whole allowed enabled parked

/-! ## Claims -/

/-- The error is not the refusal of an incomplete bundle. -/
def AcceptsBundle (raised : LandscapeError) : Prop :=
  ∀ runId workItemId, raised ≠ incompleteBundle runId workItemId

omit [Digest] in
theorem LandscapeError.OfFence.acceptsBundle (fence : raised.OfFence) : AcceptsBundle raised := by
  rintro runId workItemId rfl
  exact fence

omit [Digest] in
theorem settleClaim_raises {event : SchedulerEvent} {expiresAt : Time} {rowcount : Nat}
    (ran : settleClaim env event leaseOwner expiresAt lease rowcount conn = .error raised) :
    AcceptsBundle raised := by
  rcases bind_eq_error.mp ran with lost | ⟨_, _, -, ran⟩
  · rw [← (ensure_eq_error.mp lost).2]
    rintro _ _ ⟨⟩
  rcases bind_eq_error.mp ran with deadline | ⟨_, _, -, ran⟩
  · exact (recordIssuedDeadline_raises deadline).acceptsBundle
  rcases bind_eq_error.mp ran with recorded | ⟨_, _, -, ran⟩
  · simp [recordEvents] at recorded
  rcases bind_eq_error.mp ran with select | ⟨claimed, _, -, ran⟩
  · simp at select
  cases claimed with
  | nil =>
    rw [← raise_eq_error.mp ran]
    rintro _ _ ⟨⟩
  | cons => simp at ran

omit [Digest] in
theorem classifyMissedPendingSink_raises
    (whole : ∀ item ∈ conn.db.tokenWorkItems.rows, item.ParkedWhole)
    (ran : classifyMissedPendingSink workItemId runId leaseOwner conn = .error raised) :
    AcceptsBundle raised := by
  simp only [classifyMissedPendingSink, bind_eq_error, Slot.select_eq_error,
    Slot.select_eq_ok, query_eq_error, query_eq_ok, false_or] at ran
  obtain ⟨still, _, ⟨stillRows, rfl⟩, _, _, ⟨-, rfl⟩, inner⟩ := ran
  cases still with
  | nil => simp at inner
  | cons row rest =>
    have member : row ∈ _ := stillRows ▸ List.mem_cons_self
    obtain ⟨stored, hit⟩ := List.mem_filter.mp member
    simp only [Bool.and_eq_true, decide_eq_true_eq] at hit
    simp only [whole row stored hit.2, if_true, ite_eq_error, raise_eq_error,
      pure_eq_error, and_false, or_false] at inner
    rw [← inner.2]
    rintro _ _ ⟨⟩

omit [Digest] in
theorem claimPendingSinkRow_raises
    (whole : ∀ item ∈ conn.db.tokenWorkItems.rows, item.ParkedWhole)
    (ran : claimPendingSinkRow env workItemId runId leaseOwner lease conn = .error raised) :
    AcceptsBundle raised := by
  rcases bind_eq_error.mp ran with select | ⟨locked, conn, select, inner⟩
  · simp at select
  obtain ⟨-, rfl⟩ := Slot.select_eq_ok.mp select
  cases locked with
  | nil => simp at inner
  | cons row rest =>
    simp only [bind_eq_error, readLandscapeDecisionTime_eq_ok, query_eq_error,
      query_eq_ok, false_or] at inner
    rcases inner with never | ⟨databaseNow, _, ⟨-, rfl⟩, workers, _, ⟨-, rfl⟩, inner⟩
    · simp at never
    rcases inner with broken | ⟨count, updated, update, inner⟩
    · obtain ⟨violation, -, rfl⟩ := Slot.update_eq_error.mp broken
      rintro _ _ ⟨⟩
    rcases ite_eq_error.mp inner with ⟨rfl, missed⟩ | ⟨-, settle⟩
    · -- Nothing was claimed, so the row is judged as it is stored.
      have same : updated = _ := claim_missed (fun item hit => by
        simp only [claimablePendingSink, Bool.and_eq_true, decide_eq_true_eq] at hit
        exact hit.1.1.1.1) update
      rw [same] at missed
      refine classifyMissedPendingSink_raises ?_ missed
      exact whole
    · exact settleClaim_raises settle

omit [Digest] in
/-- Over whole bundles the pending-sink claim never refuses one as incomplete. -/
theorem claimPendingSinkOn_raises (whole : ∀ item ∈ conn.db.tokenWorkItems.rows, item.ParkedWhole)
    (ran : claimPendingSinkOn env runId leaseOwner lease conn = .error raised) :
    AcceptsBundle raised := by
  rcases bind_eq_error.mp ran with select | ⟨parked, conn, select, inner⟩
  · simp at select
  obtain ⟨parkedRows, rfl⟩ := Slot.select_eq_ok.mp select
  rcases first : (sortRows TokenWorkItem.claimKey parked).head? with _ | row <;> rw [first] at inner
  · simp at inner
  · have member := List.mem_of_head? first
    rw [mem_sortRows, parkedRows] at member
    obtain ⟨stored, hit⟩ := List.mem_filter.mp member
    simp only [Bool.and_eq_true, decide_eq_true_eq] at hit
    rcases bind_eq_error.mp inner with refused | ⟨_, _, checked, claim⟩
    · exact absurd (whole row stored hit.2) (ensure_eq_error.mp refused).1
    · rw [(ensure_eq_ok.mp checked).2] at claim
      exact claimPendingSinkRow_raises whole claim

theorem claimPendingSink_raises {token : CoordinationToken}
    (whole : ∀ item ∈ db.tokenWorkItems.rows, item.ParkedWhole)
    (ran : (claimPendingSink env token leaseOwner lease db).1 = .error raised) :
    AcceptsBundle raised := by
  unfold claimPendingSink at ran
  split at ran
  · rcases fencedLeaderTransaction_raises ran with fence | ⟨-, opened, -, renewed, inner⟩
    · exact fence.acceptsBundle
    · obtain ⟨table, -, openedDb⟩ := renewed
      exact claimPendingSinkOn_raises (openedDb ▸ whole) inner
  · cases ran
    rintro _ _ ⟨⟩

/-! ## Histories -/

/-- **Every parked handoff is claimable**, in every history from an empty journal whose barrier
completions emit complete bundles only: every PENDING_SINK row carries a complete bundle, and
no claim of a parked row is refused for an incomplete one. -/
theorem parked_handoffs_claimable {db : Db} {calls : List Call}
    (empty : db.tokenWorkItems.rows = [])
    (whole : Complies serve (fun db call => call.request.ParksWhole db) db calls) :
    (∀ item ∈ (after serve db calls).tokenWorkItems.rows, item.status = .pendingSink →
        pendingSinkBundle item = true) ∧
      ∀ env token leaseOwner lease runId workItemId,
        (serve ⟨env, .claimPendingSink token leaseOwner lease⟩ (after serve db calls)).1 ≠
          .error (incompleteBundle runId workItemId) := by
  have parked : ∀ item ∈ (after serve db calls).tokenWorkItems.rows, item.ParkedWhole := by
    refine complies_induction (fun db : Db => ∀ item ∈ db.tokenWorkItems.rows, item.ParkedWhole)
      (fun call db whole before => serve_parkedWhole whole before) ?_ whole
    simp [empty]
  refine ⟨parked, ?_⟩
  intro env token leaseOwner lease runId workItemId refused
  simp only [serve, answer] at refused
  rcases ran : (claimPendingSink env token leaseOwner lease (after serve db calls)).1 with _ | _ <;>
    rw [ran] at refused <;> cases refused
  exact claimPendingSink_raises parked ran _ _ rfl

end Histories

namespace Worked

/-- The completion that hands the blocked token to a sink along the given path. -/
def handingOff (path : String) : Call :=
  call 0 (.markBlockedBarrierPendingSinkMany leader "join"
    [⟨"token-1", "[1]", "out", "success", path, none, none⟩] none)

end Worked

/-- Handed off along the default path the worked continuation is claimable. -/
theorem parked_handoffs_claimable_worked :
    (after Worked.serve Db.empty (Worked.opening ++ Worked.blocking ++
        [handingOff "default_flow"])).tokenWorkItems.rows.map TokenWorkItem.status =
        [.pendingSink] ∧
      ∀ item ∈ (after Worked.serve Db.empty (Worked.opening ++ Worked.blocking ++
          [handingOff "default_flow"])).tokenWorkItems.rows,
        item.status = .pendingSink → pendingSinkBundle item = true := by
  have whole : Complies Worked.serve (fun db call => call.request.ParksWhole db) Db.empty
      (opening ++ blocking ++ [handingOff "default_flow"]) := by
    decide +kernel
  refine ⟨by decide +kernel, ?_⟩
  unfold Worked.serve at whole ⊢
  exact (@parked_handoffs_claimable digest Db.empty
    (opening ++ blocking ++ [handingOff "default_flow"]) rfl whole).1

/-- **A completion parks a bundle no claim accepts**: handed off as coalesced, a token
without a join group is parked, and the claim of it is refused as incomplete. -/
theorem completion_parks_incomplete_bundle :
    (∃ item ∈ (after Worked.serve Db.empty (Worked.opening ++ Worked.blocking ++
        [handingOff "coalesced"])).tokenWorkItems.rows,
      item.status = .pendingSink ∧ pendingSinkBundle item = false) ∧
      (Worked.serve (Worked.call 0 (.claimPendingSink Worked.leader "leader-1" (300 * second)))
        (after Worked.serve Db.empty (Worked.opening ++ Worked.blocking ++
          [handingOff "coalesced"]))).1 =
        .error (incompleteBundle "run-1" Worked.firstAttempt) := by
  decide +kernel

end Elspeth
