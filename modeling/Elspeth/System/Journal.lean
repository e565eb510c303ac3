import Elspeth.System.Service

/-!
# The journal and its event log

Rows of `token_work_items` and events of `scheduler_events` are written by
separate statements of some twenty verbs.  Here both are followed through
arbitrary histories: replaying the log gives the journal back, and every status
is left only along the edges of the state chart.

Each invariant is shown for one call, from the scope in which the call moves the
journal, and lifted to histories by the rules of `Relational.History`.
-/

namespace Elspeth

open Relational EventSourcing List Scope

section Histories

variable [Digest]

/-! ## One call -/

section OneCall

variable {call : Call} {db : Db}

/-- What births establish and the edges of the chart keep, every call keeps. -/
theorem serve_forall_items {good : TokenWorkItem → Prop} (call : Call)
    (born : ∀ item event, Born item event → good item)
    (edge : ∀ outcomes (action : Action) item, action.Enabled outcomes item → good item →
      good (action.next outcomes item))
    (before : ∀ item ∈ db.tokenWorkItems.rows, good item) :
    ∀ item ∈ (serve call db).2.tokenWorkItems.rows, good item := by
  have path := (serve_performs call db).travels
  refine Course.forall_rows path (fun item event allowed => born item event allowed.1) ?_ before
  rintro old new entry ⟨action, -, enabled, rfl, -⟩ goodOld
  exact edge _ action old enabled goodOld

/-- A row followed through one call: a preorder on rows that every edge within
the call's scope respects relates it to a row of the journal afterwards. -/
theorem serve_follows (relation : TokenWorkItem → TokenWorkItem → Prop) (call : Call) (db : Db)
    (reflexive : ∀ item, relation item item)
    (transitive : ∀ ⦃first second third⦄, relation first second → relation second third →
      relation first third)
    (edge : ∀ (action : Action) item,
      (call.request.scope db (itemReported (serve call db).1)).action action item →
      action.Enabled db.tokenOutcomes.rows item →
      relation item (action.next db.tokenOutcomes.rows item))
    {item : TokenWorkItem} (stored : item ∈ db.tokenWorkItems.rows) :
    ∃ later ∈ (serve call db).2.tokenWorkItems.rows, relation item later := by
  have path := (serve_performs call db).travels
  obtain ⟨kept, added, rows, related, -⟩ := Course.tracks reflexive transitive (by
    rintro old new entry ⟨action, allowed, enabled, rfl, -⟩
    exact edge action old allowed enabled) (unique_workItemId db.tokenWorkItems) path
  obtain ⟨later, laterMem, relates⟩ := mem_of_forall₂_left related stored
  refine ⟨later, ?_, relates⟩
  change later ∈ (serve call db).2.journal.rows
  rw [rows]
  exact mem_append_left added laterMem

end OneCall

/-! ## Replaying the log -/

/-- Folding the events yields exactly the stored items. -/
def Db.Replays (db : Db) : Prop :=
  Shows TokenWorkItem.workItemId TokenWorkItem.image db.tokenWorkItems.rows
    (replay SchedulerEvent.effect db.schedulerEvents)

variable {db : Db} {item : TokenWorkItem} {outcomes : List TokenOutcome} {action : Action}

theorem serve_replays (call : Call) (replays : db.Replays) : (serve call db).2.Replays :=
  Course.shows (lifecycle_logs _ _) (unique_workItemId db.tokenWorkItems)
    (serve_performs call db).travels replays

omit [Digest] in
theorem replays_of_empty (empty : db.tokenWorkItems.rows = []) (silent : db.schedulerEvents = []) :
    db.Replays := by
  intro name value
  rw [empty, silent]
  simp [replay]

/-! ## Statuses -/

/-- What a stored item's status says about its other columns. -/
def TokenWorkItem.Legal (item : TokenWorkItem) : Prop :=
  match item.status with
  | .leased => item.leaseExpiresAt ≠ none
  | .blocked => item.queueKey ≠ none ∨ item.barrierKey ≠ none
  | .pendingSink => item.leaseExpiresAt = none
  | _ => True

theorem Born.legal {event : SchedulerEvent} (born : Born item event) : item.Legal := by
  cases born with
  | ready => trivial
  | parked => rfl

theorem Action.next_legal (enabled : action.Enabled outcomes item) (legal : item.Legal) :
    (action.next outcomes item).Legal := by
  cases action with
  | claim => exact Option.some_ne_none _
  | renew =>
    have leased : item.status = .leased := enabled
    simp [TokenWorkItem.Legal, Action.next, leased]
  | rotate | requeue | finishSink | consume => trivial
  | release | handOff => rfl
  | dispose image databaseNow =>
    cases image with
    | blocked => exact enabled.2.2
    | terminal | failed => trivial
    | pendingSink => rfl
  | adopt | reset => exact legal

omit [Digest] in
/-- A terminal item is never written again. -/
theorem Action.not_enabled_of_terminal (terminal : item.status = .terminal) :
    ¬ action.Enabled outcomes item := by
  intro enabled
  cases action with
  | claim source =>
    cases source <;>
      simp [Enabled, ClaimSource.Offers, ClaimSource.status, terminal] at enabled
  | _ => simp [Enabled, undecidedFailedWork, terminal] at enabled

omit [Digest] in
/-- A failed item is written again only by a requeue, and only while undecided. -/
theorem Action.requeues_of_failed (failed : item.status = .failed)
    (enabled : action.Enabled outcomes item) :
    (∃ databaseNow, action = .requeue databaseNow) ∧
      workItemTokenDecided outcomes item = false := by
  cases action with
  | claim source =>
    cases source <;>
      simp [Enabled, ClaimSource.Offers, ClaimSource.status, failed] at enabled
  | requeue databaseNow =>
    refine ⟨⟨databaseNow, rfl⟩, ?_⟩
    simpa [Enabled, undecidedFailedWork, failed] using enabled
  | _ => simp [Enabled, failed] at enabled

/-- **Terminal items stay as they are**, one call at a time. -/
theorem serve_keeps_terminal (call : Call) (stored : item ∈ db.tokenWorkItems.rows)
    (terminal : item.status = .terminal) : item ∈ (serve call db).2.tokenWorkItems.rows := by
  obtain ⟨later, laterMem, same⟩ := serve_follows
    (fun item later => item.status = .terminal → later = item) call db (fun _ _ => rfl)
    (fun first second third left right terminal => by
      rw [right (by rw [left terminal, terminal]), left terminal])
    (fun action item _ enabled terminal =>
      absurd enabled (Action.not_enabled_of_terminal terminal)) stored
  rw [same terminal] at laterMem
  exact laterMem

/-- Only one request requeues. -/
theorem Request.requeues {request : Request} {reported : Option TokenWorkItem}
    {databaseNow : Time}
    (allowed : (request.scope db reported).action (.requeue databaseNow) item) :
    ∃ token, request = .requeueUndecidedFailedWork token ∧ item.runId = token.runId := by
  cases request with
  | requeueUndecidedFailedWork token => exact ⟨token, rfl, allowed.2⟩
  | _ =>
    simp [Request.scope, still, births, claiming, renewing,
      recovering, disposing, finishing, BarrierCompletion.scope,
      adopting, resetting] at allowed

/-- **A failed item is left as it is** by every call but a requeue of its run that
finds its token undecided. -/
theorem serve_keeps_failed (call : Call) (stored : item ∈ db.tokenWorkItems.rows)
    (failed : item.status = .failed) :
    item ∈ (serve call db).2.tokenWorkItems.rows ∨
      ∃ token, call.request = .requeueUndecidedFailedWork token ∧ item.runId = token.runId ∧
        workItemTokenDecided db.tokenOutcomes.rows item = false := by
  obtain ⟨later, laterMem, kept⟩ := serve_follows
    (fun item later => item.status = .failed → later = item ∨
      ∃ token, call.request = .requeueUndecidedFailedWork token ∧ item.runId = token.runId ∧
        workItemTokenDecided db.tokenOutcomes.rows item = false) call db
    (fun _ _ => Or.inl rfl)
    (fun first second third left right failed => by
      rcases left failed with rfl | requeued
      · exact right failed
      · exact Or.inr requeued)
    (fun action item allowed enabled failed => by
      obtain ⟨⟨databaseNow, rfl⟩, undecided⟩ := Action.requeues_of_failed failed enabled
      obtain ⟨token, request, run⟩ := Request.requeues allowed
      exact Or.inr ⟨token, request, run, undecided⟩) stored
  rcases kept failed with rfl | requeued
  · exact Or.inl laterMem
  · exact Or.inr requeued

/-! ## Histories -/

/-- **The journal and its log agree, and every transition is legal.**  In every
state a history reaches from an empty journal: replaying the log yields exactly
the stored items with their id, status, owner and attempt; terminal items are
still there, unchanged, after every continuation; a failed item is given up only
by a requeue of its run while its token is undecided; and every status carries
the columns it needs. -/
theorem journal_agrees_with_log {db : Db} (empty : db.tokenWorkItems.rows = [])
    (silent : db.schedulerEvents = []) (first second : List Call) :
    (∀ name image,
      replay SchedulerEvent.effect (after serve db first).schedulerEvents name = some image ↔
        ∃ item ∈ (after serve db first).tokenWorkItems.rows,
          item.workItemId = name ∧ item.image = image) ∧
    (∀ item ∈ (after serve db first).tokenWorkItems.rows, item.status = .terminal →
      item ∈ (after serve db (first ++ second)).tokenWorkItems.rows) ∧
    (∀ exchange ∈ exchanges serve db first,
      ∀ item ∈ exchange.before.tokenWorkItems.rows, item.status = .failed →
        item ∈ exchange.after.tokenWorkItems.rows ∨
          ∃ token, exchange.call.request = .requeueUndecidedFailedWork token ∧
            item.runId = token.runId ∧
            workItemTokenDecided exchange.before.tokenOutcomes.rows item = false) ∧
    ∀ item ∈ (after serve db first).tokenWorkItems.rows,
      (item.status = .leased → (∃ owner, item.leaseOwner = some owner ∧ owner ≠ "") ∧
        item.leaseExpiresAt ≠ none) ∧
      (item.status = .blocked → item.queueKey ≠ none ∨ item.barrierKey ≠ none) ∧
      (item.status = .pendingSink → item.leaseExpiresAt = none) := by
  refine ⟨?_, ?_, ?_, ?_⟩
  · exact after_induction Db.Replays (fun call _ => serve_replays call)
      (replays_of_empty empty silent) first
  · intro item stored terminal
    rw [after_append]
    exact after_induction (fun db : Db => item ∈ db.tokenWorkItems.rows)
      (fun call _ kept => serve_keeps_terminal call kept terminal) stored second
  · intro exchange member item stored failed
    obtain ⟨-, -, -, -, served⟩ := exchanges_split member
    rw [(Prod.mk.inj served).2]
    exact serve_keeps_failed exchange.call stored failed
  · intro item stored
    have legal : ∀ item ∈ (after serve db first).tokenWorkItems.rows, item.Legal := by
      refine after_induction (fun db : Db => ∀ item ∈ db.tokenWorkItems.rows, item.Legal)
        (fun call _ => serve_forall_items call (fun _ _ => Born.legal)
          fun _ _ _ => Action.next_legal) ?_ first
      simp [empty]
    have itemLegal := legal item stored
    unfold TokenWorkItem.Legal at itemLegal
    refine ⟨fun leased => ?_, fun blocked => ?_, fun parked => ?_⟩
    · rw [leased] at itemLegal
      obtain ⟨some, named⟩ := leased_owner _ stored leased
      obtain ⟨owner, same⟩ := Option.ne_none_iff_exists'.mp some
      exact ⟨⟨owner, same, fun unnamed => named (by rw [same, unnamed])⟩, itemLegal⟩
    · rwa [blocked] at itemLegal
    · rwa [parked] at itemLegal

end Histories

/-! ## A worked history

A run with a leader and a follower.  The follower claims the one continuation
and falls silent; the leader's sweep rotates its lease.  The identities of the
two attempts are digested by their SHA-256; ledger rows are told apart by a
plain rendering. -/

namespace Worked

def sha256 : List (String × String) :=
  [("run-1:token-1:enrich:1",
      "5ccc908f6523042bd3c41c356f16e1e72c2ef5620a54714ce99ccfd57b6d24b6"),
    ("run-1:token-1:enrich:2",
      "dfa7aa6b1acbe3ebfbdd7ac12f92d0141b6b0bac1d30cdbfe97e9f47cea581cb"),
    ("5ccc908f6523042bd3c41c356f16e1e72c2ef5620a54714ce99ccfd57b6d24b6",
      "b90fc6807e5490823d46260e52637c9ed6ba9bad5edfa1a6b2620cdaf7efb69e")]

def eventLabel : CoordinationEventType → String
  | .workerRegister => "worker_register"
  | .workerDepart => "worker_depart"
  | .workerEvict => "worker_evict"
  | .workerStalled => "worker_stalled"
  | .leaderAcquire => "leader_acquire"
  | .leaderRelease => "leader_release"
  | .leadershipLost => "leadership_lost"
  | .fenceRefusal => "fence_refusal"
  | .heartbeatDegraded => "heartbeat_degraded"
  | .finalize => "finalize"
  | .resumeRefused => "resume_refused"

@[reducible] def digest : Digest where
  sha256 text := (sha256.lookup text).getD text
  coordinationEventId event :=
    event.runId ++ "/" ++ event.workerId ++ "/" ++ eventLabel event.eventType ++ "/" ++
      toString event.recordedAt
  schedulerEventId event := event.workItemId ++ "/" ++ toString event.recordedAt

/-- The service under these digests. -/
abbrev serve : Call → Db → Response × Db := @Elspeth.serve digest

/-- A call during which no clock moves. -/
def call (now : Time) (request : Request) : Call where
  env :=
    { dialect := .sqlite
      decisionTime := fun _ => now
      decisionTime_mono := monotone_const
      transactionTime := fun _ => now
      transactionTime_mono := monotone_const
      processTime := now
      generatedId := fun count => "generated-" ++ toString count
      bestEffortLost := false }
  request

def leader : CoordinationToken := ⟨"run-1", "leader-1", 1⟩

def follower : WorkerMembershipToken := ⟨"run-1", "worker-1"⟩

/-- The graph, the source row and its tokens, as other repositories record them. -/
def graph : BystanderWrite where
  run _ := do
    nodesSlot.insert [⟨"enrich", "run-1", .transform⟩]
    rowsSlot.insert [⟨"row-1", "run-1", "source", some 0, 0, 0, 0⟩]
    tokensSlot.insert (["token-1", "token-2", "token-3", "token-4", "token-5"].map fun tokenId =>
      { tokenId, rowId := "row-1", runId := "run-1", joinGroupId := none, createdAt := 0 })
  respects _ := by
    refine .bind (Slot.insert_respects fun table session rows => ?_) fun _ =>
      .bind (Slot.insert_respects fun table session rows => ?_) fun _ =>
        Slot.insert_respects fun table session rows => ?_
    · exact ⟨⟨⟨rfl, forall₂_serves_refl _, prefix_rfl⟩, rfl, rfl⟩, prefix_rfl, prefix_rfl,
        prefix_rfl,
        ⟨_, rows.symm⟩⟩
    · exact ⟨⟨⟨rfl, forall₂_serves_refl _, prefix_rfl⟩, rfl, rfl⟩, prefix_rfl, prefix_rfl,
        ⟨_, rows.symm⟩,
        prefix_rfl⟩
    · exact ⟨⟨⟨rfl, forall₂_serves_refl _, prefix_rfl⟩, rfl, rfl⟩, prefix_rfl, ⟨_, rows.symm⟩,
        prefix_rfl,
        prefix_rfl⟩

/-- The continuation of the token at its node, first attempt. -/
def values : ReadyValues where
  tokenId := "token-1"
  rowId := "row-1"
  nodeId := some "enrich"
  stepIndex := 0
  ingestSequence := 0
  rowPayloadJson := "[1]"
  attempt := 1
  queueKey := none
  barrierKey := none
  onSuccessSink := none
  joinGroupId := none
  lineagePath := []
  coalesceNodeId := none
  coalesceName := none
  rowUnionName := none
  collectorName := none

/-- The run begins, its graph is recorded, the follower joins. -/
def opening : List Call :=
  [call 0 (.beginRun "run-1" "config" .running "leader-1"),
    call 0 (.plainWrite graph),
    call 0 (.admitFollower "run-1" "worker-1" "config" defaultRunLivenessWindow)]

/-- The follower enqueues and claims the continuation, and its lease is rotated. -/
def rotation : List Call :=
  [call 0 (.enqueueReady follower values),
    call 0 (.claimReady follower "worker-1" (300 * second)),
    call (1000 * second) (.recoverExpiredLeases leader 0 (1000 * second))]

/-- The first attempt of the continuation. -/
def firstAttempt : String :=
  "5ccc908f6523042bd3c41c356f16e1e72c2ef5620a54714ce99ccfd57b6d24b6"

/-- The follower claims the continuation and blocks it at a barrier. -/
def blocking : List Call :=
  [call 0 (.enqueueReady follower values),
    call 0 (.claimReady follower "worker-1" (300 * second)),
    call 0 (.markBlocked follower firstAttempt none (some "join") "[1]" "worker-1")]

end Worked

/-- The worked history from the freshly created database: the rotated item is the
only one, and it is what the log says. -/
theorem journal_agrees_with_log_worked :
    (after Worked.serve Db.empty (Worked.opening ++ Worked.rotation)).tokenWorkItems.rows.map
        TokenWorkItem.image = [⟨.ready, none, 2⟩] ∧
      ∀ name image,
        replay SchedulerEvent.effect
            (after Worked.serve Db.empty (Worked.opening ++ Worked.rotation)).schedulerEvents
            name = some image ↔
          ∃ item ∈
              (after Worked.serve Db.empty (Worked.opening ++ Worked.rotation)).tokenWorkItems.rows,
            item.workItemId = name ∧ item.image = image := by
  refine ⟨by decide +kernel, ?_⟩
  unfold Worked.serve
  exact (@journal_agrees_with_log Worked.digest Db.empty rfl rfl
    (Worked.opening ++ Worked.rotation) []).1

end Elspeth
