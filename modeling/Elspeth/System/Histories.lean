import Elspeth.System.Leadership
import Elspeth.System.StaleLeases

/-!
# What histories keep

Facts about every history, by any number of workers and leaders and beside other runs.
-/

namespace Elspeth

open Relational EventSourcing List TokenWorkItem Worked

section Histories

variable [Digest] {db : Db} {call : Call} {calls : List Call}

/-- **The journal followed through a call**, along a preorder that its actions respect. -/
theorem serve_tracks {relation : TokenWorkItem → TokenWorkItem → Prop}
    {born : TokenWorkItem → Prop} (reflexive : ∀ item, relation item item)
    (transitive : ∀ ⦃first second third⦄, relation first second → relation second third →
      relation first third)
    (births : ∀ reported item event, Born item event →
      (call.request.scope db reported).birth item → born item)
    (edges : ∀ reported (action : Action) item,
      (call.request.scope db reported).action action item →
      action.Enabled db.tokenOutcomes.rows item →
        relation item (action.next db.tokenOutcomes.rows item)) :
    Tracks relation born db.tokenWorkItems.rows (serve call db).2.tokenWorkItems.rows := by
  obtain ⟨kept, added, rows, related, origins⟩ := Course.tracks reflexive transitive (by
    rintro old new entry ⟨action, allowed, enabled, rfl, -⟩
    exact edges _ action old allowed enabled)
    (unique_workItemId _) (serve_performs call db).travels
  refine ⟨kept, added, rows, related, fun item member => ?_⟩
  obtain ⟨first, ⟨event, first_born, allowed⟩, relates⟩ := origins item member
  exact ⟨first, births _ first event first_born allowed, relates⟩

/-! ## Work is conserved -/

/-- What stays the same about an item whatever is done with it. -/
def TokenWorkItem.origin (item : TokenWorkItem) :=
  (item.lane, item.rowId, item.ingestSequence, item.stepIndex, item.lineagePath, item.createdAt)

/-- An item after some calls: it works for the same token, its attempt has not fallen, and
while the attempt is the same it has the same id. -/
structure Continues (item later : TokenWorkItem) : Prop where
  origin : later.origin = item.origin
  attempt : item.attempt ≤ later.attempt
  named : later.attempt = item.attempt → later.workItemId = item.workItemId

omit [Digest] in
theorem Continues.trans {first second third : TokenWorkItem} (left : Continues first second)
    (right : Continues second third) : Continues first third where
  origin := right.origin.trans left.origin
  attempt := left.attempt.trans right.attempt
  named same := by
    have middle : second.attempt = first.attempt :=
      le_antisymm (right.attempt.trans same.le) left.attempt
    rw [right.named (same.trans middle.symm), left.named middle]

theorem Action.next_continues (outcomes : List TokenOutcome) (action : Action)
    (item : TokenWorkItem) : Continues item (action.next outcomes item) := by
  cases action with
  | rotate | requeue => exact ⟨rfl, Nat.le_succ _, fun same => absurd same (Nat.succ_ne_self _)⟩
  | dispose image => cases image <;> exact ⟨rfl, le_rfl, fun _ => rfl⟩
  | _ => exact ⟨rfl, le_rfl, fun _ => rfl⟩

/-- **The audit trail is append-only**: outcomes and events of every earlier state stay, in
order, so a token that is decided stays decided. -/
theorem audit_append_only (calls : List Call) (db : Db) :
    db.tokenOutcomes.rows <+: (after serve db calls).tokenOutcomes.rows ∧
      db.schedulerEvents <+: (after serve db calls).schedulerEvents ∧
      ∀ item, workItemTokenDecided db.tokenOutcomes.rows item = true →
        workItemTokenDecided (after serve db calls).tokenOutcomes.rows item = true := by
  have grows : db.tokenOutcomes.rows <+: (after serve db calls).tokenOutcomes.rows ∧
      db.schedulerEvents <+: (after serve db calls).schedulerEvents := by
    induction calls generalizing db with
    | nil => exact ⟨prefix_rfl, prefix_rfl⟩
    | cons call calls ih =>
      have performs := serve_performs call db
      exact ⟨performs.outcomes.trans (ih _).1,
        (Course.events_prefix performs.travels).trans (ih _).2⟩
  refine ⟨grows.1, grows.2, fun item decided => ?_⟩
  obtain ⟨outcome, recorded, decides⟩ := any_eq_true.mp decided
  exact any_eq_true.mpr ⟨outcome, grows.1.subset recorded, decides⟩

/-! ## What remains of a run -/

namespace TokenWorkItem

variable (item : TokenWorkItem)

def activeWork : Bool :=
  item.status ∈ [TokenWorkStatus.ready, .leased, .blocked, .pendingSink]

/-- Work that has not reached a durable sink handoff. -/
def unresolvedWork : Bool :=
  item.status ∈ [TokenWorkStatus.ready, .blocked] ||
    item.status = .leased && item.pendingSinkName = none

/-- Work that can still produce a new barrier arrival. -/
def unquiescedWork : Bool :=
  item.status = .ready || item.status = .leased && item.pendingSinkName = none

end TokenWorkItem

def Db.countWork (remains : TokenWorkItem → Bool) (runId : String) (db : Db) : Nat :=
  db.tokenWorkItems.rows.countP fun item => item.runId = runId && remains item

def Db.countActiveWork := countWork activeWork

def Db.countUnresolvedWork := countWork unresolvedWork

def Db.countUnquiescedWork := countWork unquiescedWork

omit [Digest] in
/-- The failed items a request requeues. -/
def Request.requeued (db : Db) : Request → List TokenWorkItem
  | .requeueUndecidedFailedWork token => undecidedFailures token.runId db
  | _ => []

omit [Digest] in
/-- In this state the request neither inserts items of the run nor requeues failed ones. -/
def Request.AddsNoWork (runId : String) (db : Db) (request : Request) : Prop :=
  (∀ identity ∈ request.inserts db, identity.runId ≠ runId) ∧
    ∀ item ∈ request.requeued db, item.runId ≠ runId

omit [Digest] in
instance (runId : String) (db : Db) (request : Request) :
    Decidable (request.AddsNoWork runId db) :=
  inferInstanceAs (Decidable ((∀ identity ∈ request.inserts db, identity.runId ≠ runId) ∧
    ∀ item ∈ request.requeued db, item.runId ≠ runId))

/-- Only a requeue makes remaining work of an item that was none. -/
theorem Action.remains_of_next {outcomes : List TokenOutcome} {action : Action}
    {item : TokenWorkItem} (enabled : action.Enabled outcomes item)
    (other : ∀ now, action ≠ .requeue now) :
    ∀ remains ∈ [activeWork, unresolvedWork, unquiescedWork],
      remains (action.next outcomes item) = true → remains item = true := by
  cases action with
  | requeue => exact absurd rfl (other _)
  | claim source =>
    -- A sink lease is no producer work: its row names the sink.
    have named (sink : source = .pendingSink) : item.pendingSinkName ≠ none :=
      Option.isSome_iff_ne_none.mp (pendingSinkBundle_named (enabled.2 sink))
    cases source <;> simp_all [Enabled, ClaimSource.Offers, ClaimSource.status, next, leasedTo,
      activeWork, unresolvedWork, unquiescedWork]
  | dispose => simp [activeWork, unresolvedWork, unquiescedWork, enabled.1, enabled.2.1]
  | _ =>
    simp_all [Enabled, next, terminalized, sinkRedriveShaped, activeWork, unresolvedWork,
      unquiescedWork]

variable {runId : String}

/-- A requeue that finds nothing changes nothing. -/
theorem serve_requeues_nothing {env : CallEnv} {token : CoordinationToken}
    (none : undecidedFailures token.runId db = []) :
    (serve ⟨env, .requeueUndecidedFailedWork token⟩ db).2.tokenWorkItems.rows =
      db.tokenWorkItems.rows := by
  let unchanged (journal : Ledger TokenWorkItem SchedulerEvent) : Prop :=
    journal.rows = db.tokenWorkItems.rows
  have before : unchanged db.journal := rfl
  refine journal_of_answer (requeueUndecidedFailedWork_settles token) before ?_
  rintro count opened closed ⟨table, -, same⟩ ran
  obtain ⟨items, databaseNow, rows, closedDb⟩ := (requeueUndecidedFailedWorkOn_ok ran).1.written
  have nothing : undecidedFailures token.runId opened.db = [] := by
    rw [same]
    exact none
  rw [nothing, map_nil, editRows_nil, same] at rows
  rw [closedDb]
  exact rows

/-- **One call that adds no work** raises none of the counts. -/
theorem serve_countWork_le (adds : call.request.AddsNoWork runId db) :
    ∀ remains ∈ [activeWork, unresolvedWork, unquiescedWork],
      (serve call db).2.countWork remains runId ≤ db.countWork remains runId := by
  intro remains listed
  obtain ⟨env, request⟩ := call
  by_cases requeue : ∃ token, request = .requeueUndecidedFailedWork token ∧ token.runId = runId
  · obtain ⟨token, rfl, rfl⟩ := requeue
    have none : undecidedFailures token.runId db = [] :=
      eq_nil_iff_forall_not_mem.mpr fun item failed =>
        adds.2 item failed (mem_undecidedFailures.mp failed).2.1
    rw [Db.countWork, serve_requeues_nothing none]
    rfl
  · refine Tracks.countP_le (serve_tracks ?_ ?_ ?_ ?_)
    · exact fun _ => id
    · exact fun _ _ _ first second => first ∘ second
    · intro _ item _ _ birth
      have other : item.runId ≠ runId := adds.1 item.identity (Request.inserts_of_birth birth)
      simp [other]
    · intro _ action item allowed enabled counted
      simp only [Bool.and_eq_true, decide_eq_true_eq] at counted ⊢
      have own : item.runId = runId :=
        (congrArg Lane.runId (action.next_lane db.tokenOutcomes.rows item)).symm.trans counted.1
      refine ⟨own, Action.remains_of_next enabled (fun now requeues => ?_) remains listed
        counted.2⟩
      obtain ⟨token, same, run⟩ := Request.requeues (requeues ▸ allowed)
      exact requeue ⟨token, same, run.symm.trans own⟩

/-- **What remains of a run only shrinks.** The counts that decide quiescence and completion do
not rise unless a call inserts items of the run or requeues failed ones. -/
theorem remaining_work_shrinks
    (adds : Complies serve (fun db call => call.request.AddsNoWork runId db) db calls) :
    (after serve db calls).countActiveWork runId ≤ db.countActiveWork runId ∧
      (after serve db calls).countUnresolvedWork runId ≤ db.countUnresolvedWork runId ∧
      (after serve db calls).countUnquiescedWork runId ≤ db.countUnquiescedWork runId := by
  have each : ∀ remains ∈ [activeWork, unresolvedWork, unquiescedWork],
      (after serve db calls).countWork remains runId ≤ db.countWork remains runId := by
    intro remains listed
    refine complies_induction
      (fun reached => reached.countWork remains runId ≤ db.countWork remains runId)
      (fun call reached adds counted => ?_) le_rfl adds
    exact (serve_countWork_le adds remains listed).trans counted
  exact ⟨each _ (by simp), each _ (by simp), each _ (by simp)⟩

end Histories

namespace Worked

/-- The counts of active, unresolved and unquiesced work of the worked run. -/
def counts (db : Db) : Nat × Nat × Nat :=
  (db.countActiveWork "run-1", db.countUnresolvedWork "run-1", db.countUnquiescedWork "run-1")

/-- The release of the barrier at which the worked item is blocked. -/
def releasing : Call := call 0 (.markBlockedBarrierTerminal leader "join" ["token-1"] none [])

end Worked

/-- The claim, the block and the release of the worked item, after its enqueue: what is blocked
at a barrier is unresolved, but no longer unquiesced. -/
theorem remaining_work_shrinks_worked :
    counts (after Worked.serve Db.empty (opening ++ blocking.take 1)) = (1, 1, 1) ∧
      counts (after Worked.serve Db.empty (opening ++ blocking)) = (1, 1, 0) ∧
      counts (after Worked.serve Db.empty (opening ++ blocking ++ [releasing])) = (0, 0, 0) ∧
      (after Worked.serve (after Worked.serve Db.empty (opening ++ blocking.take 1))
          (blocking.drop 1 ++ [releasing])).countUnquiescedWork "run-1" ≤
        (after Worked.serve Db.empty (opening ++ blocking.take 1)).countUnquiescedWork "run-1" := by
  have adds : Complies Worked.serve (fun db call => call.request.AddsNoWork "run-1" db)
      (after Worked.serve Db.empty (opening ++ blocking.take 1))
      (blocking.drop 1 ++ [releasing]) := by decide +kernel
  refine ⟨by decide +kernel, by decide +kernel, by decide +kernel, ?_⟩
  exact (@remaining_work_shrinks Worked.digest _ _ "run-1" adds).2.2

end Elspeth
