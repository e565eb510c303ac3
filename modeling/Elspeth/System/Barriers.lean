import Elspeth.System.Failures

/-!
# Barrier completions

What a strict completion does, said of each row: a BLOCKED row of the barrier, in
scope and in the snapshot, becomes what its token is named for, every other row
stays, and behind them stand the rows of the emissions.

Ready emissions are claimed in emission order.  Two facts carry this over any
history: a READY row stays as it is until some exchange grants it, and a claim
takes the first available row by `(ingest_sequence, step_index, created_at)`.
A completion stamps its ready rows with strictly increasing creation times, and
none becomes available after its successor.
-/

namespace Elspeth

open Relational EventSourcing List Worked

namespace BarrierCompletion

/-- The completion answers for the row: a BLOCKED row of its barrier, in scope, whose
token lies in the snapshot where there is one. -/
def answersFor (completion : BarrierCompletion) (runId : String) (row : TokenWorkItem) : Bool :=
  completion.holds runId row && completion.snapshot.all (row.tokenId ∈ ·)

variable [Digest]

/-- What becomes of a row: consumed it is TERMINAL with a scrubbed payload and no owner, handed
off it is PENDING_SINK with the bundle of its emission; id and attempt stay. -/
def settled (completion : BarrierCompletion) (runId : String) (databaseNow : Time)
    (row : TokenWorkItem) : TokenWorkItem :=
  if completion.answersFor runId row then
    if row.tokenId ∈ completion.consumed then
      { row with
        status := .terminal, rowPayloadJson := scrubbedRowPayloadJson completion.barrierKey
        leaseOwner := none, leaseExpiresAt := none, updatedAt := databaseNow }
    else
      match completion.pendingSink.find? (·.tokenId = row.tokenId) with
      | some emission =>
        { row with
          status := .pendingSink, rowPayloadJson := emission.rowPayloadJson
          pendingSinkName := emission.sinkName, pendingOutcome := emission.outcome
          pendingPath := emission.path, pendingErrorHash := emission.errorHash
          pendingErrorMessage := emission.errorMessage, leaseOwner := completion.parkedLeaseOwner
          leaseExpiresAt := none, updatedAt := databaseNow }
      | none => row
  else row

/-- The event of a row the completion answers for. -/
def releaseEvent (completion : BarrierCompletion) (heldRows : List TokenWorkItem)
    (databaseNow : Time) (row : TokenWorkItem) : SchedulerEvent :=
  if row.tokenId ∈ completion.consumed then
    transitionEvent .markBlockedBarrierTerminal row .terminal none databaseNow none
      completion.releaseEventContext
  else
    transitionEvent .markPendingSink row .pendingSink completion.parkedLeaseOwner databaseNow
      none (completion.emissionContext heldRows)

/-- The completion in full: each row it answers for is consumed or handed off, not both;
the rows of before are settled in their places; new rows are the emissions', each with its
event; and the count is that of the rows made TERMINAL. -/
structure Exact (completion : BarrierCompletion) (runId : String) (count : Nat)
    (databaseNow : Time) (pending ready : List (TokenWorkItem × SchedulerEvent))
    (before after : Db) : Prop where
  decided : ∀ row ∈ before.tokenWorkItems.rows, completion.answersFor runId row = true →
    Xor (row.tokenId ∈ completion.consumed)
      (row.tokenId ∈ completion.pendingSink.map BarrierEmission.tokenId)
  emits : completion.Emits runId (completion.held runId before) databaseNow pending ready
  rows : after.tokenWorkItems.rows =
    before.tokenWorkItems.rows.map (completion.settled runId databaseNow) ++
      (pending ++ ready).map Prod.fst
  events : ∃ released : List SchedulerEvent,
    released.Perm ((before.tokenWorkItems.rows.filter (completion.answersFor runId)).map
      (completion.releaseEvent (completion.held runId before) databaseNow)) ∧
    after.schedulerEvents =
      before.schedulerEvents ++ (released ++ (pending ++ ready).map Prod.snd)
  counted : count = before.tokenWorkItems.rows.countP fun row =>
    completion.answersFor runId row && row.tokenId ∈ completion.consumed

section Exact

variable {completion : BarrierCompletion} {runId : String} {db : Db} {row : TokenWorkItem}

omit [Digest] in
theorem answersFor_iff :
    completion.answersFor runId row = true ↔
      completion.holds runId row = true ∧ ∀ snapshot ∈ completion.snapshot,
        row.tokenId ∈ snapshot := by
  simp [answersFor, Option.all_eq_true]

/-- What a strict completion checks against the rows it holds. -/
structure Strict (completion : BarrierCompletion) (held : List TokenWorkItem) : Prop where
  handedInSnapshot : ∀ snapshot ∈ completion.snapshot,
    (completion.passthrough held).map BarrierEmission.tokenId ⊆ snapshot
  covered : ∀ row ∈ held, completion.covered held row.tokenId = true

variable {held : List TokenWorkItem} {tokenId : String} {databaseNow : Time} {count : Nat}

omit [Digest] in
theorem strict_of_checked {rows : List TokenWorkItem} (strict : completion.exhaustive = true)
    (checked : firstFault (completion.heldChecks runId rows held) = none) :
    completion.Strict held := by
  have holds := firstFault_eq_none.mp checked
  simp only [heldChecks, forall_mem_append, forall_mem_cons, strict, Bool.not_true,
    Bool.false_or, all_eq_true, forall_mem_map] at holds
  obtain ⟨-, handed, covered, -⟩ := holds
  refine ⟨fun snapshot given => ?_, covered⟩
  rw [given] at handed
  exact of_decide_eq_true handed

omit [Digest] in
theorem mem_passthrough_tokens (durable : tokenId ∈ held.map TokenWorkItem.tokenId) :
    tokenId ∈ (completion.passthrough held).map BarrierEmission.tokenId ↔
      tokenId ∈ completion.pendingSink.map BarrierEmission.tokenId := by
  simp only [passthrough, mem_map, mem_filter, decide_eq_true_eq]
  constructor
  · rintro ⟨emission, ⟨member, -⟩, rfl⟩
    exact ⟨emission, member, rfl⟩
  · rintro ⟨emission, member, rfl⟩
    exact ⟨emission, ⟨member, mem_map.mp durable⟩, rfl⟩

omit [Digest] in
theorem exists_find?_of_mem {emissions : List BarrierEmission}
    (named : tokenId ∈ emissions.map BarrierEmission.tokenId) :
    ∃ emission, emissions.find? (·.tokenId = tokenId) = some emission := by
  obtain ⟨emission, member, same⟩ := mem_map.mp named
  exact Option.isSome_iff_exists.mp
    (find?_isSome.mpr ⟨emission, member, decide_eq_true same⟩)

omit [Digest] in
theorem find?_passthrough (durable : row ∈ held) :
    (completion.passthrough held).find? (·.tokenId = row.tokenId) =
      completion.pendingSink.find? (·.tokenId = row.tokenId) := by
  unfold passthrough
  rw [find?_filter]
  congr 1
  funext emission
  by_cases same : emission.tokenId = row.tokenId
  · simp [same, mem_map_of_mem durable]
  · simp [same]

section

variable (accepted : completion.Accepted)
include accepted

section

variable (strict : completion.Strict (completion.held runId db))
include strict

omit [Digest] in
theorem Accepted.decided (stored : row ∈ db.tokenWorkItems.rows)
    (answers : completion.answersFor runId row = true) :
    Xor (row.tokenId ∈ completion.consumed)
      (row.tokenId ∈ completion.pendingSink.map BarrierEmission.tokenId) := by
  obtain ⟨holds, inSnapshot⟩ := answersFor_iff.mp answers
  have durable := mem_held.mpr ⟨stored, holds⟩
  have covered := strict.covered row durable
  simp only [BarrierCompletion.covered, Bool.or_eq_true, decide_eq_true_eq,
    mem_passthrough_tokens (mem_map_of_mem durable)] at covered
  rcases covered with (outside | consumed) | handed
  · obtain ⟨snapshot, given, outside⟩ := (Option.any_eq_true _ _).mp outside
    exact absurd (inSnapshot snapshot given) (of_decide_eq_true outside)
  · exact Or.inl ⟨consumed, accepted.apart _ consumed⟩
  · exact Or.inr ⟨handed, fun consumed => accepted.apart _ consumed handed⟩

/-- The rows a completion replaces are those it answers for. -/
theorem mem_releases_iff (stored : row ∈ db.tokenWorkItems.rows) :
    (∃ pair ∈ completion.releases (completion.held runId db) databaseNow, pair.1 = row) ↔
      completion.answersFor runId row = true := by
  constructor
  · rintro ⟨pair, member, rfl⟩
    rcases mem_append.mp member with consumed | handed
    · obtain ⟨row, rowMem, rfl⟩ := mem_map.mp consumed
      obtain ⟨durable, consumed⟩ := mem_consumedRows.mp rowMem
      exact answersFor_iff.mpr ⟨(mem_held.mp durable).2, fun snapshot given =>
        accepted.consumedInSnapshot snapshot given consumed⟩
    · obtain ⟨pair, pairMem, rfl⟩ := mem_map.mp handed
      obtain ⟨emitted, token⟩ := handoff_emission pairMem
      refine answersFor_iff.mpr ⟨(mem_held.mp (mem_handoffs.mp pairMem).1).2,
        fun snapshot given => strict.handedInSnapshot snapshot given ?_⟩
      exact token ▸ mem_map_of_mem emitted
  · intro answers
    have durable := mem_held.mpr ⟨stored, (answersFor_iff.mp answers).1⟩
    rcases accepted.decided strict stored answers with ⟨consumed, -⟩ | ⟨handed, -⟩
    · exact ⟨_, mem_append_left _ (mem_map_of_mem
        (mem_consumedRows.mpr ⟨durable, consumed⟩)), rfl⟩
    · obtain ⟨emission, found⟩ := exists_find?_of_mem handed
      have member : (row, emission) ∈ completion.handoffs (completion.held runId db) :=
        mem_handoffs.mpr ⟨durable, (find?_passthrough durable).trans found⟩
      exact ⟨_, mem_append_right _ (mem_map_of_mem member), rfl⟩

/-- Each row is settled in its place. -/
theorem editRows_releases (databaseNow : Time) :
    editRows TokenWorkItem.workItemId
        (completion.releases (completion.held runId db) databaseNow) db.tokenWorkItems.rows =
      db.tokenWorkItems.rows.map (completion.settled runId databaseNow) := by
  have edits : Edits TokenWorkItem.workItemId
      (completion.releases (completion.held runId db) databaseNow) db.tokenWorkItems.rows :=
    releases_edits accepted databaseNow
  refine map_congr_left fun row stored => ?_
  by_cases answers : completion.answersFor runId row = true
  · have durable := mem_held.mpr ⟨stored, (answersFor_iff.mp answers).1⟩
    unfold settled
    rw [if_pos answers]
    rcases accepted.decided strict stored answers with ⟨consumed, -⟩ | ⟨handed, unconsumed⟩
    · rw [if_pos consumed, find?_eq_of_once edits.once (mem_append_left _
        (mem_map_of_mem (mem_consumedRows.mpr ⟨durable, consumed⟩))) rfl]
      rfl
    · obtain ⟨emission, found⟩ := exists_find?_of_mem handed
      have member : (row, emission) ∈ completion.handoffs (completion.held runId db) :=
        mem_handoffs.mpr ⟨durable, (find?_passthrough durable).trans found⟩
      rw [if_neg unconsumed, found, find?_eq_of_once edits.once
        (mem_append_right _ (mem_map_of_mem member)) rfl]
      rfl
  · have miss : ((completion.releases (completion.held runId db) databaseNow).find? fun pair =>
        pair.1.workItemId = row.workItemId) = none := by
      refine find?_eq_none.mpr fun pair member named => ?_
      refine answers ((mem_releases_iff accepted strict stored).mp ⟨pair, member, ?_⟩)
      exact (unique_workItemId db.tokenWorkItems).eq_of_key (edits.stored pair member) stored
        (of_decide_eq_true named)
    unfold settled
    rw [if_neg answers, miss]
    rfl

/-- The rows of both batches together are the rows the completion answers for. -/
theorem released_perm (databaseNow : Time) :
    ((completion.releases (completion.held runId db) databaseNow).map Prod.fst).Perm
      (db.tokenWorkItems.rows.filter (completion.answersFor runId)) := by
  have edits : Edits TokenWorkItem.workItemId
      (completion.releases (completion.held runId db) databaseNow) db.tokenWorkItems.rows :=
    releases_edits accepted databaseNow
  refine (perm_ext_iff_of_nodup ?_ ?_).mpr fun row => ?_
  · refine Nodup.of_map TokenWorkItem.workItemId ?_
    rw [map_map]
    exact edits.once
  · exact (Nodup.of_map _ (unique_workItemId db.tokenWorkItems)).filter _
  · rw [mem_map, mem_filter]
    constructor
    · rintro ⟨pair, member, rfl⟩
      have stored := edits.stored pair member
      exact ⟨stored, (mem_releases_iff accepted strict stored).mp ⟨pair, member, rfl⟩⟩
    · rintro ⟨stored, answers⟩
      exact (mem_releases_iff accepted strict stored).mpr answers

end

/-- Both batches log the event of the row. -/
theorem release_events (databaseNow : Time) :
    completion.consumedEvents (completion.held runId db) databaseNow ++
        completion.handoffEvents (completion.held runId db) databaseNow =
      ((completion.releases (completion.held runId db) databaseNow).map Prod.fst).map
        (completion.releaseEvent (completion.held runId db) databaseNow) := by
  unfold releases consumedEvents handoffEvents
  rw [map_append, map_append, map_map, map_map, map_map, map_map]
  refine congrArg₂ (· ++ ·) (map_congr_left fun row rowMem => ?_)
    (map_congr_left fun pair pairMem => ?_)
  · exact (if_pos (mem_consumedRows.mp rowMem).2).symm
  · obtain ⟨emitted, token⟩ := handoff_emission pairMem
    refine (if_neg fun consumed => ?_).symm
    refine accepted.apart _ consumed (mem_map.mpr ⟨pair.2, ?_, token⟩)
    exact mem_of_mem_filter emitted

end

omit [Digest] in
/-- The rows made TERMINAL are the consumed ones among those answered for. -/
theorem consumedRows_length (accepted : completion.Accepted) :
    (completion.consumedRows (completion.held runId db)).length =
      db.tokenWorkItems.rows.countP fun row =>
        completion.answersFor runId row && row.tokenId ∈ completion.consumed := by
  rw [countP_eq_length_filter]
  refine Perm.length_eq ((perm_ext_iff_of_nodup ?_ ?_).mpr fun row => ?_)
  · exact Nodup.of_map _ (consumedRows_once held_once)
  · exact (Nodup.of_map _ (unique_workItemId db.tokenWorkItems)).filter _
  · rw [mem_consumedRows, mem_held, mem_filter, Bool.and_eq_true, answersFor_iff,
      decide_eq_true_eq]
    constructor
    · rintro ⟨⟨stored, holds⟩, consumed⟩
      exact ⟨stored, ⟨holds, fun snapshot given =>
        accepted.consumedInSnapshot snapshot given consumed⟩, consumed⟩
    · rintro ⟨stored, ⟨holds, -⟩, consumed⟩
      exact ⟨⟨stored, holds⟩, consumed⟩

/-- Only the journal is spoken of. -/
theorem Completed.congr {before before' after after' : Db}
    (completed : completion.Completed runId count before after) (same : Quiet before' before)
    (same' : Quiet after after') : completion.Completed runId count before' after' := by
  obtain ⟨checked, consumed, terminalized, handedOff, written⟩ := completed
  have held : completion.held runId before' = completion.held runId before := by
    unfold BarrierCompletion.held
    rw [same.items]
  rw [← held] at checked terminalized handedOff written
  rw [same.items, same.events, ← same'.items, ← same'.events] at written
  rw [same.items] at checked
  exact ⟨checked, consumed, terminalized, handedOff, written⟩

theorem Completed.exact {before after : Db} (accepted : completion.Accepted)
    (strict : completion.exhaustive = true)
    (completed : completion.Completed runId count before after) :
    ∃ databaseNow pending ready,
      completion.Exact runId count databaseNow pending ready before after := by
  have checks := strict_of_checked strict completed.checked
  obtain ⟨databaseNow, pending, ready, emits, rows, events⟩ := completed.written
  refine ⟨databaseNow, pending, ready, ?_⟩
  constructor
  · exact fun row stored answers => accepted.decided checks stored answers
  · exact emits
  · rw [rows, editRows_releases accepted checks]
  · refine ⟨_, (released_perm accepted checks databaseNow).map _, ?_⟩
    rw [events, release_events accepted]
  · rw [completed.terminalized, consumedRows_length accepted]

/-! ## The stamps of the ready rows -/

omit [Digest] in
/-- The claim query puts the first row before the second wherever both have one sequence
number and one step. -/
def Precedes (earlier later : TokenWorkItem) : Prop :=
  earlier.runId = later.runId ∧ earlier.createdAt < later.createdAt ∧
    earlier.availableAt ≤ later.availableAt

theorem ReadyAt.stamp {context : Context} {placed : BarrierEmission × Nat}
    {child : TokenWorkItem × SchedulerEvent}
    (readyAt : completion.ReadyAt runId context databaseNow placed child) :
    (child.1.status = .ready ∧ child.1.pendingSinkName = none) ∧ child.1.runId = runId ∧
      child.1.createdAt = databaseNow - (completion.ready.length - placed.2 - 1) := by
  obtain ⟨⟨values, availableAt, -, image⟩, -⟩ := readyAt
  rw [image]
  exact ⟨⟨rfl, rfl⟩, rfl, rfl⟩

theorem Emits.stamped {heldRows : List TokenWorkItem}
    {pending ready : List (TokenWorkItem × SchedulerEvent)}
    (emits : completion.Emits runId heldRows databaseNow pending ready) :
    (∀ child ∈ ready, child.1.status = .ready ∧ child.1.pendingSinkName = none) ∧
      ready.Pairwise fun earlier later => Precedes earlier.1 later.1 := by
  constructor
  · intro child childMem
    obtain ⟨placed, -, readyAt⟩ := mem_of_forall₂_right emits.placed childMem
    exact readyAt.stamp.1
  · have ordered := pairwise_iff_getElem.mp emits.ordered
    obtain ⟨sameLength, placed⟩ := forall₂_iff_get.mp emits.placed
    refine pairwise_iff_getElem.mpr fun first second firstIn secondIn before => ?_
    obtain ⟨-, run, created⟩ := (placed first (sameLength ▸ firstIn) firstIn).stamp
    obtain ⟨-, run', created'⟩ := (placed second (sameLength ▸ secondIn) secondIn).stamp
    refine ⟨run.trans run'.symm, ?_, ordered first second firstIn secondIn before⟩
    -- The creation times count up to the instant of the transaction.
    simp only [get_eq_getElem, getElem_zipIdx, Nat.zero_add] at created created'
    rw [created, created']
    refine Int.sub_lt_sub_left ?_ databaseNow
    omega

end Exact

end BarrierCompletion

section Histories

variable [Digest]

/-! ## Ready rows are claimed in order -/

variable {db : Db} {item earlier later : TokenWorkItem}

/-- **One call**: a READY row stays as it is, or the call grants it. -/
theorem serve_ready_stays (call : Call) (stored : item ∈ db.tokenWorkItems.rows)
    (ready : item.status = .ready) (transform : item.pendingSinkName = none) :
    item ∈ (serve call db).2.tokenWorkItems.rows ∨
      ∃ claimed, item.SameWork claimed ∧ Grants claimed call.request (serve call db).1 := by
  refine Course.stays_or (serve_performs call db).travels (unique_workItemId db.tokenWorkItems) ?_
    stored
  rintro new entry ⟨action, allowed, enabled, -, -⟩
  cases action with
  | claim source leaseOwner expiresAt databaseNow =>
    cases source with
    | ready =>
      obtain ⟨claims, reported⟩ := Request.claimsReady_of_action allowed
      exact ⟨item.leasedTo leaseOwner expiresAt databaseNow, rfl, claims, reported, rfl,
        transform⟩
    | pendingSink => cases ready.symm.trans enabled.1
  | requeue => cases ready.symm.trans (undecidedFailedWork_iff.mp enabled).1
  | finishSink =>
    rcases enabled.1 with other | other <;> cases ready.symm.trans other
  | renew | consume | reset => cases ready.symm.trans enabled
  | rotate | release | dispose | handOff | adopt => cases ready.symm.trans enabled.1

theorem ready_stays_history (stored : item ∈ db.tokenWorkItems.rows)
    (ready : item.status = .ready) (transform : item.pendingSinkName = none) (calls : List Call) :
    item ∈ (after serve db calls).tokenWorkItems.rows ∨
      ∃ exchange ∈ exchanges serve db calls, ∃ claimed, item.SameWork claimed ∧
        Grants claimed exchange.call.request exchange.reply := by
  induction calls generalizing db with
  | nil => exact Or.inl stored
  | cons call calls ih =>
    rcases serve_ready_stays call stored ready transform with here | granted
    · exact (ih here).imp_right fun ⟨exchange, member, grants⟩ =>
        ⟨exchange, mem_cons_of_mem _ member, grants⟩
    · exact Or.inr ⟨_, mem_cons_self, granted⟩

/-- A claim takes a row that is first among the available ones. -/
theorem serve_claims_first {env : CallEnv} {member : WorkerMembershipToken} {leaseOwner : String}
    {lease : Int} (claimed : (serve ⟨env, .claimReady member leaseOwner lease⟩ db).1 =
      .ok (.claimed (some item))) :
    ∃ discoveryNow first, first.SameWork item ∧
      availableReady member.runId discoveryNow first = true ∧
      ∀ other ∈ db.tokenWorkItems.rows, availableReady member.runId discoveryNow other = true →
        first.claimKey ≤ other.claimKey := by
  obtain ⟨value, same, -, run⟩ := returned_of_answer (claimReady_settles member leaseOwner lease)
    claimed
  cases same
  obtain ⟨closed, ran, -⟩ := run.ran
  obtain ⟨outcome, chosen⟩ := claimReadyOn_ok ran
  obtain ⟨discoveryNow, first, stored, named, available, least⟩ := chosen item rfl
  refine ⟨discoveryNow, first, ?_, available, least⟩
  cases outcome with
  | taken old databaseNow claims =>
    have sameRow : old = first :=
      (unique_workItemId db.tokenWorkItems).eq_of_key claims.stored stored named
    exact sameRow ▸ rfl

omit [Digest] in
/-- The claim query leaves no available predecessor behind. -/
theorem not_precedes_of_least (precedes : BarrierCompletion.Precedes earlier later)
    (sequence : earlier.ingestSequence = later.ingestSequence)
    (step : earlier.stepIndex = later.stepIndex) : ¬ later.claimKey ≤ earlier.claimKey := by
  simp only [TokenWorkItem.claimKey, Prod.Lex.toLex_le_toLex, not_or, not_and, not_le, sequence,
    step, lt_irrefl, not_false_eq_true, true_and]
  exact ⟨not_lt.mpr (le_of_lt precedes.2.1), fun same => absurd same (ne_of_gt precedes.2.1)⟩

/-- The later of two ready rows is claimed only once the earlier one has been granted. -/
def ClaimedInOrder (db : Db) (earlier later : TokenWorkItem) : Prop :=
  earlier.ingestSequence = later.ingestSequence → earlier.stepIndex = later.stepIndex →
    ∀ (calls : List Call) (env : CallEnv) (member : WorkerMembershipToken) (leaseOwner : String)
      (lease : Int) (item : TokenWorkItem), later.SameWork item →
      (serve ⟨env, .claimReady member leaseOwner lease⟩ (after serve db calls)).1 =
        .ok (.claimed (some item)) →
      ∃ exchange ∈ exchanges serve db calls, ∃ claimed, earlier.SameWork claimed ∧
        Grants claimed exchange.call.request exchange.reply

theorem claimedInOrder_of_precedes (stored : earlier ∈ db.tokenWorkItems.rows)
    (ready : earlier.status = .ready) (transform : earlier.pendingSinkName = none)
    (precedes : BarrierCompletion.Precedes earlier later) : ClaimedInOrder db earlier later := by
  intro sequence step calls env member leaseOwner lease item work claimed
  refine (ready_stays_history stored ready transform calls).resolve_left fun here => ?_
  obtain ⟨discoveryNow, first, firstWork, available, least⟩ := serve_claims_first claimed
  simp only [availableReady, Bool.and_eq_true, decide_eq_true_eq] at available least
  -- The row claimed carries the stamps of the later emission.
  have runs : first.runId = later.runId := by
    rw [show first.runId = item.runId by rw [firstWork], work]
  have availableAt : first.availableAt = later.availableAt := by
    rw [show first.availableAt = item.availableAt by rw [firstWork], work]
  have keys : first.claimKey = later.claimKey := by
    rw [show first.claimKey = item.claimKey by rw [firstWork]; rfl, work]
    rfl
  refine not_precedes_of_least precedes sequence step (keys ▸ least earlier here ⟨⟨?_, ready⟩, ?_⟩)
  · rw [precedes.1, ← runs, available.1.1]
  · exact le_trans precedes.2.2 (availableAt ▸ available.2)

/-- **A strict completion is atomic and exhaustive**, in every state of the database.  It
raises, and no more than a refusal is noted; or it returns, and every row it answers for
left BLOCKED as what its token is named for, no other row changed, each remaining emission
has one new row with its event, and the count is that of the rows made TERMINAL.  In every
history from there a ready emission is claimed only once those before it, of the same
sequence number and step, have been granted. -/
theorem barrier_completion_exact {completion : BarrierCompletion}
    (strict : completion.exhaustive = true) (env : CallEnv) (token : CoordinationToken) (db : Db) :
    (∀ raised, (serve ⟨env, .completeBarrier token completion⟩ db).1 = .error raised →
        OnlyRefusal db (serve ⟨env, .completeBarrier token completion⟩ db).2) ∧
      ∀ reply, (serve ⟨env, .completeBarrier token completion⟩ db).1 = .ok reply →
        ∃ count databaseNow pending ready, reply = .count count ∧
          completion.Exact token.runId count databaseNow pending ready db
            (serve ⟨env, .completeBarrier token completion⟩ db).2 ∧
          ready.Pairwise fun earlier later =>
            ClaimedInOrder (serve ⟨env, .completeBarrier token completion⟩ db).2
              earlier.1 later.1 := by
  refine ⟨fun raised refused => refused_of_answer (completeBarrier_settles ..) refused,
    fun reply ok => ?_⟩
  obtain ⟨count, same, accepted, run⟩ :=
    returned_of_answer (completeBarrier_settles token completion) ok
  obtain ⟨opened, closed, -, start, ran, finish⟩ := run.ran
  obtain ⟨completed, -⟩ := @BarrierCompletion.completeBarrierOn_ok _ _ _ _ _ [] _ _ accepted ran
  obtain ⟨databaseNow, pending, ready, exact_⟩ := (completed.congr start.quiet finish.quiet).exact
    accepted strict
  obtain ⟨readyRows, stamped⟩ := exact_.emits.stamped
  refine ⟨count, databaseNow, pending, ready, same, exact_, ?_⟩
  refine stamped.imp_of_mem fun {earlier later} earlierMem _ precedes => ?_
  obtain ⟨status, transform⟩ := readyRows earlier earlierMem
  refine claimedInOrder_of_precedes ?_ status transform precedes
  refine (congrArg (earlier.1 ∈ ·) exact_.rows).mpr ?_
  exact mem_append_right _ (mem_map_of_mem (mem_append_right _ earlierMem))

end Histories

namespace Worked

/-- Two tokens are blocked at the barrier. -/
def pairBlocked : List Call :=
  blocking ++
    [call 0 (.enqueueReady follower { values with tokenId := "token-2" }),
      call 0 (.claimReady follower "worker-1" (300 * second)),
      call 0 (.markBlocked follower "run-1:token-2:enrich:1" none (some "join") "[1]" "worker-1")]

/-- A continuation of the row behind the barrier. -/
def continued (tokenId : String) : BarrierEmission where
  tokenId := tokenId
  rowPayloadJson := "[2]"
  sinkName := none
  outcome := none
  path := none
  errorHash := none
  errorMessage := none
  rowId := some "row-1"
  nodeId := some "enrich"
  stepIndex := some 1
  ingestSequence := some 0
  queueKey := none
  barrierKey := none
  onSuccessSink := none
  joinGroupId := none
  lineagePath := []
  coalesceNodeId := none
  coalesceName := none
  rowUnionName := none
  collectorName := none
  attempt := 1
  attempt_pos := le_rfl

/-- An output of the barrier for the sink. -/
def written (tokenId : String) : BarrierEmission :=
  { continued tokenId with
    nodeId := none, sinkName := some "out", outcome := some "success"
    path := some "default_flow" }

/-- The first token is consumed and the second handed off; a third one is parked, and two go on
as continuations of one sequence number and step. -/
def joined : BarrierCompletion where
  barrierKey := "join"
  consumed := ["token-1"]
  pendingSink := [written "token-2", written "token-3"]
  ready := [continued "token-5", continued "token-4"]
  exhaustive := true
  scopeRowId := some "row-1"
  snapshot := some ["token-1", "token-2"]
  releaseContext := none
  parkedLeaseOwner := none
  losses := []
  outcomes := []

/-- The answer to the completion, and the database after it. -/
def completing : Response × Db :=
  serve (call 0 (.completeBarrier leader joined)) (after serve Db.empty (opening ++ pairBlocked))

end Worked

/-- The worked barrier is completed: of its holds one is consumed and one handed off, three rows
are new, and the ready ones are claimed in the order in which they were emitted. -/
theorem barrier_completion_exact_worked :
    (completing.2.tokenWorkItems.rows.map fun item => (item.tokenId, item.status)) =
        [("token-1", .terminal), ("token-2", .pendingSink), ("token-3", .pendingSink),
          ("token-5", .ready), ("token-4", .ready)] ∧
      ∃ count databaseNow pending ready, Reply.count 1 = .count count ∧
        @BarrierCompletion.Exact Worked.digest Worked.joined "run-1" count databaseNow pending ready
          (after Worked.serve Db.empty (opening ++ pairBlocked)) completing.2 ∧
        ready.Pairwise fun earlier later =>
          @ClaimedInOrder Worked.digest completing.2 earlier.1 later.1 := by
  have ok : completing.1 = .ok (.count 1) := by decide +kernel
  refine ⟨by decide +kernel, ?_⟩
  exact (@barrier_completion_exact Worked.digest Worked.joined rfl _ Worked.leader _).2 _ ok

end Elspeth
