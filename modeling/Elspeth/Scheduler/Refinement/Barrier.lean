import Elspeth.Scheduler.Refinement.Dispositions

/-!
# Barrier completion and adoption refine the lifecycle

A completion is two batches of replacements over the rows the barrier holds —
the consumed ones to TERMINAL, the handed-off ones to PENDING_SINK — followed by
a batch of births.  The two batches touch different rows because the argument
checks keep the two token sets apart, and within a batch every row is replaced
once because a held row is listed once.

An adoption marks one hold, and with it come the membership and the outcome it
carries; or it finds the hold marked and changes nothing.
-/

namespace Elspeth

open Relational EventSourcing Txn List BarrierAdoption Slot

variable {env : CallEnv} {conn conn' : Conn}

/-! ## Checks -/

variable {checks : List (Bool × BarrierFault)} {value : Unit} {runId : String}
  {recordedAt databaseNow : Time} {token : CoordinationToken} {adoption : BarrierAdoption}
  {result : BarrierAdoptionResult} {recorded : List TokenOutcome} {workItemIds : List String}
  {count : Nat}

theorem firstFault_eq_none : firstFault checks = none ↔ ∀ check ∈ checks, check.1 = true := by
  unfold firstFault
  simp

theorem ensureChecks_ok (ran : ensureChecks checks conn = .ok (value, conn')) :
    firstFault checks = none ∧ conn' = conn := by
  unfold ensureChecks at ran
  rcases first : firstFault checks with _ | fault <;> rw [first] at ran
  · exact ⟨rfl, (pure_eq_ok.mp ran).2⟩
  · exact (raise_eq_ok.mp ran).elim

/-! ## Outcomes -/

theorem respects_validateOutcomeFields {outcome : Option TerminalOutcome} {path : TerminalPath}
    {values : DiscriminatorValues} :
    Txn.Respects (OnDb Quiet) (validateOutcomeFields outcome path values) := by
  intro conn value conn' ran
  rw [validateOutcomeFields_ok ran]
  exact Std.Refl.refl conn

theorem respects_terminalOutcomeRow (spec : BarrierTerminalOutcomeSpec) :
    Txn.Respects (OnDb Quiet) (terminalOutcomeRow env runId recordedAt spec) :=
  .bind respects_validateOutcomeFields fun _ => .bind respects_generateId fun _ => .pure

theorem respects_outcomesInsert {added : List TokenOutcome} :
    Txn.Respects (OnDb Quiet) (outcomesSlot.insert added) := by
  refine insert_respects fun table session tableRows => ?_
  refine ⟨⟨rfl, forall₂_serves_refl _, ?_⟩, rfl, rfl⟩
  change session.db.tokenOutcomes.rows <+: table.rows
  rw [tableRows]
  exact prefix_append _ _

theorem respects_recordTerminalOutcomesGuarded {outcomes : List BarrierTerminalOutcomeSpec} :
    Txn.Respects (OnDb Quiet)
      (recordTerminalOutcomesGuarded env runId outcomes recordedAt) :=
  .bind (.mapEach respects_terminalOutcomeRow _) fun _ => .mapError respects_outcomesInsert

namespace BarrierCompletion

variable {completion : BarrierCompletion}

/-- What the checks before the transaction guarantee. -/
structure Accepted (completion : BarrierCompletion) : Prop where
  scopeStrict : completion.scopeRowId.isSome = true → completion.exhaustive = true
  snapshotStrict : completion.snapshot.isSome = true → completion.exhaustive = true
  consumedOnce : completion.consumed.Nodup
  pendingOnce : (completion.pendingSink.map BarrierEmission.tokenId).Nodup
  readyOnce : (completion.ready.map BarrierEmission.tokenId).Nodup
  apart : ∀ tokenId ∈ completion.consumed,
    tokenId ∉ completion.pendingSink.map BarrierEmission.tokenId
  named : ∀ emission ∈ completion.pendingSink, bundleNamed emission = true
  consumedInSnapshot : ∀ snapshot ∈ completion.snapshot, completion.consumed ⊆ snapshot

theorem accepted (checked : firstFault completion.argumentChecks = none) :
    completion.Accepted := by
  have holds := firstFault_eq_none.mp checked
  simp only [argumentChecks, forall_mem_append, forall_mem_cons, forall_mem_map,
    decide_eq_true_eq, Bool.or_eq_true, Option.isNone_iff_eq_none] at holds
  obtain ⟨⟨⟨⟨scope, snapshot, consumed, pending, ready, -, -, apart, -⟩, named⟩, covered, -⟩, -⟩ :=
    holds
  refine ⟨fun given => ?_, fun given => ?_, consumed, pending, ready, apart, named, ?_⟩
  · rcases scope with none | strict
    · rw [none] at given
      cases given
    · exact strict
  · rcases snapshot with none | strict
    · rw [none] at given
      cases given
    · exact strict
  · intro snapshot given
    rw [given] at covered
    exact of_decide_eq_true covered

/-! ## The two batches -/

/-- Rows paired with a choice for each, where there is one. -/
theorem map_fst_filterMap_sublist {α β : Type} (choose : α → Option β) (rows : List α) :
    ((rows.filterMap fun row => (choose row).map fun chosen => (row, chosen)).map
      Prod.fst).Sublist rows := by
  induction rows with
  | nil => exact Sublist.refl _
  | cons row rows ih =>
    cases chosen : choose row with
    | none =>
      rw [filterMap_cons_none (by rw [chosen]; rfl)]
      exact ih.cons row
    | some =>
      rw [filterMap_cons_some (by rw [chosen]; rfl)]
      exact ih.cons_cons row

/-- The rows the barrier holds, in the order the completion reads them. -/
def held (completion : BarrierCompletion) (runId : String) (db : Db) : List TokenWorkItem :=
  sortRows TokenWorkItem.sweepKey (db.tokenWorkItems.rows.filter (completion.holds runId))

variable {runId : String} {db : Db} {heldRows : List TokenWorkItem} {row : TokenWorkItem}
  {databaseNow : Time}

theorem holds_iff :
    completion.holds runId row = true ↔
      row.runId = runId ∧ row.barrierKey = some completion.barrierKey ∧ row.status = .blocked ∧
        completion.scopeRowId.all (row.rowId = ·) = true := by
  simp only [holds, Bool.and_eq_true, decide_eq_true_eq, and_assoc]

theorem mem_held :
    row ∈ completion.held runId db ↔
      row ∈ db.tokenWorkItems.rows ∧ completion.holds runId row = true := by
  rw [held, mem_sortRows, mem_filter]

theorem held_once : ((completion.held runId db).map TokenWorkItem.workItemId).Nodup :=
  nodup_sortRows_filter _ _ db.tokenWorkItems

theorem mem_consumedRows :
    row ∈ completion.consumedRows heldRows ↔
      row ∈ heldRows ∧ row.tokenId ∈ completion.consumed := by
  rw [consumedRows, mem_sortRows, mem_filter, decide_eq_true_eq]

variable {pair : TokenWorkItem × BarrierEmission}

theorem mem_handoffs :
    pair ∈ completion.handoffs heldRows ↔
      pair.1 ∈ heldRows ∧
        (completion.passthrough heldRows).find? (·.tokenId = pair.1.tokenId) = some pair.2 := by
  obtain ⟨row, emission⟩ := pair
  simp only [handoffs, mem_filterMap, Option.map_eq_some_iff, Prod.mk.injEq]
  constructor
  · rintro ⟨other, otherMem, found, foundEq, rfl, rfl⟩
    exact ⟨otherMem, foundEq⟩
  · rintro ⟨rowMem, found⟩
    exact ⟨row, rowMem, emission, found, rfl, rfl⟩

/-- The emission of a handed-off row is a pending-sink emission of its token. -/
theorem handoff_emission (member : pair ∈ completion.handoffs heldRows) :
    pair.2 ∈ completion.passthrough heldRows ∧ pair.2.tokenId = pair.1.tokenId := by
  obtain ⟨-, found⟩ := mem_handoffs.mp member
  exact ⟨mem_of_find?_eq_some found, by simpa using find?_some found⟩

theorem consumedRows_once (once : (heldRows.map TokenWorkItem.workItemId).Nodup) :
    ((completion.consumedRows heldRows).map TokenWorkItem.workItemId).Nodup := by
  have perm := sortRows_perm (fun row => toLex (row.tokenId, row.workItemId))
    (heldRows.filter (·.tokenId ∈ completion.consumed))
  exact (perm.map _).nodup_iff.mpr ((filter_sublist.map _).nodup once)

theorem handoffs_once (once : (heldRows.map TokenWorkItem.workItemId).Nodup) :
    ((completion.handoffs heldRows).map fun pair => pair.1.workItemId).Nodup := by
  have rows : ((completion.handoffs heldRows).map Prod.fst).Sublist heldRows :=
    map_fst_filterMap_sublist _ heldRows
  have ids := (rows.map TokenWorkItem.workItemId).nodup once
  rwa [map_map] at ids

section Journal

variable [Digest]

/-- The replacements of a completion: the consumed rows, then the handed-off
ones. -/
def releases (completion : BarrierCompletion) (heldRows : List TokenWorkItem)
    (databaseNow : Time) : List (TokenWorkItem × TokenWorkItem) :=
  (completion.consumedRows heldRows).map (fun row =>
      (row, row.terminalized (scrubbedRowPayloadJson completion.barrierKey) databaseNow)) ++
    (completion.handoffs heldRows).map fun pair =>
      (pair.1, completion.handedOff pair.2 databaseNow pair.1)

/-- The two batches replace held rows, each at most once. -/
theorem releases_edits (accepted : completion.Accepted) (databaseNow : Time) :
    Edits TokenWorkItem.workItemId
      (completion.releases (completion.held runId db) databaseNow) db.tokenWorkItems.rows := by
  constructor
  · intro pair member
    rcases mem_append.mp member with consumed | handed
    · obtain ⟨row, rowMem, rfl⟩ := mem_map.mp consumed
      exact (mem_held.mp (mem_consumedRows.mp rowMem).1).1
    · obtain ⟨pair, pairMem, rfl⟩ := mem_map.mp handed
      exact (mem_held.mp (mem_handoffs.mp pairMem).1).1
  · unfold oldKeys releases
    rw [map_append, map_map, map_map]
    refine nodup_append.mpr ⟨consumedRows_once held_once, handoffs_once held_once, ?_⟩
    -- A row of both batches would have a token that is consumed and handed off.
    intro name inConsumed other inHanded same
    subst same
    obtain ⟨row, rowMem, rowName⟩ := mem_map.mp inConsumed
    obtain ⟨pair, pairMem, pairName⟩ := mem_map.mp inHanded
    obtain ⟨rowHeld, consumed⟩ := mem_consumedRows.mp rowMem
    obtain ⟨pairHeld, -⟩ := mem_handoffs.mp pairMem
    have sameRow : row = pair.1 := (unique_workItemId db.tokenWorkItems).eq_of_key
      (mem_held.mp rowHeld).1 (mem_held.mp pairHeld).1 (rowName.trans pairName.symm)
    obtain ⟨emitted, token⟩ := handoff_emission pairMem
    refine accepted.apart row.tokenId consumed (mem_map.mpr ⟨pair.2, ?_, ?_⟩)
    · exact mem_of_mem_filter emitted
    · rw [token, sameRow]

omit [Digest] in
theorem stillHeld_self (mem : row ∈ completion.held runId db) :
    completion.stillHeld runId row row = true := by
  obtain ⟨run, key, blocked, -⟩ := holds_iff.mp (mem_held.mp mem).2
  simp [stillHeld, run, key, blocked]

omit [Digest] in
theorem stillHeld_named {item : TokenWorkItem} (hit : completion.stillHeld runId row item = true) :
    item.workItemId = row.workItemId := by
  simp only [stillHeld, Bool.and_eq_true, decide_eq_true_eq] at hit
  exact hit.1.1.1.1

section

variable (completion : BarrierCompletion)

/-- What a completion may do to the journal. -/
def scope (runId : String) (heldRows : List TokenWorkItem) :
    Scope where
  birth item :=
    (item.status = .ready ∧ item.identity ∈ completion.ready.map (·.identity runId)) ∨
      ∃ emission ∈ completion.fresh heldRows,
        FreshlyParked runId completion.parkedLeaseOwner emission item
  action action item := item ∈ heldRows ∧
    ((∃ databaseNow, item.tokenId ∈ completion.consumed ∧
        action = .consume (scrubbedRowPayloadJson completion.barrierKey) databaseNow) ∨
      ∃ emission ∈ completion.passthrough heldRows, ∃ databaseNow,
        emission.tokenId = item.tokenId ∧
          action = .handOff emission completion.parkedLeaseOwner databaseNow)
  note _ := False

/-- The events of the consumed rows. -/
def consumedEvents (heldRows : List TokenWorkItem)
    (databaseNow : Time) : List SchedulerEvent :=
  (completion.consumedRows heldRows).map fun row =>
    transitionEvent .markBlockedBarrierTerminal row .terminal none databaseNow none
      completion.releaseEventContext

/-- The events of the handed-off rows. -/
def handoffEvents (heldRows : List TokenWorkItem)
    (databaseNow : Time) : List SchedulerEvent :=
  (completion.handoffs heldRows).map fun pair =>
    transitionEvent .markPendingSink pair.1 .pendingSink completion.parkedLeaseOwner databaseNow
      none (completion.emissionContext heldRows)

end

variable {recorded : List TokenOutcome} {count : Nat} {value : Unit} {context : Context}

theorem terminalizeConsumed_ok
    (ran : completion.terminalizeConsumed runId heldRows databaseNow conn = .ok (count, conn'))
    (heldEq : heldRows = completion.held runId conn.db) :
    count = completion.consumed.length ∧ count = (completion.consumedRows heldRows).length ∧
      ∃ table : Table TokenWorkItem Violation tokenWorkItemConstraints,
        table.rows = editRows TokenWorkItem.workItemId
          ((completion.consumedRows heldRows).map fun row =>
            (row, row.terminalized (scrubbedRowPayloadJson completion.barrierKey) databaseNow))
          conn.db.tokenWorkItems.rows ∧
        conn'.db = conn.db.withJournal table
          (conn.db.schedulerEvents ++ completion.consumedEvents heldRows databaseNow) ∧
        Advances recorded (completion.scope runId heldRows) conn.db conn'.db := by
  simp only [terminalizeConsumed, bind_eq_ok, ensure_eq_ok, recordEvents,
    alter_eq_ok, pure_eq_ok] at ran
  obtain ⟨total, _, batch, _, _, ⟨⟨full, candidates⟩, rfl⟩, _, _, rfl, rfl, rfl⟩ := ran
  have heldRow : ∀ row ∈ completion.consumedRows heldRows,
      row ∈ completion.held runId conn.db ∧ row.tokenId ∈ completion.consumed := by
    intro row rowMem
    rw [heldEq] at rowMem
    exact mem_consumedRows.mp rowMem
  have allowed : ∀ row ∈ completion.consumedRows heldRows,
      (lifecycle recorded (completion.scope runId heldRows)).edit row
        (row.terminalized (scrubbedRowPayloadJson completion.barrierKey) databaseNow)
        (some (transitionEvent .markBlockedBarrierTerminal row .terminal none databaseNow none
          completion.releaseEventContext)) := by
    intro row rowMem
    obtain ⟨inHeld, consumed⟩ := heldRow row rowMem
    have blocked := (holds_iff.mp (mem_held.mp inHeld).2).2.2.1
    exact ⟨.consume (scrubbedRowPayloadJson completion.barrierKey) databaseNow,
      ⟨heldEq ▸ inHeld, Or.inl ⟨databaseNow, consumed, rfl⟩⟩, blocked, rfl, _, rfl,
      describes_transition ⟨by decide, by decide⟩ rfl rfl⟩
  have once : ((completion.consumedRows heldRows).map TokenWorkItem.workItemId).Nodup :=
    consumedRows_once (heldEq ▸ held_once)
  obtain ⟨-, table, rfl, tableRows, advanced⟩ := advances_of_batch id batch
    (fun row item hit => stillHeld_named hit)
    (fun row rowMem => (mem_held.mp (heldRow row rowMem).1).1) once (Or.inl candidates)
    fun row rowMem _ => allowed row rowMem
  exact ⟨full, candidates, table, tableRows, rfl, advanced⟩

theorem transitionPassthrough_ok
    (ran : completion.transitionPassthrough runId heldRows databaseNow conn = .ok (value, conn'))
    (heldEq : heldRows = completion.held runId db)
    (stored : ∀ pair ∈ completion.handoffs heldRows, pair.1 ∈ conn.db.tokenWorkItems.rows)
    (named : ∀ emission ∈ completion.pendingSink, bundleNamed emission = true) :
    (completion.handoffs heldRows).length = (completion.passthrough heldRows).length ∧
      ∃ table : Table TokenWorkItem Violation tokenWorkItemConstraints,
        table.rows = editRows TokenWorkItem.workItemId
          ((completion.handoffs heldRows).map fun pair =>
            (pair.1, completion.handedOff pair.2 databaseNow pair.1))
          conn.db.tokenWorkItems.rows ∧
        conn'.db = conn.db.withJournal table
          (conn.db.schedulerEvents ++ completion.handoffEvents heldRows databaseNow) ∧
        Advances recorded (completion.scope runId heldRows) conn.db conn'.db := by
  simp only [transitionPassthrough, bind_eq_ok, mapError_eq_ok, ensure_eq_ok,
    recordEvents, alter_eq_ok] at ran
  obtain ⟨total, _, batch, _, _, ⟨requested, rfl⟩, rfl⟩ := ran
  have hits : ∀ pair ∈ completion.handoffs heldRows,
      completion.stillHeld runId pair.1 pair.1 = true := by
    intro pair pairMem
    have inHeld := (mem_handoffs.mp pairMem).1
    rw [heldEq] at inHeld
    exact stillHeld_self inHeld
  have allowed : ∀ pair ∈ completion.handoffs heldRows,
      (lifecycle recorded (completion.scope runId heldRows)).edit pair.1
        (completion.handedOff pair.2 databaseNow pair.1)
        (some (transitionEvent .markPendingSink pair.1 .pendingSink completion.parkedLeaseOwner
          databaseNow none (completion.emissionContext heldRows))) := by
    intro pair pairMem
    have inHeld := (mem_handoffs.mp pairMem).1
    obtain ⟨emitted, token⟩ := handoff_emission pairMem
    have blocked : pair.1.status = .blocked :=
      (holds_iff.mp (mem_held.mp (heldEq ▸ inHeld)).2).2.2.1
    have sink : pair.2.sinkName.isSome = true := by
      have bundle := named pair.2 (mem_of_mem_filter emitted)
      simp only [bundleNamed, Bool.and_eq_true] at bundle
      exact bundle.1.1
    exact ⟨.handOff pair.2 completion.parkedLeaseOwner databaseNow,
      ⟨inHeld, Or.inr ⟨pair.2, emitted, databaseNow, token, rfl⟩⟩, ⟨blocked, sink⟩, rfl, _, rfl,
      describes_transition ⟨by decide, by decide⟩ rfl rfl⟩
  have once : ((completion.handoffs heldRows).map fun pair => pair.1.workItemId).Nodup :=
    handoffs_once (heldEq ▸ held_once)
  obtain ⟨full, table, rfl, tableRows, advanced⟩ := advances_of_batch Prod.fst batch
    (fun pair item hit => stillHeld_named hit) stored once (Or.inr hits)
    fun pair pairMem _ => allowed pair pairMem
  exact ⟨full.symm.trans requested, table, tableRows, rfl, advanced⟩

/-! ## The emissions -/

/-- The READY continuation of the emission at a place: its creation time puts it
before its successors. -/
def ReadyAt (completion : BarrierCompletion) (runId : String) (context : Context)
    (databaseNow : Time) (placed : BarrierEmission × Nat)
    (child : TokenWorkItem × SchedulerEvent) : Prop :=
  (∃ values availableAt, placed.1.readyValues? = some values ∧
    child.1 =
      { readyWorkItemValues runId values availableAt with
        createdAt := databaseNow - (completion.ready.length - placed.2 - 1) }) ∧
    child.2 = enqueueEvent child.1 databaseNow context

theorem prepareReadyEmission_ok {placed : BarrierEmission × Nat}
    {child : TokenWorkItem × SchedulerEvent}
    (ran : completion.prepareReadyEmission env runId context databaseNow placed conn =
      .ok (child, conn')) :
    conn' = { conn with transactionReads := conn.transactionReads + 1 } ∧
      child.1.availableAt = env.transactionTime conn.transactionReads ∧
      completion.ReadyAt runId context databaseNow placed child := by
  unfold prepareReadyEmission at ran
  rcases complete : placed.1.readyValues? with _ | values <;> rw [complete] at ran
  · exact (raise_eq_ok.mp ran).elim
  · simp only [bind_eq_ok, readLandscapeTransactionTime_eq_ok, pure_eq_ok] at ran
    obtain ⟨_, _, references, availableAt, _, ⟨rfl, rfl⟩, rfl, rfl⟩ := ran
    rw [validateWorkItemReferences_ok references]
    exact ⟨rfl, rfl, ⟨values, _, complete, rfl⟩, rfl⟩

/-- The READY continuations of a completion, in emission order. -/
theorem prepareReadyEmissions_ok {placed : List (BarrierEmission × Nat)}
    {children : List (TokenWorkItem × SchedulerEvent)}
    (ran : mapEach (completion.prepareReadyEmission env runId context databaseNow) placed
      conn = .ok (children, conn')) :
    conn'.db = conn.db ∧
      Forall₂ (completion.ReadyAt runId context databaseNow) placed children ∧
      (∀ child ∈ children, env.transactionTime conn.transactionReads ≤ child.1.availableAt) ∧
      children.Pairwise fun left right => left.1.availableAt ≤ right.1.availableAt := by
  induction placed generalizing conn children with
  | nil =>
    obtain ⟨rfl, rfl⟩ := pure_eq_ok.mp ran
    exact ⟨rfl, .nil, by simp, .nil⟩
  | cons first placed ih =>
    obtain ⟨child, middle, others, prepare, rest, rfl⟩ := mapEach_cons_eq_ok.mp ran
    obtain ⟨rfl, readAt, image⟩ := prepareReadyEmission_ok prepare
    obtain ⟨sameDb, images, later, ordered⟩ := ih rest
    have step : env.transactionTime conn.transactionReads ≤
        env.transactionTime (conn.transactionReads + 1) :=
      env.transactionTime_mono (Nat.le_succ _)
    refine ⟨sameDb, .cons image images, ?_, pairwise_cons.mpr ⟨?_, ordered⟩⟩
    · refine forall_mem_cons.mpr ⟨le_of_eq readAt.symm, fun other otherMem => ?_⟩
      exact le_trans step (later other otherMem)
    · intro other otherMem
      rw [readAt]
      exact le_trans step (later other otherMem)

/-- What a completion emits: the fresh handoffs, then the READY continuations. -/
structure Emits (completion : BarrierCompletion) (runId : String)
    (heldRows : List TokenWorkItem) (databaseNow : Time)
    (pending ready : List (TokenWorkItem × SchedulerEvent)) : Prop where
  parked : Forall₂
    (fun emission child => FreshlyParked runId completion.parkedLeaseOwner emission child.1 ∧
      child.2 = parkedEvent child.1 databaseNow (completion.emissionContext heldRows))
    (completion.fresh heldRows) pending
  placed : Forall₂
    (completion.ReadyAt runId (completion.emissionContext heldRows) databaseNow)
    completion.ready.zipIdx ready
  ordered : ready.Pairwise fun left right => left.1.availableAt ≤ right.1.availableAt

theorem insertEmissions_ok
    (ran : completion.insertEmissions env runId heldRows databaseNow conn = .ok (value, conn'))
    (named : ∀ emission ∈ completion.pendingSink, bundleNamed emission = true) :
    ∃ pending ready, completion.Emits runId heldRows databaseNow pending ready ∧
      ∃ table : Table TokenWorkItem Violation tokenWorkItemConstraints,
        table.rows = conn.db.tokenWorkItems.rows ++ (pending ++ ready).map Prod.fst ∧
        conn'.db = conn.db.withJournal table
          (conn.db.schedulerEvents ++ (pending ++ ready).map Prod.snd) ∧
        Advances recorded (completion.scope runId heldRows) conn.db conn'.db := by
  simp only [insertEmissions, insertWorkItems, bind_eq_ok, mapError_eq_ok,
    insert_eq_ok, recordEvents, alter_eq_ok] at ran
  obtain ⟨pending, opened, preparePending, ready, prepared, prepareReady, _, _,
    ⟨table, tableRows, rfl⟩, rfl⟩ := ran
  have fresh : Forall₂ (fun emission (child : TokenWorkItem × SchedulerEvent) =>
      FreshlyParked runId completion.parkedLeaseOwner emission child.1 ∧
        child.2 = parkedEvent child.1 databaseNow (completion.emissionContext heldRows) ∧
        (emission.sinkName.isSome = true → Born child.1 child.2))
      (completion.fresh heldRows) pending := by
    refine mapEach_forall₂ ?_ preparePending
    intro emission session child session' prepare
    exact (prepareFreshPendingSinkItem_ok prepare).2
  have untouched := Txn.Respects.mapEach respects_prepareFreshPendingSinkItem _ preparePending
  subst untouched
  obtain ⟨sameDb, placed, -, ordered⟩ := prepareReadyEmissions_ok prepareReady
  have emits : completion.Emits runId heldRows databaseNow pending ready :=
    ⟨fresh.imp fun _ _ facts => ⟨facts.1, facts.2.1⟩, placed, ordered⟩
  have rows : table.rows = conn.db.tokenWorkItems.rows ++ (pending ++ ready).map Prod.fst := by
    rw [tableRows, ← sameDb]
    rfl
  refine ⟨pending, ready, emits, table, rows, by rw [← sameDb]; rfl, ?_⟩
  have births : Advances recorded (completion.scope runId heldRows) conn.db
      (conn.db.withJournal table
        (conn.db.schedulerEvents ++ (pending ++ ready).map Prod.snd)) := by
    refine advances_of_births ?_ rows
    refine forall₂_map_left_iff.mpr (forall₂_map_right_iff.mpr
      (forall₂_same.mpr fun child childMem => ?_))
    rcases mem_append.mp childMem with parked | continued
    · obtain ⟨emission, emissionMem, image, -, born⟩ := mem_of_forall₂_right fresh parked
      have bundle := named emission (mem_of_mem_filter emissionMem)
      simp only [bundleNamed, Bool.and_eq_true] at bundle
      exact ⟨born bundle.1.1, Or.inr ⟨emission, emissionMem, image⟩⟩
    · obtain ⟨⟨emission, place⟩, emissionMem, ⟨values, availableAt, complete, image⟩, event⟩ :=
        mem_of_forall₂_right placed continued
      rw [event, image]
      refine ⟨.ready runId values availableAt _ databaseNow _, Or.inl ⟨rfl, ?_⟩⟩
      refine mem_map.mpr ⟨emission, fst_mem_of_mem_zipIdx emissionMem, ?_⟩
      exact (BarrierEmission.readyValues_identity complete runId).symm
  rw [← sameDb] at births ⊢
  exact births

/-! ## The whole completion -/

/-- The completion did what it was to do. -/
structure Completed (completion : BarrierCompletion) (runId : String) (count : Nat)
    (before after : Db) : Prop where
  checked : firstFault (completion.heldChecks runId before.tokenWorkItems.rows
    (completion.held runId before)) = none
  consumed : count = completion.consumed.length
  terminalized : count = (completion.consumedRows (completion.held runId before)).length
  handedOff : (completion.handoffs (completion.held runId before)).length =
    (completion.passthrough (completion.held runId before)).length
  written : ∃ databaseNow pending ready,
    completion.Emits runId (completion.held runId before) databaseNow pending ready ∧
      after.tokenWorkItems.rows =
        editRows TokenWorkItem.workItemId
          (completion.releases (completion.held runId before) databaseNow)
          before.tokenWorkItems.rows ++ (pending ++ ready).map Prod.fst ∧
      after.schedulerEvents = before.schedulerEvents ++
        (completion.consumedEvents (completion.held runId before) databaseNow ++
          completion.handoffEvents (completion.held runId before) databaseNow ++
          (pending ++ ready).map Prod.snd)

omit [Digest] in
theorem checkTerminalOutcomes_ok
    (ran : completion.checkTerminalOutcomes runId conn = .ok (value, conn')) : conn' = conn := by
  simp only [checkTerminalOutcomes, bind_eq_ok, query_eq_ok, ensure_eq_ok] at ran
  obtain ⟨_, _, ⟨-, rfl⟩, _, _, ⟨-, rfl⟩, _, _, ⟨-, rfl⟩, -, rfl⟩ := ran
  rfl

/-- The consumed batch changes no id and leaves the rows of the second batch
alone. -/
theorem releases_split (accepted : completion.Accepted) (databaseNow : Time) :
    editRows TokenWorkItem.workItemId
        (completion.releases (completion.held runId db) databaseNow) db.tokenWorkItems.rows =
      editRows TokenWorkItem.workItemId
        ((completion.handoffs (completion.held runId db)).map fun pair =>
          (pair.1, completion.handedOff pair.2 databaseNow pair.1))
        (editRows TokenWorkItem.workItemId
          ((completion.consumedRows (completion.held runId db)).map fun row =>
            (row, row.terminalized (scrubbedRowPayloadJson completion.barrierKey) databaseNow))
          db.tokenWorkItems.rows) ∧
      ∀ pair ∈ completion.handoffs (completion.held runId db), pair.1 ∈
        editRows TokenWorkItem.workItemId
          ((completion.consumedRows (completion.held runId db)).map fun row =>
            (row, row.terminalized (scrubbedRowPayloadJson completion.barrierKey) databaseNow))
          db.tokenWorkItems.rows := by
  obtain ⟨split, edits⟩ := editRows_append (unique_workItemId db.tokenWorkItems)
    (releases_edits accepted databaseNow) (rekeyable_of_kept (fun change member => by
      obtain ⟨pair, pairMem, rfl⟩ := mem_map.mp member
      obtain ⟨row, -, rfl⟩ := mem_map.mp pairMem
      rfl) _)
  exact ⟨split, fun pair pairMem => edits.stored _ (mem_map_of_mem pairMem)⟩

/-- **The completion body.** -/
theorem completeBarrierOn_ok {token : CoordinationToken} (accepted : completion.Accepted)
    (ran : completeBarrierOn env token completion conn = .ok (count, conn')) :
    completion.Completed token.runId count conn.db conn'.db ∧
      Advances recorded (completion.scope token.runId (completion.held token.runId conn.db))
        conn.db conn'.db := by
  simp only [completeBarrierOn, bind_eq_ok, readLandscapeTransactionTime_eq_ok,
    query_eq_ok, pure_eq_ok] at ran
  obtain ⟨databaseNow, _, ⟨-, rfl⟩, _, _, outcomes, rows, _, ⟨rfl, rfl⟩, _, _, checks, _, consumed,
    consume, _, decided, decide, _, handed, handOff, _, emitted, emit, _, _, losses, rfl,
      rfl⟩ := ran
  have same := checkTerminalOutcomes_ok outcomes
  subst same
  obtain ⟨checked, rfl⟩ := ensureChecks_ok checks
  obtain ⟨full, candidates, consumedTable, consumedRows, consumedDb, consumes⟩ :=
    terminalizeConsumed_ok consume rfl
  have decidedQuiet : Quiet consumed.db decided.db :=
    respects_recordTerminalOutcomesGuarded decide
  obtain ⟨split, stored⟩ := releases_split accepted databaseNow
  have decidedRows : decided.db.tokenWorkItems.rows = consumedTable.rows := by
    rw [decidedQuiet.items, consumedDb]
    rfl
  obtain ⟨handedAll, handedTable, handedRows, handedDb, hands⟩ :=
    transitionPassthrough_ok handOff rfl (by rw [decidedRows, consumedRows]; exact stored)
      accepted.named
  obtain ⟨pending, ready, emits, table, tableRows, emittedDb, emission⟩ :=
    insertEmissions_ok emit accepted.named
  have lost : Quiet emitted.db conn'.db := respects_recordGroupLosses losses
  refine ⟨⟨checked, full, candidates, handedAll, databaseNow, pending, ready, emits, ?_, ?_⟩, ?_⟩
  · rw [lost.items, emittedDb]
    change table.rows = _
    rw [tableRows, handedDb]
    change handedTable.rows ++ _ = _
    rw [handedRows, decidedRows, consumedRows]
    exact congrArg (· ++ _) split.symm
  · rw [lost.events, emittedDb]
    rw [handedDb]
    rw [decidedQuiet.events, consumedDb]
    simp only [Db.withJournal, append_assoc]
    rfl
  · exact consumes.trans ((Advances.of_quiet decidedQuiet).trans
      (hands.trans (emission.trans (.of_quiet lost))))

end Journal

end BarrierCompletion

/-! ## Adoption -/

/-- The membership rows of an adoption. -/
def BarrierAdoption.members (adoption : BarrierAdoption) (runId : String) : List BatchMember :=
  adoption.membership.toList.map fun membership =>
    ⟨membership.batchId, runId, adoption.tokenId, membership.ordinal⟩

/-- The outcome an adoption records. -/
def BarrierAdoption.Buffers (adoption : BarrierAdoption) (runId : String)
    (spec : BufferedOutcomeSpec) (outcome : TokenOutcome) : Prop :=
  outcome.runId = runId ∧ outcome.tokenId = adoption.tokenId ∧
    outcome.path = TerminalPath.buffered.value ∧ outcome.completed = false ∧
    outcome.batchId = some spec.batchId

/-- The hold an adoption marked. -/
def TokenWorkItem.adoptedBy (item : TokenWorkItem) (leaderEpoch : Nat) (databaseNow : Time) :
    TokenWorkItem :=
  { item with barrierAdoptedEpoch := some leaderEpoch, updatedAt := databaseNow }

/-- Either the named hold was marked, with its membership and its outcome, or it
was marked before and nothing changed. -/
inductive AdoptionOutcome (token : CoordinationToken) (adoption : BarrierAdoption)
    (before after : Db) : BarrierAdoptionResult → Prop where
  | adopted (old : TokenWorkItem) (databaseNow : Time) (added : List TokenOutcome)
      (outcomeId : Option String) (stored : old ∈ before.tokenWorkItems.rows)
      (hold : adoption.hold token.runId old = true) (unmarked : old.barrierAdoptedEpoch = none)
      (items : after.tokenWorkItems.rows = replaceRow TokenWorkItem.workItemId old
        (old.adoptedBy token.leaderEpoch databaseNow) before.tokenWorkItems.rows)
      (events : after.schedulerEvents = before.schedulerEvents)
      (members : after.batchMembers.rows =
        before.batchMembers.rows ++ adoption.members token.runId)
      (outcomes : after.tokenOutcomes.rows = before.tokenOutcomes.rows ++ added)
      (buffered : Forall₂ (adoption.Buffers token.runId) adoption.buffered.toList added)
      (seats : after.holdings = before.holdings) (workers : after.runWorkers = before.runWorkers) :
      AdoptionOutcome token adoption before after ⟨true, token.leaderEpoch, outcomeId⟩
  | already (held : TokenWorkItem) (epoch : Nat) (stored : held ∈ before.tokenWorkItems.rows)
      (hold : adoption.hold token.runId held = true)
      (marked : held.barrierAdoptedEpoch = some epoch) (same : after = before) :
      AdoptionOutcome token adoption before after ⟨false, epoch, none⟩

theorem addBatchMemberGuarded_ok {batchId tokenId : String} {ordinal : Nat}
    (ran : addBatchMemberGuarded batchId tokenId ordinal runId conn = .ok (value, conn')) :
    ∃ table : Table BatchMember Violation batchMemberConstraints,
      table.rows = conn.db.batchMembers.rows ++ [⟨batchId, runId, tokenId, ordinal⟩] ∧
        conn' = batchMembersSlot.put table conn := by
  obtain ⟨batches, conn, select, inner⟩ := bind_eq_ok.mp ran
  obtain ⟨-, rfl⟩ := select_eq_ok.mp select
  cases batches with
  | nil => exact (raise_eq_ok.mp inner).elim
  | cons =>
    simp only [bind_eq_ok, ensure_eq_ok, select_eq_ok, insert_eq_ok] at inner
    obtain ⟨_, _, ⟨rfl, rfl⟩, _, _, ⟨-, rfl⟩, _, _, ⟨-, rfl⟩, _, _, ⟨-, rfl⟩, inserted⟩ := inner
    exact inserted

theorem recordAdoptedMembership_ok
    (ran : recordAdoptedMembership token adoption conn = .ok (value, conn')) :
    ∃ table : Table BatchMember Violation batchMemberConstraints,
      table.rows = conn.db.batchMembers.rows ++ adoption.members token.runId ∧
        conn' = batchMembersSlot.put table conn := by
  unfold recordAdoptedMembership at ran
  unfold members
  cases given : adoption.membership with
  | none =>
    rw [given] at ran
    obtain ⟨-, rfl⟩ := pure_eq_ok.mp ran
    exact ⟨conn'.db.batchMembers, by simp, rfl⟩
  | some =>
    rw [given] at ran
    exact addBatchMemberGuarded_ok ran

theorem recordAdoptedOutcome_ok {spec : BufferedOutcomeSpec} {outcomeId : String}
    (ran : recordAdoptedOutcome env token adoption databaseNow spec conn =
      .ok (outcomeId, conn')) :
    ∃ (outcome : TokenOutcome) (table : Table TokenOutcome Violation tokenOutcomeConstraints),
      adoption.Buffers token.runId spec outcome ∧
        table.rows = conn.db.tokenOutcomes.rows ++ [outcome] ∧
        conn'.db = { conn.db with tokenOutcomes := table } := by
  obtain ⟨row, conn, read, inner⟩ := bind_eq_ok.mp ran
  obtain ⟨rfl, -, -⟩ := readItemOn_ok read
  rcases blocked : row.barrierBlockedAt with _ | blockedAt <;> rw [blocked] at inner
  · exact (raise_eq_ok.mp inner).elim
  · simp only [recordBufferedOutcomeGuarded, bind_eq_ok, generateId_eq_ok,
      mapError_eq_ok, insert_eq_ok, pure_eq_ok] at inner
    obtain ⟨_, checked, validate, generated, _, ⟨-, rfl⟩, _, _, ⟨table, tableRows, rfl⟩, -, rfl⟩ :=
      inner
    have same : checked = conn := by
      exact (pure_eq_ok.mp validate).2
    subst same
    exact ⟨_, table, ⟨rfl, rfl, rfl, rfl, rfl⟩, tableRows, rfl⟩

theorem BarrierAdoption.hold_iff {row : TokenWorkItem} :
    adoption.hold runId row = true ↔
      row.workItemId = adoption.workItemId ∧ row.runId = runId ∧ row.tokenId = adoption.tokenId ∧
        row.barrierKey = some adoption.barrierKey ∧ row.status = .blocked := by
  simp only [hold, Bool.and_eq_true, decide_eq_true_eq, and_assoc]

theorem classifyMissedAdoption_ok
    (ran : classifyMissedAdoption token.runId adoption conn = .ok (result, conn')) :
    AdoptionOutcome token adoption conn.db conn'.db result := by
  obtain ⟨holds, conn, select, inner⟩ := bind_eq_ok.mp ran
  obtain ⟨holdRows, rfl⟩ := select_eq_ok.mp select
  rcases marked : holds.head?.bind TokenWorkItem.barrierAdoptedEpoch with _ | epoch <;>
    rw [marked] at inner
  · exact (raise_eq_ok.mp inner).elim
  · obtain ⟨rfl, rfl⟩ := pure_eq_ok.mp inner
    obtain ⟨held, first, epochEq⟩ := Option.bind_eq_some_iff.mp marked
    have member := mem_of_head? first
    rw [holdRows] at member
    obtain ⟨stored, hold⟩ := mem_filter.mp member
    exact .already held epoch stored hold epochEq rfl

theorem recordAdoption_ok
    (ran : recordAdoption env token adoption databaseNow conn = .ok (result, conn')) :
    ∃ (outcomeId : Option String) (added : List TokenOutcome)
      (members : Table BatchMember Violation batchMemberConstraints)
      (outcomes : Table TokenOutcome Violation tokenOutcomeConstraints),
      result = ⟨true, token.leaderEpoch, outcomeId⟩ ∧
        Forall₂ (adoption.Buffers token.runId) adoption.buffered.toList added ∧
        members.rows = conn.db.batchMembers.rows ++ adoption.members token.runId ∧
        outcomes.rows = conn.db.tokenOutcomes.rows ++ added ∧
        conn'.db = { conn.db with batchMembers := members, tokenOutcomes := outcomes } := by
  obtain ⟨_, _, membership, inner⟩ := bind_eq_ok.mp ran
  obtain ⟨members, memberRows, rfl⟩ := recordAdoptedMembership_ok membership
  rcases given : adoption.buffered with _ | buffered <;> rw [given] at inner
  · obtain ⟨rfl, rfl⟩ := pure_eq_ok.mp inner
    exact ⟨none, [], members, conn.db.tokenOutcomes, rfl, .nil, memberRows, by simp, rfl⟩
  · simp only [bind_eq_ok, pure_eq_ok] at inner
    obtain ⟨outcomeId, _, record, rfl, rfl⟩ := inner
    obtain ⟨outcome, outcomes, buffers, outcomeRows, finalDb⟩ := recordAdoptedOutcome_ok record
    exact ⟨some outcomeId, [outcome], members, outcomes, rfl, .cons buffers .nil, memberRows,
      outcomeRows, finalDb⟩

/-- **The adoption body.** -/
theorem adoptBlockedBarrierItemOn_ok
    (ran : adoptBlockedBarrierItemOn env token adoption conn = .ok (result, conn')) :
    AdoptionOutcome token adoption conn.db conn'.db result := by
  simp only [adoptBlockedBarrierItemOn, bind_eq_ok, readLandscapeTransactionTime_eq_ok,
    ite_eq_ok] at ran
  obtain ⟨databaseNow, _, ⟨-, rfl⟩, count, swapped, update, outcome⟩ := ran
  have keyed : ∀ row, (adoption.hold token.runId row && row.barrierAdoptedEpoch.isNone) = true →
      row.workItemId = adoption.workItemId := fun row hit =>
    (hold_iff.mp (Bool.and_eq_true_iff.mp hit).1).1
  rcases update_keyed unique_workItemId keyed update with
    ⟨rfl, rfl, -⟩ | ⟨rfl, old, stored, hit, -, table, tableRows, rfl⟩
  · rcases outcome with ⟨impossible, -⟩ | ⟨-, missed⟩
    · omega
    · have classified := classifyMissedAdoption_ok missed
      exact classified
  · rcases outcome with ⟨-, record⟩ | ⟨impossible, -⟩
    · obtain ⟨hold, unmarked⟩ := Bool.and_eq_true_iff.mp hit
      obtain ⟨outcomeId, added, members, outcomes, rfl, buffers, memberRows, outcomeRows,
        finalDb⟩ :=
        recordAdoption_ok record
      refine .adopted old databaseNow added outcomeId stored hold
        (Option.isNone_iff_eq_none.mp unmarked) ?_ ?_ ?_ ?_ buffers ?_ ?_
      all_goals rw [finalDb]
      · exact tableRows
      · rfl
      · exact memberRows
      · exact outcomeRows
      · rfl
      · rfl
    · exact absurd rfl impossible

/-- A call that adopts one hold, if it reports that it did. -/
def Scope.adopting (token : CoordinationToken) (adoption : BarrierAdoption) (adopted : Bool) :
    Scope where
  birth _ := False
  action action item := adopted = true ∧ adoption.hold token.runId item = true ∧
    ∃ databaseNow, action = .adopt token.leaderEpoch databaseNow
  note _ := False

theorem AdoptionOutcome.advances [Digest] {before after : Db}
    (outcome : AdoptionOutcome token adoption before after result) :
    Advances recorded (.adopting token adoption result.adopted) before after := by
  cases outcome with
  | already held epoch stored hold marked same =>
    rw [same]
    exact Advances.refl before
  | adopted old databaseNow added outcomeId stored hold unmarked items events members outcomes
      buffered seats workers =>
      refine ⟨⟨seats, ?_, ?_⟩, ?_⟩
      · rw [workers]
        exact forall₂_serves_refl _
      · rw [outcomes]
        exact prefix_append _ _
      · unfold Travels Db.journal
        rw [items, events]
        have blocked := (hold_iff.mp hold).2.2.2.2
        have move : Move TokenWorkItem.workItemId
            (lifecycle recorded (.adopting token adoption true))
            ⟨before.tokenWorkItems.rows, before.schedulerEvents⟩
            ⟨replaceRow TokenWorkItem.workItemId old (old.adoptedBy token.leaderEpoch databaseNow)
              before.tokenWorkItems.rows, before.schedulerEvents ++ Option.toList none⟩ :=
          .edit stored (Or.inl rfl) ⟨.adopt token.leaderEpoch databaseNow,
            ⟨rfl, hold, databaseNow, rfl⟩, ⟨blocked, unmarked⟩, rfl, rfl⟩
        rw [Option.toList_none, append_nil] at move
        exact Course.single move

/-! ## The marker reset -/

/-- A call that returns holds of a run to intake. -/
def Scope.resetting (runId : String) (workItemIds : List String) : Scope where
  birth _ := False
  action action item := action = .reset ∧ item.runId = runId ∧ item.workItemId ∈ workItemIds
  note _ := False

theorem resetStatement_ok [Digest] {workItemId : String} (named : workItemId ∈ workItemIds)
    (ran : resetStatement runId workItemId conn = .ok (count, conn')) :
    Advances recorded (.resetting runId workItemIds) conn.db conn'.db := by
  have keyed : ∀ row : TokenWorkItem, (decide (row.runId = runId) &&
      decide (row.workItemId = workItemId) && decide (row.status = .blocked)) = true →
      row.workItemId = workItemId := by
    intro row hit
    simp only [Bool.and_eq_true, decide_eq_true_eq] at hit
    exact hit.1.2
  rcases update_keyed unique_workItemId keyed ran with
    ⟨rfl, rfl, -⟩ | ⟨rfl, old, stored, hit, -, table, tableRows, rfl⟩
  · exact Advances.refl _
  · simp only [Bool.and_eq_true, decide_eq_true_eq] at hit
    obtain ⟨⟨run, sameId⟩, blocked⟩ := hit
    have advanced : Advances recorded (.resetting runId workItemIds) conn.db
        (conn.db.withJournal table (conn.db.schedulerEvents ++ [])) :=
      advances_of_action .reset none stored ⟨rfl, run, sameId ▸ named⟩ blocked rfl (Or.inl rfl)
        tableRows
    rw [append_nil] at advanced
    exact advanced

theorem resetAdoptionMarkers_ok [Digest] {named : List String} (listed : named ⊆ workItemIds)
    (ran : executeMany (resetStatement runId) named conn = .ok (count, conn')) :
    Advances recorded (.resetting runId workItemIds) conn.db conn'.db := by
  induction named generalizing conn count with
  | nil =>
    obtain ⟨-, rfl⟩ := pure_eq_ok.mp ran
    exact Advances.refl _
  | cons workItemId named ih =>
    obtain ⟨hit, listed⟩ := cons_subset.mp listed
    obtain ⟨_, middle, _, first, rest, rfl⟩ := executeMany_cons_eq_ok.mp ran
    exact (resetStatement_ok hit first).trans (ih listed rest)

end Elspeth
