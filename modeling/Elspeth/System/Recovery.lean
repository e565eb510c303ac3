import Elspeth.System.StaleLeases

/-!
# Recovery of expired leases

A sweep replaces the rows that are due and nothing else, whatever the journal.  That
it is not refused rests on three facts about the journals the verbs produce: every row
is stored under the id of its identity, an item out of PENDING_SINK that carries part
of a sink bundle carries all of it, and nothing is stored yet under the id of the next
attempt.  The first two are invariants.  The third follows from one item per
continuation, which an enqueue that is repeated after a rotation breaks, so the run
theorem asks of every call that it inserts freely.

While a sweep writes, every row is either still what it was or already its image.
Rows in such a state of transition satisfy every constraint of the journal, which
is all there is to say about the statements in between.
-/

namespace Elspeth

open Relational EventSourcing Worked Txn TokenWorkItem List RunCoordinationEvent Slot Sweep

section Journal

variable [Digest]

/-! ## What a sweep did -/

/-- The leases a sweep is to act on: those of the run that another owner holds past their
deadline, where no active registration of that owner has beaten since the grace threshold, or
the deadline is past the stall threshold as well. -/
structure Sweep.Reapable (sweep : Sweep) (row : TokenWorkItem) : Prop where
  run : row.runId = sweep.runId
  leased : row.status = .leased
  foreign : row.leaseOwner ≠ some sweep.callerOwner
  expired : ∃ deadline, row.leaseExpiresAt = some deadline ∧ deadline < sweep.discoveryNow
  abandoned : (∀ worker ∈ sweep.workers, row.leaseOwner = some worker.workerId →
      worker.status = .active → worker.heartbeatExpiresAt < sweep.graceThreshold) ∨
    ∃ deadline, row.leaseExpiresAt = some deadline ∧ deadline < sweep.stallThreshold

/-- What becomes of a row: a due transform lease is READY at its next attempt, under the id of
that attempt; a due handoff is PENDING_SINK again; neither has an owner; any other row stays. -/
structure Sweep.Recovered (sweep : Sweep) (row later : TokenWorkItem) : Prop where
  transform : sweep.due row = true → sinkRedriveShaped row = false →
    later = { row with
      workItemId := workItemId row.runId row.tokenId row.nodeId (row.attempt + 1)
      attempt := row.attempt + 1, status := .ready, leaseOwner := none
      leaseExpiresAt := none, updatedAt := sweep.databaseNow }
  handoff : sweep.due row = true → sinkRedriveShaped row = true →
    later = { row with
      status := .pendingSink, leaseOwner := none, leaseExpiresAt := none
      updatedAt := sweep.databaseNow }
  other : sweep.due row = false → later = row

/-- The sweep changed exactly the due rows, with one event for each. -/
structure Recovers (sweep : Sweep) (count : Nat) (before after : Db) : Prop where
  due : ∀ row, sweep.due row = true ↔ sweep.Reapable row
  rows : Forall₂ sweep.Recovered before.tokenWorkItems.rows after.tokenWorkItems.rows
  events : after.schedulerEvents = before.schedulerEvents ++
    (sweep.expired before.tokenWorkItems.rows).map sweep.event
  counted : count = before.tokenWorkItems.rows.countP sweep.due

variable {sweep : Sweep} {count : Nat} {before db : Db} {conn : Conn} {raised : LandscapeError}
  {token : CoordinationToken} {item : TokenWorkItem} {outcomes : List TokenOutcome}
  {action : Action}

omit [Digest] in
theorem leaseExpiredBefore_iff {threshold : Time} : leaseExpiredBefore threshold item = true ↔
    ∃ deadline, item.leaseExpiresAt = some deadline ∧ deadline < threshold := by
  simp only [leaseExpiredBefore, Option.any_eq_true, decide_eq_true_eq]

omit [Digest] in
theorem Sweep.due_iff_reapable : sweep.due item = true ↔ sweep.Reapable item := by
  have dead : sweep.ownerIsDead item = true ↔ ∀ worker ∈ sweep.workers,
      item.leaseOwner = some worker.workerId → worker.status = .active →
        worker.heartbeatExpiresAt < sweep.graceThreshold := by
    simp only [ownerIsDead, ownerRegistryDead, Bool.not_eq_true', any_eq_false, Bool.and_eq_true,
      decide_eq_true_eq, not_and, and_imp]
    exact forall₂_congr fun _ _ => imp_congr_right fun _ => imp_congr_right fun _ => not_le
  rw [due_iff, reapEligible, Bool.or_eq_true, dead, leaseExpiredBefore_iff,
    leaseExpiredBefore_iff]
  exact ⟨fun ⟨⟨run, leased, expired, foreign⟩, abandoned⟩ =>
    ⟨run, leased, foreign, expired, abandoned⟩, fun reapable =>
      ⟨⟨reapable.run, reapable.leased, reapable.expired, reapable.foreign⟩, reapable.abandoned⟩⟩

theorem Sweep.image_recovered (sweep : Sweep) (row : TokenWorkItem) :
    sweep.Recovered row (if sweep.due row then sweep.image row else row) := by
  constructor
  · intro due plain
    have run : sweep.runId = row.runId := (due_iff.mp due).1.1.symm
    simp [due, image, plain, rotated, nextId, nextAttempt, run]
  · intro due shaped
    simp [due, image, shaped, released]
  · intro other
    simp [other]

theorem Sweep.Swept.recovers {after : Db} (swept : sweep.Swept count before after) :
    Recovers sweep count before after := by
  obtain ⟨items, ledger, itemRows, -, rfl⟩ := swept.written
  have edits := expired_edits sweep before.tokenWorkItems sweep.image
  refine ⟨fun row => due_iff_reapable, ?_, rfl, ?_⟩
  · have images : items.rows = before.tokenWorkItems.rows.map fun row =>
        if sweep.due row then sweep.image row else row := by
      rw [itemRows]
      refine map_congr_left fun row stored => ?_
      by_cases due : sweep.due row = true
      · rw [if_pos due, pairs, find?_eq_of_once edits.once
          (mem_map_of_mem (mem_expired.mpr ⟨stored, due⟩)) rfl]
        rfl
      · have miss : ((sweep.pairs before.tokenWorkItems.rows).find? fun pair =>
            pair.1.workItemId = row.workItemId) = none := by
          refine find?_eq_none.mpr fun pair member named => due ?_
          have same := (unique_workItemId before.tokenWorkItems).eq_of_key
            (edits.stored pair member) stored (of_decide_eq_true named)
          obtain ⟨other, otherMem, rfl⟩ := mem_map.mp member
          exact same ▸ (mem_expired.mp otherMem).2
        rw [if_neg due, miss]
        rfl
    change Forall₂ sweep.Recovered before.tokenWorkItems.rows items.rows
    rw [images, forall₂_map_right_iff, forall₂_same]
    exact fun row _ => sweep.image_recovered row
  · rw [swept.counted, expired, (sortRows_perm _ _).length_eq, countP_eq_length_filter]

theorem Recovers.congr {before' after after' : Db} (recovers : Recovers sweep count before after)
    (same : before.tokenWorkItems = before'.tokenWorkItems ∧
      before.schedulerEvents = before'.schedulerEvents)
    (same' : after'.tokenWorkItems = after.tokenWorkItems ∧
      after'.schedulerEvents = after.schedulerEvents) : Recovers sweep count before' after' := by
  obtain ⟨due, rows, events, counted⟩ := recovers
  rw [same.1] at rows events counted
  rw [same.2] at events
  exact ⟨due, same'.1 ▸ rows, same'.2 ▸ events, counted⟩

/-! ## Rows in transition -/

namespace Sweep

variable {sweep : Sweep} {rows : List TokenWorkItem}

/-- Every row is still what it was, or is due and already its image. -/
def Partly (sweep : Sweep) (rows reached : List TokenWorkItem) : Prop :=
  ∃ change : TokenWorkItem → TokenWorkItem, reached = rows.map change ∧
    ∀ row ∈ rows, change row = row ∨ sweep.due row = true ∧ change row = sweep.image row

/-- The ids of the next attempts are not stored, and differ. -/
structure Unclaimed (sweep : Sweep) (rows : List TokenWorkItem) : Prop where
  unstored : ∀ row ∈ rows, sweep.due row = true → sinkRedriveShaped row = false →
    sweep.nextId row ∉ rows.map TokenWorkItem.workItemId
  distinct : ∀ row ∈ rows, ∀ other ∈ rows, sweep.due row = true → sweep.due other = true →
    sinkRedriveShaped row = false → sinkRedriveShaped other = false →
    sweep.nextId row = sweep.nextId other → row = other

theorem Partly.refl (sweep : Sweep) (rows : List TokenWorkItem) : sweep.Partly rows rows :=
  ⟨id, rows.map_id.symm, fun _ _ => Or.inl rfl⟩

theorem image_not_leased (sweep : Sweep) (row : TokenWorkItem) :
    (sweep.image row).status ≠ .leased := by
  unfold image
  split <;> simp [released, rotated]

variable {reached : List TokenWorkItem} {selected : TokenWorkItem → Bool}
  {change : TokenWorkItem → TokenWorkItem} {row other : TokenWorkItem} {db : Db}

/-- A statement that turns due rows into their images keeps the rows in transition. -/
theorem Partly.update (partly : sweep.Partly rows reached)
    (leased : ∀ item, selected item = true → item.status = .leased)
    (hits : ∀ row ∈ rows, selected row = true → sweep.due row = true ∧
      change row = sweep.image row) :
    sweep.Partly rows (updateRows selected change reached) := by
  obtain ⟨earlier, rfl, kept⟩ := partly
  refine ⟨fun row => if selected (earlier row) then change (earlier row) else earlier row, ?_, ?_⟩
  · unfold updateRows
    rw [map_map]
    rfl
  · intro row stored
    beta_reduce
    rcases kept row stored with same | ⟨due, moved⟩
    · rw [same]
      by_cases hit : selected row = true
      · rw [if_pos hit]
        exact Or.inr (hits row stored hit)
      · rw [if_neg hit]
        exact Or.inl rfl
    · -- An image is not leased, so no statement hits it again.
      have miss : selected (earlier row) ≠ true := by
        intro hit
        have status := leased _ hit
        rw [moved] at status
        exact sweep.image_not_leased row status
      rw [if_neg miss]
      exact Or.inr ⟨due, moved⟩

theorem image_attemptKey (sweep : Sweep) (row : TokenWorkItem) :
    (sweep.image row).attemptKey = (row.runId, row.tokenId, row.nodeId, nextAttempt row) := by
  unfold image nextAttempt
  split
  next shaped => simp [released, attemptKey]
  next plain => simp [rotated, nextAttempt, attemptKey, plain]

/-- The id of a due row's image. -/
theorem nextId_eq (due : sweep.due row = true) (named : row.workItemId = row.identity.id) :
    sweep.nextId row = (⟨row.runId, row.tokenId, row.nodeId, nextAttempt row⟩ :
        WorkIdentity).id := by
  unfold nextId nextAttempt
  split
  next => exact named
  next => rw [← (due_iff.mp due).1.1]; rfl

/-- A stored row that has the identity of a due row's image is that row. -/
theorem Unclaimed.eq_of_nextId (unclaimed : sweep.Unclaimed rows)
    (unique : Unique TokenWorkItem.workItemId rows) (stored : row ∈ rows)
    (otherStored : other ∈ rows) (due : sweep.due other = true)
    (same : row.workItemId = sweep.nextId other) : row = other := by
  cases shaped : sinkRedriveShaped other with
  | true =>
    rw [nextId, if_pos shaped] at same
    exact unique.eq_of_key stored otherStored same
  | false =>
    refine absurd ?_ (unclaimed.unstored other otherStored due shaped)
    exact same ▸ mem_map_of_mem stored

theorem Unclaimed.eq_of_nextIds (unclaimed : sweep.Unclaimed rows)
    (unique : Unique TokenWorkItem.workItemId rows) (stored : row ∈ rows)
    (otherStored : other ∈ rows) (due : sweep.due row = true) (otherDue : sweep.due other = true)
    (same : sweep.nextId row = sweep.nextId other) : row = other := by
  cases shaped : sinkRedriveShaped row with
  | true =>
    refine unclaimed.eq_of_nextId unique stored otherStored otherDue ?_
    rw [← same, nextId, if_pos shaped]
  | false =>
    cases otherShaped : sinkRedriveShaped other with
    | true =>
      refine (unclaimed.eq_of_nextId unique otherStored stored due ?_).symm
      rw [same, nextId, if_pos otherShaped]
    | false =>
      exact unclaimed.distinct row stored other otherStored due otherDue shaped otherShaped same

/-- **Rows in transition satisfy every constraint.** -/
theorem Partly.accepted {table : Table TokenWorkItem Violation tokenWorkItemConstraints}
    (partly : sweep.Partly table.rows reached)
    (named : ∀ item ∈ table.rows, item.workItemId = item.identity.id)
    (unclaimed : sweep.Unclaimed table.rows) :
    Constraint.violated tokenWorkItemConstraints reached = none := by
  obtain ⟨change, rfl, changes⟩ := partly
  have ids := unique_workItemId table
  have rowsOnce : table.rows.Nodup := Nodup.of_map _ ids
  -- Ids separate the rows in transition: this is all the two keys need.
  have separated : ∀ row ∈ table.rows, ∀ other ∈ table.rows,
      (change row).identity.id = (change other).identity.id ∨
        (change row).workItemId = (change other).workItemId → row = other := by
    have idOf : ∀ row ∈ table.rows, (change row).workItemId = (change row).identity.id := by
      intro row stored
      rcases changes row stored with same | ⟨due, moved⟩
      · rw [same, named row stored]
      · rw [moved, image_workItemId, nextId_eq due (named row stored)]
        have key := sweep.image_attemptKey row
        simp only [attemptKey, Prod.mk.injEq] at key
        simp only [identity, key]
    intro row stored other otherStored same
    have same : (change row).workItemId = (change other).workItemId :=
      same.elim (fun ids => by rw [idOf row stored, ids, idOf other otherStored]) id
    rcases changes row stored with keptRow | ⟨due, moved⟩ <;>
      rcases changes other otherStored with keptOther | ⟨otherDue, otherMoved⟩
    · rw [keptRow, keptOther] at same
      exact ids.eq_of_key stored otherStored same
    · rw [keptRow, otherMoved, image_workItemId] at same
      exact unclaimed.eq_of_nextId ids stored otherStored otherDue same
    · rw [moved, keptOther, image_workItemId] at same
      exact (unclaimed.eq_of_nextId ids otherStored stored due same.symm).symm
    · rw [moved, otherMoved, image_workItemId, image_workItemId] at same
      exact unclaimed.eq_of_nextIds ids stored otherStored due otherDue same
  refine tokenWorkItems_accepted ?_ ?_ ?_
  · intro item member
    obtain ⟨row, stored, rfl⟩ := mem_map.mp member
    obtain ⟨owned, hex⟩ := tokenWorkItems_checked table row stored
    rcases changes row stored with same | ⟨due, moved⟩
    · rw [same]
      exact ⟨owned, hex⟩
    · rw [moved]
      refine ⟨fun leased => absurd leased (sweep.image_not_leased row), ?_⟩
      have kept : (sweep.image row).pendingErrorHash = row.pendingErrorHash := by
        unfold image
        split <;> rfl
      rw [kept]
      exact hex
  · unfold Relational.Unique
    rw [map_map]
    refine rowsOnce.map_on fun row stored other otherStored same =>
      separated row stored other otherStored (Or.inl ?_)
    simp only [Function.comp_apply, attemptKey, Prod.mk.injEq] at same
    simp only [identity, same]
  · unfold Relational.Unique
    rw [map_map]
    exact rowsOnce.map_on fun row stored other otherStored same =>
      separated row stored other otherStored (Or.inr same)

/-! ## A sweep is not refused -/

variable {conn : Conn}

/-- What a sweep needs so as not to be refused. -/
structure Unhindered (sweep : Sweep) (db : Db) : Prop where
  named : ∀ item ∈ db.tokenWorkItems.rows, item.workItemId = item.identity.id
  complete : sweep.Complete db.tokenWorkItems.rows
  unclaimed : sweep.Unclaimed db.tokenWorkItems.rows
  recorded : sweep.runId ∈ db.runs.rows.map Run.runId
  stalls : Unique eventId (db.runCoordinationEvents.rows ++
    ((sweep.expired db.tokenWorkItems.rows).filterMap sweep.stallEvent).map ledgerRow)

/-- The journal is in transition, everything else is as it was. -/
def Underway (sweep : Sweep) (db : Db) (conn : Conn) : Prop :=
  sweep.Partly db.tokenWorkItems.rows conn.db.tokenWorkItems.rows

theorem update_underway (unhindered : sweep.Unhindered db)
    (leased : ∀ item, selected item = true → item.status = .leased)
    (hits : ∀ row ∈ db.tokenWorkItems.rows, selected row = true →
      sweep.due row = true ∧ change row = sweep.image row) :
    Txn.Guarded (sweep.Underway db) (fun _ => False) (itemsSlot.update selected change) := by
  refine update_guarded ?_ ?_
  · intro conn underway broken violated
    have partly : sweep.Partly db.tokenWorkItems.rows
        (updateRows selected change conn.db.tokenWorkItems.rows) := underway.update leased hits
    have fine := partly.accepted unhindered.named unhindered.unclaimed
    exact nomatch violated.symm.trans fine
  · intro table conn underway tableRows
    change sweep.Partly db.tokenWorkItems.rows table.rows
    rw [tableRows]
    exact Partly.update underway leased hits

omit [Digest] in
theorem rotationFilter_leased {item : TokenWorkItem} (hit : sweep.rotationFilter item = true) :
    item.status = .leased := by
  simp only [rotationFilter, Bool.and_eq_true, decide_eq_true_eq] at hit
  exact hit.1.1.1.2

theorem sinkSelected_underway (unhindered : sweep.Unhindered db)
    (reads : sweep.Reads db.tokenWorkItems.rows) :
    Txn.Guarded (sweep.Underway db) (fun _ => False)
      (itemsSlot.update sweep.sinkSelected sweep.released) := by
  refine update_underway unhindered (fun item hit => ?_) fun row stored hit => ?_
  · simp only [sinkSelected, Bool.and_eq_true] at hit
    exact rotationFilter_leased hit.1.1.1.1
  · rw [reads.sinkSelected_eq stored] at hit
    simp only [Bool.and_eq_true] at hit
    exact ⟨hit.1, by rw [image, if_pos hit.2.1]⟩

theorem rotateStatement_underway (unhindered : sweep.Unhindered db)
    (stored : row ∈ db.tokenWorkItems.rows) (due : sweep.due row = true)
    (plain : sinkRedriveShaped row = false) :
    Txn.Guarded (sweep.Underway db) (fun _ => False) (sweep.rotateStatement row) := by
  refine update_underway unhindered (fun item hit => ?_) fun other otherStored hit => ?_
  · simp only [Bool.and_eq_true] at hit
    exact rotationFilter_leased hit.1.1
  · simp only [Bool.and_eq_true, decide_eq_true_eq] at hit
    have same := (unique_workItemId db.tokenWorkItems).eq_of_key otherStored stored hit.1.2
    subst same
    exact ⟨due, by rw [image, if_neg (by simp [plain])]⟩

end Sweep

/-- Ledger rows with new ids are accepted. -/
theorem recordCoordinationEvents_fine {events : List CoordinationEvent}
    (recorded : ∀ event ∈ events, event.runId ∈ conn.db.runs.rows.map Run.runId)
    (fresh : Unique eventId
      (conn.db.runCoordinationEvents.rows ++ events.map ledgerRow)) :
    forEach recordCoordinationEvent events conn ≠ .error raised := by
  induction events generalizing conn with
  | nil => simp
  | cons event events ih =>
    intro ran
    obtain ⟨here, others⟩ := forall_mem_cons.mp recorded
    rw [map_cons, append_cons] at fresh
    rcases bind_eq_error.mp ran with first | ⟨_, middle, first, rest⟩
    · simp only [recordCoordinationEvent, bind_eq_error, query_eq_error,
        query_eq_ok, false_or, ensure_eq_error, ensure_eq_ok,
        insert_eq_error] at first
      obtain ⟨_, conn, ⟨rfl, rfl⟩, ⟨missing, -⟩ | ⟨_, conn, ⟨-, rfl⟩, broken, violated, -⟩⟩ :=
        first
      · exact missing here
      · have sound : Constraint.violated coordinationEventConstraints
            (conn.db.runCoordinationEvents.rows ++ [ledgerRow event]) = none := by
          refine Constraint.violated_eq_none.mpr fun constraint declared => ?_
          rw [coordinationEventConstraints, mem_singleton] at declared
          subst declared
          exact (unique_append.mp fresh).1
        cases violated.symm.trans sound
    · obtain ⟨table, tableRows, middleDb⟩ := recordCoordinationEvent_ok first
      refine ih ?_ ?_ rest
      · rw [middleDb]
        exact others
      · rw [middleDb]
        rw [tableRows]
        exact fresh

namespace Sweep

variable {sweep : Sweep} {conn : Conn}

/-- **A sweep that nothing hinders is not refused.** -/
theorem apply_fine {db : Db} {raised : LandscapeError} (same : conn.db = db)
    (unhindered : sweep.Unhindered db) (reads : sweep.Reads db.tokenWorkItems.rows) :
    sweep.apply (sweep.expired db.tokenWorkItems.rows) conn ≠ .error raised := by
  intro ran
  subst same
  rcases bind_eq_error.mp ran with unchecked | ⟨_, conn, checked, ran⟩
  · obtain ⟨row, rowMem, _, refused⟩ := forEach_raises unchecked
    obtain ⟨stored, due⟩ := mem_expired.mp rowMem
    exact (ensure_eq_error.mp refused).1 (unhindered.complete row stored due)
  obtain ⟨rfl, -⟩ := checkBundles_ok checked
  have underway : sweep.Underway conn.db conn := Partly.refl sweep conn.db.tokenWorkItems.rows
  rcases bind_eq_error.mp ran with unreleased | ⟨sinkChanged, sunk, release, ran⟩
  · simp only [releaseSinks, bind_eq_error, select_eq_error, select_eq_ok, false_or,
      ensure_eq_error, pure_eq_error, and_false, exists_false, or_false] at unreleased
    obtain ⟨changing, conn, ⟨changingRows, rfl⟩, broken | ⟨_, _, -, unselected, -⟩⟩ := unreleased
    · exact (sinkSelected_underway unhindered reads).raises underway broken
    · -- The bulk statement hits due handoffs only.
      refine unselected fun name named => ?_
      have hits : changing = conn.db.tokenWorkItems.rows.filter fun row =>
          sinkRedriveShaped row && sweep.due row :=
        changingRows.trans (reads.filter_sinkSelected unhindered.complete)
      rw [hits] at named
      exact (((sinks_perm sweep conn.db.tokenWorkItems.rows).map _).mem_iff).mpr named
  obtain ⟨sinkPerm, sinkTable, sinkRows, sunkConn⟩ :=
    releaseSinks_ok reads unhindered.complete release
  have sunkUnderway : sweep.Underway conn.db sunk := by
    simp only [releaseSinks, bind_eq_ok, select_eq_ok, ensure_eq_ok,
      pure_eq_ok] at release
    obtain ⟨_, conn, ⟨-, rfl⟩, _, _, update, _, _, ⟨-, rfl⟩, -, rfl⟩ := release
    exact (sinkSelected_underway unhindered reads).keeps underway update
  subst sunkConn
  obtain ⟨-, transformEdits, -⟩ := handoffs_then_rotations sinkRows
  rcases bind_eq_error.mp ran with unrotated | ⟨transformChanged, rotated, rotate, ran⟩
  · simp only [rotateTransforms, bind_eq_error, select_eq_error, select_eq_ok,
      false_or, ensure_eq_error, pure_eq_error, and_false, exists_false, or_false]
      at unrotated
    rcases unrotated with broken | ⟨total, _, batch, found, _, ⟨foundRows, -⟩, mismatch, -⟩
    · have batch : Txn.Guarded (sweep.Underway conn.db) (fun _ => False)
          (executeMany sweep.rotateStatement (sweep.transforms conn.db.tokenWorkItems.rows)) := by
        refine .executeMany_of_mem fun row rowMem => ?_
        obtain ⟨expired, plain⟩ := mem_filter.mp rowMem
        obtain ⟨stored, due⟩ := mem_expired.mp expired
        exact rotateStatement_underway unhindered stored due (by simpa using plain)
      exact batch.raises sunkUnderway broken
    · obtain ⟨full, -, present⟩ := rotateBatch_ok reads transformEdits batch
      refine mismatch ?_
      have foundLength := present.length_eq
      rw [length_map, length_map] at foundLength
      rw [foundRows, full]
      exact foundLength
  obtain ⟨presentPerm, -, table, -, rfl⟩ := rotateTransforms_ok reads transformEdits rotate
  obtain ⟨noneMissed, allRecovered⟩ := none_missed (changed_perm sinkPerm presentPerm)
  rcases bind_eq_error.mp ran with never | ⟨_, _, query, ran⟩
  · simp at never
  rw [(query_eq_ok.mp query).2, noneMissed, allRecovered] at ran
  simp only [forEach_nil, recordEvents, bind_eq_error, pure_eq_error, pure_eq_ok,
    alter_eq_error, alter_eq_ok, false_or, and_false, exists_false, or_false] at ran
  obtain ⟨_, _, ⟨-, rfl⟩, _, _, rfl, stalled⟩ := ran
  refine recordCoordinationEvents_fine (fun event eventMem => ?_) ?_ stalled
  · obtain ⟨row, -, stalls⟩ := mem_filterMap.mp eventMem
    have run : event.runId = sweep.runId := by
      simp only [stallEvent, Option.ite_none_left_eq_some, Option.map_eq_some_iff] at stalls
      obtain ⟨-, owner, -, rfl⟩ := stalls
      rfl
    rw [run]
    exact unhindered.recorded
  · exact unhindered.stalls

end Sweep

theorem rotateExpiredLeases_fine {env : CallEnv} {grace stallBudget : Int}
    (unhindered : (sweepOf token grace stallBudget (env.decisionTime conn.decisionReads)
      (env.decisionTime (conn.decisionReads + 1)) conn.db).Unhindered conn.db) :
    rotateExpiredLeases env token grace stallBudget conn ≠ .error raised := by
  intro ran
  have ordered : env.decisionTime conn.decisionReads ≤
      env.decisionTime (conn.decisionReads + 1) := env.decisionTime_mono (Nat.le_succ _)
  have reads := sweepOf_reads token grace stallBudget ordered conn.db
  simp only [rotateExpiredLeases, bind_eq_error, readLandscapeDecisionTime_eq_error,
    readLandscapeDecisionTime_eq_ok, select_eq_error, select_eq_ok, ite_eq_error,
    pure_eq_error, query_eq_error, query_eq_ok, and_false, false_or] at ran
  obtain ⟨discoveryNow, _, ⟨rfl, rfl⟩, candidates, _, ⟨rfl, rfl⟩, -, databaseNow, _, ⟨rfl, rfl⟩,
    workers, _, ⟨rfl, rfl⟩, selected, _, ⟨selectedRows, rfl⟩, -, applied⟩ := ran
  rw [selectedRows.trans reads.filter_selected] at applied
  refine apply_fine ?_ unhindered reads applied
  rfl

/-! ## The journals the verbs produce -/

/-- The item is stored under the id of its identity, and outside PENDING_SINK and TERMINAL it
carries a sink bundle only under a lease, and then a complete one. -/
structure TokenWorkItem.Sound (item : TokenWorkItem) : Prop where
  named : item.workItemId = item.identity.id
  sink : sinkRedriveShaped item = true → item.pendingSinkName.isSome = true
  plain : item.status = .ready ∨ item.status = .blocked ∨ item.status = .failed →
    sinkRedriveShaped item = false
  whole : item.status = .leased → sinkRedriveShaped item = true → pendingSinkBundle item = true

theorem Born.sound {event : SchedulerEvent} (born : Born item event) : item.Sound := by
  refine ⟨born.workItemId, ?_, ?_, ?_⟩
  all_goals cases born with
  | ready => simp [sinkRedriveShaped, readyWorkItemValues]
  | parked runId emission rowId stepIndex ingestSequence databaseNow parkedLeaseOwner context
    named =>
    simp [freshPendingSinkValues, named]

theorem TokenWorkItem.Sound.unsunk (sound : item.Sound) (unnamed : item.pendingSinkName = none) :
    sinkRedriveShaped item = false := by
  cases shaped : sinkRedriveShaped item with
  | false => rfl
  | true =>
    have named := sound.sink shaped
    rw [unnamed] at named
    cases named

section

variable (named : item.workItemId = item.identity.id)
include named

theorem Action.next_named :
    (action.next outcomes item).workItemId = (action.next outcomes item).identity.id := by
  cases action with
  | rotate | requeue => rfl
  | dispose image databaseNow => cases image <;> exact named
  | _ => exact named

theorem TokenWorkItem.Sound.of_parked
    (sink : sinkRedriveShaped item = true → item.pendingSinkName.isSome = true)
    (status : item.status = .pendingSink ∨ item.status = .terminal) : item.Sound := by
  refine ⟨named, sink, fun other => ?_, fun leased => ?_⟩
  · rcases status with same | same <;> rw [same] at other <;> simp at other
  · rcases status with same | same <;> cases same.symm.trans leased

theorem TokenWorkItem.Sound.of_plain (plain : sinkRedriveShaped item = false) : item.Sound := by
  refine ⟨named, fun shaped => ?_, fun _ => plain, fun _ shaped => ?_⟩ <;>
    cases plain.symm.trans shaped

end

/-- **Every edge keeps items sound.** -/
theorem Action.next_sound (enabled : action.Enabled outcomes item) (sound : item.Sound) :
    (action.next outcomes item).Sound := by
  have named : (action.next outcomes item).workItemId = (action.next outcomes item).identity.id :=
    Action.next_named sound.named
  cases action with
  | claim source leaseOwner expiresAt databaseNow =>
    cases source with
    | ready => exact .of_plain named (sound.plain (Or.inl enabled.1))
    | pendingSink =>
      refine ⟨named, sound.sink, fun other => ?_, fun _ _ => enabled.2 rfl⟩
      rcases other with other | other | other <;> cases other
  | renew | adopt | reset => exact ⟨named, sound.sink, sound.plain, sound.whole⟩
  | rotate => exact .of_plain named enabled.2
  | requeue =>
    have failed : item.status = .failed := by
      simp only [Action.Enabled, undecidedFailedWork, Bool.and_eq_true, decide_eq_true_eq]
        at enabled
      exact enabled.1
    exact .of_plain named (sound.plain (Or.inr (Or.inr failed)))
  | dispose image databaseNow =>
    cases image with
    | pendingSink => exact .of_parked named (fun _ => rfl) (Or.inl rfl)
    | blocked | failed | terminal => exact .of_plain named (sound.unsunk enabled.2.1)
  | release => exact .of_parked named sound.sink (Or.inl rfl)
  | finishSink | consume => exact .of_parked named sound.sink (Or.inr rfl)
  | handOff => exact .of_parked named (fun _ => enabled.2) (Or.inl rfl)

theorem serve_sound (call : Call) (sound : ∀ item ∈ db.tokenWorkItems.rows, item.Sound) :
    ∀ item ∈ (serve call db).2.tokenWorkItems.rows, item.Sound := by
  refine Course.forall_rows (serve_performs call db).travels ?_ ?_ sound
  · rintro new event ⟨born, -⟩
    exact born.sound
  · rintro old new entry ⟨action, -, enabled, rfl, -⟩ before
    exact Action.next_sound enabled before

/-! ## Histories -/

/-- The identity of the next attempt. -/
def TokenWorkItem.nextIdentity (item : TokenWorkItem) : WorkIdentity :=
  { item.identity with attempt := item.attempt + 1 }

/-- The ids of the stored identities and of their next attempts do not collide. -/
def Db.IdsSeparate (db : Db) : Prop :=
  ∀ row ∈ db.tokenWorkItems.rows, ∀ other ∈ db.tokenWorkItems.rows,
    (other.identity.id = row.nextIdentity.id → other.identity = row.nextIdentity) ∧
      (other.nextIdentity.id = row.nextIdentity.id → other.nextIdentity = row.nextIdentity)

/-- The ledger rows for stalled owners have new and different ids, and their run is recorded. -/
structure Sweep.LogsFreely (sweep : Sweep) (db : Db) : Prop where
  recorded : sweep.runId ∈ db.runs.rows.map Run.runId
  stalls : Unique eventId (db.runCoordinationEvents.rows ++
    ((sweep.expired db.tokenWorkItems.rows).filterMap sweep.stallEvent).map ledgerRow)

/-- **One item per continuation leaves the next attempts free.** -/
theorem Sweep.unclaimed_of_lanes (sweep : Sweep) (lanes : db.LanesUnique)
    (separate : db.IdsSeparate)
    (named : ∀ item ∈ db.tokenWorkItems.rows, item.workItemId = item.identity.id) :
    sweep.Unclaimed db.tokenWorkItems.rows := by
  have next : ∀ row, sweep.due row = true → sinkRedriveShaped row = false →
      sweep.nextId row = row.nextIdentity.id := by
    intro row due plain
    rw [nextId, plain, ← (due_iff.mp due).1.1]
    rfl
  constructor
  · intro row stored due plain taken
    obtain ⟨other, otherStored, same⟩ := mem_map.mp taken
    rw [next row due plain, named other otherStored] at same
    have identity := (separate row stored other otherStored).1 same
    -- The other row is on the same lane, so it is this row, one attempt ahead of itself.
    have lane : other.lane = row.lane := congrArg WorkIdentity.lane identity
    rw [lanes.eq_of_key otherStored stored lane] at identity
    exact absurd (congrArg WorkIdentity.attempt identity) (Nat.succ_ne_self _).symm
  · intro row stored other otherStored due otherDue plain otherPlain same
    rw [next row due plain, next other otherDue otherPlain] at same
    have identity := (separate other otherStored row stored).2 same
    exact lanes.eq_of_key stored otherStored (congrArg WorkIdentity.lane identity)

/-- The sweep of a recovery call, at the two readings of its clock behind the fence. -/
def recoverySweep (env : CallEnv) (token : CoordinationToken) (grace stallBudget : Int) (db : Db) :
    Sweep :=
  sweepOf token grace stallBudget (env.decisionTime 1) (env.decisionTime 2) db

theorem recoverExpiredLeases_raises {env : CallEnv} {grace stallBudget : Int}
    (sound : ∀ item ∈ db.tokenWorkItems.rows, item.Sound) (lanes : db.LanesUnique)
    (separate : db.IdsSeparate)
    (logs : (recoverySweep env token grace stallBudget db).LogsFreely db)
    (ran : (recoverExpiredLeases env token grace stallBudget db).1 = .error raised) :
    raised.OfFence := by
  rcases fencedLeaderTransaction_raises ran with fence | ⟨-, opened, reads, renewed, inner⟩
  · exact fence
  · obtain ⟨table, -, openedDb⟩ := renewed
    refine absurd inner (rotateExpiredLeases_fine ?_)
    rw [reads, openedDb]
    have named : ∀ item ∈ db.tokenWorkItems.rows, item.workItemId = item.identity.id :=
      fun item stored => (sound item stored).named
    refine ⟨named, fun row stored due shaped => ?_,
      unclaimed_of_lanes _ lanes separate named, logs.recorded, logs.stalls⟩
    exact (sound row stored).whole (due_iff.mp due).1.2.1 shaped

/-- The request of a recovery in its environment. -/
def recoveryCall (env : CallEnv) (token : CoordinationToken) (grace stallBudget : Int) : Call :=
  ⟨env, .recoverExpiredLeases token grace stallBudget⟩

/-- **Lease recovery is exact**, in every database: a recovery that returns turned the due
leases, and nothing else, into what they are to become, told each in one event and counted
them; one that raises left at most a refusal.  After every history from an empty journal in
which each insert repeats a stored id or opens a continuation that has no item, it raises
nothing but what its fence raises, in particular no integrity error, as long as digests do not
collide. -/
theorem lease_recovery_exact (env : CallEnv) (token : CoordinationToken)
    (grace stallBudget : Int) :
    (∀ db : Db,
      (∀ reply, (serve (recoveryCall env token grace stallBudget) db).1 = .ok reply →
        ∃ count, reply = .count count ∧
          Recovers (recoverySweep env token grace stallBudget db) count db
            (serve (recoveryCall env token grace stallBudget) db).2) ∧
      ∀ raised, (serve (recoveryCall env token grace stallBudget) db).1 = .error raised →
        OnlyRefusal db (serve (recoveryCall env token grace stallBudget) db).2) ∧
    ∀ (start : Db) (calls : List Call), start.tokenWorkItems.rows = [] →
      Complies serve (fun db call => call.request.InsertsFreely db) start calls →
      (after serve start calls).IdsSeparate →
      (recoverySweep env token grace stallBudget (after serve start calls)).LogsFreely
        (after serve start calls) →
      ∀ raised, (serve (recoveryCall env token grace stallBudget) (after serve start calls)).1 =
        .error raised → raised.OfFence := by
  refine ⟨fun db => ⟨fun reply ok => ?_, fun raised refused => ?_⟩,
    fun start calls empty freely separate logs raised refused => ?_⟩
  · obtain ⟨count, same, run⟩ :=
      returned_of_answer (recoverExpiredLeases_settles token grace stallBudget) ok
    obtain ⟨opened, closed, reads, begun, ran, finish⟩ := run.ran
    have swept := (rotateExpiredLeases_ok ran).recovers
    rw [reads] at swept
    obtain ⟨table, -, openedDb⟩ := begun
    rw [openedDb] at swept
    exact ⟨count, same, swept.congr ⟨rfl, rfl⟩ ⟨finish.quiet.items, finish.quiet.events⟩⟩
  · exact refused_of_answer (recoverExpiredLeases_settles ..) refused
  · have sound : ∀ item ∈ (after serve start calls).tokenWorkItems.rows, item.Sound := by
      refine after_induction (fun db : Db => ∀ item ∈ db.tokenWorkItems.rows, item.Sound)
        (fun call db => serve_sound call) ?_ calls
      simp [empty]
    exact recoverExpiredLeases_raises sound (after_lanesUnique empty freely) separate logs
      (raised_of_answer refused)

end Journal

namespace Worked

/-- The follower enqueues and claims the continuation. -/
def claiming : List Call := opening ++ rotation.take 2

/-- The recovery of leases that ran out before the given time. -/
def recovery (now : Time) : Call := call now (.recoverExpiredLeases leader 0 (1000 * second))

end Worked

/-- The worked lease is due and every insert before it is free, so its recovery is exact and
raises no integrity error. -/
theorem lease_recovery_exact_worked :
    (Worked.serve (Worked.recovery (1000 * second))
        (after Worked.serve Db.empty Worked.claiming)).1 = .ok (.count 1) ∧
      (∃ count, Reply.count 1 = .count count ∧
        @Recovers digest
          (recoverySweep (recovery (1000 * second)).env leader 0 (1000 * second)
            (after Worked.serve Db.empty Worked.claiming)) count
          (after Worked.serve Db.empty Worked.claiming)
          (Worked.serve (Worked.recovery (1000 * second))
            (after Worked.serve Db.empty Worked.claiming)).2) ∧
      ∀ raised, (Worked.serve (Worked.recovery (1000 * second))
        (after Worked.serve Db.empty Worked.claiming)).1 = .error raised → raised.OfFence := by
  have ok : (Worked.serve (Worked.recovery (1000 * second))
      (after Worked.serve Db.empty Worked.claiming)).1 = .ok (.count 1) := by
    decide +kernel
  have freely : Complies Worked.serve
      (fun db call => @Request.InsertsFreely digest call.request db) Db.empty claiming := by
    decide +kernel
  have separate : @Db.IdsSeparate digest (after Worked.serve Db.empty Worked.claiming) := by
    unfold Db.IdsSeparate
    decide +kernel
  have logs : @Sweep.LogsFreely digest
      (recoverySweep (recovery (1000 * second)).env leader 0 (1000 * second)
        (after Worked.serve Db.empty Worked.claiming))
      (after Worked.serve Db.empty Worked.claiming) := by
    refine @Sweep.LogsFreely.mk digest _ _ ?_ ?_ <;> decide +kernel
  have recovered := @lease_recovery_exact digest (recovery (1000 * second)).env leader 0
    (1000 * second)
  exact ⟨ok, (recovered.1 _).1 _ ok,
    recovered.2 Db.empty claiming rfl freely separate logs⟩

/-- **A repeated enqueue hinders the recovery**: the verbs reach a journal in which the
sweep of a lease that ran out is refused, because its next attempt is stored already. -/
theorem replay_hinders_recovery :
    ((after Worked.serve Db.empty (Worked.opening ++ Worked.rotation ++ Worked.replay)
        ).tokenWorkItems.rows.map fun item => (item.status, item.attempt)) =
        [(.leased, 2), (.leased, 1)] ∧
      (Worked.serve (Worked.recovery (2000 * second))
        (after Worked.serve Db.empty (Worked.opening ++ Worked.rotation ++ Worked.replay))).1 =
        .error (.integrityError .workItemsAttempt) := by
  decide +kernel

end Elspeth
