import Elspeth.Scheduler.Refinement.Inserts

/-!
# Dispositions and sink terminalizations refine the lifecycle

A disposition replaces one row — the transform lease it names, held by its
caller — and records one event.  It may be preceded by the births of the item's
children and followed by group losses, in the same transaction.

The pending-sink terminalizers replace any number of parked handoffs by their
terminal images; each of them gets one event.
-/

namespace Elspeth

open Relational EventSourcing TokenWorkItem Txn DispositionImage

variable {env : CallEnv} {conn conn' : Conn}

/-! ## Group losses -/

theorem respects_firstLosses {seen specs : List GroupLossSpec} :
    Txn.Respects (OnDb Quiet) (firstLosses seen specs) := by
  induction specs generalizing seen with
  | nil => exact .pure
  | cons spec specs ih =>
    refine .bind .ensure fun _ => ?_
    cases seen.find? (·.key = spec.key) with
    | some => exact .bind .ensure fun _ => ih
    | none => exact ih

theorem respects_checkStoredLoss {existing : List GroupLoss} (spec : GroupLossSpec) :
    Txn.Respects (OnDb Quiet) (checkStoredLoss existing spec) := by
  unfold checkStoredLoss
  cases existing.find? (·.key = spec.key) with
  | none => exact .raise
  | some => exact .ensure

theorem respects_recordGroupLosses {runId recordedBy : String} {specs : List GroupLossSpec}
    {now : Time} : Txn.Respects (OnDb Quiet) (recordGroupLosses env runId specs recordedBy
        now) := by
  refine .bind respects_firstLosses fun _ => ?_
  refine .bind (.mapEach (fun _ => .bind respects_generateId fun _ => .pure) _) fun _ => ?_
  refine .bind .query fun _ => .bind .query fun _ => .bind .query fun _ => .bind .ensure fun _ => ?_
  refine .bind (Slot.insert_respects fun table session _ => ?_) fun _ => ?_
  · exact ⟨⟨rfl, forall₂_serves_refl _, List.prefix_rfl⟩, rfl, rfl⟩
  · exact .bind .query fun _ => .forEach respects_checkStoredLoss _

/-! ## Scopes -/

/-- A call that disposes of one transform lease, and may give birth. -/
def Scope.disposing (birth : TokenWorkItem → Prop) (workItemId runId leaseOwner : String)
    (image : DispositionImage) : Scope where
  birth := birth
  action action item := (∃ databaseNow, action = .dispose image databaseNow) ∧
    transformLease workItemId runId leaseOwner item = true
  note _ := False

section Journal

variable [Digest]

/-- A call that ends sink handoffs of a run; the purge marker is anchored on the
token. -/
def Scope.finishing (runId : String) (ends : TokenWorkItem → Prop) : Scope where
  birth _ := False
  action action item :=
    (∃ databaseNow, action = .finishSink (scrubbedRowPayloadJson item.tokenId) databaseNow) ∧
      item.runId = runId ∧ ends item
  note _ := False

/-! ## One disposition -/

omit [Digest] in
/-- A blocked image names a queue or a barrier. -/
def DispositionImage.Keyed (image : DispositionImage) : Prop :=
  ∀ queueKey barrierKey payload, image = .blocked queueKey barrierKey payload →
    queueKey ≠ none ∨ barrierKey ≠ none

/-- The named lease was disposed of: its row carries the image now, and no other
row changed. -/
structure Disposed (workItemId runId leaseOwner : String) (image : DispositionImage)
    (before after : Db) : Prop where
  replaced : ∃ old ∈ before.tokenWorkItems.rows, ∃ databaseNow,
    transformLease workItemId runId leaseOwner old = true ∧
      after.tokenWorkItems.rows = replaceRow TokenWorkItem.workItemId old
        (image.apply before.tokenOutcomes.rows databaseNow old) before.tokenWorkItems.rows

variable {workItemId runId leaseOwner callerOwner tokenId : String} {row : TokenWorkItem}
  {image : DispositionImage} {databaseNow : Time} {member : WorkerMembershipToken}
  {losses : List GroupLossSpec} {recorded : List TokenOutcome} {ends : TokenWorkItem → Prop}
  {count : Nat}

omit [Digest] in
theorem transformLease_iff :
    transformLease workItemId runId leaseOwner row = true ↔
      row.workItemId = workItemId ∧ row.runId = runId ∧ row.status = .leased ∧
        row.pendingSinkName = none ∧ row.leaseOwner = some leaseOwner := by
  simp only [transformLease, Bool.and_eq_true, decide_eq_true_eq, Option.isNone_iff_eq_none,
    and_assoc]

omit [Digest] in
theorem DispositionImage.apply_workItemId (image : DispositionImage)
    (outcomes : List TokenOutcome) (databaseNow : Time) (item : TokenWorkItem) :
    (image.apply outcomes databaseNow item).workItemId = item.workItemId := by
  cases image <;> rfl

omit [Digest] in
/-- The event of a disposition tells its image. -/
theorem describes_disposition (image : DispositionImage) (outcomes : List TokenOutcome)
    (databaseNow : Time) (old : TokenWorkItem) (callerOwner : Option String) (context : Context) :
    Describes image.eventType old (image.apply outcomes databaseNow old)
      (transitionEvent image.eventType old image.status image.nextLeaseOwner databaseNow
        callerOwner context) := by
  cases image <;> exact describes_transition ⟨by simp [eventType], by simp [eventType]⟩ rfl rfl

omit [Digest] in
theorem recordTransition_ok {before : List TokenWorkItem} {value : Unit}
    (ran : recordTransition before workItemId leaseOwner image databaseNow conn =
      .ok (value, conn')) :
    ∃ row rest, before = row :: rest ∧
      conn'.db = { conn.db with schedulerEvents := conn.db.schedulerEvents ++
        [transitionEvent image.eventType row image.status image.nextLeaseOwner databaseNow
          (some leaseOwner) []] } := by
  unfold recordTransition at ran
  cases before with
  | nil => exact (raise_eq_ok.mp ran).elim
  | cons row rest =>
    obtain rfl := alter_eq_ok.mp ran
    exact ⟨row, rest, rfl, rfl⟩

/-- **One disposition.** It replaced the lease it names and recorded one event;
a park passed the bundle check on the row it wrote. -/
theorem transitionOn_ok {after : TokenWorkItem} {birth : TokenWorkItem → Prop}
    (keyed : image.Keyed) (ran : transitionOn env member workItemId leaseOwner image losses conn =
      .ok (after, conn')) :
    Advances conn.db.tokenOutcomes.rows
        (.disposing birth workItemId member.runId leaseOwner image) conn.db conn'.db ∧
      Disposed workItemId member.runId leaseOwner image conn.db conn'.db := by
  simp only [transitionOn, bind_eq_ok, readLandscapeTransactionTime_eq_ok,
    Slot.select_eq_ok, query_eq_ok, ensure_eq_ok, pure_eq_ok] at ran
  obtain ⟨databaseNow, _, ⟨-, rfl⟩, before, _, ⟨beforeRows, rfl⟩, outcomes, _, ⟨outcomesEq, rfl⟩,
    count, updated, update, _, _, ⟨one, rfl⟩, _, _, read, _, _, ⟨bundle, rfl⟩, _, told, event, _,
    _, losses, rfl, rfl⟩ := ran
  subst outcomesEq
  have lost : Quiet told.db conn'.db := respects_recordGroupLosses losses
  have named : ∀ row, transformLease workItemId member.runId leaseOwner row = true →
      row.workItemId = workItemId := fun row held => (transformLease_iff.mp held).1
  rcases Slot.update_keyed unique_workItemId named update with
    ⟨none, -⟩ | ⟨-, old, oldMem, held, -, table, tableRows, rfl⟩
  · omega
  obtain ⟨oldId, -, leased, transform, -⟩ := transformLease_iff.mp held
  obtain ⟨rfl, stored, afterId⟩ := readItemOn_ok read
  -- The row read before the write is the lease itself, the row read after it its image.
  obtain ⟨row, rest, rfl, toldDb⟩ := recordTransition_ok event
  have rowMem := beforeRows ▸ List.mem_cons_self (a := row) (l := rest)
  obtain ⟨rowStored, rowNamed⟩ := List.mem_filter.mp rowMem
  have sameRow : row = old := (unique_workItemId conn.db.tokenWorkItems).eq_of_key rowStored oldMem
    ((of_decide_eq_true rowNamed).trans oldId.symm)
  subst sameRow
  have newMem : image.apply conn.db.tokenOutcomes.rows databaseNow row ∈ table.rows := by
    rw [tableRows]
    exact (mem_replaceRow oldMem).mpr (Or.inl rfl)
  have sameAfter : after = image.apply conn.db.tokenOutcomes.rows databaseNow row :=
    (unique_workItemId table).eq_of_key stored newMem
      (by rw [afterId, apply_workItemId, oldId])
  have admissible : image.Admissible row := by
    cases image with
    | blocked => exact keyed _ _ _ rfl
    | terminal | failed => trivial
    | pendingSink =>
      have complete := bundle rfl
      rw [sameAfter] at complete
      exact complete
  have advanced : Advances conn.db.tokenOutcomes.rows
      (.disposing birth workItemId member.runId leaseOwner image) conn.db told.db := by
    rw [toldDb]
    exact advances_of_action (.dispose image databaseNow)
      (some (transitionEvent image.eventType row image.status image.nextLeaseOwner databaseNow
        (some leaseOwner) [])) oldMem ⟨⟨databaseNow, rfl⟩, held⟩ ⟨leased, transform, admissible⟩
      ⟨_, rfl, describes_disposition _ _ _ _ _ _⟩
      (Or.inl (apply_workItemId _ _ _ _)) tableRows
  refine ⟨advanced.trans (.of_quiet lost), row, oldMem, databaseNow, held, ?_⟩
  rw [lost.items, toldDb]
  exact tableRows

/-- A disposition after the births of its item's children. -/
theorem transitionWithChildren_ok {emissions : List BarrierEmission}
    {reply : TokenWorkItem × List TokenWorkItem} (keyed : image.Keyed) (ran : (do
        let children ← enqueueChildrenOn env member.runId workItemId emissions
        let parent ← transitionOn env member workItemId leaseOwner image losses
        pure (parent, children)) conn = .ok (reply, conn')) :
    Advances conn.db.tokenOutcomes.rows
        (.disposing (readyBirth (emissions.map (·.identity member.runId))) workItemId
          member.runId leaseOwner image) conn.db conn'.db ∧
      ∃ middle : Db, Advances conn.db.tokenOutcomes.rows
          (.births (readyBirth (emissions.map (·.identity member.runId)))) conn.db middle ∧
        Disposed workItemId member.runId leaseOwner image middle conn'.db := by
  simp only [bind_eq_ok, pure_eq_ok] at ran
  obtain ⟨children, middle, enqueue, parent, _, dispose, rfl, rfl⟩ := ran
  obtain ⟨born, sameOutcomes⟩ : Advances conn.db.tokenOutcomes.rows
      (.births (readyBirth (emissions.map (·.identity member.runId)))) conn.db middle.db ∧ _ :=
    enqueueChildrenOn_ok enqueue
  obtain ⟨disposes, disposed⟩ := transitionOn_ok keyed dispose
  rw [sameOutcomes] at disposes
  refine ⟨.trans (born.mono ?_) disposes, middle.db, born, disposed⟩
  exact ⟨fun _ allowed => allowed, fun _ _ never => never.elim, fun _ never => never⟩

/-! ## Sink terminalizations -/

omit [Digest] in
theorem sinkHandoff_iff :
    sinkHandoff runId row = true ↔
      row.runId = runId ∧ (row.status = .pendingSink ∨ row.status = .leased) ∧
        row.pendingSinkName.isSome = true := by
  simp only [sinkHandoff, Bool.and_eq_true, Bool.or_eq_true, decide_eq_true_eq, and_assoc]

/-- Ending a parked or re-claimed handoff is an edge of the lifecycle. -/
theorem finishSink_allowed (databaseNow : Time) (handoff : sinkHandoff runId row = true)
    (ending : ends row) :
    (lifecycle recorded (.finishing runId ends)).edit row
      (row.terminalized (scrubbedRowPayloadJson row.tokenId) databaseNow)
      (some (sinkTerminalEvent callerOwner databaseNow row)) := by
  obtain ⟨run, status, named⟩ := sinkHandoff_iff.mp handoff
  exact ⟨.finishSink (scrubbedRowPayloadJson row.tokenId) databaseNow,
    ⟨⟨databaseNow, rfl⟩, run, ending⟩, ⟨status, named⟩, rfl, _, rfl,
    describes_transition ⟨by decide, by decide⟩ rfl rfl⟩

omit [Digest] in
theorem ownedHandoff_iff :
    ownedHandoff runId tokenId leaseOwner row = true ↔
      sinkHandoff runId row = true ∧ row.tokenId = tokenId ∧
        row.leaseOwner = some leaseOwner := by
  simp only [ownedHandoff, Bool.and_eq_true, decide_eq_true_eq, and_assoc]

theorem markPendingSinkTerminalOn_ok
    (ran : markPendingSinkTerminalOn env runId tokenId leaseOwner conn = .ok (count, conn')) :
    Advances recorded (.finishing runId fun item => item.tokenId = tokenId) conn.db conn'.db := by
  simp only [markPendingSinkTerminalOn, bind_eq_ok, readLandscapeTransactionTime_eq_ok,
    Slot.select_eq_ok, ensure_eq_ok, Slot.update_eq_ok, recordEvents, alter_eq_ok,
    pure_eq_ok] at ran
  obtain ⟨databaseNow, _, ⟨-, rfl⟩, rows, _, ⟨rfl, rfl⟩, _, _, ⟨-, rfl⟩, _, _,
    ⟨-, table, tableRows, rfl⟩, _, _, ⟨-, rfl⟩, _, _, rfl, -, rfl⟩ := ran
  have anchored : table.rows = updateRows (ownedHandoff runId tokenId leaseOwner)
      (fun row => row.terminalized (scrubbedRowPayloadJson row.tokenId) databaseNow)
      conn.db.tokenWorkItems.rows := by
    rw [tableRows]
    refine updateRows_congr (fun _ _ => rfl) fun row _ owned => ?_
    rw [(ownedHandoff_iff.mp owned).2.1]
  refine advances_of_statement anchored (sortRows_perm _ _) (fun _ => rfl) fun row rowMem => ?_
  have owned := (List.mem_filter.mp ((mem_sortRows _).mp rowMem)).2
  obtain ⟨handoff, sameToken, -⟩ := ownedHandoff_iff.mp owned
  exact finishSink_allowed databaseNow handoff sameToken

omit [Digest] in
theorem respects_checkSinkMember {rows : List TokenWorkItem} (tokenId : String) :
    Txn.Respects Eq (checkSinkMember rows leaseOwner tokenId) := by
  unfold checkSinkMember
  split
  · exact .raise
  · exact .bind .ensure fun _ => .ensure
  · exact .raise

/-- A batch of terminalizations over the selected handoffs, then their events. -/
theorem finishSinks_batch {selected : TokenWorkItem → Bool}
    {hits : TokenWorkItem → TokenWorkItem → Bool} {total : Nat} (batch : executeMany
      (fun row => itemsSlot.update (hits row)
        (terminalized (scrubbedRowPayloadJson row.tokenId) databaseNow))
      (sortRows sweepKey (conn.db.tokenWorkItems.rows.filter selected)) conn =
        .ok (total, conn')) (full : total =
      (sortRows sweepKey (conn.db.tokenWorkItems.rows.filter selected)).length)
    (keyed : ∀ row other, hits row other = true → other.workItemId = row.workItemId)
    (handoff : ∀ row, selected row = true → sinkHandoff runId row = true ∧ ends row)
    (callerOwner : String) :
    Advances recorded (.finishing runId ends) conn.db
      { conn'.db with
        schedulerEvents := conn'.db.schedulerEvents ++
          (sortRows sweepKey (conn.db.tokenWorkItems.rows.filter selected)).map
            (sinkTerminalEvent callerOwner databaseNow) } := by
  have selectedRow : ∀ row ∈ sortRows sweepKey
      (conn.db.tokenWorkItems.rows.filter selected),
      row ∈ conn.db.tokenWorkItems.rows ∧ selected row = true :=
    fun row rowMem => List.mem_filter.mp ((mem_sortRows _).mp rowMem)
  have allowed : ∀ row ∈ sortRows sweepKey
      (conn.db.tokenWorkItems.rows.filter selected), hits row row = true →
      (lifecycle recorded (.finishing runId ends)).edit row
        (row.terminalized (scrubbedRowPayloadJson row.tokenId) databaseNow)
        (some (sinkTerminalEvent callerOwner databaseNow row)) := by
    intro row rowMem _
    obtain ⟨parked, ending⟩ := handoff row (selectedRow row rowMem).2
    exact finishSink_allowed databaseNow parked ending
  obtain ⟨-, table, rfl, -, advanced⟩ := advances_of_batch id batch keyed
    (fun row rowMem => (selectedRow row rowMem).1)
    (nodup_sortRows_filter _ _ conn.db.tokenWorkItems) (Or.inl full) allowed
  exact advanced

theorem markPendingSinkTerminalManyOn_ok {tokenIds : List String}
    (ran : markPendingSinkTerminalManyOn env runId leaseOwner tokenIds conn =
      .ok (count, conn')) :
    Advances recorded (.finishing runId fun item => item.tokenId ∈ tokenIds)
      conn.db conn'.db := by
  simp only [markPendingSinkTerminalManyOn, bind_eq_ok, readLandscapeTransactionTime_eq_ok,
    Slot.select_eq_ok, ensure_eq_ok, recordEvents, alter_eq_ok, pure_eq_ok] at ran
  obtain ⟨databaseNow, _, ⟨-, rfl⟩, handoffs, _, ⟨rfl, rfl⟩, _, _, checked, _, _, batch, _, _,
    ⟨full, rfl⟩, _, _, rfl, -, rfl⟩ := ran
  have unchecked := Txn.Respects.forEach respects_checkSinkMember tokenIds checked
  subst unchecked
  refine finishSinks_batch batch full ?_ ?_ leaseOwner
  · intro row other hit
    simp only [Bool.and_eq_true, decide_eq_true_eq] at hit
    exact hit.1.1.1.1.1.1
  · intro row selected
    simpa only [Bool.and_eq_true, decide_eq_true_eq] using selected

theorem terminalizeDecidedOn_ok
    (ran : terminalizeDecidedOn env runId callerOwner conn = .ok (count, conn')) :
    Advances recorded
      (.finishing runId fun item =>
        tokenDecided conn.db.tokenOutcomes.rows runId item.tokenId = true)
      conn.db conn'.db := by
  simp only [terminalizeDecidedOn, bind_eq_ok, readLandscapeTransactionTime_eq_ok,
    query_eq_ok, Slot.select_eq_ok, ensure_eq_ok, recordEvents, alter_eq_ok,
    pure_eq_ok] at ran
  obtain ⟨databaseNow, _, ⟨-, rfl⟩, outcomes, _, ⟨rfl, rfl⟩, decided, _, ⟨rfl, rfl⟩, _, _, batch, _,
    _, ⟨full, rfl⟩, _, _, rfl, -, rfl⟩ := ran
  refine finishSinks_batch batch full ?_ ?_ callerOwner
  · intro row other hit
    simp only [Bool.and_eq_true, decide_eq_true_eq] at hit
    exact hit.1.1.1
  · intro row selected
    simp only [decidedHandoff, Bool.and_eq_true, decide_eq_true_eq] at selected
    exact ⟨sinkHandoff_iff.mpr ⟨selected.1.1.1, Or.inl selected.1.1.2, selected.1.2⟩, selected.2⟩

end Journal

end Elspeth
