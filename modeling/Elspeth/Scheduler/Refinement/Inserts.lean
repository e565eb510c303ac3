import Elspeth.Landscape.Fences
import Elspeth.Scheduler.Lifecycle
import Elspeth.Scheduler.Queue

/-!
# Inserts refine births

Every way of adding rows to the journal — one continuation, a batch of children,
the fresh outputs of a barrier, a quarantined source row — is a list of births
of the lifecycle machine: each new row comes with exactly one event that tells
it, and replayed images add neither.

The one place where this needs an argument is the child batch.  The insert keeps
the *first* image of each id and checks every later one against it; the event
dictionary keeps the *last* event of each id, in the place of the first.  The
two agree because a checked replay shares its identity with the first image.
-/

namespace Elspeth

open Relational EventSourcing Txn List BarrierEmission

variable {env : CallEnv} {conn conn' : Conn}

/-! ## Reads -/

variable {runId tokenId rowId operation : String} {value : Unit} {ingestSequence : Nat}
  {row values existing : TokenWorkItem}

theorem validateNodeCursor_ok {nodeId : Option String} {label : String}
    (ran : validateNodeCursor runId nodeId label conn = .ok (value, conn')) : conn' = conn := by
  cases nodeId with
  | none => exact (pure_eq_ok.mp ran).2
  | some =>
    simp only [validateNodeCursor, bind_eq_ok, Slot.select_eq_ok, ensure_eq_ok] at ran
    obtain ⟨_, _, ⟨-, rfl⟩, -, rfl⟩ := ran
    rfl

theorem validateRowCursor_ok
    (ran : validateRowCursor runId tokenId rowId ingestSequence conn = .ok (value, conn')) :
    conn' = conn := by
  obtain ⟨tokens, _, select, inner⟩ := bind_eq_ok.mp ran
  obtain ⟨-, rfl⟩ := Slot.select_eq_ok.mp select
  cases tokens with
  | nil => exact (raise_eq_ok.mp inner).elim
  | cons token rest =>
    simp only [bind_eq_ok, ensure_eq_ok, Slot.select_eq_ok] at inner
    obtain ⟨_, _, ⟨-, rfl⟩, rows, _, ⟨-, rfl⟩, last⟩ := inner
    cases rows with
    | nil => exact (raise_eq_ok.mp last).elim
    | cons => exact (ensure_eq_ok.mp last).2

theorem validateWorkItemReferences_ok {nodeId coalesceNodeId : Option String}
    (ran : validateWorkItemReferences runId tokenId rowId ingestSequence nodeId coalesceNodeId
      conn = .ok (value, conn')) : conn' = conn := by
  simp only [validateWorkItemReferences, bind_eq_ok] at ran
  obtain ⟨_, _, row, _, _, node, coalesce⟩ := ran
  rw [validateNodeCursor_ok coalesce, validateNodeCursor_ok node, validateRowCursor_ok row]

theorem readItemOn_ok {workItemId : String} (ran : readItemOn workItemId conn = .ok (row, conn')) :
    conn' = conn ∧ row ∈ conn.db.tokenWorkItems.rows ∧ row.workItemId = workItemId := by
  obtain ⟨rows, _, select, inner⟩ := bind_eq_ok.mp ran
  obtain ⟨found, rfl⟩ := Slot.select_eq_ok.mp select
  cases rows with
  | nil => exact (raise_eq_ok.mp inner).elim
  | cons =>
    obtain ⟨rfl, rfl⟩ := pure_eq_ok.mp inner
    have member : row ∈ (itemsSlot.rows conn').filter fun row => row.workItemId = workItemId :=
      found ▸ mem_cons_self
    obtain ⟨stored, named⟩ := mem_filter.mp member
    exact ⟨rfl, stored, of_decide_eq_true named⟩

/-! ## The idempotent insert -/

theorem validateReplay_ok
    (ran : validateReplay operation values existing conn = .ok (value, conn')) :
    conn' = conn ∧ replayMismatches values existing = [] := by
  obtain ⟨matches_, rfl⟩ := ensure_eq_ok.mp ran
  exact ⟨rfl, matches_⟩

/-- A checked replay shares the stored row's identity. -/
theorem identity_of_replay (replay : replayMismatches values existing = []) :
    existing.workItemId = values.workItemId ∧ existing.identity = values.identity := by
  have agrees : ∀ field ∈ comparableFields, field.2 values existing = true := by
    intro field member
    have kept := filter_eq_nil_iff.mp (map_eq_nil_iff.mp replay) field member
    simpa using kept
  simp only [comparableFields, forall_mem_cons, decide_eq_true_eq] at agrees
  obtain ⟨sameId, sameRun, sameToken, -, sameNode, rest⟩ := agrees
  refine ⟨sameId, WorkIdentity.ext sameRun sameToken sameNode ?_⟩
  exact rest.2.2.2.2.2.2.2.2.2.2.2.2.2.2.2.2.2.1

theorem firstImages_ok {seen images result : List TokenWorkItem}
    (ran : firstImages operation seen images conn = .ok (result, conn')) :
    conn' = conn ∧ (∀ image ∈ result, image ∈ seen ∨ image ∈ images) := by
  induction images generalizing seen with
  | nil =>
    obtain ⟨rfl, rfl⟩ := pure_eq_ok.mp ran
    exact ⟨rfl, fun image member => Or.inl member⟩
  | cons image images ih =>
    unfold firstImages at ran
    cases found : seen.find? (·.workItemId = image.workItemId) with
    | some =>
      rw [found] at ran
      obtain ⟨_, _, check, rest⟩ := bind_eq_ok.mp ran
      obtain ⟨rfl, -⟩ := validateReplay_ok check
      obtain ⟨rfl, members⟩ := ih rest
      refine ⟨rfl, fun other member => ?_⟩
      rcases members other member with inSeen | inRest
      · exact Or.inl inSeen
      · exact Or.inr (mem_cons_of_mem _ inRest)
    | none =>
      rw [found] at ran
      obtain ⟨rfl, members⟩ := ih ran
      refine ⟨rfl, fun other member => ?_⟩
      rcases members other member with inSeen | inRest
      · rcases mem_append.mp inSeen with old | new
        · exact Or.inl old
        · exact Or.inr (mem_singleton.mp new ▸ mem_cons_self)
      · exact Or.inr (mem_cons_of_mem _ inRest)

theorem validateStored_ok {images fresh : List TokenWorkItem}
    (ran : validateStored operation images fresh row conn = .ok (value, conn')) : conn' = conn := by
  rcases ite_eq_ok.mp ran with ⟨-, same⟩ | ⟨-, inner⟩
  · exact (pure_eq_ok.mp same).2
  · cases found : images.find? (·.workItemId = row.workItemId) with
    | some =>
      rw [found] at inner
      exact (validateReplay_ok inner).1
    | none =>
      rw [found] at inner
      exact (pure_eq_ok.mp inner).2

/-- An idempotent insert appended the images whose id was not stored. -/
structure Inserted (operation : String) (values fresh : List TokenWorkItem)
    (conn conn' : Conn) : Prop where
  images : ∃ images, firstImages operation [] values conn = .ok (images, conn) ∧
    fresh = images.filter fun image =>
      image.workItemId ∉ conn.db.tokenWorkItems.rows.map TokenWorkItem.workItemId
  written : ∃ table : Table TokenWorkItem Violation tokenWorkItemConstraints,
    table.rows = conn.db.tokenWorkItems.rows ++ fresh ∧ conn' = itemsSlot.put table conn

theorem insertWorkItemsIdempotent_ok {values fresh : List TokenWorkItem}
    (ran : insertWorkItemsIdempotent values operation conn = .ok (fresh, conn')) :
    Inserted operation values fresh conn conn' := by
  simp only [insertWorkItemsIdempotent, insertFresh, bind_eq_ok, query_eq_ok,
    mapError_eq_ok, Slot.insert_eq_ok, pure_eq_ok, Slot.select_eq_ok,
    ensure_eq_ok] at ran
  obtain ⟨images, _, first, _, _, ⟨_, _, ⟨rfl, rfl⟩, _, _, ⟨table, tableRows, rfl⟩, rfl, rfl⟩, _, _,
    ⟨-, rfl⟩, _, _, ⟨-, rfl⟩, _, _, checked, rfl, rfl⟩ := ran
  have same := (firstImages_ok first).1
  subst same
  have readOnly : ∀ fresh existing, Txn.Respects Eq
      (forEach (validateStored operation images fresh) existing) :=
    fun fresh => Txn.Respects.forEach fun row _ _ _ ran => (validateStored_ok ran).symm
  exact ⟨⟨images, first, rfl⟩, table, tableRows, (readOnly _ _ checked).symm⟩

theorem Inserted.mem {values fresh : List TokenWorkItem}
    (inserted : Inserted operation values fresh conn conn') {item : TokenWorkItem}
    (member : item ∈ fresh) : item ∈ values := by
  obtain ⟨images, first, rfl⟩ := inserted.images
  have fromImages := (firstImages_ok first).2 item (mem_of_mem_filter member)
  simpa using fromImages

/-! ## One continuation -/

/-- A call that only gives birth. -/
def Scope.births (birth : TokenWorkItem → Prop) : Scope :=
  ⟨birth, fun _ _ => False, fun _ => False⟩

/-- A READY row of one of these identities. -/
def readyBirth (identities : List WorkIdentity) (item : TokenWorkItem) : Prop :=
  item.status = .ready ∧ item.identity ∈ identities

section Births

variable [Digest] {recorded : List TokenOutcome}

theorem born_ready (runId : String) (values : ReadyValues) (availableAt recordedAt : Time)
    (context : Context) :
    Born (readyWorkItemValues runId values availableAt)
      (enqueueEvent (readyWorkItemValues runId values availableAt) recordedAt context) :=
  .ready runId values availableAt availableAt recordedAt context

variable {runId operation : String} {values : ReadyValues} {item : TokenWorkItem}
  {event : SchedulerEvent} {emission : BarrierEmission} {parkedLeaseOwner : Option String}
  {context : Context} {databaseNow : Time}

/-- An enqueue inserts its image at most once, and the row it returns carries the
image's id. -/
theorem enqueueOn_ok {availableAt : Time} {row : TokenWorkItem}
    (ran : enqueueOn runId values availableAt operation conn = .ok (row, conn')) :
    Advances recorded (.births (readyBirth [values.identity runId])) conn.db conn'.db ∧
      row ∈ conn'.db.tokenWorkItems.rows ∧ row.workItemId = (values.identity runId).id := by
  simp only [enqueueOn, bind_eq_ok, recordEvents, alter_eq_ok] at ran
  obtain ⟨_, _, references, fresh, _, insert, _, _, rfl, read⟩ := ran
  have same := validateWorkItemReferences_ok references
  subst same
  have inserted := insertWorkItemsIdempotent_ok insert
  obtain ⟨table, tableRows, rfl⟩ := inserted.written
  obtain ⟨rfl, stored, named⟩ := readItemOn_ok read
  refine ⟨?_, stored, named⟩
  refine advances_of_births (forall₂_map_right_iff.mpr (forall₂_same.mpr ?_)) tableRows
  intro item itemMem
  have image : item = readyWorkItemValues runId values availableAt :=
    mem_singleton.mp (inserted.mem itemMem)
  subst image
  exact ⟨born_ready runId values availableAt availableAt [], rfl, mem_singleton.mpr rfl⟩

/-! ## A batch of children -/

omit [Digest] in
/-- An event that tells the birth of a READY row. -/
def Announces (item : TokenWorkItem) (event : SchedulerEvent) : Prop :=
  ∃ recordedAt, event = enqueueEvent item recordedAt []

omit [Digest] in
theorem Announces.of_identity {other : TokenWorkItem} (announces : Announces item event)
    (sameId : other.workItemId = item.workItemId) (same : other.identity = item.identity) :
    Announces other event := by
  obtain ⟨recordedAt, rfl⟩ := announces
  refine ⟨recordedAt, ?_⟩
  simp only [TokenWorkItem.identity, WorkIdentity.mk.injEq] at same
  obtain ⟨sameRun, sameToken, sameNode, sameAttempt⟩ := same
  unfold enqueueEvent
  rw [sameId, sameRun, sameToken, sameNode, sameAttempt]

omit [Digest] in
theorem Announces.workItemId (announces : Announces item event) :
    event.workItemId = item.workItemId := by
  obtain ⟨_, rfl⟩ := announces
  rfl

omit [Digest] in
/-- The first images and the last events of a batch, side by side. -/
theorem firstImages_announced {children : List (TokenWorkItem × SchedulerEvent)}
    (announced : ∀ child ∈ children, Announces child.1 child.2) {seen images : List TokenWorkItem}
    {told : List SchedulerEvent} (distinct : Unique TokenWorkItem.workItemId seen)
    (before : Forall₂ Announces seen told)
    (ran : firstImages operation seen (children.map Prod.fst) conn = .ok (images, conn')) :
    Forall₂ Announces images ((children.map Prod.snd).foldl setEvent told) := by
  induction children generalizing seen told with
  | nil =>
    obtain ⟨rfl, -⟩ := pure_eq_ok.mp ran
    exact before
  | cons child children ih =>
    obtain ⟨image, event⟩ := child
    have childAnnounced : Announces image event := announced (image, event) mem_cons_self
    have rest : ∀ child ∈ children, Announces child.1 child.2 :=
      fun child member => announced child (mem_cons_of_mem _ member)
    have sameId := childAnnounced.workItemId
    rw [map_cons] at ran
    unfold firstImages at ran
    rw [map_cons, foldl_cons]
    cases found : seen.find? (·.workItemId = image.workItemId) with
    | some first =>
      rw [found] at ran
      obtain ⟨_, _, check, later⟩ := bind_eq_ok.mp ran
      obtain ⟨rfl, replay⟩ := validateReplay_ok check
      obtain ⟨firstId, firstIdentity⟩ := identity_of_replay replay
      have firstMem : first ∈ seen := mem_of_find?_eq_some found
      refine ih rest distinct ?_ later
      -- The replayed id is already told, so its event is replaced in place.
      obtain ⟨earlier, earlierMem, tells⟩ := mem_of_forall₂_left before firstMem
      have told_any : told.any (·.workItemId = event.workItemId) = true := by
        refine any_eq_true.mpr ⟨earlier, earlierMem, ?_⟩
        rw [tells.workItemId, sameId, firstId]
        exact decide_eq_true rfl
      unfold setEvent
      rw [if_pos told_any]
      have within := (forall₂_and_left seen told).mpr ⟨fun _ member => member, before⟩
      refine forall₂_map_right_iff.mpr (within.imp ?_)
      rintro other note ⟨otherMem, tellsOther⟩
      by_cases same : note.workItemId = event.workItemId
      · rw [if_pos same]
        have otherFirst : other = first := by
          refine distinct.eq_of_key otherMem firstMem ?_
          rw [← tellsOther.workItemId, same, sameId, firstId]
        rw [otherFirst]
        exact childAnnounced.of_identity firstId firstIdentity
      · rw [if_neg same]
        exact tellsOther
    | none =>
      rw [found] at ran
      have absent : ∀ other ∈ seen, other.workItemId ≠ image.workItemId := by
        intro other otherMem same
        have miss := find?_eq_none.mp found other otherMem
        exact miss (decide_eq_true same)
      refine ih rest ?_ ?_ ran
      · refine unique_append.mpr ⟨distinct, nodup_singleton _, ?_⟩
        intro other otherMem new newMem
        rw [mem_singleton.mp newMem]
        exact absent other otherMem
      · have told_any : ¬ told.any (·.workItemId = event.workItemId) = true := by
          intro any
          obtain ⟨note, noteMem, same⟩ := any_eq_true.mp any
          obtain ⟨other, otherMem, tells⟩ := mem_of_forall₂_right before noteMem
          refine absent other otherMem ?_
          rw [← tells.workItemId, of_decide_eq_true same, sameId]
        unfold setEvent
        rw [if_neg told_any]
        exact rel_append before (.cons childAnnounced .nil)

/-- A prepared child: a READY image of its emission, with its announcement. -/
def Prepared (runId : String) (emission : BarrierEmission)
    (child : TokenWorkItem × SchedulerEvent) : Prop :=
  ∃ values availableAt, emission.readyValues? = some values ∧
    child.1 = readyWorkItemValues runId values availableAt ∧ Announces child.1 child.2

omit [Digest] in
theorem BarrierEmission.readyValues_identity (complete : emission.readyValues? = some values)
    (runId : String) : values.identity runId = emission.identity runId := by
  unfold readyValues? at complete
  split at complete
  · cases complete
    rfl
  · cases complete

theorem prepareReadyEmissionOn_ok {child : TokenWorkItem × SchedulerEvent}
    (ran : prepareReadyEmissionOn env runId emission conn = .ok (child, conn')) :
    conn.db = conn'.db ∧ Prepared runId emission child := by
  unfold prepareReadyEmissionOn at ran
  rcases complete : emission.readyValues? with _ | values <;> rw [complete] at ran
  · exact (raise_eq_ok.mp ran).elim
  · simp only [bind_eq_ok, readLandscapeTransactionTime_eq_ok, pure_eq_ok] at ran
    obtain ⟨_, _, references, availableAt, _, ⟨-, rfl⟩, rfl, rfl⟩ := ran
    rw [validateWorkItemReferences_ok references]
    exact ⟨rfl, values, availableAt, complete, rfl, availableAt, rfl⟩

theorem respects_prepareReadyEmissionOn :
    Txn.Respects (OnDb Eq) (prepareReadyEmissionOn env runId emission) :=
  fun _ _ _ ran => (prepareReadyEmissionOn_ok ran).1

omit [Digest] in
theorem respects_readItemOn {workItemId : String} :
    Txn.Respects Eq (readItemOn workItemId) :=
  fun _ _ _ ran => (readItemOn_ok ran).1.symm

omit [Digest] in
/-- Filtering two lists side by side. -/
theorem forall₂_filter {α β : Type} {relation : α → β → Prop} {left : α → Bool}
    {right : β → Bool} {items : List α} {notes : List β}
    (related : Forall₂ relation items notes)
    (agree : ∀ item ∈ items, ∀ note, relation item note → left item = right note) :
    Forall₂ relation (items.filter left) (notes.filter right) := by
  induction related with
  | nil => exact .nil
  | @cons item note items notes step _ ih =>
    have same := agree item mem_cons_self note step
    have rest := ih fun other member => agree other (mem_cons_of_mem _ member)
    cases kept : left item with
    | true =>
      rw [filter_cons_of_pos kept, filter_cons_of_pos (same ▸ kept)]
      exact .cons step rest
    | false =>
      rw [filter_cons_of_neg (by simp [kept]),
        filter_cons_of_neg (by simp [← same, kept])]
      exact rest

/-- Children are born READY, each with one event; replays add neither. -/
theorem enqueueChildrenOn_ok {workItemId : String} {emissions : List BarrierEmission}
    {rows : List TokenWorkItem}
    (ran : enqueueChildrenOn env runId workItemId emissions conn = .ok (rows, conn')) :
    Advances recorded (.births (readyBirth (emissions.map (·.identity runId))))
        conn.db conn'.db ∧ conn'.db.tokenOutcomes = conn.db.tokenOutcomes := by
  simp only [enqueueChildrenOn, bind_eq_ok, recordEvents, alter_eq_ok] at ran
  obtain ⟨children, prepared, prepare, fresh, _, insert, _, _, rfl, read⟩ := ran
  have sameDb : conn.db = prepared.db :=
    Txn.Respects.mapEach (fun _ => respects_prepareReadyEmissionOn) emissions prepare
  have childrenPrepared : Forall₂ (Prepared runId) emissions children := by
    refine mapEach_forall₂ ?_ prepare
    intro emission session child session' ran
    exact (prepareReadyEmissionOn_ok ran).2
  have announced : ∀ child ∈ children, Announces child.1 child.2 := by
    intro child childMem
    obtain ⟨emission, -, values, availableAt, -, -, announces⟩ :=
      mem_of_forall₂_right childrenPrepared childMem
    exact announces
  have unread := Txn.Respects.mapEach (fun _ => respects_readItemOn) children read
  rw [← unread, sameDb]
  have inserted := insertWorkItemsIdempotent_ok insert
  obtain ⟨images, first, freshEq⟩ := inserted.images
  obtain ⟨table, tableRows, rfl⟩ := inserted.written
  refine ⟨?_, rfl⟩
  have told : Forall₂ Announces images (eventsById (children.map Prod.snd)) :=
    firstImages_announced announced (unique_nil _) .nil first
  -- An event survives the filter exactly when its image was inserted.
  have filtered : Forall₂ Announces fresh
      ((eventsById (children.map Prod.snd)).filter fun event =>
        event.workItemId ∈ fresh.map TokenWorkItem.workItemId) := by
    rw [freshEq]
    refine forall₂_filter told fun image imageMem event announces => ?_
    rw [announces.workItemId, decide_eq_decide]
    refine ⟨fun absent => mem_map_of_mem (mem_filter.mpr ⟨imageMem, ?_⟩), fun taken => ?_⟩
    · exact decide_eq_true absent
    · obtain ⟨other, otherMem, same⟩ := mem_map.mp taken
      exact same ▸ of_decide_eq_true (mem_filter.mp otherMem).2
  refine advances_of_births ?_ tableRows
  refine ((forall₂_and_left fresh _).mpr ⟨fun _ member => member, filtered⟩).imp ?_
  rintro item event ⟨itemMem, recordedAt, rfl⟩
  obtain ⟨child, childMem, rfl⟩ := mem_map.mp (inserted.mem itemMem)
  obtain ⟨emission, emissionMem, values, availableAt, complete, image, -⟩ :=
    mem_of_forall₂_right childrenPrepared childMem
  rw [image]
  refine ⟨born_ready runId values availableAt recordedAt [], rfl, ?_⟩
  refine mem_map.mpr ⟨emission, emissionMem, ?_⟩
  exact (readyValues_identity complete runId).symm

/-! ## Born parked -/

/-- A fresh sink handoff: the parked image of an emission without a node. -/
def FreshlyParked (runId : String) (parkedLeaseOwner : Option String)
    (emission : BarrierEmission) (item : TokenWorkItem) : Prop :=
  emission.nodeId = none ∧ ∃ rowId stepIndex ingestSequence databaseNow,
    item = freshPendingSinkValues runId emission rowId stepIndex ingestSequence databaseNow
      parkedLeaseOwner

theorem FreshlyParked.identity (parked : FreshlyParked runId parkedLeaseOwner emission item) :
    item.identity = emission.identity runId := by
  obtain ⟨terminalLane, _, _, _, _, rfl⟩ := parked
  unfold identity
  rw [terminalLane]
  rfl

theorem prepareFreshPendingSinkItem_ok {fresh : TokenWorkItem × SchedulerEvent}
    (ran : prepareFreshPendingSinkItem runId context databaseNow parkedLeaseOwner emission conn =
      .ok (fresh, conn')) :
    conn' = conn ∧ FreshlyParked runId parkedLeaseOwner emission fresh.1 ∧
      fresh.2 = parkedEvent fresh.1 databaseNow context ∧
      (emission.sinkName.isSome = true → Born fresh.1 fresh.2) := by
  cases node : emission.nodeId with
  | some => simp [prepareFreshPendingSinkItem, node] at ran
  | none =>
    cases row : emission.rowId with
    | none => simp [prepareFreshPendingSinkItem, node, row] at ran
    | some rowId =>
      cases step : emission.stepIndex with
      | none => simp [prepareFreshPendingSinkItem, node, row, step] at ran
      | some stepIndex =>
        cases ingest : emission.ingestSequence with
        | none => simp [prepareFreshPendingSinkItem, node, row, step, ingest] at ran
        | some ingestSequence =>
          simp only [prepareFreshPendingSinkItem, node, row, step, ingest,
            bind_eq_ok, pure_eq_ok] at ran
          obtain ⟨_, _, references, rfl, rfl⟩ := ran
          exact ⟨validateWorkItemReferences_ok references,
            ⟨node, rowId, stepIndex, ingestSequence, databaseNow, rfl⟩, rfl,
            fun named => .parked runId emission rowId stepIndex ingestSequence
              databaseNow parkedLeaseOwner context named⟩

theorem respects_prepareFreshPendingSinkItem (emission : BarrierEmission) :
    Txn.Respects Eq
      (prepareFreshPendingSinkItem runId context databaseNow parkedLeaseOwner emission) :=
  fun _ _ _ ran => (prepareFreshPendingSinkItem_ok ran).1.symm

omit [Digest] in
theorem pendingSinkBundle_named (bundle : pendingSinkBundle item = true) :
    item.pendingSinkName.isSome = true := by
  simp only [pendingSinkBundle, Bool.and_eq_true, Option.any_eq_true] at bundle
  obtain ⟨⟨-, name, named, -⟩, -⟩ := bundle
  rw [named]
  rfl

/-- A quarantined source row is parked with a complete bundle. -/
theorem parkSourceQuarantineOn_ok {parkedLeaseOwner : String} {parked : TokenWorkItem}
    (ran : parkSourceQuarantineOn env runId emission parkedLeaseOwner conn =
      .ok (parked, conn')) :
    Advances recorded
      (.births fun item => item.identity = emission.identity runId ∧
        pendingSinkBundle item = true) conn.db conn'.db := by
  simp only [parkSourceQuarantineOn, bind_eq_ok, readLandscapeTransactionTime_eq_ok,
    insertWorkItems, mapError_eq_ok, Slot.insert_eq_ok, recordEvents, alter_eq_ok,
    ensure_eq_ok, pure_eq_ok] at ran
  obtain ⟨_, _, ⟨rfl, rfl⟩, fresh, _, prepare, _, _, ⟨table, tableRows, rfl⟩, _, _, rfl, _, _, read,
    _, _, ⟨bundle, rfl⟩, rfl, rfl⟩ := ran
  obtain ⟨rfl, image, -, born⟩ := prepareFreshPendingSinkItem_ok prepare
  obtain ⟨rfl, stored, named⟩ := readItemOn_ok read
  have freshStored : fresh.1 ∈ table.rows := by
    rw [tableRows]
    exact mem_append_right _ (mem_singleton.mpr rfl)
  have same : parked = fresh.1 := (unique_workItemId table).eq_of_key stored freshStored named
  subst same
  have sinkNamed : emission.sinkName.isSome = true := by
    have bundleNamed := pendingSinkBundle_named bundle
    obtain ⟨-, _, _, _, _, imageEq⟩ := image
    rw [imageEq] at bundleNamed
    exact bundleNamed
  exact advances_of_births (.cons ⟨born sinkNamed, image.identity, bundle⟩ .nil) tableRows

end Births

end Elspeth
