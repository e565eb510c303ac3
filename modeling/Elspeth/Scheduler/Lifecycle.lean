import Elspeth.Landscape.Frame
import Elspeth.Protocol.EventSourcing
import Elspeth.Scheduler.Barrier
import Elspeth.Scheduler.Dispositions

/-!
# The life of a work item

The scheduler's verbs, some twenty of them, all move work items along the edges
of one state chart.  This module states the chart once, as an event-sourced
machine in the sense of `Protocol.EventSourcing`:

* an `Action` is one edge: `Enabled` is what the row must look like, `next` is
  the row afterwards, `eventType` the event that is recorded with it;
* `Born` are the two ways a row comes into being;
* `lifecycle` collects the edges into rules.  A `Scope` narrows them to what one
  call may do.

Nothing here is translated from a verb.  That every run of every verb is a path
of this machine is proved verb by verb in the `Refinement` modules, and the
journal's invariants are then properties of paths.
-/

namespace Elspeth

open Relational EventSourcing List

/-! ## Reading the event log -/

/-- What the event log is meant to determine about an item. -/
structure WorkImage where
  status : TokenWorkStatus
  leaseOwner : Option String
  attempt : Nat
  deriving DecidableEq, Repr

def TokenWorkItem.image (item : TokenWorkItem) : WorkImage :=
  ⟨item.status, item.leaseOwner, item.attempt⟩

/-- The item a rotation event replaced.  Only the two rotating event types carry
the link; other events may hold any context. -/
def SchedulerEvent.previousWorkItem (event : SchedulerEvent) : Option String :=
  if event.eventType = .recoverExpiredLease ∨ event.eventType = .resumeRequeueFailed then
    match event.context.lookup previousWorkItemKey with
    | some (.text previous) => some previous
    | _ => none
  else none

/-- What an event says about the journal. -/
def SchedulerEvent.effect (event : SchedulerEvent) : Effect String WorkImage :=
  if event.eventType = .leaseLost then .note
  else .put event.previousWorkItem event.workItemId
    ⟨event.toStatus, event.toLeaseOwner, event.toAttempt⟩

/-- The journal and its events. -/
def Db.journal (db : Db) : Ledger TokenWorkItem SchedulerEvent :=
  ⟨db.tokenWorkItems.rows, db.schedulerEvents⟩

/-! ## Edges -/

/-- Where a claim takes its item from. -/
inductive ClaimSource where
  | ready
  | pendingSink
  deriving DecidableEq, Repr

def ClaimSource.status : ClaimSource → TokenWorkStatus
  | .ready => .ready
  | .pendingSink => .pendingSink

def ClaimSource.eventType : ClaimSource → SchedulerEventType
  | .ready => .claimReady
  | .pendingSink => .claimPendingSink

/-- The item can be claimed: a parked one only with a complete bundle. -/
def ClaimSource.Offers (source : ClaimSource) (item : TokenWorkItem) : Prop :=
  item.status = source.status ∧ (source = .pendingSink → pendingSinkBundle item = true)

/-- One edge of the state chart. -/
inductive Action where
  | claim (source : ClaimSource) (leaseOwner : String) (expiresAt databaseNow : Time)
  | renew (expiresAt databaseNow : Time)
  | rotate (databaseNow : Time)
  | release (databaseNow : Time)
  | requeue (databaseNow : Time)
  | dispose (image : DispositionImage) (databaseNow : Time)
  | finishSink (payload : String) (databaseNow : Time)
  | consume (payload : String) (databaseNow : Time)
  | handOff (emission : BarrierEmission) (parkedLeaseOwner : Option String) (databaseNow : Time)
  | adopt (leaderEpoch : Nat) (databaseNow : Time)
  | reset

/-- A disposition may write this image over the row. -/
def DispositionImage.Admissible (image : DispositionImage) (item : TokenWorkItem) : Prop :=
  match image with
  | .blocked queueKey barrierKey _ => queueKey ≠ none ∨ barrierKey ≠ none
  | .terminal _ => True
  | .failed _ => True
  | .pendingSink .. => pendingSinkBundle (image.apply [] 0 item) = true

namespace Action

/-- What the row must look like. -/
def Enabled (outcomes : List TokenOutcome) (action : Action) (item : TokenWorkItem) : Prop :=
  match action with
  | claim source .. => source.Offers item
  | renew .. => item.status = .leased
  | rotate _ => item.status = .leased ∧ sinkRedriveShaped item = false
  | release _ => item.status = .leased ∧ pendingSinkBundle item = true
  | requeue _ => undecidedFailedWork outcomes item = true
  | dispose image _ =>
    item.status = .leased ∧ item.pendingSinkName = none ∧ image.Admissible item
  | finishSink .. =>
    (item.status = .pendingSink ∨ item.status = .leased) ∧ item.pendingSinkName.isSome = true
  | consume .. => item.status = .blocked
  | handOff emission _ _ => item.status = .blocked ∧ emission.sinkName.isSome = true
  | adopt .. => item.status = .blocked ∧ item.barrierAdoptedEpoch = none
  | reset => item.status = .blocked

variable [Digest]

/-- The row afterwards. -/
def next (outcomes : List TokenOutcome) (action : Action) (item : TokenWorkItem) :
    TokenWorkItem :=
  match action with
  | claim _ leaseOwner expiresAt databaseNow => item.leasedTo leaseOwner expiresAt databaseNow
  | renew expiresAt databaseNow =>
    { item with leaseExpiresAt := some expiresAt, updatedAt := databaseNow }
  | rotate databaseNow | requeue databaseNow => item.requeued (requeueId item) databaseNow
  | release databaseNow =>
    { item with
      status := .pendingSink, leaseOwner := none, leaseExpiresAt := none,
      updatedAt := databaseNow }
  | dispose image databaseNow => image.apply outcomes databaseNow item
  | finishSink payload databaseNow | consume payload databaseNow =>
    item.terminalized payload databaseNow
  | handOff emission parkedLeaseOwner databaseNow =>
    { item with
      status := .pendingSink, rowPayloadJson := emission.rowPayloadJson,
      pendingSinkName := emission.sinkName, pendingOutcome := emission.outcome,
      pendingPath := emission.path, pendingErrorHash := emission.errorHash,
      pendingErrorMessage := emission.errorMessage, leaseOwner := parkedLeaseOwner,
      leaseExpiresAt := none, updatedAt := databaseNow }
  | adopt leaderEpoch databaseNow =>
    { item with barrierAdoptedEpoch := some leaderEpoch, updatedAt := databaseNow }
  | reset => { item with barrierAdoptedEpoch := none }

omit [Digest] in
/-- The event that is recorded with the edge, if any. -/
def eventType : Action → Option SchedulerEventType
  | claim source .. => some source.eventType
  | renew .. => none
  | rotate _ => some .recoverExpiredLease
  | release _ => some .recoverExpiredLease
  | requeue _ => some .resumeRequeueFailed
  | dispose image _ => some image.eventType
  | finishSink .. => some .markPendingSinkTerminal
  | consume .. => some .markBlockedBarrierTerminal
  | handOff .. => some .markPendingSink
  | adopt .. => none
  | reset => none

end Action

/-- The event tells the transition from `old` to `new`. -/
structure Describes (eventType : SchedulerEventType) (old new : TokenWorkItem)
    (event : SchedulerEvent) : Prop where
  eventType : event.eventType = eventType
  runId : event.runId = old.runId
  tokenId : event.tokenId = old.tokenId
  nodeId : event.nodeId = old.nodeId
  workItemId : event.workItemId = new.workItemId
  fromStatus : event.fromStatus = some old.status
  fromAttempt : event.fromAttempt = some old.attempt
  toStatus : event.toStatus = new.status
  toLeaseOwner : event.toLeaseOwner = new.leaseOwner
  toAttempt : event.toAttempt = new.attempt
  previous : event.previousWorkItem = some old.workItemId ∨
    event.previousWorkItem = none ∧ new.workItemId = old.workItemId

/-- The log entry of an edge: its event, or none for the edges that have none. -/
def Action.Logs (action : Action) (old new : TokenWorkItem) (entry : Option SchedulerEvent) :
    Prop :=
  match action.eventType with
  | none => entry = none
  | some eventType => ∃ event, entry = some event ∧ Describes eventType old new event

variable {eventType : SchedulerEventType}

theorem Describes.effect {old new : TokenWorkItem} {event : SchedulerEvent}
    (describes : Describes eventType old new event) (notLost : eventType ≠ .leaseLost) :
    event.effect = .put event.previousWorkItem new.workItemId new.image := by
  unfold SchedulerEvent.effect TokenWorkItem.image
  rw [if_neg (describes.eventType ▸ notLost), describes.workItemId, describes.toStatus,
    describes.toLeaseOwner, describes.toAttempt]

theorem Action.eventType_ne_leaseLost {action : Action}
    (records : action.eventType = some eventType) : eventType ≠ .leaseLost := by
  cases action with
  | claim source leaseOwner expiresAt databaseNow =>
    cases records
    cases source <;> decide
  | dispose image databaseNow =>
    cases records
    cases image <;> simp [DispositionImage.eventType]
  | renew | adopt | reset => cases records
  | _ => cases records; decide

/-- The event of a transition that keeps id and attempt. -/
theorem describes_transition {old new : TokenWorkItem} {databaseNow : Time}
    {callerOwner : Option String} {context : Context}
    (plain : eventType ≠ .recoverExpiredLease ∧ eventType ≠ .resumeRequeueFailed)
    (workItemId : new.workItemId = old.workItemId) (attempt : new.attempt = old.attempt) :
    Describes eventType old new
      (transitionEvent eventType old new.status new.leaseOwner databaseNow callerOwner context)
    where
  eventType := rfl
  runId := rfl
  tokenId := rfl
  nodeId := rfl
  workItemId := workItemId.symm
  fromStatus := rfl
  fromAttempt := rfl
  toStatus := rfl
  toLeaseOwner := rfl
  toAttempt := attempt.symm
  previous := by
    refine Or.inr ⟨if_neg ?_, workItemId⟩
    rintro (recovery | requeue)
    · exact plain.1 recovery
    · exact plain.2 requeue

/-! ## Births -/

section Machine

variable [Digest]

/-- How a row comes into being, with its event. -/
inductive Born : TokenWorkItem → SchedulerEvent → Prop where
  | ready (runId : String) (values : ReadyValues) (availableAt createdAt recordedAt : Time)
      (context : Context) :
      Born { readyWorkItemValues runId values availableAt with createdAt := createdAt }
        (enqueueEvent { readyWorkItemValues runId values availableAt with createdAt := createdAt }
          recordedAt context)
  | parked (runId : String) (emission : BarrierEmission) (rowId : String)
      (stepIndex ingestSequence : Nat) (databaseNow : Time) (parkedLeaseOwner : Option String)
      (context : Context) (named : emission.sinkName.isSome = true) :
      Born
        (freshPendingSinkValues runId emission rowId stepIndex ingestSequence databaseNow
          parkedLeaseOwner)
        (parkedEvent
          (freshPendingSinkValues runId emission rowId stepIndex ingestSequence databaseNow
            parkedLeaseOwner) databaseNow context)

/-! ## The machine -/

/-- What one call may do to the journal. -/
structure Scope where
  birth : TokenWorkItem → Prop
  action : Action → TokenWorkItem → Prop
  note : SchedulerEvent → Prop

/-- Everything the first scope allows, the second allows too. -/
structure Scope.Within (scope wider : Scope) : Prop where
  birth : ∀ item, scope.birth item → wider.birth item
  action : ∀ action item, scope.action action item → wider.action action item
  note : ∀ event, scope.note event → wider.note event

/-- The journal's rules within a scope. -/
def lifecycle (outcomes : List TokenOutcome) (scope : Scope) :
    Rules TokenWorkItem SchedulerEvent where
  born item event := Born item event ∧ scope.birth item
  edit old new entry := ∃ action : Action, scope.action action old ∧
    action.Enabled outcomes old ∧ new = action.next outcomes old ∧ action.Logs old new entry
  note event := event.eventType = .leaseLost ∧ scope.note event

/-- The journal moved within the scope. -/
def Travels (outcomes : List TokenOutcome) (scope : Scope) (before after : Db) : Prop :=
  Course TokenWorkItem.workItemId (lifecycle outcomes scope) before.journal after.journal

variable {outcomes : List TokenOutcome} {scope : Scope}

theorem Travels.trans {first second third : Db} (left : Travels outcomes scope first second)
    (right : Travels outcomes scope second third) : Travels outcomes scope first third :=
  Course.trans left right

theorem Travels.mono {wider : Scope} {before after : Db} (within : scope.Within wider)
    (travels : Travels outcomes scope before after) : Travels outcomes wider before after := by
  refine Course.mono ⟨?_, ?_, ?_⟩ travels
  · rintro item event ⟨born, allowed⟩
    exact ⟨born, within.birth item allowed⟩
  · rintro old new entry ⟨action, allowed, rest⟩
    exact ⟨action, within.action action old allowed, rest⟩
  · rintro event ⟨lost, allowed⟩
    exact ⟨lost, within.note event allowed⟩

theorem travels_of_apart {before after : Db} (apart : Apart before after) :
    Travels outcomes scope before after := by
  unfold Travels Db.journal
  rw [apart.items, apart.events]
  exact Course.refl _

/-! ## The log tells the journal -/

theorem Born.image {item : TokenWorkItem} {event : SchedulerEvent} (born : Born item event) :
    event.effect = .put none item.workItemId item.image := by
  cases born <;> rfl

/-- Every rule of the machine is logged as what it does. -/
theorem lifecycle_logs (outcomes : List TokenOutcome) (scope : Scope) :
    EventSourcing.Logs TokenWorkItem.workItemId TokenWorkItem.image SchedulerEvent.effect
      (lifecycle outcomes scope) where
  born item event allowed := allowed.1.image
  edit := by
    rintro old new event ⟨action, -, -, -, logs⟩
    unfold Action.Logs at logs
    split at logs
    · cases logs
    next eventType records =>
      obtain ⟨_, ⟨⟩, describes⟩ := logs
      exact ⟨event.previousWorkItem,
        describes.effect (Action.eventType_ne_leaseLost records), describes.previous⟩
  quiet := by
    rintro old new ⟨action, -, -, rfl, logs⟩
    unfold Action.Logs at logs
    split at logs
    next silent =>
      cases action with
      | renew | adopt | reset => exact ⟨rfl, rfl⟩
      | _ => cases silent
    · obtain ⟨_, ⟨⟩, -⟩ := logs
  note := by
    rintro event ⟨lost, -⟩
    unfold SchedulerEvent.effect
    rw [if_pos lost]

/-! ## Advancing the journal -/

/-- What a scheduler body does: the journal moves within a scope, and everything
else is steady. -/
structure Advances (recorded : List TokenOutcome) (scope : Scope) (before after : Db) :
    Prop extends Steady before after where
  travels : Travels recorded scope before after

section Advances

variable {outcomes : List TokenOutcome} {scope : Scope} {first second third db : Db}

theorem Advances.of_quiet (quiet : Quiet first second) : Advances outcomes scope first second :=
  ⟨quiet.toSteady, travels_of_apart quiet.apart⟩

theorem Advances.refl (db : Db) : Advances outcomes scope db db := .of_quiet (Quiet.refl db)

theorem Advances.trans (left : Advances outcomes scope first second)
    (right : Advances outcomes scope second third) : Advances outcomes scope first third :=
  ⟨left.toSteady.trans right.toSteady, left.travels.trans right.travels⟩

theorem Advances.mono {wider : Scope} (within : scope.Within wider)
    (advances : Advances outcomes scope first second) : Advances outcomes wider first second :=
  ⟨advances.toSteady, advances.travels.mono within⟩

/-- The database with another journal. -/
def Db.withJournal (db : Db) (table : Table TokenWorkItem Violation tokenWorkItemConstraints)
    (events : List SchedulerEvent) : Db :=
  { db with tokenWorkItems := table, schedulerEvents := events }

variable {table : Table TokenWorkItem Violation tokenWorkItemConstraints} {β : Type}

theorem advances_withJournal {events : List SchedulerEvent}
    (path : Course TokenWorkItem.workItemId (lifecycle outcomes scope) db.journal
      ⟨table.rows, events⟩) : Advances outcomes scope db (db.withJournal table events) :=
  ⟨⟨rfl, forall₂_serves_refl _, prefix_rfl⟩, path⟩

/-- One row replaced, with its log entry. -/
theorem advances_of_action {old : TokenWorkItem} (action : Action) (entry : Option SchedulerEvent)
    (stored : old ∈ db.tokenWorkItems.rows) (allowed : scope.action action old)
    (enabled : action.Enabled outcomes old)
    (logs : action.Logs old (action.next outcomes old) entry)
    (free : (action.next outcomes old).workItemId = old.workItemId ∨
      (action.next outcomes old).workItemId ∉
        db.tokenWorkItems.rows.map TokenWorkItem.workItemId)
    (rows : table.rows = replaceRow TokenWorkItem.workItemId old (action.next outcomes old)
      db.tokenWorkItems.rows) :
    Advances outcomes scope db
      (db.withJournal table (db.schedulerEvents ++ entry.toList)) := by
  refine advances_withJournal ?_
  rw [rows]
  exact Course.single (.edit stored free ⟨action, allowed, enabled, rfl, logs⟩)

/-- Many rows replaced, then all their events recorded. -/
theorem advances_of_edits {items : List β} (row image : β → TokenWorkItem)
    (event : β → SchedulerEvent)
    (edits : Edits TokenWorkItem.workItemId (items.map fun item => (row item, image item))
      db.tokenWorkItems.rows)
    (free : Rekeyable (db.tokenWorkItems.rows.map TokenWorkItem.workItemId)
      (keyChanges TokenWorkItem.workItemId (items.map fun item => (row item, image item))))
    (allowed : ∀ item ∈ items,
      (lifecycle outcomes scope).edit (row item) (image item) (some (event item)))
    (rows : table.rows = editRows TokenWorkItem.workItemId
      (items.map fun item => (row item, image item)) db.tokenWorkItems.rows) :
    Advances outcomes scope db
      (db.withJournal table (db.schedulerEvents ++ items.map event)) := by
  let plan : List (Planned TokenWorkItem SchedulerEvent) :=
    items.map fun item => ⟨row item, image item, some (event item)⟩
  have pairs : plan.map Planned.pair = items.map fun item => (row item, image item) := by
    rw [map_map]
    rfl
  have told : (plan.flatMap fun planned => planned.entry.toList) = items.map event := by
    rw [flatMap_map]
    exact flatMap_pure_eq_map event items
  refine advances_withJournal ?_
  rw [← pairs] at edits free rows
  rw [rows, ← told]
  refine course_of_edits (unique_workItemId db.tokenWorkItems) edits free fun planned member => ?_
  obtain ⟨item, itemMem, rfl⟩ := mem_map.mp member
  exact allowed item itemMem

/-- One statement over many rows that keep their ids, then their events in some
order. -/
theorem advances_of_statement {selected : TokenWorkItem → Bool}
    {change : TokenWorkItem → TokenWorkItem} {order : List TokenWorkItem}
    {event : TokenWorkItem → SchedulerEvent}
    (rows : table.rows = updateRows selected change db.tokenWorkItems.rows)
    (perm : order.Perm (db.tokenWorkItems.rows.filter selected))
    (kept : ∀ row, (change row).workItemId = row.workItemId) (allowed : ∀ row ∈ order,
      (lifecycle outcomes scope).edit row (change row) (some (event row))) :
    Advances outcomes scope db
      (db.withJournal table (db.schedulerEvents ++ order.map event)) := by
  obtain ⟨edits, edited⟩ := updateRows_eq_editRows selected change
    (unique_workItemId db.tokenWorkItems)
  have pairsPerm := (perm.map fun row => (row, change row)).symm
  refine advances_of_edits id change event (edits.perm pairsPerm) ?_ allowed ?_
  · refine rekeyable_of_kept (fun pair member => ?_) _
    simp only [keyChanges, map_map, mem_map, Function.comp_apply] at member
    obtain ⟨row, -, rfl⟩ := member
    exact kept row
  · rw [rows, edited]
    exact editRows_perm edits pairsPerm

/-- A batch of one-row statements, each of which hits its row, then their events. -/
theorem advances_of_batch (row : β → TokenWorkItem) {selected : β → TokenWorkItem → Bool}
    {change : β → TokenWorkItem → TokenWorkItem} {event : β → SchedulerEvent} {items : List β}
    {conn conn' : Conn} {total : Nat}
    (ran : Txn.executeMany (fun item => itemsSlot.update (selected item) (change item)) items
      conn = .ok (total, conn')) (keyed : ∀ item other, selected item other = true →
      other.workItemId = (row item).workItemId)
    (stored : ∀ item ∈ items, row item ∈ conn.db.tokenWorkItems.rows)
    (once : (items.map fun item => (row item).workItemId).Nodup)
    (complete : total = items.length ∨ ∀ item ∈ items, selected item (row item) = true)
    (allowed : ∀ item ∈ items, selected item (row item) = true →
      (lifecycle outcomes scope).edit (row item) (change item (row item)) (some (event item))) :
    total = items.length ∧ ∃ table : Table TokenWorkItem Violation tokenWorkItemConstraints,
      conn' = itemsSlot.put table conn ∧
      table.rows = editRows TokenWorkItem.workItemId
        (items.map fun item => (row item, change item (row item)))
        conn.db.tokenWorkItems.rows ∧
      Advances outcomes scope conn.db
        (conn.db.withJournal table (conn.db.schedulerEvents ++ items.map event)) := by
  have edits : Edits TokenWorkItem.workItemId
      (items.map fun item => (row item, change item (row item)))
      (itemsSlot.rows conn) := by
    constructor
    · intro pair member
      obtain ⟨item, itemMem, rfl⟩ := mem_map.mp member
      exact stored item itemMem
    · unfold oldKeys
      rw [map_map]
      exact once
  obtain ⟨full, hits, free, table, tableRows, reached⟩ :=
    (Slot.executeMany_edits unique_workItemId row ran keyed edits).2 complete
  refine ⟨full, table, reached, tableRows, ?_⟩
  exact advances_of_edits row (fun item => change item (row item)) event edits free
    (fun item itemMem => allowed item itemMem (hits item itemMem)) tableRows

omit [Digest] in
/-- Selected rows of a table, in any order, have distinct ids. -/
theorem nodup_sortRows_filter {κ : Type} [LinearOrder κ] (key : TokenWorkItem → κ)
    (selected : TokenWorkItem → Bool)
    (table : Table TokenWorkItem Violation tokenWorkItemConstraints) :
    ((sortRows key (table.rows.filter selected)).map TokenWorkItem.workItemId).Nodup := by
  have perm := (sortRows_perm key (table.rows.filter selected)).map TokenWorkItem.workItemId
  exact perm.nodup_iff.mpr ((filter_sublist.map _).nodup (unique_workItemId table))

/-- Rows inserted, then all their events recorded. -/
theorem advances_of_births {added : List TokenWorkItem} {told : List SchedulerEvent}
    (born : List.Forall₂ (fun item event => Born item event ∧ scope.birth item) added told)
    (rows : table.rows = db.tokenWorkItems.rows ++ added) :
    Advances outcomes scope db (db.withJournal table (db.schedulerEvents ++ told)) := by
  refine advances_withJournal ?_
  have unique := unique_workItemId table
  rw [rows] at unique ⊢
  exact course_of_births born unique

end Advances

end Machine

end Elspeth
