import Elspeth.Scheduler.Refinement.Inserts

/-!
# Recovery and requeue refine the lifecycle

The sweep of expired leases reads the candidates, reads the clock again, writes
two kinds of statements and then derives from the database which rows it
changed.  Seen from outside it is one pointwise edit: every row that is *due*
— expired at discovery, held by somebody other than the caller, its owner dead
or its lease past the stall budget — is replaced by its image, and one event per
row is appended.  `Swept` states that, and the second clock reading, the owner
list and the cross-checks of the source turn out to be redundant.

The requeue of undecided failures is the same picture without the two kinds.
-/

namespace Elspeth

open Relational EventSourcing Txn TokenWorkItem List Sweep

variable {env : CallEnv} {conn conn' : Conn}

section Journal

variable [Digest]

/-! ## What a sweep is to do -/

namespace Sweep

variable (sweep : Sweep)

omit [Digest] in
/-- The rows a sweep is to act on. -/
def due (item : TokenWorkItem) : Bool :=
  recoveryCandidate sweep.runId sweep.callerOwner sweep.discoveryNow item &&
    sweep.reapEligible item

/-- What becomes of a row that is due. -/
def image (row : TokenWorkItem) : TokenWorkItem :=
  if sinkRedriveShaped row then sweep.released row else sweep.rotated row row

section

variable (rows : List TokenWorkItem)

omit [Digest] in
/-- The due rows, in the order they are handled. -/
def expired : List TokenWorkItem :=
  sortRows sweepKey (rows.filter sweep.due)

/-- The replacements of a sweep. -/
def pairs : List (TokenWorkItem × TokenWorkItem) :=
  (sweep.expired rows).map fun row => (row, sweep.image row)

omit [Digest] in
/-- The due leases on sink handoffs. -/
abbrev sinks : List TokenWorkItem :=
  (sweep.expired rows).filter sinkRedriveShaped

omit [Digest] in
/-- The due leases on transforms. -/
abbrev transforms : List TokenWorkItem :=
  (sweep.expired rows).filter fun row => !sinkRedriveShaped row

omit [Digest] in
abbrev handoffs : List (TokenWorkItem × TokenWorkItem) :=
  (sweep.sinks rows).map fun row => (row, sweep.released row)

abbrev rotations : List (TokenWorkItem × TokenWorkItem) :=
  (sweep.transforms rows).map fun row => (row, sweep.rotated row row)

end

omit [Digest] in
/-- The sweep's lists are what its discovery query read, and its clock readings
are in order. -/
structure Reads (rows : List TokenWorkItem) : Prop where
  candidates : sweep.candidateIds =
    (rows.filter (recoveryCandidate sweep.runId sweep.callerOwner sweep.discoveryNow)).map
      TokenWorkItem.workItemId
  owners : sweep.ownerIds =
    (rows.filter (recoveryCandidate sweep.runId sweep.callerOwner sweep.discoveryNow)).filterMap
      leaseOwner
  ordered : sweep.discoveryNow ≤ sweep.databaseNow

variable {sweep} {rows : List TokenWorkItem} {item : TokenWorkItem}

omit [Digest] in
theorem recoveryCandidate_iff {runId callerOwner : String} {discoveryNow : Time} :
    recoveryCandidate runId callerOwner discoveryNow item = true ↔
      item.runId = runId ∧ item.status = .leased ∧
        leaseExpiredBefore discoveryNow item = true ∧ item.leaseOwner ≠ some callerOwner := by
  simp only [recoveryCandidate, Bool.and_eq_true, decide_eq_true_eq, and_assoc]

omit [Digest] in
theorem due_iff :
    sweep.due item = true ↔
      (item.runId = sweep.runId ∧ item.status = .leased ∧
        leaseExpiredBefore sweep.discoveryNow item = true ∧
        item.leaseOwner ≠ some sweep.callerOwner) ∧ sweep.reapEligible item = true := by
  rw [due, Bool.and_eq_true, recoveryCandidate_iff]

omit [Digest] in
theorem mem_expired : item ∈ sweep.expired rows ↔ item ∈ rows ∧ sweep.due item = true := by
  rw [expired, mem_sortRows, mem_filter]

omit [Digest] in
theorem leaseExpiredBefore_mono {earlier later : Time} (ordered : earlier ≤ later)
    (expired : leaseExpiredBefore earlier item = true) : leaseExpiredBefore later item = true := by
  obtain ⟨deadline, held, passed⟩ := (Option.any_eq_true _ _).mp expired
  refine (Option.any_eq_true _ _).mpr ⟨deadline, held, ?_⟩
  simp only [decide_eq_true_eq] at passed ⊢
  exact lt_of_lt_of_le passed ordered

omit [Digest] in
/-- A due row also passes the filters of the later statements. -/
theorem Reads.rotationFilter (reads : sweep.Reads rows) (due : sweep.due item = true) :
    sweep.rotationFilter item = true := by
  obtain ⟨⟨run, leased, expired, foreign⟩, eligible⟩ := due_iff.mp due
  simp only [Sweep.rotationFilter, Bool.and_eq_true, decide_eq_true_eq, and_assoc]
  exact ⟨run, leased, leaseExpiredBefore_mono reads.ordered expired, foreign, eligible⟩

omit [Digest] in
theorem Reads.ownerKnown (reads : sweep.Reads rows) (stored : item ∈ rows)
    (due : sweep.due item = true) : sweep.ownerKnown item = true := by
  have candidate := (Bool.and_eq_true_iff.mp due).1
  unfold Sweep.ownerKnown
  cases owner : item.leaseOwner with
  | none => rfl
  | some =>
    refine decide_eq_true ?_
    rw [reads.owners]
    exact mem_filterMap.mpr ⟨item, mem_filter.mpr ⟨stored, candidate⟩, owner⟩

omit [Digest] in
/-- The re-query under the second clock reading selects exactly the due rows. -/
theorem Reads.selected_eq (reads : sweep.Reads rows)
    (unique : Unique TokenWorkItem.workItemId rows) (stored : item ∈ rows) :
    sweep.selected item = sweep.due item := by
  rw [Bool.eq_iff_iff]
  constructor
  · intro selected
    simp only [Sweep.selected, Bool.and_eq_true, decide_eq_true_eq] at selected
    obtain ⟨⟨named, -⟩, filtered⟩ := selected
    rw [reads.candidates] at named
    obtain ⟨other, otherMem, same⟩ := mem_map.mp named
    obtain ⟨otherStored, candidate⟩ := mem_filter.mp otherMem
    rw [unique.eq_of_key otherStored stored same] at candidate
    simp only [Sweep.rotationFilter, Bool.and_eq_true] at filtered
    exact Bool.and_eq_true_iff.mpr ⟨candidate, filtered.2⟩
  · intro due
    have candidate := (Bool.and_eq_true_iff.mp due).1
    simp only [selected, Bool.and_eq_true, decide_eq_true_eq]
    refine ⟨⟨?_, reads.ownerKnown stored due⟩, reads.rotationFilter due⟩
    rw [reads.candidates]
    exact mem_map_of_mem (mem_filter.mpr ⟨stored, candidate⟩)

omit [Digest] in
/-- The bulk statement over sink handoffs hits exactly the complete ones that are
due. -/
theorem Reads.sinkSelected_eq (reads : sweep.Reads rows) (stored : item ∈ rows) :
    sweep.sinkSelected item =
      (sweep.due item && (sinkRedriveShaped item && pendingSinkBundle item)) := by
  rw [Bool.eq_iff_iff]
  constructor
  · intro selected
    simp only [Sweep.sinkSelected, Sweep.rotationFilter, Bool.and_eq_true, decide_eq_true_eq]
      at selected
    obtain ⟨⟨⟨⟨⟨⟨⟨⟨run, leased⟩, -⟩, foreign⟩, eligible⟩, expired⟩, -⟩, shaped⟩, bundle⟩ := selected
    simp only [Bool.and_eq_true]
    exact ⟨due_iff.mpr ⟨⟨run, leased, expired, foreign⟩, eligible⟩, shaped, bundle⟩
  · intro selected
    simp only [Bool.and_eq_true] at selected
    obtain ⟨due, shaped, bundle⟩ := selected
    simp only [sinkSelected, Bool.and_eq_true]
    exact ⟨⟨⟨⟨reads.rotationFilter due, (due_iff.mp due).1.2.2.1⟩,
      reads.ownerKnown stored due⟩, shaped⟩, bundle⟩

omit [Digest] in
/-- A due row that carries part of a sink bundle carries all of it. -/
def Complete (sweep : Sweep) (rows : List TokenWorkItem) : Prop :=
  ∀ row ∈ rows, sweep.due row = true → sinkRedriveShaped row = true →
    pendingSinkBundle row = true

omit [Digest] in
/-- When the due handoffs are complete, the bulk statement hits all of them. -/
theorem Reads.filter_sinkSelected (reads : sweep.Reads rows) (complete : sweep.Complete rows) :
    rows.filter sweep.sinkSelected =
      rows.filter fun row => sinkRedriveShaped row && sweep.due row := by
  refine filter_congr fun row stored => ?_
  rw [reads.sinkSelected_eq stored, Bool.eq_iff_iff]
  simp only [Bool.and_eq_true]
  constructor
  · rintro ⟨due, shaped, -⟩
    exact ⟨shaped, due⟩
  · rintro ⟨shaped, due⟩
    exact ⟨due, shaped, complete row stored due shaped⟩

/-! ## The statements of a sweep -/

omit [Digest] in
theorem sinks_perm (sweep : Sweep) (rows : List TokenWorkItem) :
    (sweep.sinks rows).Perm (rows.filter fun row => sinkRedriveShaped row && sweep.due row) := by
  rw [← filter_filter]
  exact (sortRows_perm _ _).filter _

omit [Digest] in
/-- Returning the due handoffs to PENDING_SINK. -/
theorem releaseSinks_ok {changed : List String}
    (reads : sweep.Reads conn.db.tokenWorkItems.rows)
    (complete : sweep.Complete conn.db.tokenWorkItems.rows)
    (ran : sweep.releaseSinks (sweep.expired conn.db.tokenWorkItems.rows) conn =
      .ok (changed, conn')) :
    changed.Perm ((sweep.sinks conn.db.tokenWorkItems.rows).map TokenWorkItem.workItemId) ∧
      ∃ table : Table TokenWorkItem Violation tokenWorkItemConstraints,
        table.rows = editRows TokenWorkItem.workItemId
          (sweep.handoffs conn.db.tokenWorkItems.rows) conn.db.tokenWorkItems.rows ∧
        conn' = itemsSlot.put table conn := by
  simp only [releaseSinks, bind_eq_ok, Slot.select_eq_ok, Slot.update_eq_ok,
    ensure_eq_ok, pure_eq_ok] at ran
  obtain ⟨changing, conn, ⟨changingRows, rfl⟩, _, _, ⟨-, table, tableRows, rfl⟩, _, _, ⟨-, rfl⟩,
    rfl,
    rfl⟩ := ran
  have hits : changing = conn.db.tokenWorkItems.rows.filter fun row =>
      sinkRedriveShaped row && sweep.due row :=
    changingRows.trans (reads.filter_sinkSelected complete)
  rw [hits]
  have perm := sinks_perm sweep conn.db.tokenWorkItems.rows
  refine ⟨(perm.map _).symm, table, ?_, rfl⟩
  obtain ⟨edits, edited⟩ := updateRows_eq_editRows sweep.sinkSelected sweep.released
    (unique_workItemId conn.db.tokenWorkItems)
  rw [reads.filter_sinkSelected complete] at edits edited
  exact tableRows.trans (edited.trans (editRows_perm edits (perm.symm.map _)))

/-- The transform leases are rotated. -/
structure Rotates (sweep : Sweep) (rows : List TokenWorkItem) (conn conn' : Conn) : Prop where
  free : Rekeyable (conn.db.tokenWorkItems.rows.map TokenWorkItem.workItemId)
    (keyChanges TokenWorkItem.workItemId (sweep.rotations rows))
  written : ∃ table : Table TokenWorkItem Violation tokenWorkItemConstraints,
    table.rows = editRows TokenWorkItem.workItemId (sweep.rotations rows)
      conn.db.tokenWorkItems.rows ∧ conn' = itemsSlot.put table conn

section

variable (reads : sweep.Reads rows)
  (edits : Edits TokenWorkItem.workItemId (sweep.rotations rows) conn.db.tokenWorkItems.rows)
include reads edits

/-- The batch of rotations, after the handoffs: each statement hits its row, and the new
ids are present. -/
theorem rotateBatch_ok {total : Nat}
    (batch : executeMany sweep.rotateStatement (sweep.transforms rows) conn = .ok (total, conn')) :
    total = (sweep.transforms rows).length ∧ sweep.Rotates rows conn conn' ∧
      ((conn'.db.tokenWorkItems.rows.filter fun item => item.runId = sweep.runId &&
        item.workItemId ∈ (sweep.transforms rows).map sweep.nextId).map
          TokenWorkItem.workItemId).Perm
          ((sweep.transforms rows).map sweep.nextId) := by
  have transform : ∀ row ∈ sweep.transforms rows,
      sweep.due row = true ∧ sinkRedriveShaped row = false := by
    intro row rowMem
    obtain ⟨expired, plain⟩ := mem_filter.mp rowMem
    exact ⟨(mem_expired.mp expired).2, by simpa using plain⟩
  have keyed : ∀ row other : TokenWorkItem, (sweep.rotationFilter other &&
      decide (other.workItemId = row.workItemId) && !sinkRedriveShaped other) = true →
      other.workItemId = row.workItemId := by
    intro row other hit
    simp only [Bool.and_eq_true, decide_eq_true_eq] at hit
    exact hit.1.2
  have hits : ∀ row ∈ sweep.transforms rows, (sweep.rotationFilter row &&
      decide (row.workItemId = row.workItemId) && !sinkRedriveShaped row) = true := by
    intro row rowMem
    obtain ⟨due, plain⟩ := transform row rowMem
    simp [reads.rotationFilter due, plain]
  obtain ⟨full, -, free, table, tableRows, reached⟩ :=
    (Slot.executeMany_edits unique_workItemId id batch keyed edits).2 (Or.inr hits)
  refine ⟨full, ⟨free, table, tableRows, reached⟩, ?_⟩
  subst reached
  have newIds : ((sweep.transforms rows).map sweep.nextId).Nodup := by
    have distinct := nodup_newKeys edits (tableRows ▸ unique_workItemId table)
    rwa [map_map] at distinct
  refine (perm_ext_iff_of_nodup ?_ newIds).mpr fun name => ?_
  · exact (filter_sublist.map _).nodup (unique_workItemId table)
  constructor
  · intro named
    obtain ⟨row, rowMem, rfl⟩ := mem_map.mp named
    have selected := (mem_filter.mp rowMem).2
    simp only [Bool.and_eq_true, decide_eq_true_eq] at selected
    exact selected.2
  · intro named
    obtain ⟨row, rowMem, rfl⟩ := mem_map.mp named
    refine mem_map.mpr ⟨sweep.rotated row row, mem_filter.mpr ⟨?_, ?_⟩, rfl⟩
    · change _ ∈ table.rows
      rw [tableRows]
      exact (mem_editRows edits).mpr (Or.inl ⟨_, mem_map_of_mem rowMem, rfl⟩)
    · have run := (due_iff.mp (transform row rowMem).1).1.1
      simp only [Bool.and_eq_true, decide_eq_true_eq]
      exact ⟨run, named⟩

/-- Rotating the due transform leases: the ids found afterwards are the new ones. -/
theorem rotateTransforms_ok {present : List String}
    (ran : sweep.rotateTransforms (sweep.expired rows) conn = .ok (present, conn')) :
    present.Perm ((sweep.transforms rows).map sweep.nextId) ∧ sweep.Rotates rows conn conn' := by
  simp only [rotateTransforms, bind_eq_ok, Slot.select_eq_ok, ensure_eq_ok,
    pure_eq_ok] at ran
  obtain ⟨total, rotated, batch, found, _, ⟨rfl, rfl⟩, _, _, ⟨-, rfl⟩, rfl, rfl⟩ := ran
  obtain ⟨-, rotates, present⟩ := rotateBatch_ok reads edits batch
  exact ⟨present, rotates⟩

end

/-! ## A whole sweep -/

omit [Digest] in
theorem Reads.filter_selected {table : Table TokenWorkItem Violation tokenWorkItemConstraints}
    (reads : sweep.Reads table.rows) :
    table.rows.filter sweep.selected = table.rows.filter sweep.due :=
  filter_congr fun _ stored => reads.selected_eq (unique_workItemId table) stored

/-- The sweep did what it was to do. -/
structure Swept (sweep : Sweep) (count : Nat) (before after : Db) : Prop where
  complete : sweep.Complete before.tokenWorkItems.rows
  free : Rekeyable (before.tokenWorkItems.rows.map TokenWorkItem.workItemId)
    (keyChanges TokenWorkItem.workItemId (sweep.pairs before.tokenWorkItems.rows))
  counted : count = (sweep.expired before.tokenWorkItems.rows).length
  written : ∃ (items : Table TokenWorkItem Violation tokenWorkItemConstraints)
      (ledger : Table RunCoordinationEvent Violation coordinationEventConstraints),
    items.rows = editRows TokenWorkItem.workItemId (sweep.pairs before.tokenWorkItems.rows)
        before.tokenWorkItems.rows ∧
      ledger.rows = before.runCoordinationEvents.rows ++
        ((sweep.expired before.tokenWorkItems.rows).filterMap sweep.stallEvent).map ledgerRow ∧
      after =
        { before.withJournal items (before.schedulerEvents ++
            (sweep.expired before.tokenWorkItems.rows).map sweep.event) with
          runCoordinationEvents := ledger }

omit [Digest] in
theorem expired_edits (sweep : Sweep)
    (table : Table TokenWorkItem Violation tokenWorkItemConstraints)
    (change : TokenWorkItem → TokenWorkItem) :
    Edits TokenWorkItem.workItemId ((sweep.expired table.rows).map fun row => (row, change row))
      table.rows := by
  constructor
  · intro pair member
    obtain ⟨row, rowMem, rfl⟩ := mem_map.mp member
    exact (mem_expired.mp rowMem).1
  · unfold oldKeys
    rw [map_map]
    exact nodup_sortRows_filter _ _ table

/-- Handoffs first, then transform leases: together, the pairs of the sweep. -/
theorem pairs_perm (sweep : Sweep) (rows : List TokenWorkItem) :
    (sweep.pairs rows).Perm (sweep.handoffs rows ++ sweep.rotations rows) := by
  have sinks : sweep.handoffs rows = (sweep.sinks rows).map fun row => (row, sweep.image row) := by
    refine map_congr_left fun row rowMem => ?_
    rw [image, if_pos (mem_filter.mp rowMem).2]
  have transforms : sweep.rotations rows =
      (sweep.transforms rows).map fun row => (row, sweep.image row) := by
    refine map_congr_left fun row rowMem => ?_
    rw [image, if_neg (by simpa using (mem_filter.mp rowMem).2)]
  rw [sinks, transforms, ← map_append]
  exact ((filter_append_perm _ _).symm).map _

theorem image_workItemId (sweep : Sweep) (row : TokenWorkItem) :
    (sweep.image row).workItemId = sweep.nextId row := by
  unfold image
  split
  next shaped => simp [released, nextId, shaped]
  next => rfl

omit [Digest] in
theorem checkBundles_ok {expired : List TokenWorkItem} {value : Unit}
    (ran : forEach sweep.checkBundle expired conn = .ok (value, conn')) :
    conn' = conn ∧ ∀ row ∈ expired, sinkRedriveShaped row = true →
        pendingSinkBundle row = true := by
  induction expired with
  | nil => exact ⟨(pure_eq_ok.mp ran).2, by simp⟩
  | cons row expired ih =>
    obtain ⟨conn, first, rest⟩ := forEach_cons_eq_ok.mp ran
    obtain ⟨complete, rfl⟩ := ensure_eq_ok.mp first
    obtain ⟨same, others⟩ := ih rest
    exact ⟨same, forall_mem_cons.mpr ⟨complete, others⟩⟩

end Sweep

/-- Ledger rows recorded one after another. -/
theorem recordCoordinationEvents_ok {events : List CoordinationEvent} {value : Unit}
    (ran : forEach recordCoordinationEvent events conn = .ok (value, conn')) :
    ∃ ledger : Table RunCoordinationEvent Violation coordinationEventConstraints,
      ledger.rows = conn.db.runCoordinationEvents.rows ++ events.map ledgerRow ∧
        conn'.db = { conn.db with runCoordinationEvents := ledger } := by
  induction events generalizing conn with
  | nil =>
    obtain ⟨-, rfl⟩ := pure_eq_ok.mp ran
    exact ⟨conn'.db.runCoordinationEvents, by simp, rfl⟩
  | cons event events ih =>
    obtain ⟨middle, first, rest⟩ := forEach_cons_eq_ok.mp ran
    obtain ⟨table, tableRows, middleDb⟩ := recordCoordinationEvent_ok first
    obtain ⟨ledger, ledgerRows, finalDb⟩ := ih rest
    rw [middleDb] at ledgerRows finalDb
    refine ⟨ledger, ?_, finalDb⟩
    rw [ledgerRows, tableRows, append_assoc]
    rfl

namespace Sweep

variable {sweep : Sweep}

/-- The handoffs keep their ids, so only the rotations need free ids. -/
theorem rekeyable_pairs (sweep : Sweep) (rows : List TokenWorkItem) (keys : List String) :
    Rekeyable keys (keyChanges TokenWorkItem.workItemId (sweep.pairs rows)) ↔
      Rekeyable keys (keyChanges TokenWorkItem.workItemId (sweep.rotations rows)) := by
  let change : TokenWorkItem → String × String := fun row => (row.workItemId, sweep.nextId row)
  let moves : String × String → Bool := fun pair => decide (pair.2 ≠ pair.1)
  have all : keyChanges TokenWorkItem.workItemId (sweep.pairs rows) =
      (sweep.expired rows).map change := by
    unfold keyChanges pairs
    rw [map_map]
    refine map_congr_left fun row _ => ?_
    simp only [Function.comp_apply, image_workItemId, change]
  have some : keyChanges TokenWorkItem.workItemId (sweep.rotations rows) =
      (sweep.transforms rows).map change := by
    unfold keyChanges
    rw [map_map]
    rfl
  have drop : ∀ changes : List (String × String),
      Rekeyable keys changes ↔ Rekeyable keys (changes.filter moves) := by
    refine fun changes => rekeyable_filter moves (fun pair _ kept => ?_) keys
    simpa [moves] using kept
  have same : ((sweep.expired rows).map change).filter moves =
      ((sweep.transforms rows).map change).filter moves := by
    rw [filter_map, filter_map, filter_filter]
    refine congrArg (map change) (filter_congr fun row _ => ?_)
    cases shaped : sinkRedriveShaped row with
    | true => simp [moves, change, nextId, shaped]
    | false => simp
  rw [all, some, drop ((sweep.expired rows).map change), same]
  exact (drop _).symm

variable {rows : List TokenWorkItem}

theorem changed_perm {sinkChanged transformChanged : List String}
    (sinkPerm : sinkChanged.Perm ((sweep.sinks rows).map TokenWorkItem.workItemId))
    (transformPerm : transformChanged.Perm ((sweep.transforms rows).map sweep.nextId)) :
    (sinkChanged ++ transformChanged).Perm ((sweep.expired rows).map sweep.nextId) := by
  have sinkIds : (sweep.sinks rows).map TokenWorkItem.workItemId =
      (sweep.sinks rows).map sweep.nextId := by
    refine map_congr_left fun row rowMem => ?_
    rw [nextId, if_pos (mem_filter.mp rowMem).2]
  rw [sinkIds] at sinkPerm
  refine (sinkPerm.append transformPerm).trans ?_
  rw [← map_append]
  exact (filter_append_perm _ _).map _

/-- When the changed ids are those of the images, no row was missed. -/
theorem none_missed {changedIds : List String}
    (changed : changedIds.Perm ((sweep.expired rows).map sweep.nextId)) :
    ((sweep.expired rows).filter fun row => decide (sweep.nextId row ∉ changedIds)) = [] ∧
      ((sweep.expired rows).filter fun row => decide (sweep.nextId row ∈ changedIds)) =
        sweep.expired rows := by
  have present : ∀ row ∈ sweep.expired rows, sweep.nextId row ∈ changedIds :=
    fun row rowMem => changed.mem_iff.mpr (mem_map_of_mem rowMem)
  constructor
  · exact filter_eq_nil_iff.mpr fun row rowMem missing =>
      of_decide_eq_true missing (present row rowMem)
  · exact filter_eq_self.mpr fun row rowMem => decide_eq_true (present row rowMem)

/-- The handoffs keep their ids, and the rotations are the rest of the sweep. -/
theorem handoffs_then_rotations
    {table sinkTable : Table TokenWorkItem Violation tokenWorkItemConstraints}
    (sinkRows : sinkTable.rows =
      editRows TokenWorkItem.workItemId (sweep.handoffs table.rows) table.rows) :
    editRows TokenWorkItem.workItemId (sweep.pairs table.rows) table.rows =
        editRows TokenWorkItem.workItemId (sweep.rotations table.rows) sinkTable.rows ∧
      Edits TokenWorkItem.workItemId (sweep.rotations table.rows) sinkTable.rows ∧
      sinkTable.rows.map TokenWorkItem.workItemId = table.rows.map TokenWorkItem.workItemId := by
  have edits : Edits TokenWorkItem.workItemId (sweep.pairs table.rows) _ :=
    expired_edits sweep table sweep.image
  have perm := pairs_perm sweep table.rows
  have kept : ∀ pair ∈ sweep.handoffs table.rows, pair.2.workItemId = pair.1.workItemId := by
    intro pair member
    obtain ⟨row, -, rfl⟩ := mem_map.mp member
    rfl
  have sinkFree : Rekeyable (table.rows.map TokenWorkItem.workItemId)
      (keyChanges TokenWorkItem.workItemId (sweep.handoffs table.rows)) := by
    refine rekeyable_of_kept (fun change member => ?_) _
    obtain ⟨pair, pairMem, rfl⟩ := mem_map.mp member
    exact kept pair pairMem
  obtain ⟨together, transformEdits⟩ :=
    editRows_append (unique_workItemId table) (edits.perm perm) sinkFree
  rw [← sinkRows] at together transformEdits
  refine ⟨(editRows_perm edits perm).trans together, transformEdits, ?_⟩
  rw [sinkRows]
  exact map_editRows_of_kept kept _

/-- **A sweep, taken as a whole.** -/
theorem apply_ok {count : Nat} (ran : sweep.apply (sweep.expired rows) conn = .ok (count, conn'))
    (stored : conn.db.tokenWorkItems.rows = rows) (reads : sweep.Reads rows) :
    sweep.Swept count conn.db conn'.db := by
  subst stored
  simp only [apply, bind_eq_ok, query_eq_ok, recordEvents, alter_eq_ok,
    pure_eq_ok] at ran
  obtain ⟨_, conn, checked, sinkChanged, sunk, release, transformChanged, rotated, rotate, rows, _,
    ⟨-, rfl⟩, _, _, missed, _, _, rfl, _, _, stalled, countEq, rfl⟩ := ran
  obtain ⟨rfl, bundles⟩ := checkBundles_ok checked
  have complete : sweep.Complete conn.db.tokenWorkItems.rows :=
    fun row stored due => bundles row (mem_expired.mpr ⟨stored, due⟩)
  -- First the handoffs, then the rotations: two batches of the sweep's pairs.
  obtain ⟨sinkPerm, sinkTable, sinkRows, rfl⟩ := releaseSinks_ok reads complete release
  have edits : Edits TokenWorkItem.workItemId (sweep.pairs conn.db.tokenWorkItems.rows) _ :=
    expired_edits sweep conn.db.tokenWorkItems sweep.image
  obtain ⟨together, transformEdits, sameIds⟩ := handoffs_then_rotations sinkRows
  obtain ⟨presentPerm, free, table, tableRows, rfl⟩ :=
    rotateTransforms_ok reads transformEdits rotate
  have rows : table.rows = editRows TokenWorkItem.workItemId
      (sweep.pairs conn.db.tokenWorkItems.rows) conn.db.tokenWorkItems.rows := by
    rw [together]
    exact tableRows
  have changed := changed_perm sinkPerm presentPerm
  have distinct : ((sweep.expired conn.db.tokenWorkItems.rows).map sweep.nextId).Nodup := by
    have newKeys := nodup_newKeys edits (rows ▸ unique_workItemId table)
    rw [pairs, map_map] at newKeys
    simpa only [Function.comp_def, image_workItemId] using newKeys
  -- So no selected row was missed, and the count is the number of due rows.
  obtain ⟨noneMissed, allRecovered⟩ := none_missed changed
  rw [noneMissed] at missed
  obtain ⟨-, rfl⟩ := pure_eq_ok.mp missed
  rw [allRecovered] at stalled
  obtain ⟨ledger, ledgerRows, finalDb⟩ := recordCoordinationEvents_ok stalled
  refine ⟨complete, ?_, ?_, table, ledger, rows, ledgerRows, finalDb⟩
  · rw [rekeyable_pairs, ← sameIds]
    exact free
  · rw [countEq, Nodup.dedup (changed.nodup_iff.mpr distinct), changed.length_eq,
      length_map]

end Sweep

/-! ## The recovery verb -/

omit [Digest] in
/-- The sweep a recovery call performs on a database. -/
def sweepOf (token : CoordinationToken) (grace stallBudget : Int)
    (discoveryNow databaseNow : Time) (db : Db) : Sweep where
  runId := token.runId
  callerOwner := token.workerId
  leaderEpoch := token.leaderEpoch
  discoveryNow := discoveryNow
  databaseNow := databaseNow
  graceThreshold := databaseNow - grace
  stallThreshold := databaseNow - stallBudget
  workers := db.runWorkers.rows
  candidateIds := (db.tokenWorkItems.rows.filter
    (recoveryCandidate token.runId token.workerId discoveryNow)).map TokenWorkItem.workItemId
  ownerIds := (db.tokenWorkItems.rows.filter
    (recoveryCandidate token.runId token.workerId discoveryNow)).filterMap
      leaseOwner

omit [Digest] in
theorem sweepOf_reads (token : CoordinationToken) (grace stallBudget : Int)
    {discoveryNow databaseNow : Time} (ordered : discoveryNow ≤ databaseNow) (db : Db) :
    (sweepOf token grace stallBudget discoveryNow databaseNow db).Reads
      db.tokenWorkItems.rows :=
  ⟨rfl, rfl, ordered⟩

variable {sweep : Sweep} {token : CoordinationToken} {count : Nat} {row : TokenWorkItem}
  {recorded : List TokenOutcome}

/-- Nothing due, nothing done. -/
theorem swept_nothing {db : Db} (nothing : db.tokenWorkItems.rows.filter sweep.due = []) :
    sweep.Swept 0 db db := by
  have none : sweep.expired db.tokenWorkItems.rows = [] := by
    rw [expired, nothing]
    rfl
  refine ⟨fun row stored due => ?_, ?_, ?_, db.tokenWorkItems, db.runCoordinationEvents, ?_, ?_, ?_⟩
  · have member := mem_filter.mpr ⟨stored, due⟩
    rw [nothing] at member
    cases member
  · simp [pairs, none, keyChanges]
  · rw [none]
    rfl
  · simp [pairs, none]
  · simp [none]
  · simp [none, Db.withJournal]

/-- **The recovery body is one sweep** at its two clock readings. -/
theorem rotateExpiredLeases_ok {grace stallBudget : Int}
    (ran : rotateExpiredLeases env token grace stallBudget conn = .ok (count, conn')) :
    (sweepOf token grace stallBudget (env.decisionTime conn.decisionReads)
      (env.decisionTime (conn.decisionReads + 1)) conn.db).Swept count conn.db conn'.db := by
  have ordered : env.decisionTime conn.decisionReads ≤
      env.decisionTime (conn.decisionReads + 1) := env.decisionTime_mono (Nat.le_succ _)
  have reads := sweepOf_reads token grace stallBudget ordered conn.db
  simp only [rotateExpiredLeases, bind_eq_ok, readLandscapeDecisionTime_eq_ok,
    Slot.select_eq_ok, ite_eq_ok, pure_eq_ok, query_eq_ok] at ran
  obtain ⟨discoveryNow, _, ⟨rfl, rfl⟩, candidates, _, ⟨rfl, rfl⟩, inner⟩ := ran
  rcases inner with ⟨noCandidates, rfl, rfl⟩ |
    ⟨-, databaseNow, _, ⟨rfl, rfl⟩, workers, _, ⟨rfl, rfl⟩,
    selected, _, ⟨selectedRows, rfl⟩, inner⟩
  · -- Without candidates nothing is due, whatever the second reading would be.
    refine swept_nothing (filter_eq_nil_iff.mpr fun row stored due => ?_)
    have candidate := (Bool.and_eq_true_iff.mp due).1
    exact filter_eq_nil_iff.mp noCandidates row stored candidate
  · have dueRows := selectedRows.trans reads.filter_selected
    rcases inner with ⟨noneSelected, rfl, rfl⟩ | ⟨-, applied⟩
    · exact swept_nothing (dueRows ▸ noneSelected)
    · rw [dueRows] at applied
      have swept := apply_ok applied rfl reads
      exact swept

section

variable (runId : String)

/-- A call that rotates or releases leases of a run. -/
def Scope.recovering : Scope where
  birth _ := False
  action action item := (∃ databaseNow, action = .rotate databaseNow ∨
    action = .release databaseNow) ∧
    item.runId = runId
  note _ := False

theorem Sweep.describes (sweep : Sweep) (due : sweep.due row = true) :
    Describes .recoverExpiredLease row (sweep.image row) (sweep.event row) := by
  obtain ⟨⟨run, leased, -, -⟩, -⟩ := due_iff.mp due
  have next : (sweep.image row).workItemId = sweep.nextId row := sweep.image_workItemId row
  refine ⟨rfl, run.symm, rfl, rfl, next.symm, congrArg some leased.symm, rfl, ?_, ?_, ?_, ?_⟩
  · cases shaped : sinkRedriveShaped row <;>
      simp [event, nextStatus, image, released, rotated, shaped]
  · cases shaped : sinkRedriveShaped row <;>
      simp [event, image, released, rotated, shaped]
  · cases shaped : sinkRedriveShaped row <;>
      simp [event, nextAttempt, image, released, rotated, shaped]
  · unfold SchedulerEvent.previousWorkItem event
    by_cases same : sweep.nextId row = row.workItemId
    · exact Or.inr ⟨by simp [same], next.trans same⟩
    · exact Or.inl (by simp [same])

/-- A due row's image is an edge of the lifecycle, and its event tells it. -/
theorem Sweep.image_allowed (sweep : Sweep) (due : sweep.due row = true)
    (complete : sinkRedriveShaped row = true → pendingSinkBundle row = true) :
    (lifecycle recorded (.recovering sweep.runId)).edit row (sweep.image row)
      (some (sweep.event row)) := by
  obtain ⟨⟨run, leased, -, -⟩, -⟩ := due_iff.mp due
  have describes := sweep.describes due
  unfold image at describes ⊢
  cases shaped : sinkRedriveShaped row with
  | true =>
    rw [shaped] at describes
    exact ⟨.release sweep.databaseNow, ⟨⟨_, Or.inr rfl⟩, run⟩, ⟨leased, complete shaped⟩, rfl, _,
      rfl, describes⟩
  | false =>
    rw [shaped] at describes
    refine ⟨.rotate sweep.databaseNow, ⟨⟨_, Or.inl rfl⟩, run⟩, ⟨leased, shaped⟩, ?_, _, rfl,
      describes⟩
    simp [Action.next, requeued, requeueId, rotated, nextId,
      nextAttempt, shaped, run]

theorem Sweep.Swept.advances {before after : Db} (swept : sweep.Swept count before after) :
    Advances recorded (.recovering sweep.runId) before after := by
  obtain ⟨items, ledger, itemRows, -, rfl⟩ := swept.written
  have journal : Advances recorded (.recovering sweep.runId) before
      (before.withJournal items (before.schedulerEvents ++
        (sweep.expired before.tokenWorkItems.rows).map sweep.event)) := by
    refine advances_of_edits id sweep.image sweep.event
      (expired_edits sweep before.tokenWorkItems sweep.image) swept.free ?_ itemRows
    intro row rowMem
    obtain ⟨stored, due⟩ := mem_expired.mp rowMem
    exact sweep.image_allowed due (swept.complete row stored due)
  exact journal.trans (.of_quiet ⟨⟨rfl, forall₂_serves_refl _, prefix_rfl⟩, rfl, rfl⟩)

/-! ## The requeue verb -/

/-- A call that requeues undecided failures of a run. -/
def Scope.requeueing : Scope where
  birth _ := False
  action action item := (∃ databaseNow, action = .requeue databaseNow) ∧ item.runId = runId
  note _ := False

omit [Digest] in
/-- The undecided failures of a run, in the order they are handled. -/
def undecidedFailures (db : Db) : List TokenWorkItem :=
  sortRows sweepKey (db.tokenWorkItems.rows.filter fun row =>
    row.runId = runId && undecidedFailedWork db.tokenOutcomes.rows row)

omit [Digest] in
theorem mem_undecidedFailures {runId : String} {db : Db} :
    row ∈ undecidedFailures runId db ↔ row ∈ db.tokenWorkItems.rows ∧ row.runId = runId ∧
      undecidedFailedWork db.tokenOutcomes.rows row = true := by
  simp only [undecidedFailures, mem_sortRows, mem_filter, Bool.and_eq_true, decide_eq_true_eq]

/-- The requeue did what it was to do: every undecided failure of the run is READY
under the id of its next attempt, and no other row changed. -/
structure Requeued (token : CoordinationToken) (count : Nat) (before after : Db) : Prop where
  retained : ∀ row ∈ undecidedFailures token.runId before, purgedPayload row = false
  counted : count = (undecidedFailures token.runId before).length
  written : ∃ (items : Table TokenWorkItem Violation tokenWorkItemConstraints)
      (databaseNow : Time),
    items.rows = editRows TokenWorkItem.workItemId
        ((undecidedFailures token.runId before).map fun row =>
          (row, row.requeued (requeueId row) databaseNow)) before.tokenWorkItems.rows ∧
      after = before.withJournal items (before.schedulerEvents ++
        (undecidedFailures token.runId before).map (requeueEvent token.workerId databaseNow))

omit [Digest] in
theorem undecidedFailures_nodup (db : Db) :
    ((undecidedFailures runId db).map TokenWorkItem.workItemId).Nodup :=
  nodup_sortRows_filter _ _ db.tokenWorkItems

theorem undecidedFailures_edits (db : Db) (databaseNow : Time) :
    Edits TokenWorkItem.workItemId ((undecidedFailures runId db).map fun row =>
      (row, row.requeued (requeueId row) databaseNow)) db.tokenWorkItems.rows := by
  constructor
  · intro pair member
    obtain ⟨row, rowMem, rfl⟩ := mem_map.mp member
    exact (mem_undecidedFailures.mp rowMem).1
  · unfold oldKeys
    rw [map_map]
    exact undecidedFailures_nodup runId db

end

theorem describes_requeue (undecided : undecidedFailedWork recorded row = true)
    (callerOwner : String) (databaseNow : Time) :
    Describes .resumeRequeueFailed row (row.requeued (requeueId row) databaseNow)
      (requeueEvent callerOwner databaseNow row) := by
  simp only [undecidedFailedWork, Bool.and_eq_true, decide_eq_true_eq] at undecided
  exact ⟨rfl, rfl, rfl, rfl, rfl, congrArg some undecided.1.symm, rfl, rfl, rfl, rfl, Or.inl rfl⟩

/-- **The requeue body.** -/
theorem requeueUndecidedFailedWorkOn_ok
    (ran : requeueUndecidedFailedWorkOn env token conn = .ok (count, conn')) :
    Requeued token count conn.db conn'.db ∧
      Advances conn.db.tokenOutcomes.rows (.requeueing token.runId) conn.db conn'.db := by
  simp only [requeueUndecidedFailedWorkOn, bind_eq_ok, query_eq_ok, Slot.select_eq_ok,
    ite_eq_ok, pure_eq_ok] at ran
  obtain ⟨outcomes, conn, ⟨rfl, rfl⟩, undecided, conn, ⟨undecidedRows, rfl⟩, inner⟩ := ran
  have selected : sortRows sweepKey undecided =
      undecidedFailures token.runId conn.db := by
    rw [undecidedRows]
    rfl
  rcases inner with ⟨rfl, rfl, rfl⟩ | ⟨-, inner⟩
  · refine ⟨⟨?_, ?_, conn'.db.tokenWorkItems, 0, ?_, ?_⟩, Advances.refl _⟩ <;>
      simp [← selected, sortRows, Db.withJournal]
  · rw [selected] at inner
    simp only [requeueSelected, bind_eq_ok, ensure_eq_ok, Slot.select_eq_ok,
      readLandscapeDecisionTime_eq_ok, query_eq_ok, recordEvents, alter_eq_ok,
      pure_eq_ok] at inner
    obtain ⟨_, conn, ⟨retained, rfl⟩, _, conn, ⟨-, rfl⟩, _, conn, ⟨-, rfl⟩, databaseNow, _,
      ⟨-, rfl⟩,
      _, _, ⟨rfl, rfl⟩, _, _, batch, _, _, ⟨full, rfl⟩, _, _, rfl, rfl, rfl⟩ := inner
    have keyed : ∀ row other : TokenWorkItem, (decide (other.runId = token.runId) &&
        decide (other.workItemId = row.workItemId) &&
        undecidedFailedWork conn.db.tokenOutcomes.rows other) = true →
        other.workItemId = row.workItemId := by
      intro row other hit
      simp only [Bool.and_eq_true, decide_eq_true_eq] at hit
      exact hit.1.2
    have allowed : ∀ row ∈ undecidedFailures token.runId conn.db,
        (lifecycle conn.db.tokenOutcomes.rows (.requeueing token.runId)).edit row
          (row.requeued (requeueId row) databaseNow)
          (some (requeueEvent token.workerId databaseNow row)) := by
      intro row rowMem
      obtain ⟨-, run, undecided⟩ := mem_undecidedFailures.mp rowMem
      exact ⟨.requeue databaseNow, ⟨⟨_, rfl⟩, run⟩, undecided, rfl, _, rfl,
        describes_requeue undecided _ _⟩
    obtain ⟨-, table, rfl, tableRows, advanced⟩ := advances_of_batch id batch keyed
      (fun row rowMem => (mem_undecidedFailures.mp rowMem).1)
      (undecidedFailures_nodup token.runId conn.db) (Or.inl full)
      fun row rowMem _ => allowed row rowMem
    refine ⟨⟨fun row rowMem => ?_, rfl, table, databaseNow, tableRows, rfl⟩, advanced⟩
    simpa using filter_eq_nil_iff.mp retained row rowMem

end Journal

end Elspeth
