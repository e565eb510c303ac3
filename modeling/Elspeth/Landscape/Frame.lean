import Elspeth.Landscape.Coordination

/-!
# What a transaction leaves alone

Relations between the database before and after a write, from the narrowest to
the widest:

* `Renewed` — nothing but seat deadlines moved, which is all a leader fence does;
* `Quiet` — the journal and its events are the same, seats keep their holders,
  registered workers keep their identity, outcomes only grow;
* `Steady` — the same without the journal;
* `Apart` — the journal alone is the same, which holds of everything coordination
  does.

Each is a preorder, so the two-state rules of `Txn.Respects` lift it from
statements to whole bodies.  The scheduler's verbs are `Steady`; everything they
call beside the journal is `Quiet`.

The repositories that record node states, outcomes, batches, routing events and
run finalization share this database and are not modelled statement by
statement.  A `BystanderWrite` is a transaction body of theirs, packaged with
the proof that it keeps to the relation `Bystander`, so a statement about every
interleaving can quantify over all of them at once.
-/

namespace Elspeth

open Relational

/-! ## Relations between databases -/

/-- What identifies a seat's holder: run, worker and epoch, without liveness. -/
structure SeatHolding where
  runId : String
  leaderWorkerId : Option String
  leaderEpoch : Nat
  deriving DecidableEq, Repr

def RunCoordination.holding (seat : RunCoordination) : SeatHolding :=
  ⟨seat.runId, seat.leaderWorkerId, seat.leaderEpoch⟩

/-- Who holds which seat. -/
def Db.holdings (db : Db) : List SeatHolding :=
  db.runCoordination.rows.map RunCoordination.holding

/-- A registry row keeps its identity, and once inactive keeps its status. -/
structure RunWorker.Evolves (old new : RunWorker) : Prop where
  workerId : new.workerId = old.workerId
  runId : new.runId = old.runId
  role : new.role = old.role
  inactive : old.status ≠ .active → new.status = old.status

theorem RunWorker.Evolves.refl (worker : RunWorker) : worker.Evolves worker :=
  ⟨rfl, rfl, rfl, fun _ => rfl⟩

theorem RunWorker.Evolves.trans {first second third : RunWorker}
    (left : first.Evolves second) (right : second.Evolves third) : first.Evolves third where
  workerId := right.workerId.trans left.workerId
  runId := right.runId.trans left.runId
  role := right.role.trans left.role
  inactive inactive := by
    have unchanged := left.inactive inactive
    rw [right.inactive (by rwa [unchanged]), unchanged]

/-- Evolves without being evicted. -/
structure RunWorker.Serves (old new : RunWorker) : Prop extends old.Evolves new where
  evicted : new.status = .evicted → old.status = .evicted

theorem RunWorker.Serves.refl (worker : RunWorker) : worker.Serves worker :=
  ⟨.refl worker, id⟩

theorem RunWorker.Serves.trans {first second third : RunWorker}
    (left : first.Serves second) (right : second.Serves third) : first.Serves third :=
  ⟨left.toEvolves.trans right.toEvolves, fun evicted => left.evicted (right.evicted evicted)⟩

/-- Seats keep their holders, registered workers serve on or depart, outcomes are
only added. -/
structure Steady (before after : Db) : Prop where
  seats : after.holdings = before.holdings
  workers : List.Forall₂ RunWorker.Serves before.runWorkers.rows after.runWorkers.rows
  outcomes : before.tokenOutcomes.rows <+: after.tokenOutcomes.rows

/-- Steady, and the journal with its events is the same. -/
structure Quiet (before after : Db) : Prop extends Steady before after where
  items : after.tokenWorkItems = before.tokenWorkItems
  events : after.schedulerEvents = before.schedulerEvents

/-- The journal is not written, outcomes are only added. -/
structure Apart (before after : Db) : Prop where
  items : after.tokenWorkItems = before.tokenWorkItems
  events : after.schedulerEvents = before.schedulerEvents
  outcomes : before.tokenOutcomes.rows <+: after.tokenOutcomes.rows

/-- Nothing but the deadlines of seats moved. -/
def Renewed (before after : Db) : Prop :=
  ∃ table : Table RunCoordination Violation runCoordinationConstraints,
    table.rows.map RunCoordination.holding = before.holdings ∧
      after = { before with runCoordination := table }

theorem forall₂_serves_refl (workers : List RunWorker) :
    List.Forall₂ RunWorker.Serves workers workers :=
  List.forall₂_same.mpr fun worker _ => RunWorker.Serves.refl worker

theorem Steady.refl (db : Db) : Steady db db :=
  ⟨rfl, forall₂_serves_refl _, List.prefix_rfl⟩

variable {first second third before after : Db}

theorem Steady.trans (left : Steady first second) (right : Steady second third) :
    Steady first third where
  seats := right.seats.trans left.seats
  workers := forall₂_comp (fun _ _ _ before after => before.trans after)
    left.workers right.workers
  outcomes := left.outcomes.trans right.outcomes

theorem Quiet.refl (db : Db) : Quiet db db := ⟨Steady.refl db, rfl, rfl⟩

theorem Quiet.trans (left : Quiet first second) (right : Quiet second third) : Quiet first third :=
  ⟨left.toSteady.trans right.toSteady, right.items.trans left.items,
    right.events.trans left.events⟩

theorem Quiet.apart (quiet : Quiet before after) : Apart before after :=
  ⟨quiet.items, quiet.events, quiet.outcomes⟩

theorem Apart.refl (db : Db) : Apart db db := ⟨rfl, rfl, List.prefix_rfl⟩

theorem Apart.trans (left : Apart first second) (right : Apart second third) : Apart first third :=
  ⟨right.items.trans left.items, right.events.trans left.events,
    left.outcomes.trans right.outcomes⟩

theorem Renewed.refl (db : Db) : Renewed db db := ⟨db.runCoordination, rfl, rfl⟩

theorem Renewed.trans (left : Renewed first second) (right : Renewed second third) :
    Renewed first third := by
  obtain ⟨leftTable, leftSeats, rfl⟩ := left
  obtain ⟨rightTable, rightSeats, rfl⟩ := right
  exact ⟨rightTable, rightSeats.trans leftSeats, rfl⟩

theorem Renewed.quiet (renewed : Renewed before after) : Quiet before after := by
  obtain ⟨table, seats, rfl⟩ := renewed
  exact ⟨⟨seats, forall₂_serves_refl _, List.prefix_rfl⟩, rfl, rfl⟩

instance : Std.Refl Quiet := ⟨Quiet.refl⟩
instance : IsTrans Db Quiet := ⟨fun _ _ _ => Quiet.trans⟩
instance : Std.Refl Apart := ⟨Apart.refl⟩
instance : IsTrans Db Apart := ⟨fun _ _ _ => Apart.trans⟩
instance : Std.Refl Renewed := ⟨Renewed.refl⟩
instance : IsTrans Db Renewed := ⟨fun _ _ _ => Renewed.trans⟩

/-- A relation between databases, read between sessions. -/
def OnDb (relation : Db → Db → Prop) (before after : Conn) : Prop :=
  relation before.db after.db

instance {relation : Db → Db → Prop} [Std.Refl relation] : Std.Refl (OnDb relation) :=
  ⟨fun conn => Std.Refl.refl conn.db⟩

instance {relation : Db → Db → Prop} [IsTrans Db relation] : IsTrans Conn (OnDb relation) :=
  ⟨fun _ _ _ left right => IsTrans.trans (r := relation) _ _ _ left right⟩

/-! ## The other writers of the Landscape -/

/-- What another repository's write may do to the modelled tables. -/
structure Bystander (before after : Db) : Prop extends Quiet before after where
  members : before.batchMembers.rows <+: after.batchMembers.rows
  tokens : before.tokens.rows <+: after.tokens.rows
  sourceRows : before.rows.rows <+: after.rows.rows
  nodes : before.nodes.rows <+: after.nodes.rows

theorem Bystander.trans (left : Bystander first second) (right : Bystander second third) :
    Bystander first third :=
  ⟨left.toQuiet.trans right.toQuiet, left.members.trans right.members,
    left.tokens.trans right.tokens, left.sourceRows.trans right.sourceRows,
    left.nodes.trans right.nodes⟩

instance : IsTrans Db Bystander := ⟨fun _ _ _ => Bystander.trans⟩

/-- A transaction body of another repository. -/
structure BystanderWrite where
  run : CallEnv → Transaction Unit
  respects : ∀ env, Txn.Respects (OnDb Bystander) (run env)

/-! ## Session primitives -/

section Primitives

variable {env : CallEnv} {relation : Db → Db → Prop} [Std.Refl relation]

theorem respects_decisionTime :
    Txn.Respects (OnDb relation) (readLandscapeDecisionTime env) := by
  intro conn value conn' ran
  obtain ⟨-, rfl⟩ := readLandscapeDecisionTime_eq_ok.mp ran
  exact Std.Refl.refl (r := relation) conn.db

theorem respects_generateId : Txn.Respects (OnDb relation) (generateId env) := by
  intro conn value conn' ran
  obtain ⟨-, rfl⟩ := generateId_eq_ok.mp ran
  exact Std.Refl.refl (r := relation) conn.db

variable [IsTrans Db relation]

variable {key : DeadlineKey}

theorem respects_recordIssuedDeadline {expiresAt : Time} {window : Int} :
    Txn.Respects (OnDb relation) (recordIssuedDeadline env key expiresAt window) :=
  .bind .ensure fun _ => .bind .ensure fun _ => .bind .ensure fun _ =>
    .alter fun conn => Std.Refl.refl (r := relation) conn.db

omit [IsTrans Db relation] in
theorem respects_forgetIssuedDeadline : Txn.Respects (OnDb relation) (forgetIssuedDeadline key) :=
  .alter fun conn => Std.Refl.refl (r := relation) conn.db

end Primitives

/-- A statement that moves only the deadlines of seats. -/
theorem respects_seatsUpdate {selected : RunCoordination → Bool}
    {change : RunCoordination → RunCoordination}
    (kept : ∀ seat, (change seat).holding = seat.holding) :
    Txn.Respects (OnDb Renewed) (seatsSlot.update selected change) := by
  refine Slot.update_respects fun table session tableRows => ⟨table, ?_, rfl⟩
  rw [tableRows]
  exact map_updateRows kept (seatsSlot.rows session)

/-- A statement that renews or retires workers, and evicts none. -/
theorem respects_workersUpdate {selected : RunWorker → Bool} {change : RunWorker → RunWorker}
    (serves : ∀ worker, selected worker = true → worker.Serves (change worker)) :
    Txn.Respects (OnDb Quiet) (workersSlot.update selected change) := by
  refine Slot.update_respects fun table session tableRows => ?_
  refine ⟨⟨rfl, ?_, List.prefix_rfl⟩, rfl, rfl⟩
  change List.Forall₂ _ session.db.runWorkers.rows table.rows
  rw [tableRows]
  exact forall₂_updateRows (fun worker _ _ => .refl worker) fun worker _ hit => serves worker hit

/-- A body that moves only deadlines is quiet. -/
theorem respects_quiet {α : Type} {body : Transaction α}
    (respects : Txn.Respects (OnDb Renewed) body) : Txn.Respects (OnDb Quiet) body :=
  fun _ _ _ ran => (respects ran).quiet

theorem RunWorker.Serves.renewed (worker : RunWorker) (expiresAt : Time) :
    worker.Serves { worker with heartbeatExpiresAt := expiresAt } :=
  ⟨⟨rfl, rfl, rfl, fun _ => rfl⟩, id⟩

theorem RunWorker.Serves.departed {worker : RunWorker} (active : worker.status = .active)
    (databaseNow : Time) :
    worker.Serves { worker with status := .departed, departedAt := some databaseNow } :=
  ⟨⟨rfl, rfl, rfl, fun inactive => absurd active inactive⟩, fun evicted => by cases evicted⟩

end Elspeth
