import Elspeth.Relational.Statement
import Elspeth.Landscape.Errors

/-!
# Sessions on the Landscape database

A session is what one transaction sees: the database with its own uncommitted
writes, how many clock readings and generated identifiers it has consumed, and
the deadlines it has issued.  Everything that comes from outside the database —
the two database clocks, the process clock, generated identifiers, and whether
a best-effort ledger write meets a database fault — is supplied by a `CallEnv`
for the duration of one call.

The two clocks are kept apart.  `readLandscapeDecisionTime` samples fresh time
in a separate query; `readLandscapeTransactionTime` is whole-second statement
time on SQLite and transaction-start time on PostgreSQL.  Each is
non-decreasing within a call.  No relation between the two is assumed, and none
between the clocks of different calls: a statement proved here holds for every
clock.

A transaction that issued deadlines is committed only if each of them still has
its completion reserve left at the commit sample.
-/

namespace Elspeth

open Relational

/-! ## The outside world of one call -/

/-- The digest functions the repositories apply. -/
class Digest where
  /-- `sha256(text).hexdigest()`. -/
  sha256 : String → String
  /-- The ledger row's event id: a digest of the whole event. -/
  coordinationEventId : CoordinationEvent → String
  /-- The scheduler event's id: a digest of the transition it describes. -/
  schedulerEventId : SchedulerEvent → String

local instance timePreorder : Preorder Time := Int.instLinearOrder.toPreorder

/-- Inputs of one call that do not come from the database. -/
structure CallEnv where
  dialect : Dialect
  /-- Successive readings of the decision clock. -/
  decisionTime : Nat → Time
  decisionTime_mono : Monotone decisionTime
  /-- Successive readings of the transaction clock. -/
  transactionTime : Nat → Time
  transactionTime_mono : Monotone transactionTime
  /-- The process clock, read for forensic stamps only. -/
  processTime : Time
  /-- Successive generated identifiers. -/
  generatedId : Nat → String
  /-- A best-effort ledger write of this call meets a database fault. -/
  bestEffortLost : Bool

/-! ## Sessions -/

/-- A deadline a transaction issued, with the reserve it must keep at commit. -/
structure IssuedDeadline where
  expiresAt : Time
  reserve : Int
  deriving DecidableEq, Repr

/-- The state of one open transaction. -/
structure Conn where
  db : Db
  decisionReads : Nat
  transactionReads : Nat
  generatedIds : Nat
  issued : List (DeadlineKey × IssuedDeadline)

/-- A transaction body on the Landscape. -/
abbrev Transaction (α : Type) := Txn Conn LandscapeError α

/-- A fresh session on a stored database. -/
def Conn.start (db : Db) : Conn := ⟨db, 0, 0, 0, []⟩

@[simp] theorem Conn.start_db (db : Db) : (Conn.start db).db = db := rfl

variable (env : CallEnv)

/-- The first issued deadline whose reserve is exhausted at the sample. -/
def expiredDeadline (sampledAt : Time) (issued : List (DeadlineKey × IssuedDeadline)) :
    Option DeadlineKey :=
  (issued.find? fun entry => decide (entry.2.expiresAt - sampledAt ≤ entry.2.reserve)).map
    Prod.fst

/-- The commit step: refuse when an issued deadline lost its reserve. -/
def commit (conn : Conn) : Except LandscapeError Db :=
  match expiredDeadline (env.decisionTime conn.decisionReads) conn.issued with
  | none => .ok conn.db
  | some key => .error (.leaseDeadlineExpired key)

/-- `begin_write`: one atomic write transaction. -/
def beginWrite {α : Type} (body : Transaction α) (db : Db) :
    Except LandscapeError α × Db :=
  transact Conn.start (commit env) body db

variable {env}

theorem commit_eq_ok {conn : Conn} {db : Db} :
    commit env conn = .ok db ↔
      expiredDeadline (env.decisionTime conn.decisionReads) conn.issued = none ∧
        db = conn.db := by
  unfold commit
  cases expiredDeadline (env.decisionTime conn.decisionReads) conn.issued with
  | none => simp [eq_comm]
  | some => simp

/-- A committed transaction publishes exactly what its session had written. -/
theorem beginWrite_ok {α : Type} {body : Transaction α} {db db' : Db} {value : α}
    (ran : beginWrite env body db = (.ok value, db')) :
    ∃ conn, body (Conn.start db) = .ok (value, conn) ∧ db' = conn.db := by
  obtain ⟨conn, returned, committed⟩ := transact_eq_ok.mp ran
  exact ⟨conn, returned, (commit_eq_ok.mp committed).2⟩

/-- A refused transaction leaves the database as it was. -/
theorem beginWrite_error {α : Type} {body : Transaction α} {db db' : Db}
    {raised : LandscapeError} (ran : beginWrite env body db = (.error raised, db')) :
    db' = db :=
  transact_error ran

variable (env)

/-! ## Clocks and identifiers -/

def readLandscapeDecisionTime : Transaction Time := fun conn =>
  .ok (env.decisionTime conn.decisionReads,
    { conn with decisionReads := conn.decisionReads + 1 })

def readLandscapeTransactionTime : Transaction Time := fun conn =>
  .ok (env.transactionTime conn.transactionReads,
    { conn with transactionReads := conn.transactionReads + 1 })

def generateId : Transaction String := fun conn =>
  .ok (env.generatedId conn.generatedIds,
    { conn with generatedIds := conn.generatedIds + 1 })

/-! ## Issued deadlines -/

/-- Microseconds in one second. -/
def second : Int := 1000000

/-- A deadline identity is made of non-empty strings. -/
def DeadlineKey.wellFormed : DeadlineKey → Bool
  | .leader runId workerId _ => runId ≠ "" && workerId ≠ ""
  | .worker runId workerId => runId ≠ "" && workerId ≠ ""
  | .item workItemId => workItemId ≠ ""

/-- The completion reserve: a tenth of the window, at most one second. -/
def deadlineReserve (window : Int) : Int := min second (window / 10)

/-- The precision of the decision clock. -/
def decisionResolution : Dialect → Int
  | .sqlite => 1000
  | .postgresql => 1

section

variable (key : DeadlineKey)

/-- Set one entry of the transaction's deadline dictionary. -/
def setDeadline (deadline : IssuedDeadline)
    (issued : List (DeadlineKey × IssuedDeadline)) : List (DeadlineKey × IssuedDeadline) :=
  if issued.any (·.1 = key) then
    issued.map fun entry => if entry.1 = key then (key, deadline) else entry
  else issued ++ [(key, deadline)]

def recordIssuedDeadline (expiresAt : Time) (window : Int) :
    Transaction Unit := do
  Txn.ensure (key.wellFormed = true) (.valueError (.deadlineIdentity key))
  Txn.ensure (0 < window) (.valueError .deadlineWindowNotPositive)
  Txn.ensure (decisionResolution env.dialect ≤ deadlineReserve window)
    (.valueError .deadlineWindowTooSmall)
  Txn.alter fun conn =>
    { conn with issued := setDeadline key ⟨expiresAt, deadlineReserve window⟩ conn.issued }

def forgetIssuedDeadline : Transaction Unit :=
  Txn.alter fun conn => { conn with issued := conn.issued.filter (·.1 ≠ key) }

def hasIssuedDeadline : Transaction Bool :=
  Txn.query fun conn => conn.issued.any (·.1 = key)

end

section Specs

variable {env} {conn conn' : Conn}

@[simp] theorem readLandscapeDecisionTime_eq_ok {now : Time} :
    readLandscapeDecisionTime env conn = .ok (now, conn') ↔
      now = env.decisionTime conn.decisionReads ∧
        conn' = { conn with decisionReads := conn.decisionReads + 1 } := by
  simp [readLandscapeDecisionTime, eq_comm]

@[simp] theorem readLandscapeDecisionTime_eq_error {raised : LandscapeError} :
    readLandscapeDecisionTime env conn = .error raised ↔ False := by
  simp [readLandscapeDecisionTime]

theorem readLandscapeDecisionTime_guarded {invariant : Conn → Prop}
    {allowed : LandscapeError → Prop}
    (ticks : ∀ conn : Conn, invariant conn →
      invariant { conn with decisionReads := conn.decisionReads + 1 }) :
    Txn.Guarded invariant allowed (readLandscapeDecisionTime env) where
  raises _ _ _ ran := (readLandscapeDecisionTime_eq_error.mp ran).elim
  keeps conn _ _ holds ran := by
    rw [(readLandscapeDecisionTime_eq_ok.mp ran).2]
    exact ticks conn holds

@[simp] theorem readLandscapeTransactionTime_eq_ok {now : Time} :
    readLandscapeTransactionTime env conn = .ok (now, conn') ↔
      now = env.transactionTime conn.transactionReads ∧
        conn' = { conn with transactionReads := conn.transactionReads + 1 } := by
  simp [readLandscapeTransactionTime, eq_comm]

@[simp] theorem generateId_eq_ok {generated : String} :
    generateId env conn = .ok (generated, conn') ↔
      generated = env.generatedId conn.generatedIds ∧
        conn' = { conn with generatedIds := conn.generatedIds + 1 } := by
  simp [generateId, eq_comm]

end Specs

/-! ## Table slots -/

/-- The slot of a table whose violations are integrity errors. -/
abbrev TableSlot {α : Type} (constraints : List (Constraint α Violation)) : Type :=
  Slot Conn LandscapeError α Violation constraints

def runsSlot : TableSlot runConstraints where
  get conn := conn.db.runs
  put table conn := { conn with db := { conn.db with runs := table } }
  raises := .integrityError

def seatsSlot : TableSlot runCoordinationConstraints where
  get conn := conn.db.runCoordination
  put table conn := { conn with db := { conn.db with runCoordination := table } }
  raises := .integrityError

def workersSlot : TableSlot runWorkerConstraints where
  get conn := conn.db.runWorkers
  put table conn := { conn with db := { conn.db with runWorkers := table } }
  raises := .integrityError

def coordinationEventsSlot : TableSlot coordinationEventConstraints where
  get conn := conn.db.runCoordinationEvents
  put table conn := { conn with db := { conn.db with runCoordinationEvents := table } }
  raises := .integrityError

def nodesSlot : TableSlot nodeConstraints where
  get conn := conn.db.nodes
  put table conn := { conn with db := { conn.db with nodes := table } }
  raises := .integrityError

def rowsSlot : TableSlot sourceRowConstraints where
  get conn := conn.db.rows
  put table conn := { conn with db := { conn.db with rows := table } }
  raises := .integrityError

def tokensSlot : TableSlot tokenConstraints where
  get conn := conn.db.tokens
  put table conn := { conn with db := { conn.db with tokens := table } }
  raises := .integrityError

def itemsSlot : TableSlot tokenWorkItemConstraints where
  get conn := conn.db.tokenWorkItems
  put table conn := { conn with db := { conn.db with tokenWorkItems := table } }
  raises := .integrityError

def outcomesSlot : TableSlot tokenOutcomeConstraints where
  get conn := conn.db.tokenOutcomes
  put table conn := { conn with db := { conn.db with tokenOutcomes := table } }
  raises := .integrityError

def batchesSlot : TableSlot batchConstraints where
  get conn := conn.db.batches
  put table conn := { conn with db := { conn.db with batches := table } }
  raises := .integrityError

def batchMembersSlot : TableSlot batchMemberConstraints where
  get conn := conn.db.batchMembers
  put table conn := { conn with db := { conn.db with batchMembers := table } }
  raises := .integrityError

def groupLossesSlot : TableSlot groupLossConstraints where
  get conn := conn.db.groupLosses
  put table conn := { conn with db := { conn.db with groupLosses := table } }
  raises := .integrityError

end Elspeth
