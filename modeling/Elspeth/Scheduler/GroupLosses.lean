import Elspeth.Landscape.Outcomes

/-!
# The group-loss ledger

In-transaction recording of durable group losses
(`core/landscape/scheduler/group_losses.py`).  A loss is keyed by the member of
the group that was lost; recording it again is accepted when the same token
claims it and refused as lineage corruption otherwise.  Losses ride the
disposition that causes them, so the writer takes the caller's connection.
-/

namespace Elspeth

open Relational

/-- Durable group-loss record riding a lossy disposition. -/
structure GroupLossSpec where
  closerName : String
  groupId : String
  memberKey : String
  tokenId : String
  reason : String
  deriving DecidableEq, Repr

/-- The natural key of a loss within its run. -/
def GroupLossSpec.key (spec : GroupLossSpec) : String × String × String :=
  (spec.closerName, spec.groupId, spec.memberKey)

def GroupLoss.key (loss : GroupLoss) : String × String × String :=
  (loss.closerName, loss.groupId, loss.memberKey)

/-- The reason column holds a category token of at most this length. -/
def groupLossReasonMaxLength : Nat := 64

def groupLossLineageError (spec : GroupLossSpec) : LandscapeError :=
  .auditIntegrity (.groupLossLineage spec.closerName spec.groupId spec.memberKey)

/-- The first spec of each key; a later one must name the same token. -/
def firstLosses : List GroupLossSpec → List GroupLossSpec → Transaction (List GroupLossSpec)
  | seen, [] => pure seen
  | seen, spec :: specs => do
    Txn.ensure (spec.reason.length ≤ groupLossReasonMaxLength)
      (.auditIntegrity (.groupLossReasonTooLong spec.reason.length))
    match seen.find? (·.key = spec.key) with
    | some first => do
      Txn.ensure (first.tokenId = spec.tokenId) (groupLossLineageError spec)
      firstLosses seen specs
    | none => firstLosses (seen ++ [spec]) specs

/-- The row of one loss. -/
def groupLossRow (env : CallEnv) (runId recordedBy : String) (now : Time)
    (spec : GroupLossSpec) : Transaction GroupLoss := do
  let generated ← generateId env
  pure
    { lossId := shortId "loss" generated, runId, closerName := spec.closerName,
      groupId := spec.groupId, memberKey := spec.memberKey, tokenId := spec.tokenId,
      reason := spec.reason, recordedBy, recordedAt := now, adoptedEpoch := none }

/-- The stored loss of a spec's key names the spec's token. -/
def checkStoredLoss (existing : List GroupLoss) (spec : GroupLossSpec) : Transaction Unit :=
  match existing.find? (·.key = spec.key) with
  | none => Txn.raise (.auditIntegrity .groupLossMissing)
  | some loss => Txn.ensure (loss.tokenId = spec.tokenId) (groupLossLineageError spec)

/-- The rows of members that have no loss yet. -/
def newLosses (stored rows : List GroupLoss) : List GroupLoss :=
  rows.filter fun row => stored.all (·.key ≠ row.key)

/-- Append a batch of losses, idempotent on the natural key. -/
def recordGroupLosses (env : CallEnv) (runId : String) (specs : List GroupLossSpec)
    (recordedBy : String) (now : Time) : Transaction Unit := do
  let first ← firstLosses [] specs
  let rows ← Txn.mapEach (groupLossRow env runId recordedBy now) first
  let stored ← groupLossesSlot.select fun loss => loss.runId = runId
  let new := newLosses stored rows
  let runs ← Txn.query fun conn => conn.db.runs.rows
  let tokens ← Txn.query fun conn => conn.db.tokens.rows
  Txn.ensure (∀ row ∈ new, row.runId ∈ runs.map Run.runId ∧
    ∃ token ∈ tokens, token.tokenId = row.tokenId ∧ token.runId = row.runId)
    (.integrityError .foreignKey)
  groupLossesSlot.insert new
  let existing ← groupLossesSlot.select fun loss => loss.runId = runId
  Txn.forEach (checkStoredLoss existing) specs

end Elspeth
