import Elspeth.Landscape.Outcomes
import Mathlib.Data.List.SplitBy
import Mathlib.Data.String.Basic

/-!
# Run counters

Three bookkeepers count the tokens of a run by outcome and path.  The processing loop
counts every result as it comes (`engine/orchestrator/outcomes.py`), sink-bound ones
provisionally; the flush of the sinks takes back what the sinks diverted
(`engine/orchestrator/sink_flush.py`); and the final status is derived from the recorded
outcomes alone (`engine/orchestrator/run_status.py`).  What each pair counts is one table
(`counter_classification.py`), read by all three.

Counters are indexed by their field names, as the table names them.
-/

namespace Elspeth.Orchestrator

/-- The counters that the table of terminal pairs may name. -/
inductive CounterField where
  | rowsSucceeded
  | rowsFailed
  | rowsRoutedSuccess
  | rowsRoutedFailure
  | rowsQuarantined
  | rowsForked
  | rowsCoalesced
  | rowsExpanded
  | rowsBuffered
  | rowsDiverted
  deriving DecidableEq, Repr

/-- The counters a run keeps per token and per failed group. -/
structure ExecutionCounters where
  tally : CounterField → Nat
  rowsCoalesceFailed : Nat
  /-- A counting dictionary: a sink that is not in it counts zero. -/
  routedDestinations : String → Nat

def ExecutionCounters.zero : ExecutionCounters where
  tally _ := 0
  rowsCoalesceFailed := 0
  routedDestinations _ := 0

/-! ## The table -/

abbrev TerminalPair := Option TerminalOutcome × TerminalPath

structure TerminalPairCounterEffect where
  increments : List CounterField
  countsRoutedDestination : Bool := false
  routesToSink : Bool := false
  sinkReconcilable : Bool := false
  forbiddenInProcessingResults : Bool := false
  deriving DecidableEq, Repr

def terminalPairCounterEffects : TerminalPair → Option TerminalPairCounterEffect
  | (some .success, .defaultFlow) => some
      { increments := [.rowsSucceeded], routesToSink := true, sinkReconcilable := true }
  | (some .success, .gateRouted) => some
      { increments := [.rowsSucceeded, .rowsRoutedSuccess], countsRoutedDestination := true
        routesToSink := true, sinkReconcilable := true }
  | (some .success, .gateDiscarded) => some { increments := [.rowsSucceeded] }
  | (some .failure, .gateErrorDiscarded) => some { increments := [.rowsFailed] }
  | (some .success, .filterDropped) => some { increments := [.rowsSucceeded] }
  | (some .success, .coalesced) => some
      { increments := [.rowsSucceeded, .rowsCoalesced], routesToSink := true
        sinkReconcilable := true }
  | (some .failure, .onErrorRouted) => some
      { increments := [.rowsFailed, .rowsRoutedFailure], countsRoutedDestination := true
        routesToSink := true, sinkReconcilable := true }
  | (some .failure, .unrouted) => some { increments := [.rowsFailed] }
  | (some .failure, .quarantinedAtSource) => some
      { increments := [.rowsFailed, .rowsQuarantined], sinkReconcilable := true }
  | (some .failure, .sinkDiscarded) => some
      { increments := [.rowsFailed, .rowsDiverted], forbiddenInProcessingResults := true }
  | (some .transient, .sinkFallbackToFailsink) => some
      { increments := [.rowsDiverted], forbiddenInProcessingResults := true }
  | (some .transient, .forkParent) => some { increments := [.rowsForked] }
  | (some .transient, .expandParent) => some { increments := [.rowsExpanded] }
  | (some .transient, .batchConsumed) => some { increments := [] }
  | (none, .buffered) => some { increments := [.rowsBuffered] }
  | (none, .abandoned) => some { increments := [], forbiddenInProcessingResults := true }
  | _ => none

section

variable (counters : ExecutionCounters)

/-- Add to one counter. -/
def ExecutionCounters.bump (field : CounterField) :
    ExecutionCounters :=
  { counters with tally := Function.update counters.tally field (counters.tally field + 1) }

def applyCounterIncrements (effect : TerminalPairCounterEffect) :
    ExecutionCounters :=
  effect.increments.foldl ExecutionCounters.bump counters

def ExecutionCounters.countDestination (sinkName : String) :
    ExecutionCounters :=
  { counters with
    routedDestinations := Function.update counters.routedDestinations sinkName
      (counters.routedDestinations sinkName + 1) }

end

/-- Broken invariants that stop a run. -/
inductive InvariantFault where
  | unhandledPair (pair : TerminalPair)
  | forbiddenPair (pair : TerminalPair)
  | errorMissing
  | joinGroupMissing
  | sinkNameMissing
  | sinkNotConfigured (sinkName : String)
  | handoffMissing
  | pendingOutcomeInvalid
  | unexpectedPendingPair (pair : TerminalPair)
  | counterUnderflow (field : CounterField)
  | destinationUnderflow (sinkName : String)
  | abandonedRecord (tokenId : String)
  | routedSinkMissing (tokenId : String)
  | notSubset (field : CounterField)
  deriving DecidableEq, Repr

/-! ## Processing results -/

structure FailureInfo where
  exceptionType : String
  message : String
  deriving DecidableEq, Repr

/-- The result of processing one token. -/
structure RowResult where
  tokenId : String
  outcome : Option TerminalOutcome
  path : TerminalPath
  sinkName : Option String
  error : Option FailureInfo
  schedulerPendingSink : Bool
  authoritativeErrorHash : Option String
  joinGroupId : Option String
  countsFailedBarrier : Bool
  /-- The pair is in the table, and no result is abandoned. -/
  legal : (terminalPairCounterEffects (outcome, path)).isSome ∧ path ≠ .abandoned
  sinkBound : path ∈ [.defaultFlow, .gateRouted, .onErrorRouted, .coalesced] → sinkName ≠ none
  unbound : path = .buffered → sinkName = none
  failed : path = .onErrorRouted → error ≠ none
  /-- A quarantined row with a sink is parked, with its audited error. -/
  quarantined : path = .quarantinedAtSource →
    (sinkName ≠ none ↔ schedulerPendingSink = true) ∧
      (sinkName ≠ none ↔ authoritativeErrorHash ≠ none)
  merged : path = .coalesced ↔ joinGroupId ≠ none
  barrier : countsFailedBarrier = true → outcome = some .failure ∧ path = .unrouted

def RowResult.pair (result : RowResult) : TerminalPair := (result.outcome, result.path)

/-- An outcome that waits for its sink. -/
structure PendingOutcome where
  outcome : Option TerminalOutcome
  path : TerminalPath
  errorHash : Option String
  joinGroupId : Option String
  deriving DecidableEq, Repr

def requiresErrorHash (path : TerminalPath) : Bool :=
  path ∈ [.onErrorRouted, .gateErrorDiscarded, .unrouted, .quarantinedAtSource,
    .sinkFallbackToFailsink, .sinkDiscarded]

/-- What the constructor of a pending outcome demands. -/
def PendingOutcome.Valid (pending : PendingOutcome) : Prop :=
  (match pending.outcome with
    | none => pending.path = .buffered
    | some outcome => (terminalPairCounterEffects (some outcome, pending.path)).isSome) ∧
    (match pending.errorHash with
      | none => requiresErrorHash pending.path = false
      | some hash => requiresErrorHash pending.path = true ∧
          hash.toList.any (fun character => !character.isWhitespace) = true) ∧
    (pending.path = .coalesced ↔ pending.joinGroupId ≠ none)

instance (pending : PendingOutcome) : Decidable pending.Valid := by
  unfold PendingOutcome.Valid
  cases pending.outcome <;> cases pending.errorHash <;> infer_instance

/-- A token queued for a sink. -/
structure PendingToken where
  tokenId : String
  pending : PendingOutcome
  deriving DecidableEq, Repr

def PendingToken.pair (token : PendingToken) : TerminalPair :=
  (token.pending.outcome, token.pending.path)

/-- The queues of the configured sinks. -/
abbrev PendingTokenMap := List (String × List PendingToken)

/-- Append to the queue of one sink. -/
def PendingTokenMap.push (pending : PendingTokenMap) (sinkName : String) (token : PendingToken) :
    PendingTokenMap :=
  match pending with
  | [] => []
  | (name, queue) :: rest =>
    if name = sinkName then (name, queue ++ [token]) :: rest
    else (name, queue) :: PendingTokenMap.push rest sinkName token

def routeToSink (sinkName : String) (pending : PendingTokenMap) (result : RowResult)
    (errorHash : Option String) : Except InvariantFault PendingTokenMap :=
  let outcome : PendingOutcome := ⟨result.outcome, result.path, errorHash, result.joinGroupId⟩
  if sinkName ∉ pending.map Prod.fst then .error (.sinkNotConfigured sinkName)
  else if result.schedulerPendingSink = false then .error .handoffMissing
  else if outcome.Valid then .ok (pending.push sinkName ⟨result.tokenId, outcome⟩)
  else .error .pendingOutcomeInvalid

section

variable (computeErrorHash : FailureInfo → String)

/-- The error hash a result is queued with; `computeErrorHash` is the digest of an error. -/
def resultErrorHash (result : RowResult) :
    Except InvariantFault (Option String) :=
  if result.pair = (some .failure, .onErrorRouted) then
    match result.error with
    | none => .error .errorMissing
    | some error => .ok (some (result.authoritativeErrorHash.getD (computeErrorHash error)))
  else if result.pair = (some .success, .coalesced) ∧ result.joinGroupId = none then
    .error .joinGroupMissing
  else if result.pair = (some .failure, .quarantinedAtSource) ∧ result.sinkName ≠ none then
    .ok result.authoritativeErrorHash
  else .ok none

/-- Whether a result goes to a sink: always by its pair, or as a quarantined source row. -/
def RowResult.routes (result : RowResult) (effect : TerminalPairCounterEffect) : Bool :=
  effect.routesToSink ||
    (result.pair = (some .failure, .quarantinedAtSource) && result.sinkName.isSome)

def requireSinkName (result : RowResult) : Except InvariantFault String :=
  match result.sinkName with
  | none => .error .sinkNameMissing
  | some name => .ok name

/-- Count the destination of a routed result. -/
def countRouted (effect : TerminalPairCounterEffect) (result : RowResult)
    (counters : ExecutionCounters) : Except InvariantFault ExecutionCounters :=
  if effect.countsRoutedDestination then
    (requireSinkName result).map counters.countDestination
  else .ok counters

/-- Queue a result that goes to a sink. -/
def queueResult (effect : TerminalPairCounterEffect) (result : RowResult)
    (errorHash : Option String) (pending : PendingTokenMap) :
    Except InvariantFault PendingTokenMap :=
  if result.routes effect then
    (requireSinkName result).bind fun sinkName => routeToSink sinkName pending result errorHash
  else .ok pending

/-- Count one result, and queue it if it goes to a sink. -/
def accumulateRowOutcome
    (state : ExecutionCounters × PendingTokenMap) (result : RowResult) :
    Except InvariantFault (ExecutionCounters × PendingTokenMap) :=
  match terminalPairCounterEffects result.pair with
  | none => .error (.unhandledPair result.pair)
  | some effect =>
    if effect.forbiddenInProcessingResults then .error (.forbiddenPair result.pair)
    else do
      let errorHash ← resultErrorHash computeErrorHash result
      let counted := applyCounterIncrements state.1 effect
      let counters ← countRouted effect result
        { counted with
          rowsCoalesceFailed :=
            counted.rowsCoalesceFailed + (if result.countsFailedBarrier then 1 else 0) }
      let pending ← queueResult effect result errorHash state.2
      pure (counters, pending)

def accumulateRowOutcomes (results : List RowResult)
    (state : ExecutionCounters × PendingTokenMap) :
    Except InvariantFault (ExecutionCounters × PendingTokenMap) :=
  results.foldlM (accumulateRowOutcome computeErrorHash) state

/-- Results that come in several calls. -/
def accumulateCalls (calls : List (List RowResult))
    (state : ExecutionCounters × PendingTokenMap) :
    Except InvariantFault (ExecutionCounters × PendingTokenMap) :=
  calls.foldlM (fun state results => accumulateRowOutcomes computeErrorHash results state) state

end

/-! ## Sink writes -/

/-- What became of a token at its sink. -/
inductive Fate where
  | written
  /-- Diverted to the sink's failsink. -/
  | failsink
  | discarded
  deriving DecidableEq, Repr

structure DiversionCounts where
  failsinkMode : Nat
  discardMode : Nat
  deriving DecidableEq, Repr

def DiversionCounts.total (counts : DiversionCounts) : Nat :=
  counts.failsinkMode + counts.discardMode

def DiversionCounts.of (fates : List Fate) : DiversionCounts :=
  ⟨fates.count .failsink, fates.count .discarded⟩

/-- Take diverted tokens out of one counter. -/
def ExecutionCounters.reduce (diversions : Nat) (counters : ExecutionCounters)
    (field : CounterField) : ExecutionCounters :=
  { counters with
    tally := Function.update counters.tally field (counters.tally field - diversions) }

/-- Reconcile provisional counters after a sink write reveals diversions.  Every guard
runs before the first subtraction. -/
def reconcileSinkWriteDiversions (counters : ExecutionCounters) (sinkName : String)
    (pair : TerminalPair) (diversions : Nat) : Except InvariantFault ExecutionCounters :=
  if diversions = 0 then .ok counters
  else
    match terminalPairCounterEffects pair with
    | none => .error (.unexpectedPendingPair pair)
    | some effect =>
      if effect.sinkReconcilable = false then .error (.unexpectedPendingPair pair)
      else
        match effect.increments.find? fun field => counters.tally field < diversions with
        | some field => .error (.counterUnderflow field)
        | none =>
          if effect.countsRoutedDestination = true ∧
              counters.routedDestinations sinkName < diversions then
            .error (.destinationUnderflow sinkName)
          else
            let reduced := effect.increments.foldl (ExecutionCounters.reduce diversions) counters
            .ok (if effect.countsRoutedDestination then
              { reduced with
                routedDestinations := Function.update reduced.routedDestinations sinkName
                  (reduced.routedDestinations sinkName - diversions) }
              else reduced)

/-- Tokens are written in batches of one outcome, path and error. -/
def pendingSortKey (token : PendingToken) : List String :=
  [(token.pending.outcome.map TerminalOutcome.value).getD "", token.pending.path.value,
    token.pending.errorHash.getD ""]

def pendingGroups (queue : List PendingToken) : List (List PendingToken) :=
  (queue.mergeSort fun left right => pendingSortKey left ≤ pendingSortKey right).splitBy
    fun left right => pendingSortKey left = pendingSortKey right

/-- The fate of one queued token. -/
structure Disposition where
  sinkName : String
  token : PendingToken
  fate : Fate
  deriving DecidableEq, Repr

structure FlushState where
  counters : ExecutionCounters
  diversions : DiversionCounts
  dispositions : List Disposition

section Flush

/-- What the sinks do with a batch: one fate for each of its tokens. -/
structure SinkWriter where
  write : String → List PendingToken → List Fate
  length_write : ∀ sinkName batch, (write sinkName batch).length = batch.length

variable (writer : SinkWriter)

/-- Write one batch and reconcile the counters with what came of it. -/
def writeGroup (sinkName : String) (state : FlushState) (group : List PendingToken) :
    Except InvariantFault FlushState :=
  match group.head? with
  | none => .ok state
  | some first => do
      let fates := writer.write sinkName group
      let counts := DiversionCounts.of fates
      let counters ← reconcileSinkWriteDiversions state.counters sinkName first.pair counts.total
      pure
        { counters
          diversions :=
            ⟨state.diversions.failsinkMode + counts.failsinkMode,
              state.diversions.discardMode + counts.discardMode⟩
          dispositions := state.dispositions ++
            List.zipWith (fun token fate => ⟨sinkName, token, fate⟩) group fates }

def writePendingToSinks (pending : PendingTokenMap) (state : FlushState) :
    Except InvariantFault FlushState :=
  pending.foldlM (fun state entry =>
    (pendingGroups entry.2).foldlM (writeGroup writer entry.1) state) state

/-- Write all queued tokens, and count the diverted ones. -/
def flushAndWriteSinks (counters : ExecutionCounters) (pending : PendingTokenMap) :
    Except InvariantFault (ExecutionCounters × List Disposition) := do
  let written ← writePendingToSinks writer pending ⟨counters, ⟨0, 0⟩, []⟩
  let tally := written.counters.tally
  pure
    ({ written.counters with
        tally := fun field =>
          tally field + (if field = .rowsDiverted then written.diversions.total else 0) +
            (if field = .rowsFailed then written.diversions.discardMode else 0) },
      written.dispositions)

end Flush

/-! ## The audit -/

/-- A recorded outcome, as it is loaded. -/
structure OutcomeRecord where
  tokenId : String
  outcome : Option TerminalOutcome
  path : TerminalPath
  sinkName : Option String
  completed : Bool
  /-- Exactly a completed record has an outcome. -/
  decided : completed = outcome.isSome

def OutcomeRecord.pair (record : OutcomeRecord) : TerminalPair := (record.outcome, record.path)

def isCountedCoalescedOutput (record : OutcomeRecord) : Bool := record.sinkName.isSome

def deriveRecord (counters : ExecutionCounters) (record : OutcomeRecord) :
    Except InvariantFault ExecutionCounters :=
  if record.completed = false then
    if record.path = .abandoned then .error (.abandonedRecord record.tokenId)
    else if record.pair = (none, .buffered) then
      .ok (applyCounterIncrements counters { increments := [.rowsBuffered] })
    else .ok counters
  else
    match terminalPairCounterEffects record.pair with
    | none => .error (.unhandledPair record.pair)
    | some effect =>
      if record.pair = (some .success, .coalesced) ∧ isCountedCoalescedOutput record = false then
        .ok counters
      else
        let counted := applyCounterIncrements counters effect
        if effect.countsRoutedDestination then
          match record.sinkName with
          | none => .error (.routedSinkMissing record.tokenId)
          | some sinkName => .ok (counted.countDestination sinkName)
        else .ok counted

/-- Pick a terminal status from the counters. -/
def deriveTerminalRunStatus (rowsProcessed : Nat) (tally : CounterField → Nat)
    (rowsCoalesceFailed collectorGroupsFailed : Nat) : Except InvariantFault RunStatus :=
  if tally .rowsSucceeded < tally .rowsRoutedSuccess then .error (.notSubset .rowsRoutedSuccess)
  else if tally .rowsFailed < tally .rowsRoutedFailure then .error (.notSubset .rowsRoutedFailure)
  else if tally .rowsFailed < tally .rowsQuarantined then .error (.notSubset .rowsQuarantined)
  else
    let clean := 0 < tally .rowsSucceeded ∨ 0 < tally .rowsQuarantined
    let failure := 0 < tally .rowsFailed - tally .rowsQuarantined ∨ 0 < rowsCoalesceFailed ∨
      0 < collectorGroupsFailed
    if rowsProcessed = 0 ∧ ¬ clean then .ok (if failure then .failed else .empty)
    else if ¬ clean then .ok .failed
    else if failure then .ok .completedWithFailures
    else if 0 < tally .rowsQuarantined then .ok .completedWithFailures
    else .ok .completed

/-- The status and counters of a run, from its recorded outcomes.  The three counts that
no outcome record carries come from their own queries. -/
def deriveTerminalStatusFromAudit (rowsProcessed rowsCoalesceFailed collectorGroupsFailed : Nat)
    (records : List OutcomeRecord) : Except InvariantFault (RunStatus × ExecutionCounters) := do
  let counters ← records.foldlM deriveRecord
    { ExecutionCounters.zero with rowsCoalesceFailed }
  let status ← deriveTerminalRunStatus rowsProcessed counters.tally rowsCoalesceFailed
    collectorGroupsFailed
  pure (status, counters)

end Elspeth.Orchestrator
