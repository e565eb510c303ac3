import Elspeth.Landscape.Session

/-!
# Token outcomes and batch membership

The two guarded writers the scheduler's barrier verbs compose into their own
transactions: outcome rows (`core/landscape/data_flow/outcomes.py`, with the
field rules of `contracts/audit.py`) and batch members
(`core/landscape/execution/batches.py`).

Both tables are append-only in the whole source.  An outcome pair fixes which
discriminator columns must be set and which must not; the table
`terminalPairFieldConstraints` is the source's, and one validator reads it for
every writer.
-/

namespace Elspeth

open Relational Txn

inductive TerminalOutcome where
  | success
  | failure
  | transient
  deriving DecidableEq, Repr

def TerminalOutcome.value : TerminalOutcome → String
  | .success => "success"
  | .failure => "failure"
  | .transient => "transient"

inductive TerminalPath where
  | defaultFlow
  | gateRouted
  | gateDiscarded
  | gateErrorDiscarded
  | onErrorRouted
  | filterDropped
  | coalesced
  | unrouted
  | quarantinedAtSource
  | sinkFallbackToFailsink
  | sinkDiscarded
  | forkParent
  | expandParent
  | batchConsumed
  | buffered
  | abandoned
  deriving DecidableEq, Repr

def TerminalPath.value : TerminalPath → String
  | .defaultFlow => "default_flow"
  | .gateRouted => "gate_routed"
  | .gateDiscarded => "gate_discarded"
  | .gateErrorDiscarded => "gate_error_discarded"
  | .onErrorRouted => "on_error_routed"
  | .filterDropped => "filter_dropped"
  | .coalesced => "coalesced"
  | .unrouted => "unrouted"
  | .quarantinedAtSource => "quarantined_at_source"
  | .sinkFallbackToFailsink => "sink_fallback_to_failsink"
  | .sinkDiscarded => "sink_discarded"
  | .forkParent => "fork_parent"
  | .expandParent => "expand_parent"
  | .batchConsumed => "batch_consumed"
  | .buffered => "buffered"
  | .abandoned => "abandoned"

/-! ## Field rules -/

/-- Which discriminator columns an outcome pair requires, pins and forbids. -/
structure TerminalPairFieldConstraints where
  required : List DiscriminatorField
  exact : List (DiscriminatorField × String)
  forbidden : List DiscriminatorField
  deriving DecidableEq, Repr

def discardSinkName : String := "__discard__"

/-- Every discriminator column except the allowed ones. -/
def forbidExcept (allowed : List DiscriminatorField) : List DiscriminatorField :=
  [.sinkName, .batchId, .errorHash].filter (· ∉ allowed)

/-- A pair that may carry exactly the columns it requires. -/
def requireOnly (fields : List DiscriminatorField) : TerminalPairFieldConstraints :=
  ⟨fields, [], forbidExcept fields⟩

def terminalPairFieldConstraints :
    Option TerminalOutcome → TerminalPath → Option TerminalPairFieldConstraints
  | some .success, .defaultFlow => some (requireOnly [.sinkName])
  | some .success, .gateRouted => some (requireOnly [.sinkName])
  | some .success, .gateDiscarded => some (requireOnly [])
  | some .failure, .gateErrorDiscarded => some (requireOnly [.errorHash])
  | some .failure, .onErrorRouted => some (requireOnly [.sinkName, .errorHash])
  | some .success, .filterDropped => some (requireOnly [])
  | some .success, .coalesced => some ⟨[], [], forbidExcept [.sinkName]⟩
  | some .failure, .unrouted => some (requireOnly [.errorHash])
  | some .failure, .quarantinedAtSource =>
    some ⟨[.errorHash], [], forbidExcept [.sinkName, .errorHash]⟩
  | some .transient, .sinkFallbackToFailsink => some (requireOnly [.sinkName, .errorHash])
  | some .failure, .sinkDiscarded =>
    some ⟨[.sinkName, .errorHash], [(.sinkName, discardSinkName)],
      forbidExcept [.sinkName, .errorHash]⟩
  | some .transient, .forkParent => some (requireOnly [])
  | some .transient, .expandParent => some (requireOnly [])
  | some .transient, .batchConsumed => some (requireOnly [.batchId])
  | none, .buffered => some (requireOnly [.batchId])
  | none, .abandoned => some (requireOnly [])
  | _, _ => none

/-- The discriminator columns of one outcome. -/
structure DiscriminatorValues where
  sinkName : Option String
  batchId : Option String
  errorHash : Option String
  deriving DecidableEq, Repr

def DiscriminatorValues.get (values : DiscriminatorValues) :
    DiscriminatorField → Option String
  | .sinkName => values.sinkName
  | .batchId => values.batchId
  | .errorHash => values.errorHash

/-- The first field rule the values break, in the order they are checked. -/
def TerminalPairFieldConstraints.fault (constraints : TerminalPairFieldConstraints)
    (values : DiscriminatorValues) : Option ValueFault :=
  match constraints.required.find? fun field => (values.get field).isNone with
  | some field => some (.outcomeRequires field)
  | none =>
    match constraints.exact.find? fun entry => values.get entry.1 ≠ some entry.2 with
    | some entry => some (.outcomeExpects entry.1)
    | none =>
      match constraints.forbidden.find? fun field => (values.get field).isSome with
      | some field => some (.outcomeForbids field)
      | none => none

def validateOutcomeFields (outcome : Option TerminalOutcome) (path : TerminalPath)
    (values : DiscriminatorValues) : Transaction Unit :=
  match terminalPairFieldConstraints outcome path with
  | none =>
    raise (.valueError (.unhandledOutcomePair (outcome.map (·.value)) path.value))
  | some constraints =>
    match constraints.fault values with
    | some fault => raise (.valueError fault)
    | none => pure ()

/-- The field rules are checked without a write. -/
theorem validateOutcomeFields_ok {outcome : Option TerminalOutcome} {path : TerminalPath}
    {values : DiscriminatorValues} {conn conn' : Conn} {value : Unit}
    (ran : validateOutcomeFields outcome path values conn = .ok (value, conn')) : conn' = conn := by
  unfold validateOutcomeFields at ran
  rcases ruled : terminalPairFieldConstraints outcome path
    with _ | constraints <;> rw [ruled] at ran
  · cases ran
  · rcases found : constraints.fault values with _ | fault <;> simp only [found] at ran
    · exact (pure_eq_ok.mp ran).2
    · cases ran

/-! ## Outcome writers -/

/-- `f"{label}_{generate_id()[:12]}"`. -/
def shortId (label generated : String) : String :=
  label ++ "_" ++ String.ofList (generated.toList.take 12)

variable (env : CallEnv)

/-- Record one backdated BUFFERED outcome in the caller's transaction. -/
def recordBufferedOutcomeGuarded (runId tokenId batchId : String) (recordedAt : Time)
    (context : Context) : Transaction String := do
  validateOutcomeFields none .buffered ⟨none, some batchId, none⟩
  let generated ← generateId env
  mapError (LandscapeError.wrapRejection "record_buffered_outcome_guarded")
    (outcomesSlot.insert
      [{ outcomeId := shortId "out" generated, runId, tokenId, outcome := none,
         path := TerminalPath.buffered.value, completed := false, recordedAt,
         batchId := some batchId, errorHash := none, context := some context }])
  pure (shortId "out" generated)

/-- One token terminal written atomically with a barrier completion. -/
structure BarrierTerminalOutcomeSpec where
  tokenId : String
  outcome : TerminalOutcome
  path : TerminalPath
  errorHash : Option String
  deriving DecidableEq, Repr

/-- Validate one terminal outcome and build its row. -/
def terminalOutcomeRow (runId : String) (recordedAt : Time)
    (spec : BarrierTerminalOutcomeSpec) : Transaction TokenOutcome := do
  validateOutcomeFields (some spec.outcome) spec.path ⟨none, none, spec.errorHash⟩
  let generated ← generateId env
  pure
    { outcomeId := shortId "out" generated, runId, tokenId := spec.tokenId,
      outcome := some spec.outcome.value, path := spec.path.value, completed := true,
      recordedAt, batchId := none, errorHash := spec.errorHash, context := none }

/-- Insert a barrier's terminal outcomes together. -/
def recordTerminalOutcomesGuarded (runId : String)
    (outcomes : List BarrierTerminalOutcomeSpec) (recordedAt : Time) : Transaction Unit := do
  let rows ← mapEach (terminalOutcomeRow env runId recordedAt) outcomes
  mapError (LandscapeError.wrapRejection "record_terminal_outcomes_guarded")
    (outcomesSlot.insert rows)

/-! ## Batch membership -/

/-- Insert one member of a draft batch of the run. -/
def addBatchMemberGuarded (batchId tokenId : String) (ordinal : Nat) (runId : String) :
    Transaction Unit := do
  let batches ← batchesSlot.select fun batch => batch.batchId = batchId
  match batches with
  | [] => raise (.auditIntegrity (.batchNotFound batchId))
  | batch :: _ => do
    ensure (batch.runId = runId) (.auditIntegrity (.batchOfAnotherRun batchId))
    ensure (batch.status = .draft) (.auditIntegrity (.batchNotDraft batchId batch.status))
    let tokens ← tokensSlot.select fun token =>
      token.tokenId = tokenId && token.runId = batch.runId
    ensure (tokens ≠ []) (.auditIntegrity (.batchTokenOutsideRun batchId tokenId))
    batchMembersSlot.insert [{ batchId, runId := batch.runId, tokenId, ordinal }]

end Elspeth
