import Elspeth.Graph.DependencyOrder
import Elspeth.Graph.Worklist
import Elspeth.Landscape.Schema

/-!
# Retention

`core/retention/purge.py`: which payloads of expired runs may be deleted, and their
deletion.  Payloads are addressed by their content, so one payload may be recorded by
many runs, and two kinds of payload are linked to others: a source load whose output is
snapshot metadata names the snapshot itself inside that metadata, and the output of any
other source load can only be told from snapshot metadata by reading the load's input.

The audit database is read through the columns the queries read.  The `IN` lists of the
queries are cut into chunks to respect a limit on bound variables; a query over all
chunks is one query here.  The grades of the affected runs, which are written after the
last deletion, are left out.
-/

namespace Elspeth.Retention

/-! ## The audit database, as far as it records payloads -/

inductive OperationType where
  | sourceLoad
  | sinkWrite
  | runtimePreflight
  deriving DecidableEq, Repr

structure RowPayload where
  runId : String
  sourceDataRef : Option String
  deriving DecidableEq, Repr

structure OperationPayload where
  operationId : String
  runId : String
  operationType : OperationType
  inputDataRef : Option String
  inputDataHash : Option String
  outputDataRef : Option String
  outputDataHash : Option String
  deriving DecidableEq, Repr

structure StateRun where
  stateId : String
  runId : String
  deriving DecidableEq, Repr

structure CallPayload where
  stateId : Option String
  operationId : Option String
  requestRef : Option String
  responseRef : Option String
  deriving DecidableEq, Repr

structure RoutingPayload where
  stateId : String
  reasonRef : Option String
  deriving DecidableEq, Repr

structure TokenPayload where
  runId : String
  tokenDataRef : Option String
  deriving DecidableEq, Repr

structure AggregationResult where
  batchId : String
  runId : String
  deriving DecidableEq, Repr

structure AggregationResultOutput where
  batchId : String
  tokenDataRef : Option String
  deriving DecidableEq, Repr

structure AuditDb where
  runs : List Run
  rows : List RowPayload
  operations : List OperationPayload
  nodeStates : List StateRun
  calls : List CallPayload
  routingEvents : List RoutingPayload
  tokens : List TokenPayload
  aggregationResults : List AggregationResult
  aggregationResultOutputs : List AggregationResultOutput
  /-- The foreign key of an operation. -/
  operationRuns : ∀ operation ∈ operations, ∃ run ∈ runs, run.runId = operation.runId

/-! ## Recorded references -/

section

variable (db : AuditDb)

/-- The run of a node state, as the joins read it. -/
def AuditDb.stateRuns (stateId : String) : List String :=
  (db.nodeStates.filter fun state => state.stateId = stateId).map StateRun.runId

def AuditDb.operationRunIds (operationId : String) : List String :=
  (db.operations.filter fun operation => operation.operationId = operationId).map
    OperationPayload.runId

def AuditDb.batchRuns (batchId : String) : List String :=
  (db.aggregationResults.filter fun result => result.batchId = batchId).map
    AggregationResult.runId

/-- A payload column under every run of a row. -/
def recorded (runIds : List String) (ref : Option String) : List (String × String) :=
  ref.toList.flatMap fun ref => runIds.map fun runId => (runId, ref)

/-- The runs of a call, which belongs to a node state or to an operation. -/
def AuditDb.callRuns (call : CallPayload) : List String :=
  call.stateId.toList.flatMap db.stateRuns ++ call.operationId.toList.flatMap db.operationRunIds

/-- Every payload reference with the run that records it, column by column. -/
def AuditDb.references : List (String × String) :=
  db.rows.flatMap (fun row => recorded [row.runId] row.sourceDataRef) ++
    db.operations.flatMap (fun operation => recorded [operation.runId] operation.inputDataRef) ++
    db.operations.flatMap (fun operation => recorded [operation.runId] operation.outputDataRef) ++
    db.calls.flatMap (fun call => recorded (db.callRuns call) call.requestRef) ++
    db.calls.flatMap (fun call => recorded (db.callRuns call) call.responseRef) ++
    db.routingEvents.flatMap (fun event => recorded (db.stateRuns event.stateId) event.reasonRef) ++
    db.tokens.flatMap (fun token => recorded [token.runId] token.tokenDataRef) ++
    db.aggregationResultOutputs.flatMap fun output =>
      recorded (db.batchRuns output.batchId) output.tokenDataRef

/-- The references recorded by runs that meet a condition. -/
def AuditDb.refUnion (condition : Run → Bool) : List String :=
  (db.references.filter fun reference =>
    db.runs.any fun run => run.runId = reference.1 && condition run).map Prod.snd

end

/-- The run is over and its retention period has passed. -/
def expired (cutoff : Time) (run : Run) : Bool :=
  run.status ∈ [.completed, .completedWithFailures, .failed, .empty] &&
    run.completedAt.any fun completedAt => completedAt < cutoff

def active (cutoff : Time) (run : Run) : Bool :=
  (run.completedAt.any fun completedAt => cutoff ≤ completedAt) || run.completedAt.isNone ||
    run.status ∈ [.running, .interrupted]

/-! ## The payload store -/

/-- What is read off the bytes of a payload. -/
class PayloadCodec (Content : Type) where
  size : Content → Nat
  /-- `canonical_json_loads`.  A number that is no integer is read as `null`: none of
  the checks below admits either. -/
  loads : Content → Option Json
  /-- `stable_hash` of the loaded value, if that has a canonical text. -/
  stableHash : Content → Option String

/-- The stored payloads, by content hash. -/
abbrev PayloadStore (Content : Type) := String → Option Content

def PayloadStore.delete {Content : Type} (store : PayloadStore Content) (ref : String) :
    PayloadStore Content :=
  fun other => if other = ref then none else store other

/-- Why a purge stops. -/
inductive PurgeFault where
  | runLifecycle (runId : String)
  | outputBindingsInconsistent
  | declaredSnapshotExceedsBound
  | outputMalformed
  | outputNotObject
  | outputNotCanonical
  | outputDiffersFromHash
  | declaredSnapshotWithoutChild
  | snapshotMetadataMalformed
  | inputUnavailable
  | inputBindingsInconsistent
  | inputMissing
  | inputExceedsBound
  | inputMalformed
  | inputNotObject
  | inputNotCanonical
  | inputDiffersFromHash
  | declarationNotBoolean
  | metadataWithoutChild
  | cyclicDependencies
  deriving DecidableEq, Repr

/-- The faults that are audit-integrity errors; the last two refuse the caller's list. -/
def PurgeFault.integrity : PurgeFault → Bool
  | .metadataWithoutChild | .cyclicDependencies => false
  | _ => true

section Dependencies

variable {Content : Type} [PayloadCodec Content]

open PayloadCodec

/-- The bytes of a payload, unless there are more than 1024 of them. -/
def bounded (content : Content) : Option Content :=
  if size content ≤ 1024 then some content else none

/-! ## Dependencies of source outputs -/

/-- Whether the input of a source load says that it takes a snapshot. -/
def sourceInputDeclaresSnapshot (store : PayloadStore Content)
    (inputRef inputHash : Option String) :
    Except PurgeFault Bool :=
  match inputRef with
  | none => if inputHash = none then .ok false else .error .inputUnavailable
  | some ref =>
    if inputHash ≠ some ref then .error .inputBindingsInconsistent
    else
      match store ref with
      | none => .error .inputMissing
      | some stored =>
        match bounded stored with
        | none => .error .inputExceedsBound
        | some content =>
          match loads content with
          | none => .error .inputMalformed
          | some (.object fields) =>
            match stableHash content with
            | none => .error .inputNotCanonical
            | some parsedHash =>
              if inputHash ≠ some parsedHash then .error .inputDiffersFromHash
              else
                match Json.field "snapshot_for_resume" fields with
                | none => .ok false
                | some (.flag declared) => .ok declared
                | some _ => .error .declarationNotBoolean
          | some _ => .error .inputNotObject

/-- What a source output turns out to be. -/
inductive SourceOutput where
  /-- A previous partial purge already removed it. -/
  | absent
  /-- No snapshot metadata, which its input, if it has one, shows. -/
  | generic (input : Option String)
  | snapshot (child : String)
  deriving DecidableEq, Repr

/-- What the bytes of a source output say. -/
inductive OutputReading where
  /-- No snapshot is named, which is a fault if the input declares one. -/
  | generic (fault : PurgeFault)
  | snapshot (child : String)
  deriving DecidableEq, Repr

/-- The snapshot that well-formed metadata names. -/
def snapshotChild (fields : List (String × Json)) : Option String := do
  guard (∀ key ∈ fields.map Prod.fst, key ∈ ["source_snapshot_ref", "source_snapshot_version"])
  guard (Json.field "source_snapshot_version" fields = some (.number 1))
  let child ← (← Json.field "source_snapshot_ref" fields).asText
  guard (child.length = 64 ∧ child.toList.all isLowerHex)
  pure child

def readOutput (stored : Content) (outputHash : Option String) : Except PurgeFault OutputReading :=
  match bounded stored with
  -- The generic operation API permits larger output mappings.
  | none => .ok (.generic .declaredSnapshotExceedsBound)
  | some content =>
    match loads content with
    | none => .error .outputMalformed
    | some (.object fields) =>
      match stableHash content with
      | none => .error .outputNotCanonical
      | some metadataHash =>
        if outputHash ≠ some metadataHash then .error .outputDiffersFromHash
        else if Json.field "source_snapshot_ref" fields = none then
          .ok (.generic .declaredSnapshotWithoutChild)
        else
          match snapshotChild fields with
          | some child => .ok (.snapshot child)
          | none => .error .snapshotMetadataMalformed
    | some _ => .error .outputNotObject

/-- Admit one source output. -/
def admitOutput (store : PayloadStore Content) (operation : OperationPayload)
    (metadataRef : String) : Except PurgeFault SourceOutput :=
  if operation.outputDataHash ≠ some metadataRef then .error .outputBindingsInconsistent
  else
    match store metadataRef with
    | none => .ok .absent
    | some stored =>
      match readOutput stored operation.outputDataHash with
      | .error fault => .error fault
      | .ok (.snapshot child) => .ok (.snapshot child)
      | .ok (.generic fault) =>
        match sourceInputDeclaresSnapshot store operation.inputDataRef
            operation.inputDataHash with
        | .error fault => .error fault
        | .ok true => .error fault
        | .ok false => .ok (.generic operation.inputDataRef)

/-- Links from a source output to the payloads it depends on. -/
structure SourceOutputDependencies where
  snapshotChildren : List (String × String)
  classificationInputs : List (String × String)
  deriving DecidableEq, Repr

/-- The source loads with an output among the references, or, if asked for, an input. -/
def AuditDb.sourceBindings (db : AuditDb) (refs : List String) (includeInputDependents : Bool) :
    List (OperationPayload × String) :=
  db.operations.filterMap fun operation =>
    match operation.outputDataRef with
    | none => none
    | some metadataRef =>
      if operation.operationType = .sourceLoad ∧ (metadataRef ∈ refs ∨
          includeInputDependents = true ∧ operation.inputDataRef.any (· ∈ refs) = true) then
        some (operation, metadataRef)
      else none

def snapshotLink (refs : List String) : String × SourceOutput → Option (String × String)
  | (metadataRef, .snapshot child) => if metadataRef ∈ refs then some (metadataRef, child) else none
  | _ => none

def inputLink : String × SourceOutput → Option (String × String)
  | (outputRef, .generic (some input)) => some (outputRef, input)
  | _ => none

/-- Admit source outputs and the payloads needed to purge them safely. -/
def sourceOutputDependencies (db : AuditDb) (store : PayloadStore Content) (refs : List String)
    (includeInputDependents : Bool) : Except PurgeFault SourceOutputDependencies := do
  let admitted ← (db.sourceBindings refs includeInputDependents).mapM fun binding => do
    let output ← admitOutput store binding.1 binding.2
    pure (binding.2, output)
  pure ⟨admitted.filterMap (snapshotLink refs), admitted.filterMap inputLink⟩

/-! ## Discovery -/

/-- Only a running run lacks its completion time, and a failed or interrupted one may. -/
def lifecycleValid (run : Run) : Bool :=
  match run.status with
  | .running => run.completedAt.isNone
  | .completed | .completedWithFailures | .empty => run.completedAt.isSome
  | .failed | .interrupted => true

def validateRunLifecycleRows (db : AuditDb) : Except PurgeFault Unit :=
  match db.runs.find? fun run => !lifecycleValid run with
  | some run => .error (.runLifecycle run.runId)
  | none => .ok ()

/-- The targets of a reference's links. -/
def linked (links : List (String × String)) (ref : String) : List String :=
  (links.filter fun link => link.1 = ref).map Prod.snd

/-- Everything that some references need, over any number of links. -/
def protect (links : List (String × String)) (refs : List String) : List String :=
  Worklist.close (linked links) (refs.length + links.length) refs refs

/-- The payloads that may be deleted. -/
def findExpiredPayloadRefs (db : AuditDb) (store : PayloadStore Content) (cutoff : Time) :
    Except PurgeFault (List String) := do
  validateRunLifecycleRows db
  let expiredRefs := db.refUnion (expired cutoff)
  let activeRefs := db.refUnion (active cutoff)
  let expiredDependencies ← sourceOutputDependencies db store expiredRefs false
  let activeDependencies ← sourceOutputDependencies db store activeRefs false
  let expiredChildren := expiredDependencies.snapshotChildren
  let links := expiredDependencies.classificationInputs ++ expiredChildren ++
    activeDependencies.classificationInputs ++ activeDependencies.snapshotChildren
  let retained := protect links
    (activeRefs ++ activeDependencies.snapshotChildren.map Prod.snd)
  -- Metadata must stay reachable while its child is retained.
  let safeToDelete := (expiredRefs ++ expiredChildren.map Prod.snd).filter fun ref =>
    ref ∉ retained ∧ ∀ link ∈ expiredChildren, link.1 = ref → link.2 ∉ retained
  pure safeToDelete.dedup.mergeSort

/-! ## Deletion -/

/-- The order a purge deletes in, and what it keeps. -/
structure PurgePlan where
  order : List String
  dependsOn : String → List String
  retainedInputs : List String

/-- What must be gone before a reference may go: the child of metadata, and the outputs
that an input classifies. -/
def dependsOn (dependencies : SourceOutputDependencies) (refs : List String) (ref : String) :
    List String :=
  (linked dependencies.snapshotChildren ref).filter (fun child => child ∈ refs ∧ child ≠ ref) ++
    ((dependencies.classificationInputs.filter fun link => link.2 = ref).map Prod.fst).filter
      fun output => output ∈ refs ∧ output ≠ ref

/-- Inputs that classify an output which is not to be deleted. -/
def retainedInputs (dependencies : SourceOutputDependencies) (refs : List String) : List String :=
  (dependencies.classificationInputs.filter fun link =>
    link.2 ∈ refs ∧ link.1 ≠ link.2 ∧ link.1 ∉ refs).map Prod.snd

def planPurge (sorter : DependencyOrder.Sorter String) (db : AuditDb)
    (store : PayloadStore Content) (refs : List String) : Except PurgeFault PurgePlan := do
  let dependencies ← sourceOutputDependencies db store refs true
  let missing := (dependencies.snapshotChildren.map Prod.snd).filter fun child =>
    child ∉ refs ∧ (store child).isSome
  if missing ≠ [] then .error .metadataWithoutChild
  else
    match sorter.staticOrder refs.dedup (dependsOn dependencies refs) with
    | none => .error .cyclicDependencies
    | some order =>
      .ok
        { order := order.flatMap fun ref => List.replicate (refs.count ref) ref
          dependsOn := dependsOn dependencies refs
          retainedInputs := retainedInputs dependencies refs }

/-- Where a deletion loop stands. -/
structure PurgeState (Content : Type) where
  store : PayloadStore Content
  deletedCount : Nat
  skippedCount : Nat
  failedRefs : List String
  absentRefs : List String

/-- Delete one payload, unless something it is needed for is kept.  `fault` says that the
file system refuses the deletion. -/
def purgeStep (plan : PurgePlan) (state : PurgeState Content) (entry : String × Bool) :
    PurgeState Content :=
  let (ref, fault) := entry
  if ref ∈ plan.retainedInputs ∨ (∃ dependency ∈ plan.dependsOn ref, dependency ∈ state.failedRefs)
      ∨ fault = true then
    { state with failedRefs := state.failedRefs ++ [ref] }
  else
    { state with
      store := state.store.delete ref
      deletedCount := state.deletedCount + (if (state.store ref).isSome then 1 else 0)
      skippedCount := state.skippedCount + (if (state.store ref).isSome then 0 else 1)
      absentRefs := state.absentRefs ++ [ref] }

/-- Purge payloads.  The faults are those of the successive deletions; the loop is cut
short when they end before the plan does. -/
def purgePayloads (sorter : DependencyOrder.Sorter String) (faults : List Bool) (db : AuditDb)
    (store : PayloadStore Content) (refs : List String) :
    Except PurgeFault (PurgeState Content) := do
  let plan ← planPurge sorter db store refs
  pure ((plan.order.zip faults).foldl (purgeStep plan) ⟨store, 0, 0, [], []⟩)

end Dependencies

end Elspeth.Retention
