import Elspeth.Retention.Purge
import Elspeth.Semantics.Traced

/-!
# What a purge may delete, and how it is retried

Which references are discovered is stated over two relations between payloads, read off
the database and the store: `Child` (metadata and the snapshot it names) and `Needs` (an
output and the input that classifies it).  What a retained run records, and everything
such a record leads to, is `Protected`; discovery returns the expired references that
are not protected and whose snapshot, if they name one, is not.

A purge deletes a snapshot before its metadata and an output before its input.  So what
is left when it stops can be discovered again, whatever failed on the way.

Discovery looks one link ahead only: metadata whose snapshot is itself kept back, because
*its* snapshot is protected, stays on the list, and the purge of the list is refused.
-/

namespace Elspeth.Retention

open Relational Semantics List

variable {Content : Type} [PayloadCodec Content]

/-! ## Dependencies as relations -/

section

variable (db : AuditDb)

/-- The operation is a source load with this output. -/
def Loads (operation : OperationPayload) (outputRef : String) : Prop :=
  operation ∈ db.operations ∧ operation.operationType = .sourceLoad ∧
    operation.outputDataRef = some outputRef

variable (store : PayloadStore Content)

/-- Snapshot metadata and the snapshot it names. -/
def Child (metadataRef child : String) : Prop :=
  ∃ operation, Loads db operation metadataRef ∧
    admitOutput store operation metadataRef = .ok (.snapshot child)

/-- A source output and the input that shows it to be no snapshot metadata. -/
def Needs (outputRef input : String) : Prop :=
  ∃ operation, Loads db operation outputRef ∧
    admitOutput store operation outputRef = .ok (.generic (some input))

def Link (source target : String) : Prop :=
  Child db store source target ∨ Needs db store source target

/-- A retained run records the reference, or something that leads to it. -/
def Protected (cutoff : Time) (ref : String) : Prop :=
  ∃ root ∈ db.refUnion (active cutoff), Relation.ReflTransGen (Link db store) root ref

/-- Every source output of the database is admitted. -/
def Admitted : Prop :=
  ∀ operation outputRef, Loads db operation outputRef →
    ∃ output, admitOutput store operation outputRef = .ok output

end

section

variable {db : AuditDb} {refs processed : List String} {inputs : Bool}
  {operation : OperationPayload} {outputRef metadataRef ref source target : String}
  {store before store' after : PayloadStore Content} {output : SourceOutput}
  {dependencies : SourceOutputDependencies} {cutoff later : Time} {links : List (String × String)}
  {plan : PurgePlan} {state : PurgeState Content} {sorter : DependencyOrder.Sorter String}

omit [PayloadCodec Content] in
theorem mem_sourceBindings :
    (operation, outputRef) ∈ db.sourceBindings refs inputs ↔
      Loads db operation outputRef ∧ (outputRef ∈ refs ∨
        inputs = true ∧ ∃ input, operation.inputDataRef = some input ∧ input ∈ refs) := by
  simp only [AuditDb.sourceBindings, mem_filterMap, Loads]
  constructor
  · rintro ⟨found, stored, chosen⟩
    split at chosen
    · cases chosen
    next metadataRef named =>
      split at chosen
      next admitted =>
        cases chosen
        refine ⟨⟨stored, admitted.1, named⟩, ?_⟩
        rcases admitted.2 with listed | ⟨asked, input⟩
        · exact .inl listed
        · rcases isInput : operation.inputDataRef with _ | ref <;> rw [isInput] at input
          · cases input
          · exact .inr ⟨asked, ref, rfl, of_decide_eq_true input⟩
      · cases chosen
  · rintro ⟨⟨stored, kind, named⟩, relevant⟩
    refine ⟨operation, stored, ?_⟩
    rw [named]
    refine if_pos ⟨kind, ?_⟩
    rcases relevant with listed | ⟨asked, input, isInput, listed⟩
    · exact .inl listed
    · exact .inr ⟨asked, by simp [isInput, listed]⟩

/-- How an output comes to be admitted. -/
inductive Admits (store : PayloadStore Content) (operation : OperationPayload)
    (outputRef : String) : SourceOutput → Prop
  | absent (gone : store outputRef = none) : Admits store operation outputRef .absent
  | snapshot {stored : Content} {child : String} (present : store outputRef = some stored)
      (read : readOutput stored (some outputRef) = .ok (.snapshot child)) :
      Admits store operation outputRef (.snapshot child)
  | generic {stored : Content} {fault : PurgeFault} (present : store outputRef = some stored)
      (read : readOutput stored (some outputRef) = .ok (.generic fault))
      (undeclared : sourceInputDeclaresSnapshot store operation.inputDataRef
        operation.inputDataHash = .ok false) :
      Admits store operation outputRef (.generic operation.inputDataRef)

theorem admitOutput_eq_ok :
    admitOutput store operation outputRef = .ok output ↔
      operation.outputDataHash = some outputRef ∧ Admits store operation outputRef output := by
  unfold admitOutput
  constructor
  · intro admitted
    split at admitted
    · cases admitted
    next hashed =>
      have same := not_not.mp hashed
      rw [same] at admitted
      refine ⟨same, ?_⟩
      split at admitted
      next gone =>
        cases admitted
        exact .absent gone
      next stored present =>
        split at admitted
        · cases admitted
        next child read =>
          cases admitted
          exact .snapshot present read
        next fault read =>
          split at admitted
          · cases admitted
          · cases admitted
          next undeclared =>
            cases admitted
            exact .generic present read undeclared
  · rintro ⟨hashed, admits⟩
    rw [if_neg (not_not.mpr hashed)]
    cases admits with
    | absent gone => rw [gone]
    | snapshot present read => simp only [present, hashed, read]
    | generic present read undeclared => simp only [present, hashed, read, undeclared]

/-- Only the operation's own input ever classifies its output. -/
theorem input_of_generic {input : Option String}
    (admitted : admitOutput store operation outputRef = .ok (.generic input)) :
    operation.inputDataRef = input := by
  obtain ⟨-, admits⟩ := admitOutput_eq_ok.mp admitted
  cases admits
  rfl

theorem dependencies_ok (admitted : ∀ binding ∈ db.sourceBindings refs inputs,
      ∃ output, admitOutput store binding.1 binding.2 = .ok output) :
    ∃ dependencies, sourceOutputDependencies db store refs inputs = .ok dependencies := by
  unfold sourceOutputDependencies
  generalize db.sourceBindings refs inputs = bindings at admitted
  suffices collected : ∃ results, (bindings.mapM fun binding => do
      let output ← admitOutput store binding.1 binding.2
      pure (binding.2, output)) = .ok results by
    obtain ⟨results, collected⟩ := collected
    exact ⟨_, by rw [collected]; rfl⟩
  induction bindings with
  | nil => exact ⟨[], rfl⟩
  | cons binding bindings ih =>
    obtain ⟨output, first⟩ := admitted binding mem_cons_self
    obtain ⟨results, rest⟩ := ih fun other listed => admitted other (mem_cons_of_mem _ listed)
    refine ⟨(binding.2, output) :: results, ?_⟩
    rw [mapM_eq_ok] at rest ⊢
    exact .cons (by rw [first]; rfl) rest

/-- What a successful read of dependencies says. -/
structure Reads (db : AuditDb) (store : PayloadStore Content) (refs : List String) (inputs : Bool)
    (dependencies : SourceOutputDependencies) : Prop where
  admitted : ∀ binding ∈ db.sourceBindings refs inputs,
    ∃ output, admitOutput store binding.1 binding.2 = .ok output
  children : ∀ metadataRef child, (metadataRef, child) ∈ dependencies.snapshotChildren ↔
    metadataRef ∈ refs ∧ Child db store metadataRef child
  inputs : ∀ outputRef input, (outputRef, input) ∈ dependencies.classificationInputs ↔
    (outputRef ∈ refs ∨ inputs = true ∧ input ∈ refs) ∧ Needs db store outputRef input

theorem reads_of_ok (ran : sourceOutputDependencies db store refs inputs = .ok dependencies) :
    Reads db store refs inputs dependencies := by
  obtain ⟨results, collected, same⟩ := bind_eq_ok.mp ran
  cases same
  have sides := mapM_eq_ok.mp collected
  -- An entry of the result is an admitted binding, and the other way round.
  have entry {outputRef : String} {output : SourceOutput} :
      (outputRef, output) ∈ results ↔ ∃ operation,
        (operation, outputRef) ∈ db.sourceBindings refs inputs ∧
          admitOutput store operation outputRef = .ok output := by
    constructor
    · intro listed
      obtain ⟨⟨operation, ref⟩, bound, ran⟩ := mem_of_forall₂_right sides listed
      obtain ⟨found, admitted, same⟩ := bind_eq_ok.mp ran
      cases same
      exact ⟨operation, bound, admitted⟩
    · rintro ⟨operation, bound, admitted⟩
      obtain ⟨result, listed, ran⟩ := mem_of_forall₂_left sides bound
      rw [admitted] at ran
      cases ran
      exact listed
  refine ⟨?_, ?_, ?_⟩
  · rintro ⟨operation, outputRef⟩ bound
    obtain ⟨_, -, ran⟩ := mem_of_forall₂_left sides bound
    exact (bind_eq_ok.mp ran).imp fun _ found => found.1
  · intro metadataRef child
    constructor
    · intro listed
      obtain ⟨⟨ref, output⟩, isResult, chosen⟩ := mem_filterMap.mp listed
      cases output with
      | snapshot found =>
        obtain ⟨isRef, same⟩ := Option.ite_none_right_eq_some.mp chosen
        obtain ⟨rfl, rfl⟩ := Prod.mk.inj (Option.some.inj same)
        obtain ⟨operation, bound, admitted⟩ := entry.mp isResult
        exact ⟨isRef, operation, (mem_sourceBindings.mp bound).1, admitted⟩
      | absent | generic input => cases chosen
    · rintro ⟨isRef, operation, loads, admitted⟩
      refine mem_filterMap.mpr ⟨(metadataRef, .snapshot child), ?_, if_pos isRef⟩
      exact entry.mpr ⟨operation, mem_sourceBindings.mpr ⟨loads, .inl isRef⟩, admitted⟩
  · intro outputRef input
    constructor
    · intro listed
      obtain ⟨⟨ref, output⟩, isResult, chosen⟩ := mem_filterMap.mp listed
      cases output with
      | generic found =>
        cases found with
        | none => cases chosen
        | some found =>
          obtain ⟨rfl, rfl⟩ := Prod.mk.inj (Option.some.inj chosen)
          obtain ⟨operation, bound, admitted⟩ := entry.mp isResult
          obtain ⟨loads, relevant⟩ := mem_sourceBindings.mp bound
          refine ⟨?_, operation, loads, admitted⟩
          rcases relevant with isRef | ⟨asked, own, isInput, isRef⟩
          · exact .inl isRef
          · rw [input_of_generic admitted] at isInput
            cases isInput
            exact .inr ⟨asked, isRef⟩
      | absent | snapshot child => cases chosen
    · rintro ⟨relevant, operation, loads, admitted⟩
      refine mem_filterMap.mpr ⟨(outputRef, .generic (some input)), ?_, rfl⟩
      refine entry.mpr ⟨operation, mem_sourceBindings.mpr ⟨loads, ?_⟩, admitted⟩
      rcases relevant with isRef | ⟨asked, isRef⟩
      · exact .inl isRef
      · exact .inr ⟨asked, input, input_of_generic admitted, isRef⟩

/-- Metadata names one snapshot. -/
theorem Child.unique {left right : String} (first : Child db store metadataRef left)
    (second : Child db store metadataRef right) : left = right := by
  obtain ⟨_, -, firstAdmitted⟩ := first
  obtain ⟨_, -, secondAdmitted⟩ := second
  obtain ⟨-, ⟨⟩⟩ := admitOutput_eq_ok.mp firstAdmitted
  obtain ⟨-, ⟨⟩⟩ := admitOutput_eq_ok.mp secondAdmitted
  next _ leftPresent leftRead _ rightPresent rightRead =>
    obtain rfl := Option.some.inj (leftPresent.symm.trans rightPresent)
    exact OutputReading.snapshot.inj (Except.ok.inj (leftRead.symm.trans rightRead))

theorem Child.stored {child : String} (isChild : Child db store metadataRef child) :
    (store metadataRef).isSome := by
  obtain ⟨_, -, admitted⟩ := isChild
  obtain ⟨-, ⟨⟩⟩ := admitOutput_eq_ok.mp admitted
  next present _ => rw [present]; rfl

/-! ## Discovery -/

omit [PayloadCodec Content] in
theorem mem_refUnion {condition : Run → Bool} :
    ref ∈ db.refUnion condition ↔
      ∃ run ∈ db.runs, condition run = true ∧ (run.runId, ref) ∈ db.references := by
  simp only [AuditDb.refUnion, mem_map, mem_filter, any_eq_true, Bool.and_eq_true,
    decide_eq_true_eq]
  constructor
  · rintro ⟨⟨runId, found⟩, ⟨listed, run, stored, rfl, holds⟩, rfl⟩
    exact ⟨run, stored, holds, listed⟩
  · rintro ⟨run, stored, holds, listed⟩
    exact ⟨(run.runId, ref), ⟨listed, run, stored, rfl, holds⟩, rfl⟩

/-- Every run is expired or retained. -/
theorem active_iff_not_expired (cutoff : Time) (run : Run) :
    active cutoff run = true ↔ expired cutoff run = false := by
  unfold active expired
  cases run.completedAt with
  | none => simp
  | some completedAt =>
    cases run.status <;> simp

/-- A later cutoff expires more. -/
theorem expired_mono (le : cutoff ≤ later) {run : Run} (past : expired cutoff run = true) :
    expired later run = true := by
  unfold expired at past ⊢
  rw [Bool.and_eq_true] at past ⊢
  refine past.imp_right fun before => ?_
  cases completed : run.completedAt <;> rw [completed] at before
  · cases before
  · exact decide_eq_true (lt_of_lt_of_le (of_decide_eq_true before) le)

theorem refUnion_expired_mono (le : cutoff ≤ later) (listed : ref ∈ db.refUnion (expired cutoff)) :
    ref ∈ db.refUnion (expired later) := by
  obtain ⟨run, stored, past, recorded⟩ := mem_refUnion.mp listed
  exact mem_refUnion.mpr ⟨run, stored, expired_mono le past, recorded⟩

theorem refUnion_active_mono (le : cutoff ≤ later) (listed : ref ∈ db.refUnion (active later)) :
    ref ∈ db.refUnion (active cutoff) := by
  obtain ⟨run, stored, kept, recorded⟩ := mem_refUnion.mp listed
  refine mem_refUnion.mpr ⟨run, stored, (active_iff_not_expired cutoff run).mpr ?_, recorded⟩
  cases past : expired cutoff run with
  | false => rfl
  | true =>
    rw [active_iff_not_expired, expired_mono le past] at kept
    cases kept

/-- A source output is recorded by the run of its load, expired or retained. -/
theorem Loads.isRecorded (loads : Loads db operation outputRef) (cutoff : Time) :
    outputRef ∈ db.refUnion (expired cutoff) ∨ outputRef ∈ db.refUnion (active cutoff) := by
  obtain ⟨stored, -, named⟩ := loads
  obtain ⟨run, isRun, same⟩ := db.operationRuns operation stored
  have listed : (run.runId, outputRef) ∈ db.references := by
    have column : (run.runId, outputRef) ∈ db.operations.flatMap
        fun operation => recorded [operation.runId] operation.outputDataRef :=
      mem_flatMap.mpr ⟨operation, stored, by simp [recorded, named, same]⟩
    simp only [AuditDb.references, mem_append]
    tauto
  cases past : expired cutoff run with
  | true => exact .inl (mem_refUnion.mpr ⟨run, isRun, past, listed⟩)
  | false =>
    exact .inr (mem_refUnion.mpr
      ⟨run, isRun, (active_iff_not_expired cutoff run).mpr past, listed⟩)

omit [PayloadCodec Content] in
theorem mem_linked : target ∈ linked links source ↔ (source, target) ∈ links := by
  simp [linked]

omit [PayloadCodec Content] in
theorem mem_protect : ref ∈ protect links refs ↔ Worklist.Reaches (linked links) refs ref := by
  have inside : ∀ source, ∀ target ∈ linked links source, target ∈ links.map Prod.snd := by
    intro source target edge
    exact mem_map.mpr ⟨(source, target), mem_linked.mp edge, rfl⟩
  exact Worklist.mem_close inside (by rw [length_map])

theorem Link.isRecorded (link : Link db store source target) (cutoff : Time) :
    source ∈ db.refUnion (expired cutoff) ∨ source ∈ db.refUnion (active cutoff) := by
  rcases link with ⟨_, loads, -⟩ | ⟨_, loads, -⟩ <;> exact loads.isRecorded cutoff

/-- Metadata that is not protected is recorded by an expired run. -/
theorem Child.lapsed {child : String} (isChild : Child db store metadataRef child)
    (free : ¬ Protected db store cutoff metadataRef) : metadataRef ∈ db.refUnion (expired cutoff) :=
  (Link.isRecorded (.inl isChild) cutoff).resolve_right fun listed =>
    free ⟨metadataRef, listed, .refl⟩

theorem Protected.step (kept : Protected db store cutoff source)
    (link : Link db store source target) : Protected db store cutoff target := by
  obtain ⟨root, isRoot, path⟩ := kept
  exact ⟨root, isRoot, path.tail link⟩

/-- The reference is one an expired run records, or the snapshot of one. -/
def Lapsed (db : AuditDb) (store : PayloadStore Content) (cutoff : Time) (ref : String) : Prop :=
  ref ∈ db.refUnion (expired cutoff) ∨
    ∃ metadataRef ∈ db.refUnion (expired cutoff), Child db store metadataRef ref

/-- What discovery returns. -/
structure Finds (db : AuditDb) (store : PayloadStore Content) (cutoff : Time)
    (refs : List String) : Prop where
  admitted : Admitted db store
  lifecycle : validateRunLifecycleRows db = .ok ()
  mem : ∀ ref, ref ∈ refs ↔ Lapsed db store cutoff ref ∧ ¬ Protected db store cutoff ref ∧
    ∀ child, Child db store ref child → ¬ Protected db store cutoff child
  once : refs.Nodup

theorem finds_of_ok (found : findExpiredPayloadRefs db store cutoff = .ok refs) :
    Finds db store cutoff refs := by
  obtain ⟨_, lifecycle, found⟩ := bind_eq_ok.mp found
  obtain ⟨lapsed, readExpired, found⟩ := bind_eq_ok.mp found
  obtain ⟨kept, readActive, found⟩ := bind_eq_ok.mp found
  cases found
  have expiredReads := reads_of_ok readExpired
  have activeReads := reads_of_ok readActive
  have admitted : Admitted db store := by
    intro operation outputRef loads
    rcases loads.isRecorded cutoff with listed | listed
    · exact expiredReads.admitted (operation, outputRef)
        (mem_sourceBindings.mpr ⟨loads, .inl listed⟩)
    · exact activeReads.admitted (operation, outputRef)
        (mem_sourceBindings.mpr ⟨loads, .inl listed⟩)
  -- Every link of the database is among the collected ones: its source is recorded.
  have links {source target : String} : (source, target) ∈ lapsed.classificationInputs ++
      lapsed.snapshotChildren ++ kept.classificationInputs ++ kept.snapshotChildren ↔
        Link db store source target := by
    simp only [mem_append, expiredReads.children, expiredReads.inputs, activeReads.children,
      activeReads.inputs, Bool.false_eq_true, false_and, or_false]
    rw [or_assoc, ← and_or_left, ← and_or_left, ← or_and_right]
    exact (and_iff_right_of_imp fun link => Link.isRecorded link.symm cutoff).trans or_comm
  have retained {ref : String} : ref ∈ protect (lapsed.classificationInputs ++
      lapsed.snapshotChildren ++ kept.classificationInputs ++ kept.snapshotChildren)
      (db.refUnion (active cutoff) ++ kept.snapshotChildren.map Prod.snd) ↔
        Protected db store cutoff ref := by
    rw [mem_protect]
    constructor
    · refine Worklist.Reaches.least ?_ ?_
      · intro root isRoot
        rcases mem_append.mp isRoot with recorded | child
        · exact ⟨root, recorded, .refl⟩
        · obtain ⟨⟨metadataRef, snapshot⟩, listed, rfl⟩ := mem_map.mp child
          obtain ⟨recorded, isChild⟩ := (activeReads.children _ _).mp listed
          exact ⟨metadataRef, recorded, .single (.inl isChild)⟩
      · intro source reached target edge
        exact reached.step (links.mp (mem_linked.mp edge))
    · rintro ⟨root, isRoot, path⟩
      refine ⟨root, mem_append_left _ isRoot, Relation.ReflTransGen.mono ?_ _ _ path⟩
      intro source target link
      exact mem_linked.mpr (links.mpr link)
  refine ⟨admitted, lifecycle, ?_, ?_⟩
  · intro ref
    rw [mem_mergeSort, mem_dedup, mem_filter, mem_append, mem_map,
      decide_eq_true_eq]
    simp only [retained, expiredReads.children, Prod.forall, Prod.exists, exists_eq_right]
    refine and_congr Iff.rfl (and_congr_right fun free => ⟨?_, ?_⟩)
    · intro unlinked child isChild
      exact unlinked ref child ⟨isChild.lapsed free, isChild⟩ rfl
    · rintro unlinked metadataRef child ⟨-, isChild⟩ rfl
      exact unlinked child isChild
  · exact (mergeSort_perm _ _).nodup_iff.mpr (nodup_dedup _)

/-- The dependencies are read without an error when every output is admitted. -/
theorem reads_of_admitted (admitted : Admitted db store) (refs : List String) (inputs : Bool) :
    ∃ dependencies, sourceOutputDependencies db store refs inputs = .ok dependencies := by
  refine dependencies_ok ?_
  rintro ⟨operation, outputRef⟩ bound
  exact admitted operation outputRef (mem_sourceBindings.mp bound).1

/-- Discovery fails only on the database's own inconsistencies. -/
theorem find_isOk (admitted : Admitted db store)
    (lifecycle : validateRunLifecycleRows db = .ok ()) (cutoff : Time) :
    ∃ refs, findExpiredPayloadRefs db store cutoff = .ok refs := by
  obtain ⟨lapsed, readExpired⟩ := reads_of_admitted admitted (db.refUnion (expired cutoff)) false
  obtain ⟨kept, readActive⟩ := reads_of_admitted admitted (db.refUnion (active cutoff)) false
  unfold findExpiredPayloadRefs
  rw [lifecycle]
  simp only [readExpired, readActive]
  exact ⟨_, rfl⟩

/-! ## Deletion -/

/-- What holds while a plan is carried out: only references that it lists are deleted,
and those only after everything they depend on. -/
structure Deletes (plan : PurgePlan) (before : PayloadStore Content) (processed : List String)
    (state : PurgeState Content) : Prop where
  settled : ∀ ref ∈ processed, ref ∈ state.failedRefs ∨ ref ∈ state.absentRefs
  listed : ∀ ref ∈ state.absentRefs, ref ∈ processed
  absent : ∀ ref ∈ state.absentRefs, state.store ref = none
  kept : ∀ ref ∉ state.absentRefs, state.store ref = before ref
  free : ∀ ref ∈ state.absentRefs, ref ∉ plan.retainedInputs
  ordered : ∀ ref ∈ state.absentRefs, ∀ dependency ∈ plan.dependsOn ref,
    dependency ∈ state.absentRefs

omit [PayloadCodec Content] in
theorem Deletes.initial (plan : PurgePlan) (store : PayloadStore Content) :
    Deletes plan store [] ⟨store, 0, 0, [], []⟩ where
  settled _ listed := absurd listed not_mem_nil
  listed _ listed := absurd listed not_mem_nil
  absent _ listed := absurd listed not_mem_nil
  kept _ _ := rfl
  free _ listed := absurd listed not_mem_nil
  ordered _ listed := absurd listed not_mem_nil

omit [PayloadCodec Content] in
theorem Deletes.step (deletes : Deletes plan before processed state)
    (ready : ∀ dependency ∈ plan.dependsOn ref, dependency ∈ processed) (fault : Bool) :
    Deletes plan before (processed ++ [ref]) (purgeStep plan state (ref, fault)) := by
  unfold purgeStep
  simp only
  split
  next held =>
    refine ⟨?_, ?_, deletes.absent, deletes.kept, deletes.free, deletes.ordered⟩
    · intro other listed
      rcases mem_append.mp listed with earlier | here
      · rcases deletes.settled other earlier with failed | absent
        · exact .inl (mem_append_left _ failed)
        · exact .inr absent
      · exact .inl (mem_append_right _ here)
    · intro other listed
      exact mem_append_left _ (deletes.listed other listed)
  next passes =>
    simp only [not_or, not_exists, not_and] at passes
    obtain ⟨free, unfailed, -⟩ := passes
    refine ⟨?_, ?_, ?_, ?_, ?_, ?_⟩
    · intro other listed
      rcases mem_append.mp listed with earlier | here
      · rcases deletes.settled other earlier with failed | absent
        · exact .inl failed
        · exact .inr (mem_append_left _ absent)
      · exact .inr (mem_append_right _ here)
    · intro other listed
      rcases mem_append.mp listed with earlier | here
      · exact mem_append_left _ (deletes.listed other earlier)
      · exact mem_append_right _ here
    · intro other listed
      show (if other = ref then none else state.store other) = none
      split
      · rfl
      next apart =>
        rcases mem_append.mp listed with earlier | here
        · exact deletes.absent other earlier
        · exact absurd (mem_singleton.mp here) apart
    · intro other unlisted
      rw [mem_append, mem_singleton, not_or] at unlisted
      show (if other = ref then none else state.store other) = before other
      rw [if_neg unlisted.2]
      exact deletes.kept other unlisted.1
    · intro other listed
      rcases mem_append.mp listed with earlier | here
      · exact deletes.free other earlier
      · rw [mem_singleton.mp here]
        exact free
    · intro other listed dependency depends
      refine mem_append_left _ ?_
      rcases mem_append.mp listed with earlier | here
      · exact deletes.ordered other earlier dependency depends
      · -- The dependency was dealt with before, and did not fail.
        rw [mem_singleton.mp here] at depends
        rcases deletes.settled dependency (ready dependency depends) with failed | absent
        · exact absurd failed (unfailed dependency depends)
        · exact absent

omit [PayloadCodec Content] in
/-- A plan in dependency order keeps to it, however far it gets and whatever fails. -/
theorem Deletes.run (linear : ∀ earlier ref later, plan.order = earlier ++ ref :: later →
      ∀ dependency ∈ plan.dependsOn ref, dependency ∈ earlier) {entries : List (String × Bool)}
    {rest : List String} (split : plan.order = processed ++ entries.map Prod.fst ++ rest)
    (deletes : Deletes plan before processed state) :
    Deletes plan before (processed ++ entries.map Prod.fst)
      (entries.foldl (purgeStep plan) state) := by
  induction entries generalizing processed state with
  | nil => simpa using deletes
  | cons entry entries ih =>
    obtain ⟨ref, fault⟩ := entry
    have ready := linear processed ref (entries.map Prod.fst ++ rest) (by simpa using split)
    have next := ih (by simpa using split) (deletes.step ready fault)
    simpa using next

/-! ## Purging what was discovered -/

/-- A snapshot of expired metadata that is metadata itself, with a protected snapshot, is
protected itself. -/
def Unchained (db : AuditDb) (store : PayloadStore Content) (cutoff : Time) : Prop :=
  ∀ metadataRef child grandchild, Child db store metadataRef child →
    Child db store child grandchild → Protected db store cutoff grandchild →
      Protected db store cutoff child

/-- Nothing a retained run records, and nothing such a record needs, is listed. -/
def Unneeded (db : AuditDb) (store : PayloadStore Content) (cutoff : Time) (refs : List String) :
    Prop :=
  ∀ ref ∈ refs, ∀ run ∈ db.runs, expired cutoff run = false →
    (run.runId, ref) ∉ db.references ∧
      (∀ metadataRef, (run.runId, metadataRef) ∈ db.references → ¬ Child db store metadataRef ref) ∧
      ∀ outputRef, (run.runId, outputRef) ∈ db.references → ¬ Needs db store outputRef ref

/-- The purge of a list is not refused for a snapshot that the list lacks. -/
def Accepted (db : AuditDb) (store : PayloadStore Content) (refs : List String) : Prop :=
  ∀ sorter faults, purgePayloads sorter faults db store refs ≠ .error .metadataWithoutChild

/-- However a purge of the list ends, a later discovery finds what is left of it, and
neither it nor the purge of what it finds meets an integrity error. -/
def Retryable (db : AuditDb) (store : PayloadStore Content) (cutoff : Time) (refs : List String) :
    Prop :=
  ∀ sorter faults state, purgePayloads sorter faults db store refs = .ok state →
    ∀ later, cutoff ≤ later → ∃ remaining,
      findExpiredPayloadRefs db state.store later = .ok remaining ∧
        (∀ ref ∈ refs, (state.store ref).isSome → ref ∈ remaining) ∧
        ∀ sorter faults fault, purgePayloads sorter faults db state.store remaining = .error fault →
          fault.integrity = false

theorem unneeded_of_finds (finds : Finds db store cutoff refs) : Unneeded db store cutoff refs := by
  intro ref listed run stored unexpired
  obtain ⟨-, free, -⟩ := (finds.mem ref).mp listed
  have root {other : String} (recorded : (run.runId, other) ∈ db.references) :
      Protected db store cutoff other :=
    ⟨other, mem_refUnion.mpr ⟨run, stored, (active_iff_not_expired cutoff run).mpr unexpired,
      recorded⟩, .refl⟩
  refine ⟨?_, ?_, ?_⟩
  · intro recorded
    exact free (root recorded)
  · intro metadataRef recorded isChild
    exact free ((root recorded).step (.inl isChild))
  · intro outputRef recorded needs
    exact free ((root recorded).step (.inr needs))

/-- A list is refused for exactly the stored snapshots that it lacks. -/
theorem accepted_iff (admitted : Admitted db store) (refs : List String) : Accepted db store refs ↔
      ∀ metadataRef ∈ refs, ∀ child, Child db store metadataRef child → (store child).isSome →
        child ∈ refs := by
  obtain ⟨dependencies, ran⟩ := reads_of_admitted admitted refs true
  have reads := reads_of_ok ran
  have missing : ((dependencies.snapshotChildren.map Prod.snd).filter fun child =>
      child ∉ refs ∧ (store child).isSome) = [] ↔
        ∀ metadataRef ∈ refs, ∀ child, Child db store metadataRef child → (store child).isSome →
          child ∈ refs := by
    simp only [filter_eq_nil_iff, mem_map, Prod.exists, exists_eq_right, reads.children,
      decide_eq_true_eq, not_and, forall_exists_index, and_imp]
    constructor
    · intro none metadataRef listed child isChild stored
      by_contra lacking
      exact none child metadataRef listed isChild lacking stored
    · intro all child metadataRef listed isChild lacking stored
      exact lacking (all metadataRef listed child isChild stored)
  rw [← missing]
  unfold Accepted purgePayloads planPurge
  simp only [ran]
  constructor
  · intro accepted
    by_contra lacking
    have refused := accepted .layered []
    simp only [bind, Except.bind, if_pos lacking, ne_eq, not_true_eq_false] at refused
  · intro none sorter faults refused
    simp only [bind, Except.bind, if_neg (not_not.mpr none)] at refused
    split at refused
    next fault failed =>
      split at failed
      · cases failed
        cases refused
      · cases failed
    · cases refused

theorem accepted_iff_unchained (finds : Finds db store cutoff refs) :
    Accepted db store refs ↔ Unchained db store cutoff := by
  rw [accepted_iff finds.admitted]
  constructor
  · intro accepted metadataRef child grandchild isChild isGrandchild kept
    by_contra free
    -- The metadata is listed, and its snapshot is not.
    have freeMetadata : ¬ Protected db store cutoff metadataRef :=
      fun protectedRef => free (protectedRef.step (.inl isChild))
    have listed : metadataRef ∈ refs := by
      refine (finds.mem metadataRef).mpr ⟨.inl (isChild.lapsed freeMetadata), freeMetadata, ?_⟩
      intro other isOther
      rw [isOther.unique isChild]
      exact free
    have childListed := accepted metadataRef listed child isChild isGrandchild.stored
    exact ((finds.mem child).mp childListed).2.2 grandchild isGrandchild kept
  · intro unchained metadataRef listed child isChild stored
    obtain ⟨-, freeMetadata, freeChild⟩ := (finds.mem metadataRef).mp listed
    refine (finds.mem child).mpr ⟨.inr ⟨metadataRef, isChild.lapsed freeMetadata, isChild⟩,
      freeChild child isChild, ?_⟩
    intro grandchild isGrandchild kept
    exact freeChild child isChild (unchained metadataRef child grandchild isChild isGrandchild kept)

/-! ## Retrying -/

theorem sourceInputDeclaresSnapshot_congr {inputRef inputHash : Option String}
    (same : ∀ input, inputRef = some input → store' input = store input) :
    sourceInputDeclaresSnapshot store' inputRef inputHash =
      sourceInputDeclaresSnapshot store inputRef inputHash := by
  cases inputRef with
  | none => rfl
  | some input => simp only [sourceInputDeclaresSnapshot, same input rfl]

/-- An output is admitted as before while it and the input that classifies it are kept. -/
theorem admitOutput_of_kept (admitted : admitOutput store operation outputRef = .ok output)
    (same : store' outputRef = store outputRef)
    (input : ∀ ref, output = .generic (some ref) → store' ref = store ref) :
    admitOutput store' operation outputRef = .ok output := by
  obtain ⟨hashed, admits⟩ := admitOutput_eq_ok.mp admitted
  refine admitOutput_eq_ok.mpr ⟨hashed, ?_⟩
  cases admits with
  | absent gone => exact .absent (same.trans gone)
  | snapshot present read => exact .snapshot (same.trans present) read
  | generic present read undeclared =>
    refine .generic (same.trans present) read ?_
    rw [sourceInputDeclaresSnapshot_congr]
    · exact undeclared
    · intro ref isInput
      exact input ref (congrArg SourceOutput.generic isInput)

/-- The store after a partial purge: an output that is left is left with its input. -/
structure Shrinks (db : AuditDb) (before after : PayloadStore Content) : Prop where
  kept : ∀ ref content, after ref = some content → before ref = some content
  inputs : ∀ outputRef input, Needs db before outputRef input → (after outputRef).isSome →
    after input = before input

section

variable (shrinks : Shrinks db before after)
include shrinks

theorem Shrinks.admits (loads : Loads db operation outputRef)
    (admitted : admitOutput before operation outputRef = .ok output)
    (left : (after outputRef).isSome) : admitOutput after operation outputRef = .ok output := by
  refine admitOutput_of_kept admitted ?_ ?_
  · obtain ⟨content, present⟩ := Option.isSome_iff_exists.mp left
    rw [present, shrinks.kept outputRef content present]
  · rintro ref rfl
    exact shrinks.inputs outputRef ref ⟨operation, loads, admitted⟩ left

theorem Shrinks.admitted (admitted : Admitted db before) : Admitted db after := by
  intro operation outputRef loads
  obtain ⟨output, was⟩ := admitted operation outputRef loads
  cases left : after outputRef with
  | none =>
    exact ⟨.absent, admitOutput_eq_ok.mpr ⟨(admitOutput_eq_ok.mp was).1, .absent left⟩⟩
  | some content => exact ⟨output, shrinks.admits loads was (by rw [left]; rfl)⟩

/-- What is admitted afterwards and is not gone was admitted before. -/
theorem Shrinks.was (admitted : Admitted db before) (loads : Loads db operation outputRef)
    (now : admitOutput after operation outputRef = .ok output) (present : output ≠ .absent) :
    admitOutput before operation outputRef = .ok output := by
  obtain ⟨old, was⟩ := admitted operation outputRef loads
  have left : (after outputRef).isSome := by
    obtain ⟨-, admits⟩ := admitOutput_eq_ok.mp now
    cases admits with
    | absent gone => exact absurd rfl present
    | snapshot stored _ | generic stored _ _ => rw [stored]; rfl
  have same := shrinks.admits loads was left
  rw [now] at same
  rw [was, ← same]

theorem Shrinks.child (admitted : Admitted db before) {child : String} :
    Child db after metadataRef child ↔
      Child db before metadataRef child ∧ (after metadataRef).isSome := by
  constructor
  · intro isChild
    refine ⟨?_, isChild.stored⟩
    obtain ⟨operation, loads, now⟩ := isChild
    exact ⟨operation, loads, shrinks.was admitted loads now nofun⟩
  · rintro ⟨⟨operation, loads, was⟩, left⟩
    exact ⟨operation, loads, shrinks.admits loads was left⟩

/-- Nothing becomes protected by deleting payloads, or by moving the cutoff on. -/
theorem Shrinks.protects (admitted : Admitted db before) (le : cutoff ≤ later)
    (kept : Protected db after later ref) : Protected db before cutoff ref := by
  obtain ⟨root, isRoot, path⟩ := kept
  refine ⟨root, refUnion_active_mono le isRoot, Relation.ReflTransGen.mono ?_ _ _ path⟩
  rintro source target (isChild | needs)
  · exact .inl ((shrinks.child admitted).mp isChild).1
  · obtain ⟨operation, loads, now⟩ := needs
    exact .inr ⟨operation, loads, shrinks.was admitted loads now nofun⟩

end

/-- A plan for a list without repetition follows the dependencies. -/
theorem plan_of_ok (once : refs.Nodup) (planned : planPurge sorter db store refs = .ok plan) :
    ∃ dependencies,
      Reads db store refs true dependencies ∧ plan.order.Perm refs ∧
        plan.dependsOn = dependsOn dependencies refs ∧
        plan.retainedInputs = retainedInputs dependencies refs ∧
        ∀ earlier ref later, plan.order = earlier ++ ref :: later →
          ∀ dependency ∈ plan.dependsOn ref, dependency ∈ earlier := by
  obtain ⟨dependencies, ran, planned⟩ := bind_eq_ok.mp planned
  simp only at planned
  split at planned
  · cases planned
  split at planned
  · cases planned
  next order sorted =>
    have linear := sorter.linear (nodup_dedup refs) sorted
    rw [once.dedup] at linear
    -- Without repetition every reference is deleted once.
    have single : (order.flatMap fun ref => replicate (refs.count ref) ref) = order := by
      have counts : ∀ ref ∈ order, replicate (refs.count ref) ref = [ref] := by
        intro ref listed
        rw [count_eq_one_of_mem once (linear.nodes.mem_iff.mp listed)]
        rfl
      rw [flatMap_congr counts, flatMap_singleton']
    cases planned
    refine ⟨dependencies, reads_of_ok ran, ?_, rfl, rfl, ?_⟩
    · rw [single]
      exact linear.nodes
    · intro earlier ref later split
      exact linear.before earlier ref later (single ▸ split)

omit [PayloadCodec Content] in
/-- The deletions that are attempted are the first of the plan. -/
theorem map_fst_zip_isPrefix {α β : Type} (items : List α) (others : List β) :
    (items.zip others).map Prod.fst <+: items := by
  induction items generalizing others with
  | nil => exact nil_prefix
  | cons item items ih =>
    cases others with
    | nil => exact nil_prefix
    | cons => exact (prefix_cons_inj item).mpr (ih ..)

/-- However a purge of a list without repetition ends, it has kept to its plan. -/
theorem purge_deletes {faults : List Bool} (once : refs.Nodup)
    (purged : purgePayloads sorter faults db store refs = .ok state) :
    ∃ dependencies plan processed, Reads db store refs true dependencies ∧
      plan.dependsOn = dependsOn dependencies refs ∧
      plan.retainedInputs = retainedInputs dependencies refs ∧
      (∀ ref ∈ processed, ref ∈ refs) ∧ Deletes plan store processed state := by
  obtain ⟨plan, planned, same⟩ := bind_eq_ok.mp purged
  cases same
  obtain ⟨dependencies, reads, perm, depends, inputs, linear⟩ := plan_of_ok once planned
  obtain ⟨rest, split⟩ := map_fst_zip_isPrefix plan.order faults
  have whole : plan.order = [] ++ (plan.order.zip faults).map Prod.fst ++ rest := by
    simpa using split.symm
  have ran := Deletes.run linear whole (Deletes.initial plan store)
  refine ⟨dependencies, plan, _, reads, depends, inputs, ?_, ran⟩
  intro ref listed
  refine perm.mem_iff.mp ?_
  rw [← split]
  exact mem_append_left _ (by simpa using listed)

theorem Deletes.shrinks (deletes : Deletes plan store processed state)
    (reads : Reads db store refs true dependencies)
    (depends : plan.dependsOn = dependsOn dependencies refs)
    (inputs : plan.retainedInputs = retainedInputs dependencies refs)
    (listed : ∀ ref ∈ processed, ref ∈ refs) : Shrinks db store state.store where
  kept ref content left := by
    by_cases gone : ref ∈ state.absentRefs
    · rw [deletes.absent ref gone] at left
      cases left
    · rw [← deletes.kept ref gone]
      exact left
  inputs outputRef input needs left := by
    refine deletes.kept input fun gone => ?_
    -- The input went, so the output went before it, or was never to go.
    have isRef := listed input (deletes.listed input gone)
    have link := (reads.inputs outputRef input).mpr ⟨.inr ⟨rfl, isRef⟩, needs⟩
    have outputGone : outputRef ∈ state.absentRefs := by
      by_cases same : outputRef = input
      · rw [same]
        exact gone
      by_cases outputListed : outputRef ∈ refs
      · refine deletes.ordered input gone outputRef ?_
        rw [depends]
        refine mem_append_right _ (mem_filter.mpr ⟨?_, ?_⟩)
        · exact mem_map.mpr ⟨(outputRef, input), mem_filter.mpr ⟨link, by simp⟩, rfl⟩
        · exact decide_eq_true ⟨outputListed, same⟩
      · refine absurd ?_ (deletes.free input gone)
        rw [inputs]
        exact mem_map.mpr ⟨(outputRef, input),
          mem_filter.mpr ⟨link, decide_eq_true ⟨isRef, same, outputListed⟩⟩, rfl⟩
    rw [deletes.absent outputRef outputGone] at left
    cases left

theorem retryable_of_finds (finds : Finds db store cutoff refs) :
    Retryable db store cutoff refs := by
  intro sorter faults state purged later le
  obtain ⟨dependencies, plan, processed, reads, depends, inputs, listed, deletes⟩ :=
    purge_deletes finds.once purged
  have shrinks := deletes.shrinks reads depends inputs listed
  have admitted := shrinks.admitted finds.admitted
  obtain ⟨remaining, found⟩ := find_isOk admitted finds.lifecycle later
  refine ⟨remaining, found, ?_, ?_⟩
  · intro ref isRef left
    obtain ⟨lapsed, free, freeChild⟩ := (finds.mem ref).mp isRef
    refine ((finds_of_ok found).mem ref).mpr ⟨?_, ?_, ?_⟩
    · rcases lapsed with recorded | ⟨metadataRef, recorded, isChild⟩
      · exact .inl (refUnion_expired_mono le recorded)
      · refine .inr ⟨metadataRef, refUnion_expired_mono le recorded,
          (shrinks.child finds.admitted).mpr ⟨isChild, ?_⟩⟩
        -- The metadata goes only after the snapshot, and the snapshot is still there.
        by_cases gone : metadataRef ∈ state.absentRefs
        · have snapshotGone : ref ∈ state.absentRefs := by
            by_cases same : ref = metadataRef
            · rw [same]
              exact gone
            refine deletes.ordered metadataRef gone ref ?_
            rw [depends]
            refine mem_append_left _ (mem_filter.mpr ⟨mem_linked.mpr ?_, ?_⟩)
            · exact (reads.children metadataRef ref).mpr
                ⟨listed metadataRef (deletes.listed metadataRef gone), isChild⟩
            · exact decide_eq_true ⟨isRef, same⟩
          rw [deletes.absent ref snapshotGone] at left
          cases left
        · rw [deletes.kept metadataRef gone]
          exact isChild.stored
    · intro kept
      exact free (shrinks.protects finds.admitted le kept)
    · intro child isChild kept
      exact freeChild child ((shrinks.child finds.admitted).mp isChild).1
        (shrinks.protects finds.admitted le kept)
  · intro sorter faults fault failed
    obtain ⟨dependencies, ran⟩ := reads_of_admitted admitted remaining true
    simp only [purgePayloads, planPurge, ran, bind, Except.bind] at failed
    split at failed
    next raised refused =>
      cases failed
      split at refused
      · cases refused
        rfl
      · split at refused
        · cases refused
          rfl
        · cases refused
    · cases failed

end

/-! ### Metadata of metadata

An expired run has loaded two sources.  The snapshot of the first is, byte for byte, the
metadata of the second, whose own snapshot a retained run records as a source row. -/

namespace Worked

/-- A payload with its hash and, if it is JSON, its value. -/
structure Payload where
  hash : String
  value : Option Json

instance : PayloadCodec Payload where
  size _ := 113
  loads payload := payload.value
  stableHash payload := some payload.hash

/-- The SHA-256 of `source rows`. -/
def snapshot : String := "aaffddec453492a71eddfdd306b350a6937cb6c32d4d20fe3e7c97765f27f26a"

/-- The SHA-256 of the metadata that names `snapshot`. -/
def inner : String := "b57dcfab378451ab5642d8b01d86bfdc9ccc05cf5d537aedd2e2cc59846124b7"

/-- The SHA-256 of the metadata that names `inner`. -/
def outer : String := "16cea9b1637e05c216ff2e249e35cd5b5a0be604ccbc0d62b07d7729f7666c39"

def metadata (hash child : String) : Payload :=
  ⟨hash, some (.object
    [("source_snapshot_ref", .text child), ("source_snapshot_version", .number 1)])⟩

def store : PayloadStore Payload := fun ref =>
  if ref = outer then some (metadata outer inner)
  else if ref = inner then some (metadata inner snapshot)
  else if ref = snapshot then some ⟨snapshot, none⟩
  else none

def load (operationId output : String) : OperationPayload where
  operationId := operationId
  runId := "old"
  operationType := .sourceLoad
  inputDataRef := none
  inputDataHash := none
  outputDataRef := some output
  outputDataHash := some output

def db : AuditDb where
  runs := [⟨"old", .completed, "config", some 0, none⟩,
    ⟨"recent", .completed, "config", some 100, none⟩]
  rows := [⟨"recent", some snapshot⟩]
  operations := [load "load-1" outer, load "load-2" inner]
  nodeStates := []
  calls := []
  routingEvents := []
  tokens := []
  aggregationResults := []
  aggregationResultOutputs := []
  operationRuns := by decide +kernel

/-- The same store when only the inner metadata was loaded and nothing is retained. -/
def unshared : AuditDb :=
  { db with rows := [], operations := [load "load-2" inner], operationRuns := by decide +kernel }

/-- The fault a purge stopped with. -/
def faultOf {α : Type} : Except PurgeFault α → Option PurgeFault
  | .error fault => some fault
  | .ok _ => none

end Worked

end Elspeth.Retention
