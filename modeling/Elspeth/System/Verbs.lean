import Elspeth.Landscape.Governance
import Elspeth.Scheduler.Refinement.Barrier
import Elspeth.Scheduler.Refinement.Claims
import Elspeth.Scheduler.Refinement.Recovery

/-!
# Verbs as fenced bodies

A public verb of the scheduler is a few argument checks, a fence, and a body.
The checks raise before any transaction opens; a raised transaction is rolled
back.  So the result of every verb is one of two: it returned, and then its body
ran to its end between the fence's writes; or it raised, and the database is as
it was but for a ledger row.

`Settles` says this with the facts of the returning case as a parameter.  The
spec lemmas of the bodies are applied to those facts wherever a statement about
the verb is needed.
-/

namespace Elspeth

open Relational Settles

variable {α : Type} {env : CallEnv} {db : Db} [Digest]

section Settles

variable {returned : α → Db → Prop} {outcome : Except LandscapeError α × Db}

/-- A verb whose lease owner must be its authority's worker. -/
theorem settles_ownerChecked {leaseOwner authority : String}
    (settles : leaseOwner = authority → Settles db returned outcome) :
    Settles db (fun value after => leaseOwner = authority ∧ returned value after)
      (if leaseOwner = authority then outcome
        else leaseOwnerMismatch leaseOwner authority db) := by
  split
  next same => exact (settles same).mono fun _ _ holds => ⟨same, holds⟩
  next => exact raised _

end Settles

section Verbs

/-! ## Enqueue and ingest -/

section

variable (member : WorkerMembershipToken)

theorem enqueueReady_settles (values : ReadyValues) :
    Settles db
      (fun item after => MemberRun member (enqueueReadyOn env member.runId values) item db after)
      (enqueueReady env member values db) :=
  settles_memberFenced

theorem enqueueReadyClaimed_settles (values : ReadyValues)
    (leaseOwner : String) (lease : Int) :
    Settles db
      (fun item after => leaseOwner = member.workerId ∧
        MemberRun member
          (enqueueReadyClaimedOn env member.runId values leaseOwner lease
            (some member.workerId)) item db after)
      (enqueueReadyClaimed env member values leaseOwner lease db) :=
  settles_ownerChecked fun _ => settles_memberFenced

/-- The body of `ingest_row_with_initial_claim`. -/
def ingestClaimedOn (env : CallEnv) (token : CoordinationToken) (source : SourceIngestSpec)
    (sourceState : BystanderWrite) (values : ReadyValues) (leaseOwner : String) (lease : Int) :
    Transaction TokenWorkItem := do
  insertRowWithTokenOn env token source
  sourceState.run env
  enqueueReadyClaimedOn env token.runId (source.initialValues values) leaseOwner lease none

section

variable (token : CoordinationToken)

theorem ingestRowWithInitialClaim_settles
    (source : SourceIngestSpec) (sourceState : BystanderWrite) (values : ReadyValues)
    (leaseOwner : String) (lease : Int) :
    Settles db
      (fun item after => leaseOwner = token.workerId ∧
        LeaderRun token (ingestClaimedOn env token source sourceState values leaseOwner lease)
          item db after)
      (ingestRowWithInitialClaim env token source sourceState values leaseOwner lease db) :=
  settles_ownerChecked fun _ => settles_leaderFenced

/-- The body of `ingest_quarantine_row_with_pending_sink`. -/
def ingestParkedOn (env : CallEnv) (token : CoordinationToken) (source : SourceIngestSpec)
    (sourceState : BystanderWrite) (emission : BarrierEmission) :
    Transaction TokenWorkItem := do
  insertRowWithTokenOn env token source
  sourceState.run env
  parkSourceQuarantineOn env token.runId emission token.workerId

theorem ingestQuarantineRowWithPendingSink_settles
    (source : SourceIngestSpec) (sourceState : BystanderWrite) (emission : BarrierEmission) :
    Settles db
      (fun item after =>
        LeaderRun token (ingestParkedOn env token source sourceState emission) item db after)
      (ingestQuarantineRowWithPendingSink env token source sourceState emission db) := by
  unfold ingestQuarantineRowWithPendingSink
  split
  · exact settles_leaderFenced
  · exact raised _

/-! ## Leases -/

theorem claimReady_settles (leaseOwner : String)
    (lease : Int) :
    Settles db
      (fun claimed after => leaseOwner = member.workerId ∧
        MemberRun member (claimReadyOn env member.runId leaseOwner lease) claimed db after)
      (claimReady env member leaseOwner lease db) :=
  settles_ownerChecked fun _ => settles_memberFenced

theorem claimPendingSink_settles (leaseOwner : String)
    (lease : Int) :
    Settles db
      (fun claimed after => leaseOwner = token.workerId ∧
        LeaderRun token (claimPendingSinkOn env token.runId leaseOwner lease) claimed db after)
      (claimPendingSink env token leaseOwner lease db) :=
  settles_ownerChecked fun _ => settles_leaderFenced

theorem recoverExpiredLeases_settles (grace stallBudget : Int) :
    Settles db
      (fun count after =>
        LeaderRun token (rotateExpiredLeases env token grace stallBudget) count db after)
      (recoverExpiredLeases env token grace stallBudget db) :=
  settles_leaderFenced

theorem requeueUndecidedFailedWork_settles :
    Settles db
      (fun count after =>
        LeaderRun token (requeueUndecidedFailedWorkOn env token) count db after)
      (requeueUndecidedFailedWork env token db) :=
  settles_leaderFenced

end

/-- A renewal that raises may have committed its LEASE_LOST note; nothing else is
written then. -/
theorem heartbeatLease_cases (workItemId leaseOwner : String)
    (lease : Int) :
    (∃ renewed, leaseOwner = member.workerId ∧ db.Member member ∧
        RenewalOutcome workItemId member.runId leaseOwner lease db
          (heartbeatLease env member workItemId leaseOwner lease db).2 renewed ∧
        ∀ expiresAt, (heartbeatLease env member workItemId leaseOwner lease db).1 =
          .ok expiresAt ↔ renewed = some expiresAt) ∨
      Quiet db (heartbeatLease env member workItemId leaseOwner lease db).2 ∧
        ∃ raised, (heartbeatLease env member workItemId leaseOwner lease db).1 =
          .error raised := by
  unfold heartbeatLease
  split
  next same =>
    cases ran : fencedMemberTransaction env member "heartbeat_lease"
        (heartbeatLeaseOn env member.runId workItemId leaseOwner lease) db with
    | mk reply after =>
      cases reply with
      | error raised => exact Or.inr ⟨(fencedMemberTransaction_error ran).quiet, raised, rfl⟩
      | ok renewed =>
        have run := fencedMemberTransaction_ok ran
        obtain ⟨closed, inner, rfl⟩ := run.ran
        refine Or.inl ⟨renewed, same, run.member, ?_⟩
        have outcome := heartbeatLeaseOn_ok inner
        cases renewed with
        | none => exact ⟨outcome, by simp⟩
        | some => exact ⟨outcome, fun other => by simp⟩
  next => exact Or.inr ⟨Quiet.refl db, _, rfl⟩

/-! ## Dispositions -/

theorem transition_settles (workItemId leaseOwner : String)
    (image : DispositionImage) (losses : List GroupLossSpec) :
    Settles db
      (fun item after => leaseOwner = member.workerId ∧
        MemberRun member (transitionOn env member workItemId leaseOwner image losses) item db
          after)
      (transition env member workItemId leaseOwner image losses db) :=
  settles_ownerChecked fun _ => settles_memberFenced

theorem markBlocked_settles (workItemId : String)
    (queueKey barrierKey : Option String) (rowPayloadJson leaseOwner : String) :
    Settles db
      (fun item after => (queueKey ≠ none ∨ barrierKey ≠ none) ∧
        leaseOwner = member.workerId ∧
        MemberRun member
          (transitionOn env member workItemId leaseOwner
            (.blocked queueKey barrierKey rowPayloadJson) []) item db after)
      (markBlocked env member workItemId queueKey barrierKey rowPayloadJson leaseOwner db) := by
  unfold markBlocked
  split
  · exact raised _
  next keyed =>
    refine (transition_settles member workItemId leaseOwner _ []).mono fun _ _ run => ⟨?_, run⟩
    by_cases absent : queueKey = none
    · exact Or.inr fun alsoAbsent => keyed ⟨absent, alsoAbsent⟩
    · exact Or.inl absent

end

/-- The body of a disposition with children. -/
def transitionWithChildrenOn (env : CallEnv) (member : WorkerMembershipToken)
    (workItemId leaseOwner : String) (image : DispositionImage)
    (emissions : List BarrierEmission) (losses : List GroupLossSpec) :
    Transaction (TokenWorkItem × List TokenWorkItem) := do
  let children ← enqueueChildrenOn env member.runId workItemId emissions
  let parent ← transitionOn env member workItemId leaseOwner image losses
  pure (parent, children)

theorem markWithReadyChildren_settles (disposition : Disposition)
    (member : WorkerMembershipToken) (workItemId leaseOwner : String)
    (emissions : List BarrierEmission) (losses : List GroupLossSpec) :
    Settles db
      (fun family after => leaseOwner = member.workerId ∧
        MemberRun member
          (transitionWithChildrenOn env member workItemId leaseOwner
            (disposition.image workItemId leaseOwner) emissions losses) family db after)
      (markWithReadyChildren env disposition member workItemId leaseOwner emissions losses
        db) := by
  unfold markWithReadyChildren transitionWithReadyChildren
  split
  · exact raised _
  · exact settles_ownerChecked fun _ => settles_memberFenced

/-! ## Pending-sink terminalization -/

section

variable (token : CoordinationToken)
include token

theorem markPendingSinkTerminal_settles (tokenId leaseOwner : String) :
    Settles db
      (fun count after => Quiet db after ∨
        LeaderRun token (markPendingSinkTerminalOn env token.runId tokenId leaseOwner) count db
          after)
      (markPendingSinkTerminal env token tokenId leaseOwner db) := by
  unfold markPendingSinkTerminal
  cases ran : fencedLeaderTransaction env token defaultRunLivenessWindow
      "mark_pending_sink_terminal"
      (markPendingSinkTerminalOn env token.runId tokenId leaseOwner) db with
  | mk reply after =>
    cases reply with
    | ok => exact Or.inr (fencedLeaderTransaction_ok ran)
    | error raised =>
      have refusal := (fencedLeaderTransaction_error ran).onlyRefusal rfl
      cases raised with
      | pendingSinkTerminalMiss => exact Or.inl refusal.quiet
      | _ => exact refusal

theorem markPendingSinkTerminalMany_settles (tokenIds : List String) (leaseOwner : String) :
    Settles db
      (fun count after => Quiet db after ∨
        LeaderRun token (markPendingSinkTerminalManyOn env token.runId leaseOwner tokenIds) count
          db after)
      (markPendingSinkTerminalMany env token tokenIds leaseOwner db) := by
  unfold markPendingSinkTerminalMany
  split
  · exact Or.inl (Quiet.refl db)
  · split
    · exact raised _
    · exact settles_leaderFenced.mono fun _ _ run => Or.inr run

theorem terminalizePendingSinksWithTerminalOutcomes_settles (callerOwner : String) :
    Settles db
      (fun count after =>
        LeaderRun token (terminalizeDecidedOn env token.runId callerOwner) count db after)
      (terminalizePendingSinksWithTerminalOutcomes env token callerOwner db) :=
  settles_leaderFenced

/-! ## Barriers -/

theorem completeBarrier_settles (completion : BarrierCompletion) :
    Settles db
      (fun count after => completion.Accepted ∧
        LeaderRun token (completeBarrierOn env token completion) count db after)
      (completeBarrier env token completion db) := by
  unfold completeBarrier
  cases checked : firstFault completion.argumentChecks with
  | some => exact raised _
  | none =>
    exact settles_leaderFenced.mono fun _ _ run =>
      ⟨BarrierCompletion.accepted checked, run⟩

section

variable (barrierKey : String)

/-- The completion behind `mark_blocked_barrier_pending_sink_many`. -/
def handoffRelease (handoffs : List BlockedPendingSinkHandoff)
    (parkedLeaseOwner : Option String) : BarrierCompletion :=
  .partialRelease barrierKey [] (handoffs.map BlockedPendingSinkHandoff.emission) none
    parkedLeaseOwner []

theorem markBlockedBarrierPendingSinkMany_settles
    (handoffs : List BlockedPendingSinkHandoff) (parkedLeaseOwner : Option String) :
    Settles db
      (fun count after => Quiet db after ∨ count = handoffs.length ∧
        (handoffRelease barrierKey handoffs parkedLeaseOwner).Accepted ∧
        ∃ terminalized, LeaderRun token
          (completeBarrierOn env token (handoffRelease barrierKey handoffs parkedLeaseOwner))
          terminalized db after)
      (markBlockedBarrierPendingSinkMany env token barrierKey handoffs parkedLeaseOwner db) := by
  unfold markBlockedBarrierPendingSinkMany
  split
  · exact Or.inl (Quiet.refl db)
  · have completes : Settles db _ (completeBarrier env token
        (handoffRelease barrierKey handoffs parkedLeaseOwner) db) :=
      completeBarrier_settles token _
    cases ran : completeBarrier env token (handoffRelease barrierKey handoffs parkedLeaseOwner)
        db with
    | mk reply after =>
      unfold handoffRelease at ran
      rw [ran]
      cases reply with
      | error => exact completes.error ran
      | ok terminalized =>
        obtain ⟨accepted, run⟩ := completes.ok ran
        exact Or.inr ⟨rfl, accepted, terminalized, run⟩

/-- The completion behind `mark_blocked_barrier_terminal`. -/
def terminalRelease (tokenIds : List String)
    (releaseContext : Option Context) (losses : List GroupLossSpec) : BarrierCompletion :=
  .partialRelease barrierKey tokenIds [] releaseContext none losses

theorem markBlockedBarrierTerminal_settles (tokenIds : List String)
    (releaseContext : Option Context) (losses : List GroupLossSpec) :
    Settles db
      (fun count after =>
        (terminalRelease barrierKey tokenIds releaseContext losses).Accepted ∧
          LeaderRun token
            (completeBarrierOn env token
              (terminalRelease barrierKey tokenIds releaseContext losses)) count db after)
      (markBlockedBarrierTerminal env token barrierKey tokenIds releaseContext losses db) := by
  unfold markBlockedBarrierTerminal
  split
  · exact raised _
  · exact completeBarrier_settles token _

end

theorem adoptBlockedBarrierItem_settles (adoption : BarrierAdoption) :
    Settles db
      (fun result after =>
        LeaderRun token (adoptBlockedBarrierItemOn env token adoption) result db after)
      (adoptBlockedBarrierItem env token adoption db) := by
  unfold adoptBlockedBarrierItem
  split
  · exact raised _
  · exact settles_leaderFenced

theorem resetAdoptionMarkerToPending_settles (workItemIds : List String) :
    Settles db
      (fun count after => Quiet db after ∨
        LeaderRun token (Txn.executeMany (resetStatement token.runId) workItemIds.eraseDups)
          count db after)
      (resetAdoptionMarkerToPending env token workItemIds db) := by
  unfold resetAdoptionMarkerToPending
  split
  · exact Or.inl (Quiet.refl db)
  · exact settles_leaderFenced.mono fun _ _ run => Or.inr run

end

end Verbs

end Elspeth
