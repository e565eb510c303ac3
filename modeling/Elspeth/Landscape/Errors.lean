import Elspeth.Landscape.Schema

/-!
# What the repositories raise

One constructor of `LandscapeError` per exception class; where a class is raised
at many sites, the site is a constructor of its own fault type and carries the
values its message names.  Two different refusals are therefore never equal,
which is what statements such as "this arm is never reached" need.
-/

namespace Elspeth

/-- Identity of one deadline issued within a transaction. -/
inductive DeadlineKey where
  | leader (runId workerId : String) (leaderEpoch : Nat)
  | worker (runId workerId : String)
  | item (workItemId : String)
  deriving DecidableEq, Repr

/-- Why `admit_follower` refuses a joiner. -/
inductive JoinRefusal where
  | runNotFound
  | runStatus (status : RunStatus)
  | configHash (offered recorded : String)
  | noLiveLeader
  | seatExpiredDuringAdmission
  deriving DecidableEq, Repr

/-- Why a seat acquisition is refused without corruption. -/
inductive ResumeRefusalCause where
  | leaderLive (holder : Option String) (expiresAt : Option Time)
  | terminalStatusChanged
  | runNotFinalized
  deriving DecidableEq, Repr

/-- The outcome columns whose presence depends on the outcome/path pair. -/
inductive DiscriminatorField where
  | sinkName
  | batchId
  | errorHash
  deriving DecidableEq, Repr

/-- Malformed arguments, refused before or during a transaction. -/
inductive ValueFault where
  | deadlineIdentity (key : DeadlineKey)
  | deadlineWindowNotPositive
  | deadlineWindowTooSmall
  | reconciliationNeedsTerminalStatus
  | leaseOwnerMismatch (leaseOwner authority : String)
  | childrenRequired
  | unhandledOutcomePair (outcome : Option String) (path : String)
  | outcomeRequires (field : DiscriminatorField)
  | outcomeExpects (field : DiscriminatorField)
  | outcomeForbids (field : DiscriminatorField)
  deriving DecidableEq, Repr

/-- Refusals of a barrier completion. -/
inductive BarrierFault where
  | scopeOnPartialRelease
  | snapshotOnPartialRelease
  | duplicateConsumed
  | duplicatePendingSink
  | duplicateReady
  | duplicateTerminalOutcomes
  | outcomesOutsideConsumed
  | consumedAndHandedOff
  | emissionWithoutBundle (tokenId : String)
  | consumedOutsideSnapshot
  | emissionOutsideScope (tokenId : String)
  | outcomeForForeignToken
  | outcomeAlreadyRecorded
  | consumedNotBlocked
  | snapshotCrossesGroups
  | snapshotNotBlocked
  | handoffMissing (tokenId : String)
  | handoffAmbiguous (tokenId : String) (rows : Nat)
  | handedOffOutsideSnapshot
  | uncovered
  | terminalizationMismatch (consumed terminalized : Nat)
  | handoffMismatch (requested transitioned : Nat)
  | readyCursorIncomplete (tokenId : String)
  | noLiveEvidence
  deriving DecidableEq, Repr

/-- Refusals of a barrier adoption. -/
inductive AdoptionFault where
  | mixedSpecs
  | batchMismatch
  | compareAndSwapMissed (workItemId : String)
  | noArrivalStamp (workItemId : String)
  deriving DecidableEq, Repr

/-- Refusals of a pending-sink terminalization. -/
inductive SinkFault where
  | duplicateToken (tokenId : String)
  | missingToken (tokenId : String)
  | ambiguousToken (tokenId : String) (rows : Nat)
  | incompleteToken (tokenId : String)
  | foreignOwner (tokenId : String) (actual : Option String)
  | compareAndSwapMissed (changed selected : Nat)
  deriving DecidableEq, Repr

/-- Database refusals wrapped by a recorder, and replays it cannot accept. -/
inductive RecordFault where
  | rejected (operation : String) (constraint : Violation)
  | incompatibleReplay (operation : String) (fields : List String)
  | notReadBack (operation : String)
  deriving DecidableEq, Repr

/-- Contradictions in the durable image. -/
inductive AuditFault where
  | unregisteredWorker (verb workerId runId : String)
  | noSeatRow (runId : String)
  | membershipWithoutSeat (runId : String)
  | immutableSuccessfulRun (runId : String) (status : RunStatus)
  | exportOfUnfinishedRun (runId : String) (status : Option RunStatus)
  | newLeaderWithoutMembership (workerId : String)
  | newFollowerWithoutMembership (workerId : String)
  | vacateMissed (runId : String) (rowcount : Nat)
  | leaderWithoutMembership (runId workerId : String) (rowcount : Nat)
  | departureMissed (workerId : String) (rowcount : Nat)
  | tokenOutsideRun (tokenId runId : String)
  | tokenOfAnotherRow (tokenId actualRowId rowId : String)
  | rowOutsideRun (rowId runId : String)
  | rowOfAnotherSequence (rowId : String) (actual scheduled : Nat)
  | nodeOutsideRun (label nodeId runId : String)
  | claimLostRace (workItemId : String) (rowcount : Nat)
  | claimNotOwned (workItemId : String)
  | incompletePendingSinkBundle (runId workItemId : String)
  | recoveryRotatedUnselected (runId : String)
  | recoveryIdentityMismatch (runId : String) (rotated present : Nat)
  | requeuePurged (runId : String)
  | requeueGroupLoss (runId : String)
  | requeueMissed (runId : String) (changed selected : Nat)
  | blockWithoutKey (workItemId : String)
  | transitionMissed (workItemId : String) (rowcount : Nat)
  | transitionUnread (workItemId : String)
  | childCursorIncomplete (tokenId : String)
  | freshEmissionOnNode (tokenId nodeId : String)
  | freshCursorIncomplete (tokenId : String)
  | ingestIdentityMismatch
  | quarantineImageMismatch
  | parkedIncompleteBundle (tokenId : String)
  | groupLossReasonTooLong (length : Nat)
  | groupLossLineage (closerName groupId memberKey : String)
  | groupLossMissing
  | batchNotFound (batchId : String)
  | batchOfAnotherRun (batchId : String)
  | batchNotDraft (batchId : String) (status : BatchStatus)
  | batchTokenOutsideRun (batchId tokenId : String)
  | barrier (fault : BarrierFault)
  | adoption (fault : AdoptionFault)
  | sink (fault : SinkFault)
  | outcomeOfAnotherRun (tokenId : String)
  | outcomeContradictsAbandonment (tokenId : String)
  | failsinkWitness (tokenId : String)
  | discardWitness (tokenId : String)
  deriving DecidableEq, Repr

/-- The exceptions of the Landscape repositories. -/
inductive LandscapeError where
  | runLeadershipLost (runId workerId : String) (leaderEpoch : Nat) (verb : String)
  | runMembershipLost (runId workerId verb : String)
  | runWorkerEvicted (workerId runId : String)
  | schedulerLeaseLost (workItemId leaseOwner runId : String)
  | leaseDeadlineExpired (key : DeadlineKey)
  | joinRefused (runId : String) (reason : JoinRefusal)
  | nonResumableRun (runId : String) (cause : ResumeRefusalCause)
  | valueError (fault : ValueFault)
  | auditIntegrity (fault : AuditFault)
  | landscapeRecord (fault : RecordFault)
  | integrityError (constraint : Violation)
  | noResultFound
  | pendingSinkTerminalMiss
  deriving DecidableEq, Repr

/-- `except SQLAlchemyError`: a database refusal becomes the recorder's own
error, which names the operation and keeps the cause. -/
def LandscapeError.wrapRejection (operation : String) : LandscapeError → LandscapeError
  | .integrityError constraint => .landscapeRecord (.rejected operation constraint)
  | raised => raised

end Elspeth
