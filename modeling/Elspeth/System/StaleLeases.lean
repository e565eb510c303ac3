import Elspeth.System.Lanes

/-!
# Stale leases

A worker that lost its lease may still call.  Three things protect the journal
from such a call.  A disposition consumes the lease it names, so the next one
needs a new claim.  A rotation gives the item another id, so the old id names no
row.  And a refused call writes nothing, except that a refused renewal notes the
loss.

The second protection is only as good as the ids: a call that stores a retired id
again revives every stale lease on it.  An enqueue repeated after a rotation does
exactly that.  The run theorem therefore asks that no call stores an id the log
shows as rotated away.
-/

namespace Elspeth

open Relational EventSourcing Worked List Request Scope

/-! ## Transform leases -/

/-- The item named is held under a transform lease. -/
def Db.Leases (db : Db) (name : String) : Prop :=
  ∃ item ∈ db.tokenWorkItems.rows,
    item.workItemId = name ∧ item.status = .leased ∧ item.pendingSinkName = none

/-- Some row has this id. -/
def Db.Stores (db : Db) (name : String) : Prop :=
  name ∈ db.tokenWorkItems.rows.map TokenWorkItem.workItemId

instance (db : Db) (name : String) : Decidable (db.Stores name) :=
  inferInstanceAs (Decidable (name ∈ db.tokenWorkItems.rows.map TokenWorkItem.workItemId))

theorem Db.Leases.stores {db : Db} {name : String} (leases : db.Leases name) :
    db.Stores name := by
  obtain ⟨item, stored, rfl, -⟩ := leases
  exact mem_map_of_mem stored

/-- The request may lease a READY item. -/
def Request.claimsReady : Request → Bool
  | .claimReady .. | .enqueueReadyClaimed .. | .ingestRowWithInitialClaim .. => true
  | _ => false

/-- The item a disposition ends the lease of. -/
def Request.disposes : Request → Option String
  | .markBlocked _ workItemId .. => some workItemId
  | .mark _ _ workItemId .. => some workItemId
  | .markWithReadyChildren _ _ workItemId .. => some workItemId
  | _ => none

/-- The item a renewal extends the lease of. -/
def Request.renews : Request → Option String
  | .heartbeatLease _ workItemId .. => some workItemId
  | _ => none

/-- The exchange reports the named item as a transform lease it granted. -/
def GrantsLease (name : String) (request : Request) (response : Response) : Prop :=
  request.claimsReady = true ∧ ∃ item, itemReported response = some item ∧
    item.workItemId = name ∧ item.status = .leased ∧ item.pendingSinkName = none

section Histories

variable [Digest]

variable {outcomes : List TokenOutcome} {action : Action} {item : TokenWorkItem} {request : Request}
  {db before : Db} {reported : Option TokenWorkItem} {leaseOwner name : String} {call : Call}
  {image : DispositionImage} {α : Type} {reply : Reply} {raised : LandscapeError} {count : Nat}
  {token : CoordinationToken}

/-- An edge that ends in a transform lease is a claim, or began in one. -/
theorem Action.leased_next (enabled : action.Enabled outcomes item)
    (leased : (action.next outcomes item).status = .leased)
    (transform : (action.next outcomes item).pendingSinkName = none) :
    (∃ leaseOwner expiresAt databaseNow,
        action = .claim .ready leaseOwner expiresAt databaseNow) ∨
      item.status = .leased ∧ item.pendingSinkName = none ∧
        (action.next outcomes item).workItemId = item.workItemId := by
  cases action with
  | claim source leaseOwner expiresAt databaseNow =>
    cases source with
    | ready => exact .inl ⟨leaseOwner, expiresAt, databaseNow, rfl⟩
    | pendingSink =>
      -- A parked item can be claimed only with a named sink.
      have bundle := enabled.2 rfl
      have unnamed : item.pendingSinkName = none := transform
      simp [pendingSinkBundle, unnamed] at bundle
  | renew => exact .inr ⟨enabled, transform, rfl⟩
  | rotate | release | requeue | finishSink | consume | handOff => cases leased
  | dispose image databaseNow => cases image <;> cases leased
  | adopt | reset => exact .inr ⟨leased, transform, rfl⟩

theorem Request.claimsReady_of_action {expiresAt databaseNow : Time}
    (allowed : (request.scope db reported).action
      (.claim .ready leaseOwner expiresAt databaseNow) item) :
    request.claimsReady = true ∧
      reported = some (item.leasedTo leaseOwner expiresAt databaseNow) := by
  cases request with
  | enqueueReadyClaimed | ingestRowWithInitialClaim | claimReady =>
    obtain ⟨_, _, same, -, claimed⟩ := allowed
    cases same
    exact ⟨rfl, claimed⟩
  | claimPendingSink =>
    obtain ⟨_, _, same, -⟩ := allowed
    cases same
  | _ =>
    simp [scope, still, births, renewing, recovering,
      requeueing, disposing, finishing, BarrierCompletion.scope,
      adopting, resetting] at allowed

/-- **A transform lease comes from a claim**: a call that leaves one behind found it
or reports that it granted it. -/
theorem serve_leases (leases : (serve call db).2.Leases name) :
    db.Leases name ∨ GrantsLease name call.request (serve call db).1 := by
  obtain ⟨item, stored, named, leased, transform⟩ := leases
  have path := (serve_performs call db).travels
  have granted : ∀ row ∈ (serve call db).2.tokenWorkItems.rows, row.workItemId = name →
      row.status = .leased → row.pendingSinkName = none →
        db.Leases name ∨ GrantsLease name call.request (serve call db).1 := by
    refine Course.forall_rows path ?_ ?_ ?_
    · rintro row event ⟨born, -⟩ - leased
      cases born <;> cases leased
    · rintro old new entry ⟨action, allowed, enabled, rfl, -⟩ before named leased transform
      rcases Action.leased_next enabled leased transform with
        ⟨leaseOwner, expiresAt, databaseNow, rfl⟩ | ⟨oldLeased, oldTransform, kept⟩
      · obtain ⟨claims, reported⟩ := claimsReady_of_action allowed
        exact .inr ⟨claims, _, reported, named, leased, transform⟩
      · exact before (kept.symm.trans named) oldLeased oldTransform
    · exact fun row rowMem named leased transform => .inl ⟨row, rowMem, named, leased, transform⟩
  exact granted item stored named leased transform

/-! ## Dispositions and renewals -/

omit [Digest] in
theorem DispositionImage.apply_not_leased (image : DispositionImage)
    (outcomes : List TokenOutcome) (databaseNow : Time) (item : TokenWorkItem) :
    (image.apply outcomes databaseNow item).status ≠ .leased := by
  cases image <;> exact fun same => by cases same

variable {wrap : α → Reply} {returned : α → Db → Prop} {outcome : Except LandscapeError α × Db}

omit [Digest] in
/-- A disposition found the lease it names and left none behind. -/
theorem Disposed.consumes {workItemId runId : String} {after : Db}
    (disposed : Disposed workItemId runId leaseOwner image before after) :
    before.Leases workItemId ∧ ¬ after.Leases workItemId := by
  obtain ⟨old, stored, databaseNow, held, rows⟩ := disposed.replaced
  obtain ⟨named, -, leased, transform, -⟩ := transformLease_iff.mp held
  refine ⟨⟨old, stored, named, leased, transform⟩, ?_⟩
  rintro ⟨item, itemMem, itemNamed, itemLeased, -⟩
  rw [rows, mem_replaceRow stored] at itemMem
  rcases itemMem with rfl | ⟨-, apart⟩
  · exact image.apply_not_leased _ _ _ itemLeased
  · exact apart (itemNamed.trans named.symm)

theorem transitionOn_consumes {env : CallEnv} {conn conn' : Conn} {member : WorkerMembershipToken}
    {workItemId : String} {losses : List GroupLossSpec} (keyed : image.Keyed)
    (ran : transitionOn env member workItemId leaseOwner image losses conn = .ok (item, conn')) :
    conn.db.Leases workItemId ∧ ¬ conn'.db.Leases workItemId := by
  have spec : Advances _ (.disposing (fun _ => False) workItemId member.runId leaseOwner image)
      conn.db conn'.db ∧ Disposed workItemId member.runId leaseOwner image conn.db conn'.db :=
    transitionOn_ok keyed ran
  exact spec.2.consumes

/-- Children are born READY, so a lease found after their births was there before. -/
theorem leases_of_births {identities : List WorkIdentity} {after : Db}
    (advances : Advances outcomes (.births (readyBirth identities)) before after)
    (leases : after.Leases name) : before.Leases name := by
  obtain ⟨item, stored, named, leased, transform⟩ := leases
  have origin : ∀ row ∈ after.tokenWorkItems.rows,
      row ∈ before.tokenWorkItems.rows ∨ row.status = .ready := by
    refine Course.forall_rows advances.travels ?_ ?_ fun row rowMem => .inl rowMem
    · rintro row event ⟨-, ready, -⟩
      exact .inr ready
    · rintro old new entry ⟨action, never, -⟩
      exact never.elim
  rcases origin item stored with before | ready
  · exact ⟨item, before, named, leased, transform⟩
  · rw [ready] at leased
    cases leased

/-- Read a returned value back through the reply it was wrapped in. -/
theorem returned_of_answer (settles : Settles db returned outcome)
    (ok : (answer wrap outcome).1 = .ok reply) :
    ∃ value, reply = wrap value ∧ returned value (answer wrap outcome).2 := by
  obtain ⟨result, after⟩ := outcome
  cases result with
  | error => cases ok
  | ok value => exact ⟨value, (Except.ok.inj ok).symm, settles⟩

omit [Digest] in
/-- Read a raised error back through the reply. -/
theorem raised_of_answer (refused : (answer wrap outcome).1 = .error raised) :
    outcome.1 = .error raised := by
  obtain ⟨result, after⟩ := outcome
  cases result with
  | ok => cases refused
  | error => cases refused; rfl

/-- **A disposition consumes its lease.** -/
theorem serve_disposes (disposes : call.request.disposes = some name)
    (ok : (serve call db).1 = .ok reply) : db.Leases name ∧ ¬ (serve call db).2.Leases name := by
  obtain ⟨env, request⟩ := call
  cases request with
  | markBlocked member workItemId queueKey barrierKey rowPayloadJson leaseOwner =>
    obtain rfl := Option.some.inj disposes
    obtain ⟨item, -, keyed, -, run⟩ := returned_of_answer (markBlocked_settles member workItemId
      queueKey barrierKey rowPayloadJson leaseOwner) ok
    obtain ⟨closed, ran, reached⟩ := run.ran
    have named : (DispositionImage.blocked queueKey barrierKey rowPayloadJson).Keyed := by
      rintro _ _ _ ⟨⟩
      exact keyed
    have consumes := transitionOn_consumes named ran
    rw [← reached] at consumes
    exact consumes
  | mark disposition member workItemId leaseOwner losses =>
    obtain rfl := Option.some.inj disposes
    obtain ⟨item, -, -, run⟩ := returned_of_answer (transition_settles member workItemId leaseOwner
      (disposition.image workItemId leaseOwner) losses) ok
    obtain ⟨closed, ran, reached⟩ := run.ran
    have consumes := transitionOn_consumes (disposition.image_keyed workItemId leaseOwner) ran
    rw [← reached] at consumes
    exact consumes
  | markWithReadyChildren disposition member workItemId leaseOwner emissions losses =>
    obtain rfl := Option.some.inj disposes
    obtain ⟨family, -, -, run⟩ := returned_of_answer (markWithReadyChildren_settles disposition
      member workItemId leaseOwner emissions losses) ok
    obtain ⟨closed, ran, reached⟩ := run.ran
    obtain ⟨-, middle, born, disposed⟩ :=
      transitionWithChildren_ok (disposition.image_keyed workItemId leaseOwner) ran
    rw [← reached] at disposed
    exact ⟨leases_of_births born disposed.consumes.1, disposed.consumes.2⟩
  | _ => cases disposes

/-- A renewal that returned found its lease. -/
theorem serve_renews (renews : call.request.renews = some name)
    (ok : (serve call db).1 = .ok reply) : db.Stores name := by
  obtain ⟨env, request⟩ := call
  cases request with
  | heartbeatLease member workItemId leaseOwner lease =>
    obtain rfl := Option.some.inj renews
    simp only [serve, answer] at ok
    rcases heartbeatLease_cases member workItemId leaseOwner lease with
      ⟨renewed, -, -, outcome, replies⟩ | ⟨-, raised, error⟩
    · cases outcome with
      | renewed old databaseNow table stored held rows written =>
        simp only [heldLease, Bool.and_eq_true, decide_eq_true_eq] at held
        exact mem_map.mpr ⟨old, stored, held.1.1.1⟩
      | lost =>
        cases result : (heartbeatLease env member workItemId leaseOwner lease db).1 with
        | error =>
          rw [result] at ok
          cases ok
        | ok => cases (replies ..).mp result
    · rw [error] at ok
      cases ok
  | _ => cases renews

/-! ## Refusals -/

/-- The dispositions of the scheduler: every `mark_*` verb. -/
def Request.marks : Request → Bool
  | .markBlocked .. | .mark .. | .markWithReadyChildren .. | .markPendingSinkTerminal ..
  | .markPendingSinkTerminalMany .. | .terminalizePendingSinksWithTerminalOutcomes ..
  | .markBlockedBarrierPendingSinkMany .. | .markBlockedBarrierTerminal .. => true
  | _ => false

theorem refused_of_answer (settles : Settles db returned outcome)
    (refused : (answer wrap outcome).1 = .error raised) :
    OnlyRefusal db (answer wrap outcome).2 := by
  obtain ⟨result, after⟩ := outcome
  cases result with
  | error => exact settles
  | ok => cases refused

/-- **A refused disposition writes nothing** but for a refusal in the ledger. -/
theorem serve_refused (marks : call.request.marks = true)
    (refused : (serve call db).1 = .error raised) : OnlyRefusal db (serve call db).2 := by
  obtain ⟨env, request⟩ := call
  cases request with
  | markBlocked => exact refused_of_answer (markBlocked_settles ..) refused
  | mark => exact refused_of_answer (transition_settles ..) refused
  | markWithReadyChildren =>
    exact refused_of_answer (markWithReadyChildren_settles ..) refused
  | markPendingSinkTerminal =>
    exact refused_of_answer (markPendingSinkTerminal_settles ..) refused
  | markPendingSinkTerminalMany =>
    exact refused_of_answer (markPendingSinkTerminalMany_settles ..) refused
  | terminalizePendingSinksWithTerminalOutcomes =>
    exact refused_of_answer (terminalizePendingSinksWithTerminalOutcomes_settles ..) refused
  | markBlockedBarrierPendingSinkMany =>
    exact refused_of_answer (markBlockedBarrierPendingSinkMany_settles ..) refused
  | markBlockedBarrierTerminal =>
    exact refused_of_answer (markBlockedBarrierTerminal_settles ..) refused
  | _ => cases marks

/-- **A refused renewal changes no row** and appends at most one LEASE_LOST event. -/
theorem serve_renewal_refused (renews : call.request.renews = some name)
    (refused : (serve call db).1 = .error raised) :
    (serve call db).2.tokenWorkItems = db.tokenWorkItems ∧
      ∃ notes : List SchedulerEvent, notes.length ≤ 1 ∧
        (∀ note ∈ notes, note.eventType = .leaseLost) ∧
        (serve call db).2.schedulerEvents = db.schedulerEvents ++ notes := by
  obtain ⟨env, request⟩ := call
  cases request with
  | heartbeatLease member workItemId leaseOwner lease =>
    simp only [serve, answer] at refused ⊢
    rcases heartbeatLease_cases member workItemId leaseOwner lease with
      ⟨renewed, -, -, outcome, replies⟩ | ⟨quiet, -⟩
    · cases renewed with
      | some =>
        rw [(replies ..).mpr rfl] at refused
        cases refused
      | none =>
        cases outcome with
        | lost notes missed atMostOne noted written =>
          rw [written]
          exact ⟨rfl, notes, atMostOne, noted, rfl⟩
    · exact ⟨quiet.items, [], Nat.zero_le 1, by simp, by rw [quiet.events, append_nil]⟩
  | _ => cases renews

/-! ## Retired ids -/

omit [Digest] in
/-- The log shows that a rotation gave this id up. -/
def Db.Retired (db : Db) (name : String) : Prop :=
  ∃ event ∈ db.schedulerEvents, event.previousWorkItem = some name

omit [Digest] in
/-- No row has an id the log shows as given up. -/
def RetiredGone (journal : Ledger TokenWorkItem SchedulerEvent) : Prop :=
  ∀ event ∈ journal.events, ∀ name, event.previousWorkItem = some name →
    name ∉ journal.rows.map TokenWorkItem.workItemId

/-- The rows whose attempt a request may raise. -/
def Request.rotations (db : Db) : Request → List TokenWorkItem
  | .recoverExpiredLeases token _ _ => db.tokenWorkItems.rows.filter fun row =>
    row.runId = token.runId && row.status = .leased && !sinkRedriveShaped row
  | .requeueUndecidedFailedWork token => undecidedFailures token.runId db
  | _ => []

/-- The request stores no retired id: neither under an identity it inserts nor as the
next attempt of a row it rotates, and no next attempt is taken. -/
def Request.RevivesNothing (request : Request) (db : Db) : Prop :=
  (∀ identity ∈ request.inserts db, ¬ db.Retired identity.id) ∧
    ∀ row ∈ request.rotations db, ¬ db.Retired (requeueId row) ∧ ¬ db.Stores (requeueId row)

instance (db : Db) (name : String) : Decidable (db.Retired name) :=
  inferInstanceAs (Decidable (∃ event ∈ db.schedulerEvents, event.previousWorkItem = some name))

instance (request : Request) (db : Db) : Decidable (request.RevivesNothing db) :=
  inferInstanceAs (Decidable ((∀ identity ∈ request.inserts db, ¬ db.Retired identity.id) ∧
    ∀ row ∈ request.rotations db, ¬ db.Retired (requeueId row) ∧ ¬ db.Stores (requeueId row)))

/-- An edge keeps the id, or its event names the id it gave up. -/
theorem lifecycle_links {scope : Scope} {old new : TokenWorkItem} {entry : Option SchedulerEvent}
    (edit : (lifecycle outcomes scope).edit old new entry) :
    new.workItemId = old.workItemId ∨
      ∃ event, entry = some event ∧ event.previousWorkItem = some old.workItemId := by
  obtain ⟨action, -, -, rfl, logs⟩ := edit
  unfold Action.Logs at logs
  cases records : action.eventType with
  | none =>
    cases action with
    | renew | adopt | reset => exact .inl rfl
    | _ => cases records
  | some =>
    rw [records] at logs
    obtain ⟨event, rfl, describes⟩ := logs
    rcases describes.previous with linked | ⟨-, kept⟩
    · exact .inr ⟨event, rfl, linked⟩
    · exact .inl kept

/-- An id that a call gives up is retired. -/
theorem serve_retires (stored : db.Stores name) (gone : ¬ (serve call db).2.Stores name) :
    (serve call db).2.Retired name := by
  have path := (serve_performs call db).travels
  have told := path.told_of_vanished
    (fun (event : SchedulerEvent) name => event.previousWorkItem = some name)
    (fun old new entry edit => lifecycle_links edit) stored
  exact told.resolve_left gone

/-- What the log shows as given up, it shows for ever. -/
theorem serve_retired (retired : db.Retired name) : (serve call db).2.Retired name := by
  obtain ⟨event, recorded, linked⟩ := retired
  have grows := Course.events_prefix (serve_performs call db).travels
  exact ⟨event, grows.subset recorded, linked⟩

/-! ### Calls that rotate nothing -/

/-- The request rotates attempts. -/
def Request.Rotating : Request → Prop
  | .recoverExpiredLeases .. | .requeueUndecidedFailedWork .. => True
  | _ => False

/-- Only the two rotating requests record the rotating event types. -/
theorem Request.rotating_of_eventType (allowed : (request.scope db reported).action action item)
    (rotating : action.eventType = some .recoverExpiredLease ∨
      action.eventType = some .resumeRequeueFailed) : request.Rotating := by
  cases request with
  | recoverExpiredLeases | requeueUndecidedFailedWork => trivial
  | enqueueReadyClaimed | ingestRowWithInitialClaim | claimReady | claimPendingSink =>
    obtain ⟨_, _, rfl, -⟩ := allowed
    rcases rotating with same | same <;> cases same
  | heartbeatLease =>
    obtain ⟨⟨_, _, rfl⟩, -⟩ := allowed
    rcases rotating with same | same <;> cases same
  | markBlocked =>
    obtain ⟨⟨_, rfl⟩, -⟩ := allowed
    rcases rotating with same | same <;> cases same
  | mark disposition | markWithReadyChildren disposition =>
    obtain ⟨⟨_, rfl⟩, -⟩ := allowed
    cases disposition <;> rcases rotating with same | same <;> cases same
  | markPendingSinkTerminal | markPendingSinkTerminalMany
  | terminalizePendingSinksWithTerminalOutcomes =>
    obtain ⟨⟨_, rfl⟩, -⟩ := allowed
    rcases rotating with same | same <;> cases same
  | completeBarrier | markBlockedBarrierPendingSinkMany | markBlockedBarrierTerminal =>
    rcases allowed.2 with ⟨_, -, rfl⟩ | ⟨_, -, _, -, rfl⟩ <;>
      rcases rotating with same | same <;> cases same
  | adoptBlockedBarrierItem =>
    obtain ⟨-, -, _, rfl⟩ := allowed
    rcases rotating with same | same <;> cases same
  | resetAdoptionMarkerToPending =>
    obtain ⟨rfl, -⟩ := allowed
    rcases rotating with same | same <;> cases same
  | _ => exact allowed.elim

/-- A call that rotates nothing gives up no id. -/
theorem serve_links_nothing (still : ¬ call.request.Rotating) :
    ∀ event ∈ (serve call db).2.schedulerEvents,
      event ∈ db.schedulerEvents ∨ event.previousWorkItem = none := by
  have path := (serve_performs call db).travels
  refine Course.forall_events path ?_ ?_ ?_ fun event recorded => .inl recorded
  · rintro item event ⟨born, -⟩
    cases born <;> exact .inr rfl
  · rintro old new event ⟨action, allowed, -, rfl, logs⟩
    unfold Action.Logs at logs
    rcases records : action.eventType with _ | eventType <;> rw [records] at logs
    · cases logs
    · obtain ⟨_, ⟨⟩, describes⟩ := logs
      refine .inr (if_neg fun rotating => still ?_)
      rw [describes.eventType] at rotating
      refine rotating_of_eventType allowed ?_
      rw [records]
      exact rotating.imp (congrArg some) (congrArg some)
  · rintro event ⟨lost, -⟩
    refine .inr (if_neg ?_)
    rw [lost]
    rintro (same | same) <;> cases same

/-- A call that rotates nothing stores the ids that were stored, and those it
inserts. -/
theorem serve_stores (still : ¬ call.request.Rotating) (stored : (serve call db).2.Stores name) :
    db.Stores name ∨ ∃ identity ∈ call.request.inserts db, identity.id = name := by
  have path := (serve_performs call db).travels
  have origin : ∀ row ∈ (serve call db).2.tokenWorkItems.rows,
      db.Stores row.workItemId ∨
        ∃ identity ∈ call.request.inserts db, identity.id = row.workItemId := by
    refine Course.forall_rows path ?_ ?_ fun row rowMem => .inl (mem_map_of_mem rowMem)
    · rintro row event ⟨born, birth⟩
      exact .inr ⟨row.identity, inserts_of_birth birth, born.workItemId.symm⟩
    · rintro old new entry ⟨action, allowed, -, rfl, -⟩ before
      have stays : ¬ action.Rotates := by
        intro rotates
        refine still (rotating_of_eventType allowed ?_)
        cases action with
        | rotate => exact .inl rfl
        | requeue => exact .inr rfl
        | _ => exact rotates.elim
      rw [Action.next_workItemId stays]
      exact before
  obtain ⟨row, rowMem, rfl⟩ := mem_map.mp stored
  exact origin row rowMem

/-! ### Calls that rotate -/

omit [Digest] in
/-- A batch that gives up ids for fresh ones leaves no row under a retired id. -/
theorem retiredGone_of_edits {rows : List TokenWorkItem} {events : List SchedulerEvent}
    {selected : List TokenWorkItem} {change : TokenWorkItem → TokenWorkItem}
    {told : TokenWorkItem → SchedulerEvent} (gone : RetiredGone ⟨rows, events⟩)
    (unique : Relational.Unique TokenWorkItem.workItemId rows)
    (edits : Edits TokenWorkItem.workItemId (selected.map fun row => (row, change row)) rows)
    (kept : ∀ row ∈ selected, (change row).workItemId = row.workItemId →
      (told row).previousWorkItem = none)
    (moved : ∀ row ∈ selected, (change row).workItemId ≠ row.workItemId →
      (told row).previousWorkItem = some row.workItemId ∧
        (change row).workItemId ∉ rows.map TokenWorkItem.workItemId ∧
        ∀ event ∈ events, event.previousWorkItem ≠ some (change row).workItemId) :
    RetiredGone ⟨editRows TokenWorkItem.workItemId (selected.map fun row => (row, change row)) rows,
      events ++ selected.map told⟩ := by
  intro event recorded name linked stored
  obtain ⟨later, laterMem, rfl⟩ := mem_map.mp stored
  rcases mem_append.mp recorded with earlier | batch
  · -- An id given up before: neither kept rows nor fresh ids have it.
    rcases (mem_editRows edits).mp laterMem with ⟨_, member, rfl⟩ | ⟨laterStored, -⟩
    · obtain ⟨row, rowMem, rfl⟩ := mem_map.mp member
      by_cases same : (change row).workItemId = row.workItemId
      · refine gone event earlier _ linked ?_
        change (change row).workItemId ∈ _
        rw [same]
        exact mem_map_of_mem (edits.stored _ member)
      · exact (moved row rowMem same).2.2 event earlier linked
    · exact gone event earlier _ linked (mem_map_of_mem laterStored)
  · -- An id this batch gives up.
    obtain ⟨row, rowMem, rfl⟩ := mem_map.mp batch
    by_cases same : (change row).workItemId = row.workItemId
    · rw [kept row rowMem same] at linked
      cases linked
    have rowStored : row ∈ rows := edits.stored _ (mem_map_of_mem rowMem)
    rw [(moved row rowMem same).1] at linked
    have named := Option.some.inj linked
    rcases (mem_editRows edits).mp laterMem with ⟨_, member, rfl⟩ | ⟨-, untouched⟩
    · obtain ⟨other, otherMem, rfl⟩ := mem_map.mp member
      by_cases otherSame : (change other).workItemId = other.workItemId
      · have otherStored : other ∈ rows := edits.stored _ member
        have equal : other = row :=
          unique.eq_of_key otherStored rowStored (otherSame.symm.trans named.symm)
        exact same (equal ▸ otherSame)
      · refine (moved other otherMem otherSame).2.1 ?_
        rw [← named]
        exact mem_map_of_mem rowStored
    · refine untouched (mem_map.mpr ⟨_, mem_map_of_mem rowMem, ?_⟩)
      exact named

/-- A recovery that revives nothing leaves retired ids gone. -/
theorem Sweep.Swept.retiredGone {sweep : Sweep} {after : Db}
    (swept : sweep.Swept count before after) (gone : RetiredGone before.journal)
    (fresh : ∀ row ∈ before.tokenWorkItems.rows, row.runId = sweep.runId → row.status = .leased →
      sinkRedriveShaped row = false →
      ¬ before.Retired (requeueId row) ∧ ¬ before.Stores (requeueId row)) :
    RetiredGone after.journal := by
  obtain ⟨items, ledger, itemRows, -, rfl⟩ := swept.written
  change RetiredGone ⟨items.rows, _⟩
  rw [itemRows]
  refine retiredGone_of_edits gone (unique_workItemId before.tokenWorkItems)
    (Sweep.expired_edits sweep before.tokenWorkItems sweep.image) ?_ ?_
  · intro row rowMem same
    rw [sweep.image_workItemId] at same
    simp [SchedulerEvent.previousWorkItem, Sweep.event, same]
  · intro row rowMem moves
    obtain ⟨stored, due⟩ := Sweep.mem_expired.mp rowMem
    obtain ⟨⟨run, leased, -, -⟩, -⟩ := due_iff.mp due
    rw [sweep.image_workItemId] at moves ⊢
    -- A handoff keeps its id, so what moves is a transform lease.
    have transform : sinkRedriveShaped row = false := by
      cases shaped : sinkRedriveShaped row with
      | false => rfl
      | true => simp [Sweep.nextId, shaped] at moves
    have next : sweep.nextId row = requeueId row := by
      simp [Sweep.nextId, requeueId, transform, run]
    obtain ⟨unretired, unstored⟩ := fresh row stored run leased transform
    rw [← next] at unretired unstored
    refine ⟨?_, unstored, fun event recorded linked => unretired ⟨event, recorded, linked⟩⟩
    simp [SchedulerEvent.previousWorkItem, Sweep.event, moves]

/-- So does a requeue that revives nothing. -/
theorem Requeued.retiredGone {after : Db} (requeued : Requeued token count before after)
    (gone : RetiredGone before.journal) (fresh : ∀ row ∈ undecidedFailures token.runId before,
      ¬ before.Retired (requeueId row) ∧ ¬ before.Stores (requeueId row)) :
    RetiredGone after.journal := by
  obtain ⟨items, databaseNow, itemRows, rfl⟩ := requeued.written
  change RetiredGone ⟨items.rows, _⟩
  rw [itemRows]
  refine retiredGone_of_edits gone (unique_workItemId before.tokenWorkItems)
    (undecidedFailures_edits token.runId before databaseNow) ?_ ?_
  · intro row rowMem same
    -- The next attempt's id is not stored, so it is not the row's own.
    refine absurd ?_ (fresh row rowMem).2
    have own : requeueId row = row.workItemId := same
    rw [own]
    exact mem_map_of_mem (mem_undecidedFailures.mp rowMem).1
  · intro row rowMem _
    obtain ⟨unretired, unstored⟩ := fresh row rowMem
    exact ⟨rfl, unstored, fun event recorded linked => unretired ⟨event, recorded, linked⟩⟩

/-- What the body of a leader-fenced verb establishes for the journal holds after the
verb, which otherwise changes nothing there. -/
theorem journal_of_answer {body : Transaction α}
    {invariant : Ledger TokenWorkItem SchedulerEvent → Prop}
    (settles : Settles db (fun value after => LeaderRun token body value db after) outcome)
    (before : invariant db.journal)
    (step : ∀ value opened closed, Renewed db opened.db → body opened = .ok (value, closed) →
      invariant closed.db.journal) : invariant (answer wrap outcome).2.journal := by
  obtain ⟨reply, after⟩ := outcome
  have same : ∀ {first second : Db}, Quiet first second → second.journal = first.journal :=
    fun quiet => by rw [Db.journal, quiet.items, quiet.events]; rfl
  cases reply with
  | error =>
    have unchanged : after.journal = db.journal := same settles.quiet
    change invariant after.journal
    rw [unchanged]
    exact before
  | ok value =>
    obtain ⟨opened, closed, -, start, ran, finish⟩ := settles.ran
    change invariant after.journal
    rw [same finish.quiet]
    exact step value opened closed start ran

/-- **A call that revives nothing leaves retired ids gone.** -/
theorem serve_retiredGone (gone : RetiredGone db.journal)
    (revives : call.request.RevivesNothing db) : RetiredGone (serve call db).2.journal := by
  by_cases still : ¬ call.request.Rotating
  · intro event recorded name linked stored
    have retired : db.Retired name := by
      rcases serve_links_nothing still event recorded with earlier | unlinked
      · exact ⟨event, earlier, linked⟩
      · rw [unlinked] at linked
        cases linked
    rcases serve_stores still stored with before | ⟨identity, inserted, rfl⟩
    · obtain ⟨past, pastMem, pastLinked⟩ := retired
      exact gone past pastMem name pastLinked before
    · exact revives.1 identity inserted retired
  obtain ⟨env, request⟩ := call
  cases request with
  | recoverExpiredLeases token grace stallBudget =>
    have fresh : ∀ row ∈ db.tokenWorkItems.rows, row.runId = token.runId →
        row.status = .leased → sinkRedriveShaped row = false →
        ¬ db.Retired (requeueId row) ∧ ¬ db.Stores (requeueId row) := by
      intro row stored run leased transform
      refine revives.2 row (mem_filter.mpr ⟨stored, ?_⟩)
      simp [run, leased, transform]
    refine journal_of_answer (recoverExpiredLeases_settles token grace stallBudget) gone ?_
    rintro count opened closed ⟨table, -, openedDb⟩ ran
    refine (rotateExpiredLeases_ok ran).retiredGone ?_ ?_
    · exact openedDb ▸ gone
    · exact openedDb ▸ fresh
  | requeueUndecidedFailedWork =>
    refine journal_of_answer (requeueUndecidedFailedWork_settles ..) gone ?_
    rintro count opened closed ⟨table, -, openedDb⟩ ran
    refine (requeueUndecidedFailedWorkOn_ok ran).1.retiredGone ?_ ?_
    · exact openedDb ▸ gone
    · exact openedDb ▸ revives.2
  | _ => exact absurd (fun rotating => rotating) still

/-! ## Histories -/

/-- A lease found after a history was there before it or was granted within it. -/
theorem leases_of_history {calls : List Call} (leases : (after serve db calls).Leases name) :
    db.Leases name ∨ ∃ exchange ∈ exchanges serve db calls,
      GrantsLease name exchange.call.request exchange.reply := by
  induction calls generalizing db with
  | nil => exact .inl leases
  | cons call calls ih =>
    rcases ih leases with between | ⟨exchange, member, grants⟩
    · rcases serve_leases between with before | grants
      · exact .inl before
      · exact .inr ⟨_, mem_cons_self, grants⟩
    · exact .inr ⟨exchange, mem_cons_of_mem _ member, grants⟩

/-- What the log shows as given up stays so. -/
theorem retired_of_history (retired : db.Retired name) (calls : List Call) :
    (after serve db calls).Retired name :=
  after_induction (Db.Retired · name) (fun _ _ => serve_retired) retired calls

/-- **Stale leases are worth nothing**, in every history from an empty log that stores no
retired id again.  Between two dispositions of one item the item was claimed; an id that
disappears is retired; a retired id is never renewed or disposed of again, by nobody; and a
refused call leaves rows and events alone, except that a refused renewal may note its
loss. -/
theorem no_stale_disposition {db : Db} {calls : List Call} (name : String)
    (silent : db.schedulerEvents = [])
    (fresh : Complies serve (fun db call => call.request.RevivesNothing db) db calls) :
    (∀ earlier first between second later reply reply',
        calls = earlier ++ first :: (between ++ second :: later) →
        first.request.disposes = some name → second.request.disposes = some name →
        (serve first (after serve db earlier)).1 = .ok reply →
        (serve second (after serve db (earlier ++ first :: between))).1 = .ok reply' →
        ∃ exchange ∈ exchanges serve (after serve db (earlier ++ [first])) between,
          GrantsLease name exchange.call.request exchange.reply) ∧
      (∀ exchange ∈ exchanges serve db calls, exchange.before.Stores name →
        ¬ exchange.after.Stores name → exchange.after.Retired name) ∧
      (∀ earlier later, calls = earlier ++ later → (after serve db earlier).Retired name →
        ∀ call : Call, call.request.disposes = some name ∨ call.request.renews = some name →
          ∃ raised, (serve call (after serve db calls)).1 = .error raised) ∧
      ∀ (call : Call) raised, (serve call (after serve db calls)).1 = .error raised →
        (call.request.marks = true →
          OnlyRefusal (after serve db calls) (serve call (after serve db calls)).2) ∧
        (call.request.renews = some name →
          (serve call (after serve db calls)).2.tokenWorkItems =
              (after serve db calls).tokenWorkItems ∧
            ∃ notes : List SchedulerEvent, notes.length ≤ 1 ∧
              (∀ note ∈ notes, note.eventType = .leaseLost) ∧
              (serve call (after serve db calls)).2.schedulerEvents =
                (after serve db calls).schedulerEvents ++ notes) := by
  refine ⟨?_, ?_, ?_, ?_⟩
  · intro earlier first between second later reply reply' split names namesToo disposed disposedToo
    have consumed := (serve_disposes names disposed).2
    have leased := (serve_disposes namesToo disposedToo).1
    rw [after_append, after_cons] at leased
    rw [after_append]
    exact (leases_of_history leased).resolve_left consumed
  · intro exchange member stored gone
    obtain ⟨-, -, -, -, served⟩ := exchanges_split member
    rw [(Prod.mk.inj served).2] at gone ⊢
    exact serve_retires stored gone
  · intro earlier later split retired call names
    have gone : RetiredGone (after serve db calls).journal := by
      refine complies_induction (fun db => RetiredGone db.journal)
        (fun call db revives gone => serve_retiredGone gone revives) ?_ fresh
      intro event recorded
      rw [Db.journal, silent] at recorded
      cases recorded
    have later : (after serve db calls).Retired name := by
      rw [split, after_append]
      exact retired_of_history retired later
    obtain ⟨event, recorded, linked⟩ := later
    have absent : ¬ (after serve db calls).Stores name := gone event recorded name linked
    cases served : (serve call (after serve db calls)).1 with
    | error raised => exact ⟨raised, rfl⟩
    | ok =>
      rcases names with disposes | renews
      · exact absurd (serve_disposes disposes served).1.stores absent
      · exact absurd (serve_renews renews served) absent
  · intro call raised refused
    exact ⟨fun marks => serve_refused marks refused,
      fun renews => serve_renewal_refused renews refused⟩

end Histories

/-- In the worked history the rotation retires the first attempt, and its holder can no
longer renew it. -/
theorem no_stale_disposition_worked :
    (after Worked.serve Db.empty (Worked.opening ++ Worked.rotation)).Retired
        firstAttempt ∧
      ∃ raised, (Worked.serve (Worked.call (1000 * second) (.heartbeatLease Worked.follower
          firstAttempt "worker-1" (300 * second)))
        (after Worked.serve Db.empty (Worked.opening ++ Worked.rotation))).1 = .error raised := by
  have fresh : Complies Worked.serve
      (fun db call => @Request.RevivesNothing digest call.request db) Db.empty
      (opening ++ Worked.rotation) := by decide +kernel
  have retired : (after Worked.serve Db.empty (Worked.opening ++ Worked.rotation)).Retired
      firstAttempt := by decide +kernel
  refine ⟨retired, ?_⟩
  exact (@no_stale_disposition digest Db.empty _ firstAttempt rfl fresh).2.2.1
    _ [] (append_nil _).symm retired _ (.inr rfl)

/-- The holder of the rotated lease replays its claiming enqueue. -/
def Worked.revival : List Call :=
  [call (1000 * second) (.enqueueReadyClaimed follower values "worker-1"
    (300 * second))]

/-- **The replay revives the retired id**: the rotation gave it up, and afterwards a renewal
and a disposition that name it succeed, while the rotated item is open as well. -/
theorem replay_revives_retired_lease :
    (after Worked.serve Db.empty (Worked.opening ++ Worked.rotation)).Retired
        firstAttempt ∧
      ¬ (after Worked.serve Db.empty (Worked.opening ++ Worked.rotation)).Stores
        firstAttempt ∧
      (Worked.serve (Worked.call (1000 * second) (.heartbeatLease Worked.follower
          firstAttempt "worker-1" (300 * second)))
        (after Worked.serve Db.empty
          (opening ++ Worked.rotation ++ revival))).1 =
        .ok (.deadline (1300 * second)) ∧
      (Worked.serve (Worked.call (1000 * second) (.mark .terminal Worked.follower
          firstAttempt "worker-1" []))
        (after Worked.serve Db.empty
          (opening ++ Worked.rotation ++ revival))).1.isOk = true := by
  decide +kernel

end Elspeth
