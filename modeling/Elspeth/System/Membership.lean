import Elspeth.System.Leadership
import Elspeth.System.StaleLeases

/-!
# Membership

Three tables have to agree for an eviction to be safe: the registry says who is a
member, the seats say who leads, and the journal says who holds leases.  They are
written by different verbs under different fences.  `Db.Staffed` is what ties them
together: the holder of a seat is a registered leader of the run that was not
evicted, and the owner of a lease is registered in the run of its item.
-/

namespace Elspeth

open Relational EventSourcing Worked Option Scope

/-! ## Registry rows over time -/

variable {doomed : RunWorker → Prop} {hired : List (String × String × WorkerRole)}
  {worker : RunWorker} {issued : Option CoordinationToken}

theorem RunWorker.Spared.evolves {old new : RunWorker} (spared : old.Spared doomed new) :
    old.Evolves new := spared.1

/-- A registered worker stays registered. -/
theorem Staffs.follows {before after : List RunWorker} (staffs : Staffs doomed hired before after)
    (registered : worker ∈ before) : ∃ later ∈ after, worker.Spared doomed later := by
  obtain ⟨kept, added, rfl, spared, -⟩ := staffs
  obtain ⟨later, laterMem, follows⟩ := mem_of_forall₂_left spared registered
  exact ⟨later, List.mem_append_left added laterMem, follows⟩

/-- The registry change behind a step. -/
theorem Governs.staffs {before after : Db} (governs : Governs before issued after) :
    ∃ doomed hired, Staffs doomed hired before.runWorkers.rows after.runWorkers.rows := by
  cases governs with
  | keep hired followers seats workers => exact ⟨_, _, workers⟩
  | mint runId workerId absent seats workers => exact ⟨_, _, workers⟩
  | take workerId seat present seats workers => exact ⟨_, _, workers⟩
  | vacate seat present seats workers => exact ⟨_, _, workers⟩
  | evict token target grace now held seats workers => exact ⟨_, _, workers⟩

/-- Every step keeps each registered worker's identity, and its status once inactive. -/
theorem Governs.evolves {before after : Db} (governs : Governs before issued after)
    (registered : worker ∈ before.runWorkers.rows) :
    ∃ later ∈ after.runWorkers.rows, worker.Evolves later := by
  obtain ⟨doomed, hired, staffs⟩ := governs.staffs
  obtain ⟨later, laterMem, spared⟩ := staffs.follows registered
  exact ⟨later, laterMem, spared.evolves⟩

/-! ## Seats and registry -/

/-- The holder of every seat is a registered leader of the run and was not evicted. -/
def Db.Seated (db : Db) : Prop :=
  ∀ seat ∈ db.holdings, ∀ leader, seat.leaderWorkerId = some leader →
    ∃ worker ∈ db.runWorkers.rows, worker.workerId = leader ∧ worker.runId = seat.runId ∧
      worker.role = .leader ∧ worker.status ≠ .evicted

/-- A seated leader whom a step does not doom is seated afterwards. -/
theorem Staffs.seated {before after : List RunWorker} (staffs : Staffs doomed hired before after)
    {leader runId : String}
    (seated : ∃ worker ∈ before, worker.workerId = leader ∧ worker.runId = runId ∧
      worker.role = .leader ∧ worker.status ≠ .evicted ∧ ¬ doomed worker) :
    ∃ worker ∈ after, worker.workerId = leader ∧ worker.runId = runId ∧
      worker.role = .leader ∧ worker.status ≠ .evicted := by
  obtain ⟨worker, registered, rfl, rfl, leads, live, safe⟩ := seated
  obtain ⟨later, laterMem, evolves, evicted⟩ := staffs.follows registered
  refine ⟨later, laterMem, evolves.workerId, evolves.runId, evolves.role.trans leads, ?_⟩
  intro lost
  exact (evicted lost).elim live safe

/-- Whom a step hires is registered afterwards. -/
theorem Staffs.hires {workerId runId : String} {role : WorkerRole} {before after : List RunWorker}
    (staffs : Staffs doomed [(workerId, runId, role)] before after) :
    ∃ worker ∈ after, worker.workerId = workerId ∧ worker.runId = runId ∧ worker.role = role ∧
      worker.status ≠ .evicted := by
  obtain ⟨kept, added, rfl, -, identities, live⟩ := staffs
  have member : (workerId, runId, role) ∈ added.map RunWorker.identity := by
    rw [identities]
    exact List.mem_singleton_self _
  obtain ⟨worker, workerMem, same⟩ := List.mem_map.mp member
  simp only [RunWorker.identity, Prod.mk.injEq] at same
  exact ⟨worker, List.mem_append_right kept workerMem, same.1, same.2.1, same.2.2,
    live worker workerMem⟩

/-- **Every step keeps seats and registry in agreement.** -/
theorem Governs.seated {before after : Db} (governs : Governs before issued after)
    (seated : before.Seated) : after.Seated := by
  have spared : ∀ seat ∈ before.holdings, ∀ leader, seat.leaderWorkerId = some leader →
      ∃ worker ∈ before.runWorkers.rows, worker.workerId = leader ∧ worker.runId = seat.runId ∧
        worker.role = .leader ∧ worker.status ≠ .evicted ∧ ¬ nobody worker := by
    intro seat present leader leads
    obtain ⟨worker, registered, named, run, role, live⟩ := seated seat present leader leads
    exact ⟨worker, registered, named, run, role, live, id⟩
  cases governs with
  | keep hired followers seats workers =>
    intro seat present leader leads
    rw [seats] at present
    exact workers.seated (spared seat present leader leads)
  | mint runId workerId absent seats workers =>
    intro seat present leader leads
    rw [seats, List.mem_append, List.mem_singleton] at present
    rcases present with present | rfl
    · exact workers.seated (spared seat present leader leads)
    · obtain rfl := some.inj leads
      exact workers.hires
  | take workerId old present seats workers =>
    intro seat taken leader leads
    rw [seats, mem_replaceRow present] at taken
    rcases taken with rfl | ⟨other, apart⟩
    · obtain rfl := some.inj leads
      exact workers.hires
    · -- The deposed leader leads no second run: it is registered in one only.
      obtain ⟨worker, registered, named, run, role, live⟩ := seated seat other leader leads
      refine workers.seated ⟨worker, registered, named, run, role, live, fun doomed => ?_⟩
      obtain ⟨holder, holderMem, holderNamed, holderRun, -⟩ :=
        seated old present worker.workerId doomed
      have same : holder = worker :=
        (unique_workerId before.runWorkers).eq_of_key holderMem registered holderNamed
      exact apart (run.symm.trans (same ▸ holderRun))
  | vacate old present seats workers =>
    intro seat vacated leader leads
    rw [seats, mem_replaceRow present] at vacated
    rcases vacated with rfl | ⟨other, -⟩
    · cases leads
    · exact workers.seated (spared seat other leader leads)
  | evict token target grace now held seats workers =>
    intro seat present leader leads
    rw [seats] at present
    obtain ⟨worker, registered, named, run, role, live⟩ := seated seat present leader leads
    refine workers.seated ⟨worker, registered, named, run, role, live, fun evictable => ?_⟩
    have follower := evictable.target
    simp [evictionTarget, role] at follower

/-- The holder of a seat is registered under its run, as a leader that was not evicted. -/
theorem Db.Seated.holder {db : Db} (seated : db.Seated) {token : CoordinationToken}
    (held : db.Holds token) :
    ∃ worker ∈ db.runWorkers.rows, worker.workerId = token.workerId ∧
      worker.runId = token.runId ∧ worker.role = .leader ∧ worker.status ≠ .evicted :=
  seated _ (Db.holds_iff.mp held) token.workerId rfl

section Histories

variable [Digest]

/-! ## Leases and registry -/

/-- Some registered worker of the run has this id. -/
def Db.Registers (db : Db) (workerId runId : String) : Prop :=
  ∃ worker ∈ db.runWorkers.rows, worker.workerId = workerId ∧ worker.runId = runId

omit [Digest] in
theorem Governs.registers {before after : Db} {issued : Option CoordinationToken}
    (governs : Governs before issued after) {workerId runId : String}
    (registers : before.Registers workerId runId) : after.Registers workerId runId := by
  obtain ⟨worker, registered, rfl, rfl⟩ := registers
  obtain ⟨later, laterMem, evolves⟩ := governs.evolves registered
  exact ⟨later, laterMem, evolves.workerId, evolves.runId⟩

variable {db : Db} {token : CoordinationToken} {α : Type} {item : TokenWorkItem} {call : Call}
  {worker : RunWorker}

omit [Digest] in
theorem Db.Member.registers {member : WorkerMembershipToken} (joined : db.Member member) :
    db.Registers member.workerId member.runId := by
  obtain ⟨worker, registered, active⟩ := joined
  obtain ⟨run, named, -⟩ := WorkerMembershipToken.active_iff.mp active
  exact ⟨worker, registered, named, run⟩

omit [Digest] in
theorem Db.Seated.registers (seated : db.Seated) (held : db.Holds token) :
    db.Registers token.workerId token.runId := by
  obtain ⟨worker, registered, named, run, -⟩ := seated.holder held
  exact ⟨worker, registered, named, run⟩

/-- The owner of every lease is registered in the run of its item. -/
def Db.OwnersRegistered (db : Db) : Prop :=
  ∀ item ∈ db.tokenWorkItems.rows, item.status = .leased → ∀ owner, item.leaseOwner = some owner →
    db.Registers owner item.runId

/-- Seats, registry and leases agree. -/
structure Db.Staffed (db : Db) : Prop where
  seated : db.Seated
  owners : db.OwnersRegistered

variable {wrap : α → Reply} {returned : α → Db → Prop} {outcome : Except LandscapeError α × Db}

theorem reported_of_answer (settles : Settles db returned outcome)
    (reports : itemReported (answer wrap outcome).1 = some item) :
    ∃ value, returned value outcome.2 := by
  obtain ⟨result, after⟩ := outcome
  cases result with
  | error => cases reports
  | ok value => exact ⟨value, settles⟩

/-- A call that reports a claim made it for a registered worker of the item's run. -/
theorem serve_claims_registered (seated : db.Seated) {source : ClaimSource} {leaseOwner : String}
    {expiresAt databaseNow : Time}
    (allowed : (call.request.scope db (itemReported (serve call db).1)).action
      (.claim source leaseOwner expiresAt databaseNow) item) :
    db.Registers leaseOwner item.runId := by
  obtain ⟨env, request⟩ := call
  cases request with
  | enqueueReadyClaimed =>
    obtain ⟨_, _, same, run, reports⟩ := allowed
    obtain ⟨_, owned, authority⟩ := reported_of_answer
      (enqueueReadyClaimed_settles ..) reports
    rw [run, (Action.claim.inj same).2.1, owned]
    exact authority.member.registers
  | ingestRowWithInitialClaim =>
    obtain ⟨_, _, same, run, reports⟩ := allowed
    obtain ⟨_, owned, authority⟩ := reported_of_answer
      (ingestRowWithInitialClaim_settles ..) reports
    rw [run, (Action.claim.inj same).2.1, owned]
    exact seated.registers authority.held
  | claimReady =>
    obtain ⟨_, _, same, run, reports⟩ := allowed
    obtain ⟨_, owned, authority⟩ := reported_of_answer (claimReady_settles ..)
      reports
    rw [run, (Action.claim.inj same).2.1, owned]
    exact authority.member.registers
  | claimPendingSink =>
    obtain ⟨_, _, same, run, reports⟩ := allowed
    obtain ⟨_, owned, authority⟩ := reported_of_answer (claimPendingSink_settles ..)
      reports
    rw [run, (Action.claim.inj same).2.1, owned]
    exact seated.registers authority.held
  | _ =>
    simp [Request.scope, still, births, renewing, recovering,
      requeueing, disposing, finishing, BarrierCompletion.scope,
      adopting, resetting] at allowed

/-- An edge that ends in a lease is a claim, or leaves run and owner of a lease alone. -/
theorem Action.owner_next {outcomes : List TokenOutcome} {action : Action}
    (enabled : action.Enabled outcomes item)
    (leased : (action.next outcomes item).status = .leased) :
    (∃ source leaseOwner expiresAt databaseNow,
        action = .claim source leaseOwner expiresAt databaseNow) ∨
      item.status = .leased ∧ (action.next outcomes item).leaseOwner = item.leaseOwner ∧
        (action.next outcomes item).runId = item.runId := by
  cases action with
  | claim source leaseOwner expiresAt databaseNow =>
    exact Or.inl ⟨source, leaseOwner, expiresAt, databaseNow, rfl⟩
  | renew => exact Or.inr ⟨enabled, rfl, rfl⟩
  | rotate | release | requeue | finishSink | consume | handOff => cases leased
  | dispose image databaseNow => cases image <;> cases leased
  | adopt | reset => exact Or.inr ⟨leased, rfl, rfl⟩

/-- **Every call keeps seats, registry and leases in agreement.** -/
theorem serve_staffed (call : Call) (staffed : db.Staffed) : (serve call db).2.Staffed := by
  have performs := serve_performs call db
  refine ⟨performs.governs.seated staffed.seated, ?_⟩
  have owned : ∀ row ∈ (serve call db).2.tokenWorkItems.rows, row.status = .leased →
      ∀ owner, row.leaseOwner = some owner → db.Registers owner row.runId := by
    refine Course.forall_rows performs.travels ?_ ?_ staffed.owners
    · rintro row event ⟨born, -⟩ leased
      cases born <;> cases leased
    · rintro old new entry ⟨action, allowed, enabled, rfl, -⟩ before leased owner owns
      rcases Action.owner_next enabled leased with
        ⟨source, leaseOwner, expiresAt, databaseNow, rfl⟩ | ⟨oldLeased, sameOwner, sameRun⟩
      · obtain rfl := some.inj owns
        change db.Registers leaseOwner old.runId
        exact serve_claims_registered staffed.seated allowed
      · rw [sameRun]
        exact before oldLeased owner (sameOwner ▸ owns)
  intro item stored leased owner owns
  exact performs.governs.registers (owned item stored leased owner owns)

theorem staffed_of_history (staffed : db.Staffed) (calls : List Call) :
    (after serve db calls).Staffed :=
  after_induction Db.Staffed (fun call _ => serve_staffed call) staffed calls

/-! ## Evictions -/

/-- What a successful eviction found: a registered follower that leads no run, whose
registration expired before the grace and whose leases have expired. -/
theorem serve_evicts {env : CallEnv} {target : String} {grace window : Int} (staffed : db.Staffed)
    (evicts : (serve ⟨env, .evictWorker token target grace window⟩ db).1 = .ok (.evicted true)) :
    (∀ seat ∈ db.holdings, seat.leaderWorkerId ≠ some target) ∧
      (∃ worker ∈ db.runWorkers.rows, worker.workerId = target ∧
        worker.heartbeatExpiresAt < env.decisionTime 1 - grace) ∧
      ∀ item ∈ db.tokenWorkItems.rows, item.status = .leased → item.leaseOwner = some target →
        ∀ expiresAt, item.leaseExpiresAt = some expiresAt → expiresAt < env.decisionTime 1 := by
  simp only [serve, answer] at evicts
  have settles : Settles db (fun evicted after => LeaderRun token
      (evictWorkerOn env token target grace) evicted db after)
      (evictWorker env token target grace window db) := settles_leaderFenced
  cases ran : evictWorker env token target grace window db with
  | mk reply after =>
    rw [ran] at evicts settles
    cases reply with
    | error => cases evicts
    | ok evicted =>
      obtain rfl : evicted = true := by simpa [Except.map] using evicts
      obtain ⟨opened, closed, reads, ⟨table, seats, openedDb⟩, inner, -⟩ := settles.ran
      have held : opened.db.Holds token := by
        rw [Db.holds_iff]
        have same : opened.db.holdings = db.holdings := by
          rw [openedDb]
          exact seats
        rw [same]
        exact Db.holds_iff.mp settles.held
      obtain ⟨worker, registered, evictable⟩ := (evictWorkerOn_ok held inner).2 rfl
      rw [openedDb] at registered
      rw [reads, openedDb] at evictable
      have target' := evictable.target
      simp only [evictionTarget, Bool.and_eq_true, decide_eq_true_eq] at target'
      obtain ⟨⟨⟨named, run⟩, follower⟩, -⟩ := target'
      refine ⟨fun seat present leads => ?_, ⟨worker, registered, named, ?_⟩, ?_⟩
      · -- The leader of a seat is registered as a leader, the target as a follower.
        obtain ⟨leader, leaderMem, leaderNamed, -, role, -⟩ :=
          staffed.seated seat present target leads
        have same : leader = worker := (unique_workerId db.runWorkers).eq_of_key leaderMem
          registered (leaderNamed.trans named.symm)
        rw [same, follower] at role
        cases role
      · exact evictable.expired
      · intro item stored leased owns expiresAt expires
        -- An owner is registered in the run of its lease, so the run the verb looked at.
        obtain ⟨owner, ownerMem, ownerNamed, ownerRun⟩ :=
          staffed.owners item stored leased target owns
        have same : owner = worker := (unique_workerId db.runWorkers).eq_of_key ownerMem
          registered (ownerNamed.trans named.symm)
        have sameRun : item.runId = token.runId := by rw [← ownerRun, same, run]
        have idle := evictable.idle item stored
        simp only [holdsLiveLease, sameRun, leased, owns, expires, any_some] at idle
        simpa using idle

/-! ## After an eviction -/

/-- The worker a claim, renewal or disposition acts for; a batch without members acts
for nobody. -/
def Request.actor : Request → Option String
  | .claimReady member .. | .enqueueReadyClaimed member .. | .heartbeatLease member ..
  | .markBlocked member .. | .mark _ member .. | .markWithReadyChildren _ member .. =>
    some member.workerId
  | .claimPendingSink token .. | .ingestRowWithInitialClaim token ..
  | .markPendingSinkTerminal token .. | .terminalizePendingSinksWithTerminalOutcomes token ..
  | .completeBarrier token .. | .markBlockedBarrierTerminal token .. => some token.workerId
  | .markPendingSinkTerminalMany token tokenIds _ =>
    if tokenIds = [] then none else some token.workerId
  | .markBlockedBarrierPendingSinkMany token _ handoffs _ =>
    if handoffs = [] then none else some token.workerId
  | _ => none

theorem raises_of_answer (settles : Settles db returned outcome)
    (never : ∀ value after, ¬ returned value after) :
    ∃ raised, (answer wrap outcome).1 = .error raised := by
  obtain ⟨result, after⟩ := outcome
  cases result with
  | error raised => exact ⟨raised, rfl⟩
  | ok value => exact absurd settles (never value after)

/-- **An evicted worker is refused** every claim, renewal and disposition. -/
theorem serve_refuses_evicted (staffed : db.Staffed) (registered : worker ∈ db.runWorkers.rows)
    (evicted : worker.status = .evicted) (acts : call.request.actor = some worker.workerId) :
    ∃ raised, (serve call db).1 = .error raised := by
  have notMember {member : WorkerMembershipToken}
    (named : some member.workerId = some worker.workerId) :
      ¬ db.Member member := by
    rintro ⟨other, otherMem, active⟩
    obtain ⟨-, otherNamed, live⟩ := WorkerMembershipToken.active_iff.mp active
    have same : other = worker := (unique_workerId db.runWorkers).eq_of_key otherMem registered
      (otherNamed.trans (some.inj named))
    rw [same, evicted] at live
    cases live
  have notLeader {token : CoordinationToken} (named : some token.workerId = some worker.workerId) :
      ¬ db.Holds token := by
    intro held
    obtain ⟨other, otherMem, otherNamed, -, -, live⟩ := staffed.seated.holder held
    have same : other = worker := (unique_workerId db.runWorkers).eq_of_key otherMem registered
      (otherNamed.trans (some.inj named))
    exact live (same ▸ evicted)
  obtain ⟨env, request⟩ := call
  cases request with
  | claimReady =>
    exact raises_of_answer (claimReady_settles ..) fun _ _ run => notMember acts run.2.member
  | enqueueReadyClaimed =>
    exact raises_of_answer (enqueueReadyClaimed_settles ..)
      fun _ _ run => notMember acts run.2.member
  | heartbeatLease member workItemId leaseOwner lease =>
    rcases heartbeatLease_cases member workItemId leaseOwner lease with
      ⟨-, -, joined, -⟩ | ⟨-, raised, error⟩
    · exact absurd joined (notMember acts)
    · refine ⟨raised, ?_⟩
      simp only [serve, answer]
      rw [error]
      rfl
  | markBlocked =>
    exact raises_of_answer (markBlocked_settles ..) fun _ _ run => notMember acts run.2.2.member
  | mark disposition _ workItemId leaseOwner =>
    exact raises_of_answer (transition_settles _ workItemId leaseOwner
      (disposition.image workItemId leaseOwner) _) fun _ _ run => notMember acts run.2.member
  | markWithReadyChildren =>
    exact raises_of_answer (markWithReadyChildren_settles ..)
      fun _ _ run => notMember acts run.2.member
  | claimPendingSink =>
    exact raises_of_answer (claimPendingSink_settles ..) fun _ _ run => notLeader acts run.2.held
  | ingestRowWithInitialClaim =>
    exact raises_of_answer (ingestRowWithInitialClaim_settles ..)
      fun _ _ run => notLeader acts run.2.held
  | markPendingSinkTerminal token tokenId leaseOwner =>
    have refused : (fencedLeaderTransaction env token defaultRunLivenessWindow
        "mark_pending_sink_terminal"
        (markPendingSinkTerminalOn env token.runId tokenId leaseOwner) db).1 = _ :=
      (fencedLeaderTransaction_refused (notLeader acts)).1
    -- Lost leadership is not the miss that this verb reports as zero.
    refine ⟨leadershipLost token "mark_pending_sink_terminal", ?_⟩
    simp only [serve, answer, markPendingSinkTerminal]
    split
    next missed =>
      rw [missed] at refused
      cases refused
    next => rw [refused]; rfl
  | terminalizePendingSinksWithTerminalOutcomes =>
    exact raises_of_answer (terminalizePendingSinksWithTerminalOutcomes_settles ..)
      fun _ _ run => notLeader acts run.held
  | completeBarrier =>
    exact raises_of_answer (completeBarrier_settles ..) fun _ _ run => notLeader acts run.2.held
  | markBlockedBarrierTerminal =>
    exact raises_of_answer (markBlockedBarrierTerminal_settles ..)
      fun _ _ run => notLeader acts run.2.held
  | markPendingSinkTerminalMany token tokenIds =>
    obtain ⟨some, named⟩ := ite_none_left_eq_some.mp acts
    simp only [serve, answer, markPendingSinkTerminalMany, if_neg some]
    split
    · exact ⟨_, rfl⟩
    · rw [(fencedLeaderTransaction_refused (notLeader named)).1]
      exact ⟨_, rfl⟩
  | markBlockedBarrierPendingSinkMany token _ handoffs =>
    obtain ⟨some, named⟩ := ite_none_left_eq_some.mp acts
    simp only [serve, answer, markBlockedBarrierPendingSinkMany, if_neg some]
    split
    next ran => exact absurd (completeBarrier_settles token _ |>.ok ran).2.held (notLeader named)
    next => exact ⟨_, rfl⟩
  | _ => cases acts

/-! ## Histories -/

/-- An inactive worker keeps its status through every history. -/
theorem inactive_of_history (registered : worker ∈ db.runWorkers.rows)
    (inactive : worker.status ≠ .active) (calls : List Call) :
    ∃ later ∈ (after serve db calls).runWorkers.rows, later.workerId = worker.workerId ∧
      later.status = worker.status := by
  refine after_induction (fun db : Db => ∃ later ∈ db.runWorkers.rows,
    later.workerId = worker.workerId ∧ later.status = worker.status) ?_
    ⟨worker, registered, rfl, rfl⟩ calls
  rintro call db ⟨old, oldMem, named, same⟩
  obtain ⟨later, laterMem, evolves⟩ := (serve_performs call db).governs.evolves oldMem
  have kept := evolves.inactive (same ▸ inactive)
  exact ⟨later, laterMem, evolves.workerId.trans named, kept.trans same⟩

/-- **Membership is one-way and eviction is safe**, in every history from a
database without seats and items.  Whoever is not active keeps this status for ever.  An eviction
that succeeds found a worker that leads no run, whose registration had expired by the
eviction's clock reading less the grace it was given, so had expired unless that grace was
negative, and none of whose leases, in any run, was unexpired.  And once a worker is evicted,
every claim, renewal and disposition it attempts raises. -/
theorem eviction_safe {db : Db} {calls : List Call} (vacant : db.runCoordination.rows = [])
    (empty : db.tokenWorkItems.rows = []) :
    (∀ earlier later, calls = earlier ++ later →
      ∀ worker ∈ (after serve db earlier).runWorkers.rows, worker.status ≠ .active →
        ∀ now ∈ (after serve db calls).runWorkers.rows, now.workerId = worker.workerId →
          now.status = worker.status) ∧
      (∀ exchange ∈ exchanges serve db calls, ∀ token target grace window,
        exchange.call.request = .evictWorker token target grace window →
        exchange.reply = .ok (.evicted true) →
        (∀ seat ∈ exchange.before.holdings, seat.leaderWorkerId ≠ some target) ∧
          (∃ worker ∈ exchange.before.runWorkers.rows, worker.workerId = target ∧
            worker.heartbeatExpiresAt < exchange.call.env.decisionTime 1 - grace ∧
            (0 ≤ grace → worker.heartbeatExpiresAt < exchange.call.env.decisionTime 1)) ∧
          ∀ item ∈ exchange.before.tokenWorkItems.rows, item.status = .leased →
            item.leaseOwner = some target → ∀ expiresAt, item.leaseExpiresAt = some expiresAt →
              expiresAt < exchange.call.env.decisionTime 1) ∧
      ∀ earlier later, calls = earlier ++ later →
        ∀ worker ∈ (after serve db earlier).runWorkers.rows, worker.status = .evicted →
          ∀ call : Call, call.request.actor = some worker.workerId →
            ∃ raised, (serve call (after serve db calls)).1 = .error raised := by
  have staffed : db.Staffed := by
    constructor
    · intro seat present
      rw [Db.holdings, vacant] at present
      cases present
    · intro item stored
      rw [empty] at stored
      cases stored
  refine ⟨?_, ?_, ?_⟩
  · rintro earlier later rfl worker registered inactive now nowMem named
    rw [after_append] at nowMem
    obtain ⟨kept, keptMem, keptNamed, same⟩ := inactive_of_history registered inactive later
    have equal : now = kept :=
      (unique_workerId (after serve (after serve db earlier) later).runWorkers).eq_of_key nowMem
        keptMem (named.trans keptNamed.symm)
    rw [equal, same]
  · intro exchange member token target grace window asks evicts
    obtain ⟨earlier, later, -, before, served⟩ := exchanges_split member
    have reached : exchange.before.Staffed := by
      rw [before]
      exact staffed_of_history staffed earlier
    obtain ⟨state, ⟨env, request⟩, reply, next⟩ := exchange
    cases asks
    have succeeded : (serve ⟨env, .evictWorker token target grace window⟩ state).1 =
        .ok (.evicted true) := by
      rw [← served]
      exact evicts
    obtain ⟨leaderless, ⟨worker, registered, named, lapsed⟩, idle⟩ :=
      serve_evicts reached succeeded
    refine ⟨leaderless, ⟨worker, registered, named, lapsed, fun patient => ?_⟩, idle⟩
    exact lt_of_lt_of_le lapsed (Int.sub_le_self _ patient)
  · rintro earlier later rfl worker registered evicted call acts
    have inactive : worker.status ≠ .active := by
      rw [evicted]
      exact fun same => by cases same
    obtain ⟨kept, keptMem, keptNamed, same⟩ := inactive_of_history registered inactive later
    rw [after_append]
    refine serve_refuses_evicted (staffed_of_history (staffed_of_history staffed earlier) later)
      keptMem (same.trans evicted) ?_
    rw [keptNamed]
    exact acts

end Histories

/-- The eviction of the worked history's follower, after its lease was rotated. -/
def Worked.eviction : List Call :=
  [call (2000 * second)
    (.evictWorker leader "worker-1" 0 defaultRunLivenessWindow)]

/-- The leader evicts the follower whose registration lapsed, and the follower can claim
nothing any more. -/
theorem eviction_safe_worked :
    (after Worked.serve Db.empty
        (opening ++ Worked.rotation ++ eviction)).runWorkers.rows.map
          RunWorker.status = [.active, .evicted] ∧
      ∃ raised, (Worked.serve
        (call (2000 * second) (.claimReady follower "worker-1" (300 * second)))
        (after Worked.serve Db.empty
          (Worked.opening ++ Worked.rotation ++ Worked.eviction))).1 = .error raised := by
  refine ⟨by decide +kernel, ?_⟩
  have evicted : ∃ worker ∈ (after Worked.serve Db.empty
      (opening ++ Worked.rotation ++ eviction)).runWorkers.rows,
      worker.status = .evicted ∧ worker.workerId = "worker-1" := by decide +kernel
  obtain ⟨worker, registered, status, named⟩ := evicted
  unfold Worked.serve at registered ⊢
  have acts : (call (2000 * second) (.claimReady follower "worker-1"
      (300 * second))).request.actor = some worker.workerId := by
    rw [named]
    rfl
  exact (@eviction_safe digest Db.empty
    (opening ++ Worked.rotation ++ eviction) rfl rfl).2.2 _ []
    (List.append_nil _).symm worker registered status _ acts

/-- **A negative grace evicts a live member**: the verb does not check its grace, and the
follower whose registration runs for another eighty seconds is evicted. -/
theorem negative_grace_evicts_registered :
    (∃ worker ∈ (after Worked.serve Db.empty opening).runWorkers.rows,
        worker.workerId = "worker-1" ∧ worker.status = .active ∧
          (0 : Time) < worker.heartbeatExpiresAt) ∧
      (Worked.serve (call 0 (.evictWorker leader "worker-1" (-100 * second)
        defaultRunLivenessWindow)) (after Worked.serve Db.empty opening)).1 =
          .ok (.evicted true) := by
  decide +kernel

end Elspeth
