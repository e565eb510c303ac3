import Elspeth.Protocol.Fencing
import Elspeth.System.Service

/-!
# One leader per epoch

The seats of the service, read as the epoch-fenced seats of `Protocol.Fencing`.
Each call is one step on them, so a history is a run, and the fencing results
apply to every token that any acquisition of the history returned.

The fence itself compares run, worker and epoch and never the deadline: a
deadline only decides who may take a seat over.
-/

namespace Elspeth

open Relational List CoordinationToken Db

/-! ## The seats -/

/-- The seat of every run, without its liveness. -/
def Db.seats (db : Db) : Fencing.Seats String String := fun runId =>
  (db.holdings.find? (·.runId = runId)).map fun seat => ⟨seat.leaderWorkerId, seat.leaderEpoch⟩

/-- What the fence compares. -/
def CoordinationToken.fencing (token : CoordinationToken) : Fencing.Token String String :=
  ⟨token.runId, token.workerId, token.leaderEpoch⟩

variable {db before after : Db} {token : CoordinationToken}

theorem Db.unique_holdings (db : Db) : Unique SeatHolding.runId db.holdings := by
  have unique := unique_runId db.runCoordination
  unfold Relational.Unique at unique ⊢
  unfold holdings
  rwa [map_map]

theorem Db.seats_eq_some {runId : String} {seat : Fencing.Seat String} :
    db.seats runId = some seat ↔ ⟨runId, seat.holder, seat.epoch⟩ ∈ db.holdings := by
  unfold seats
  rw [Option.map_eq_some_iff]
  constructor
  · rintro ⟨found, search, rfl⟩
    have sameRun : found.runId = runId := by simpa using find?_some search
    rw [← sameRun]
    exact mem_of_find?_eq_some search
  · intro member
    refine ⟨⟨runId, seat.holder, seat.epoch⟩, ?_, rfl⟩
    cases search : db.holdings.find? (·.runId = runId) with
    | none =>
      have missed := find?_eq_none.mp search _ member
      simp at missed
    | some found =>
      have sameRun : found.runId = runId := by simpa using find?_some search
      rw [db.unique_holdings.eq_of_key (mem_of_find?_eq_some search) member sameRun]

theorem Db.seats_eq_none {runId : String} :
    db.seats runId = none ↔ ∀ seat ∈ db.holdings, seat.runId ≠ runId := by
  simp [seats]

theorem Db.holds_iff_seats : db.Holds token ↔ token.fencing.Holds db.seats := by
  unfold Fencing.Token.Holds
  rw [holds_iff, seats_eq_some]
  rfl

/-- Replacing a seat's row updates its seat and no other. -/
theorem seats_of_replace {old : SeatHolding} {holder : Option String} {epoch : Nat}
    (present : old ∈ before.holdings)
    (rows : after.holdings =
      replaceRow SeatHolding.runId old ⟨old.runId, holder, epoch⟩ before.holdings) :
    after.seats = Function.update before.seats old.runId (some ⟨holder, epoch⟩) := by
  funext runId
  refine Option.ext fun seat => ?_
  rw [seats_eq_some, rows, mem_replaceRow present]
  obtain ⟨seatHolder, seatEpoch⟩ := seat
  by_cases same : runId = old.runId
  · subst same
    simp [eq_comm]
  · rw [Function.update_of_ne same, seats_eq_some]
    simp [same]

/-- Appending the row of a new run updates its seat and no other. -/
theorem seats_of_append {runId workerId : String} {epoch : Nat}
    (absent : ∀ seat ∈ before.holdings, seat.runId ≠ runId)
    (rows : after.holdings = before.holdings ++ [⟨runId, some workerId, epoch⟩]) :
    after.seats = Function.update before.seats runId (some ⟨some workerId, epoch⟩) := by
  funext other
  refine Option.ext fun seat => ?_
  rw [seats_eq_some, rows]
  obtain ⟨seatHolder, seatEpoch⟩ := seat
  by_cases same : other = runId
  · subst same
    have fresh : (⟨other, seatHolder, seatEpoch⟩ : SeatHolding) ∉ before.holdings :=
      fun member => absent _ member rfl
    simp [fresh, eq_comm]
  · rw [Function.update_of_ne same, seats_eq_some]
    simp [same]

/-- **Each call is one step on the seats.** -/
theorem Governs.step {issued : Option CoordinationToken} (governs : Governs before issued after) :
    Fencing.Step before.seats (issued.map fencing) after.seats := by
  have stay : after.holdings = before.holdings → after.seats = before.seats := by
    intro same
    unfold seats
    rw [same]
  cases governs with
  | keep hired followers seats workers | evict token target grace now held seats workers =>
    rw [stay seats]
    exact .stay before.seats
  | mint runId workerId absent seats workers =>
    rw [seats_of_append absent seats]
    exact .mint before.seats runId workerId (seats_eq_none.mpr absent)
  | take workerId seat present seats workers =>
    rw [seats_of_replace present seats]
    exact .take before.seats seat.runId workerId ⟨seat.leaderWorkerId, seat.leaderEpoch⟩
      (seats_eq_some.mpr present)
  | vacate seat present seats workers =>
    rw [seats_of_replace present seats]
    exact .vacate before.seats seat.runId ⟨seat.leaderWorkerId, seat.leaderEpoch⟩
      (seats_eq_some.mpr present)

/-! ## Histories -/

section Histories

variable [Digest]

/-- The tokens the acquisitions of a history returned, in order. -/
def tokensIssued (db : Db) (calls : List Call) : List CoordinationToken :=
  (exchanges serve db calls).filterMap fun exchange => tokenIssued exchange.reply

theorem tokensIssued_cons (db : Db) (call : Call) (calls : List Call) :
    tokensIssued db (call :: calls) =
      (tokenIssued (serve call db).1).toList ++ tokensIssued (serve call db).2 calls := by
  unfold tokensIssued
  rw [exchanges_cons, filterMap_cons]
  cases tokenIssued (serve call db).1 <;> rfl

/-- A history is a run on the seats. -/
theorem seats_run (db : Db) (calls : List Call) :
    Fencing.Run db.seats ((tokensIssued db calls).map fencing)
      (Relational.after serve db calls).seats := by
  induction calls generalizing db with
  | nil => exact .nil db.seats
  | cons call calls ih =>
    have step := (serve_performs call db).governs.step
    rw [tokensIssued_cons, map_append]
    have tokens : (tokenIssued (serve call db).1).toList.map fencing =
        ((tokenIssued (serve call db).1).map fencing).toList := by
      cases tokenIssued (serve call db).1 <;> rfl
    rw [tokens]
    exact .cons step (ih (serve call db).2)

/-! ## The fence -/

/-- Some call with this token passes the leader fence. -/
def PassesFence (token : CoordinationToken) (db : Db) : Prop :=
  ∃ env window verb conn,
    verifyAndExtendLeaderFence env token window verb (Conn.start db) = .ok ((), conn)

/-- Some call with this token is told that its leadership is lost. -/
def FailsFence (token : CoordinationToken) (db : Db) : Prop :=
  ∃ env window verb, verifyAndExtendLeaderFence env token window verb (Conn.start db) =
    .error (leadershipLost token verb)

omit [Digest] in
theorem PassesFence.holds (passes : PassesFence token db) : db.Holds token := by
  obtain ⟨env, window, verb, conn, ran⟩ := passes
  exact (verifyAndExtendLeaderFence_ok ran).1

omit [Digest] in
theorem FailsFence.not_holds (fails : FailsFence token db) : ¬ db.Holds token := by
  obtain ⟨env, window, verb, ran⟩ := fails
  exact verifyAndExtendLeaderFence_lost ran

/-- The leader token a request presents to the fence. -/
def Request.leaderToken : Request → Option CoordinationToken
  | .releaseSeat token
  | .evictWorker token ..
  | .ingestRowWithInitialClaim token ..
  | .ingestQuarantineRowWithPendingSink token ..
  | .claimPendingSink token ..
  | .recoverExpiredLeases token ..
  | .requeueUndecidedFailedWork token
  | .markPendingSinkTerminal token ..
  | .markPendingSinkTerminalMany token ..
  | .terminalizePendingSinksWithTerminalOutcomes token _
  | .completeBarrier token _
  | .markBlockedBarrierPendingSinkMany token ..
  | .markBlockedBarrierTerminal token ..
  | .adoptBlockedBarrierItem token _
  | .resetAdoptionMarkerToPending token _
  | .leaderWrite token .. => some token
  | _ => none

section Refusals

variable {α : Type} {env : CallEnv} {outcome : Except LandscapeError α × Db}

section

variable (failing : ¬ db.Holds token)
include failing

theorem onlyRefusal_leaderFenced {window : Int} {verb : String} {body : Transaction α} :
    OnlyRefusal db (fencedLeaderTransaction env token window verb body db).2 := by
  rcases (fencedLeaderTransaction_refused failing).2 with same | ledgered
  · exact Or.inl same
  · exact Or.inr ⟨_, rfl, ledgered⟩

theorem releaseSeat_onlyRefusal : OnlyRefusal db (releaseSeat env token db).2 := by
  have refused : OnlyRefusal db (fencedLeaderTransaction env token defaultRunLivenessWindow
      "release_seat" (releaseSeatOn env token) db).2 := onlyRefusal_leaderFenced failing
  unfold releaseSeat
  split <;>
  next ran =>
    rw [ran] at refused
    exact refused

theorem markPendingSinkTerminal_onlyRefusal {tokenId leaseOwner : String} :
    OnlyRefusal db (markPendingSinkTerminal env token tokenId leaseOwner db).2 := by
  have refused : OnlyRefusal db (fencedLeaderTransaction env token defaultRunLivenessWindow
      "mark_pending_sink_terminal" (markPendingSinkTerminalOn env token.runId tokenId leaseOwner)
      db).2 := onlyRefusal_leaderFenced failing
  unfold markPendingSinkTerminal
  split
  next ran =>
    rw [ran] at refused
    exact refused
  next => exact refused

theorem completeBarrier_onlyRefusal (completion : BarrierCompletion) :
    OnlyRefusal db (completeBarrier env token completion db).2 := by
  unfold completeBarrier
  split
  · exact Or.inl rfl
  · exact onlyRefusal_leaderFenced failing

theorem markBlockedBarrierPendingSinkMany_onlyRefusal {barrierKey : String}
    {handoffs : List BlockedPendingSinkHandoff} {parkedLeaseOwner : Option String} :
    OnlyRefusal db
      (markBlockedBarrierPendingSinkMany env token barrierKey handoffs parkedLeaseOwner db).2 := by
  have refused : OnlyRefusal db (completeBarrier env token
      (handoffRelease barrierKey handoffs parkedLeaseOwner) db).2 :=
    completeBarrier_onlyRefusal failing _
  unfold handoffRelease at refused
  unfold markBlockedBarrierPendingSinkMany
  split
  · exact Or.inl rfl
  · split <;>
    next ran =>
      rw [ran] at refused
      exact refused

end

/-- **A leader-fenced call with a failing token changes nothing**, whatever it
answers, but for at most one refusal in the ledger. -/
theorem serve_onlyRefusal {call : Call} (presents : call.request.leaderToken = some token)
    (failing : ¬ db.Holds token) : OnlyRefusal db (serve call db).2 := by
  obtain ⟨env, request⟩ := call
  cases request with
  | releaseSeat =>
    cases presents
    exact releaseSeat_onlyRefusal failing
  | evictWorker | recoverExpiredLeases | requeueUndecidedFailedWork
  | terminalizePendingSinksWithTerminalOutcomes | leaderWrite =>
    cases presents
    simp only [serve, answer]
    exact onlyRefusal_leaderFenced failing
  | ingestRowWithInitialClaim | ingestQuarantineRowWithPendingSink | claimPendingSink =>
    cases presents
    simp only [serve, answer, ingestRowWithInitialClaim, ingestQuarantineRowWithPendingSink,
      claimPendingSink]
    split
    · exact onlyRefusal_leaderFenced failing
    · exact Or.inl rfl
  | markPendingSinkTerminal =>
    cases presents
    exact markPendingSinkTerminal_onlyRefusal failing
  | markPendingSinkTerminalMany =>
    cases presents
    simp only [serve, answer, markPendingSinkTerminalMany]
    split
    · exact Or.inl rfl
    · split
      · exact Or.inl rfl
      · exact onlyRefusal_leaderFenced failing
  | completeBarrier =>
    cases presents
    exact completeBarrier_onlyRefusal failing _
  | markBlockedBarrierPendingSinkMany =>
    cases presents
    exact markBlockedBarrierPendingSinkMany_onlyRefusal failing
  | markBlockedBarrierTerminal =>
    cases presents
    simp only [serve, answer, markBlockedBarrierTerminal]
    split
    · exact Or.inl rfl
    · exact completeBarrier_onlyRefusal failing _
  | adoptBlockedBarrierItem | resetAdoptionMarkerToPending =>
    cases presents
    simp only [serve, answer, adoptBlockedBarrierItem, resetAdoptionMarkerToPending]
    split
    · exact Or.inl rfl
    · exact onlyRefusal_leaderFenced failing
  | _ => cases presents

end Refusals

/-! ## Mutual exclusion -/

omit [Digest] in
/-- A stored seat is a reached epoch, and conversely. -/
theorem reached_iff {runId : String} {epoch : Nat} :
    Fencing.Reached db.seats runId epoch ↔
      ∃ seat ∈ db.runCoordination.rows, seat.runId = runId ∧ epoch ≤ seat.leaderEpoch := by
  constructor
  · rintro ⟨seat, present, bound⟩
    obtain ⟨row, rowMem, same⟩ := mem_map.mp (seats_eq_some.mp present)
    obtain ⟨sameRun, -, sameEpoch⟩ := SeatHolding.mk.inj same
    exact ⟨row, rowMem, sameRun, sameEpoch ▸ bound⟩
  · rintro ⟨row, rowMem, rfl, bound⟩
    refine ⟨⟨row.leaderWorkerId, row.leaderEpoch⟩, seats_eq_some.mpr ?_, bound⟩
    exact mem_map_of_mem rowMem

/-- A token issued before and refused now is refused after every history. -/
theorem refused_forever {first second : List Call} (issued : token ∈ tokensIssued db first)
    (failing : ¬ (Relational.after serve db first).Holds token) :
    ¬ (Relational.after serve db (first ++ second)).Holds token := by
  have covers := (seats_run db first).covers_issued (mem_map_of_mem issued)
  rw [holds_iff_seats] at failing ⊢
  rw [after_append]
  exact ((seats_run _ second).spent (covers.spent failing)).not_holds

/-- **Leader epochs exclude each other**, in every history from every database:
a seat's epoch never decreases; no two acquisitions return the same run and
epoch; no two tokens of a run pass the fence in one state; a token that an
acquisition returned and the fence refused once is refused ever after; and a
leader-fenced call whose token the fence refuses writes nothing but a refusal. -/
theorem leader_epochs_exclusive (db : Db) (first second : List Call) :
    (∀ seat ∈ (Relational.after serve db first).runCoordination.rows,
      ∃ later ∈ (Relational.after serve db (first ++ second)).runCoordination.rows,
        later.runId = seat.runId ∧ seat.leaderEpoch ≤ later.leaderEpoch) ∧
    ((tokensIssued db (first ++ second)).map fun token =>
      (token.runId, token.leaderEpoch)).Nodup ∧
    (∀ token other : CoordinationToken, token.runId = other.runId →
      PassesFence token (Relational.after serve db first) →
      PassesFence other (Relational.after serve db first) → token = other) ∧
    (∀ token ∈ tokensIssued db first, FailsFence token (Relational.after serve db first) →
      ∀ env window verb, verifyAndExtendLeaderFence env token window verb
        (Conn.start (Relational.after serve db (first ++ second))) =
          .error (leadershipLost token verb)) ∧
    ∀ exchange ∈ exchanges serve db first, ∀ token,
      exchange.call.request.leaderToken = some token → FailsFence token exchange.before →
        OnlyRefusal exchange.before exchange.after := by
  refine ⟨fun seat seatMem => ?_, ?_, ?_, ?_, ?_⟩
  · rw [after_append]
    have run := seats_run (Relational.after serve db first) second
    exact reached_iff.mp (run.reached (reached_iff.mpr ⟨seat, seatMem, rfl, Nat.le_refl _⟩))
  · have nodup := (seats_run db (first ++ second)).issued_nodup
    rw [map_map] at nodup
    exact nodup
  · intro token other sameRun passes otherPasses
    have same := (holds_iff_seats.mp passes.holds).unique
      (holds_iff_seats.mp otherPasses.holds) sameRun
    obtain ⟨-, sameWorker, sameEpoch⟩ := Fencing.Token.mk.inj same
    obtain ⟨runId, workerId, leaderEpoch⟩ := token
    subst sameRun sameWorker sameEpoch
    rfl
  · intro token issued fails env window verb
    exact verifyAndExtendLeaderFence_refused (refused_forever issued fails.not_holds)
  · intro exchange member token presents fails
    obtain ⟨-, -, -, -, served⟩ := exchanges_split member
    rw [(Prod.mk.inj served).2]
    exact serve_onlyRefusal presents fails.not_holds

end Histories

end Elspeth
