import Elspeth.System.Leadership
import Elspeth.System.Journal

/-!
# Adoption of barrier holds

A leader adopts a BLOCKED hold by marking it, and writes the batch membership and
the BUFFERED outcome of the hold in the same transaction.  Neither of the two has
a uniqueness constraint that would stop a second one; the marker alone does.  It
suffices because no edge of the state chart but the explicit reset clears a
marker, and because a marked hold never gets back into a transform lease, so its
id stays its own.
-/

namespace Elspeth

open Relational EventSourcing List Worked Scope

section Histories

variable [Digest]

/-! ## One adoption -/

/-- What one adoption call may have done. -/
inductive Adopts (token : CoordinationToken) (adoption : BarrierAdoption) (before after : Db) :
    Response → Prop where
  | refused (raised : LandscapeError) (refusal : OnlyRefusal before after) :
      Adopts token adoption before after (.error raised)
  | already (leads : before.Holds token) (epoch : Nat) (held : TokenWorkItem)
      (stored : held ∈ before.tokenWorkItems.rows)
      (hold : adoption.hold token.runId held = true)
      (marked : held.barrierAdoptedEpoch = some epoch) (renewed : Renewed before after) :
      Adopts token adoption before after (.ok (.adoption ⟨false, epoch, none⟩))
  | adopted (leads : before.Holds token) (old : TokenWorkItem) (databaseNow : Time)
      (added : List TokenOutcome) (outcomeId : Option String)
        (stored : old ∈ before.tokenWorkItems.rows)
      (hold : adoption.hold token.runId old = true) (unmarked : old.barrierAdoptedEpoch = none)
      (items : after.tokenWorkItems.rows = replaceRow TokenWorkItem.workItemId old
        (old.adoptedBy token.leaderEpoch databaseNow) before.tokenWorkItems.rows)
      (members : after.batchMembers.rows =
        before.batchMembers.rows ++ adoption.members token.runId)
      (outcomes : after.tokenOutcomes.rows = before.tokenOutcomes.rows ++ added)
      (buffered : Forall₂ (adoption.Buffers token.runId) adoption.buffered.toList added) :
      Adopts token adoption before after
        (.ok (.adoption ⟨true, token.leaderEpoch, outcomeId⟩))

/-- The hold an adoption names. -/
def Request.adopts : Request → Option String
  | .adoptBlockedBarrierItem _ adoption => some adoption.workItemId
  | _ => none

/-- The holds a reset returns to intake. -/
def Request.resets : Request → List String
  | .resetAdoptionMarkerToPending _ workItemIds => workItemIds
  | _ => []

/-- The batch memberships an exchange added. -/
def membershipsAdded (exchange : Exchange Db Call Response) : List BatchMember :=
  exchange.after.batchMembers.rows.drop exchange.before.batchMembers.rows.length

/-- The outcomes an exchange added. -/
def outcomesAdded (exchange : Exchange Db Call Response) : List TokenOutcome :=
  exchange.after.tokenOutcomes.rows.drop exchange.before.tokenOutcomes.rows.length

/-- Some row with this id shows this adoption marker. -/
def Db.Marked (db : Db) (name : String) (epoch : Nat) : Prop :=
  ∃ item ∈ db.tokenWorkItems.rows,
    item.workItemId = name ∧ item.barrierAdoptedEpoch = some epoch

variable {before db : Db} {token : CoordinationToken} {adoption : BarrierAdoption}
  {calls : List Call} {exchange : Exchange Db Call Response} {request : Request} {name : String}
  {item : TokenWorkItem} {outcomes : List TokenOutcome} {action : Action} {epoch : Nat}

/-- A refusal touches neither memberships nor outcomes. -/
theorem OnlyRefusal.records {after : Db} (refusal : OnlyRefusal before after) :
    after.tokenWorkItems = before.tokenWorkItems ∧ after.batchMembers = before.batchMembers ∧
      after.tokenOutcomes = before.tokenOutcomes := by
  rcases refusal with rfl | ⟨event, -, table, -, rfl⟩
  · exact ⟨rfl, rfl, rfl⟩
  · exact ⟨rfl, rfl, rfl⟩

omit [Digest] in
theorem Renewed.records {after : Db} (renewed : Renewed before after) :
    after.tokenWorkItems = before.tokenWorkItems ∧ after.batchMembers = before.batchMembers ∧
      after.tokenOutcomes = before.tokenOutcomes := by
  obtain ⟨table, -, rfl⟩ := renewed
  exact ⟨rfl, rfl, rfl⟩

omit [Digest] in
theorem BarrierAdoption.length_members_le (adoption : BarrierAdoption) (runId : String) :
    (adoption.members runId).length ≤ 1 := by
  rw [BarrierAdoption.members, length_map]
  cases adoption.membership <;> simp

theorem adopts_of_answer {env : CallEnv}
    {outcome : Except LandscapeError BarrierAdoptionResult × Db}
    (settles : Settles db (fun result after =>
      LeaderRun token (adoptBlockedBarrierItemOn env token adoption) result db after) outcome) :
    Adopts token adoption db (answer .adoption outcome).2 (answer .adoption outcome).1 := by
  obtain ⟨reply, after⟩ := outcome
  cases reply with
  | error raised => exact .refused raised settles
  | ok =>
    obtain ⟨opened, closed, -, start, ran, finish⟩ := settles.ran
    obtain ⟨items, members, outcomes⟩ := finish.records
    have outcome := adoptBlockedBarrierItemOn_ok ran
    cases outcome with
    | already held epoch stored hold marked same =>
      obtain ⟨openedItems, -⟩ := start.records
      rw [openedItems] at stored
      exact .already settles.held epoch held stored hold marked (start.trans (same ▸ finish))
    | adopted old databaseNow added outcomeId stored hold unmarked itemRows _ memberRows
        outcomeRows buffered =>
        obtain ⟨openedItems, openedMembers, openedOutcomes⟩ := start.records
        rw [openedItems] at stored itemRows
        rw [openedMembers] at memberRows
        rw [openedOutcomes] at outcomeRows
        refine .adopted settles.held old databaseNow added outcomeId stored hold unmarked ?_ ?_ ?_
          buffered
        · change after.tokenWorkItems.rows = _
          rw [items, itemRows]
        · change after.batchMembers.rows = _
          rw [members, memberRows]
        · change after.tokenOutcomes.rows = _
          rw [outcomes, outcomeRows]

/-- **One adoption call**: refused, found the marker, or set it. -/
theorem serve_adopts (env : CallEnv) (token : CoordinationToken) (adoption : BarrierAdoption)
    (db : Db) :
    Adopts token adoption db (serve ⟨env, .adoptBlockedBarrierItem token adoption⟩ db).2
      (serve ⟨env, .adoptBlockedBarrierItem token adoption⟩ db).1 :=
  adopts_of_answer (adoptBlockedBarrierItem_settles token adoption)

theorem adopts_of_exchange (member : exchange ∈ exchanges serve db calls)
    (asks : exchange.call.request = .adoptBlockedBarrierItem token adoption) :
    Adopts token adoption exchange.before exchange.after exchange.reply := by
  obtain ⟨-, -, -, -, served⟩ := exchanges_split member
  obtain ⟨state, ⟨env, request⟩, reply, reached⟩ := exchange
  cases asks
  have adopts := serve_adopts env token adoption state
  rw [← served] at adopts
  exact adopts

omit [Digest] in
theorem Request.asks_of_adopts (names : request.adopts = some name) :
    ∃ token adoption, request = .adoptBlockedBarrierItem token adoption ∧
      adoption.workItemId = name := by
  cases request with
  | adoptBlockedBarrierItem token adoption => exact ⟨token, adoption, rfl, Option.some.inj names⟩
  | _ => cases names

/-- Unless it set the marker, an adoption added nothing; and it adds at most one of each. -/
theorem Adopts.adds (adopts : Adopts token adoption exchange.before exchange.after exchange.reply) :
    (membershipsAdded exchange).length ≤ 1 ∧ (outcomesAdded exchange).length ≤ 1 ∧
      ((∃ epoch, exchange.before.Marked adoption.workItemId epoch) →
        membershipsAdded exchange = [] ∧ outcomesAdded exchange = [] ∧
          exchange.after.tokenWorkItems = exchange.before.tokenWorkItems) ∧
      ((∃ epoch, exchange.after.Marked adoption.workItemId epoch) ∨
        membershipsAdded exchange = [] ∧ outcomesAdded exchange = []) := by
  have quiet : exchange.after.tokenWorkItems = exchange.before.tokenWorkItems ∧
      exchange.after.batchMembers = exchange.before.batchMembers ∧
      exchange.after.tokenOutcomes = exchange.before.tokenOutcomes →
        membershipsAdded exchange = [] ∧ outcomesAdded exchange = [] ∧
          exchange.after.tokenWorkItems = exchange.before.tokenWorkItems := by
    rintro ⟨items, members, outcomes⟩
    refine ⟨?_, ?_, items⟩
    · rw [membershipsAdded, members, drop_length]
    · rw [outcomesAdded, outcomes, drop_length]
  generalize replied : exchange.reply = reply at adopts
  cases adopts with
  | refused raised refusal =>
    obtain ⟨noMember, noOutcome, items⟩ := quiet refusal.records
    simp [noMember, noOutcome, items]
  | already leads epoch held stored hold marked renewed =>
    obtain ⟨noMember, noOutcome, items⟩ := quiet renewed.records
    simp [noMember, noOutcome, items]
  | adopted leads old databaseNow added outcomeId stored hold unmarked items members outcomes
      buffered =>
      have named : old.workItemId = adoption.workItemId := (BarrierAdoption.hold_iff.mp hold).1
      refine ⟨?_, ?_, ?_, Or.inl ⟨token.leaderEpoch, ?_⟩⟩
      · rw [membershipsAdded, members, drop_left]
        exact adoption.length_members_le token.runId
      · rw [outcomesAdded, outcomes, drop_left, ← buffered.length_eq]
        cases adoption.buffered <;> simp
      · -- The hold was unmarked, and its id is its own.
        rintro ⟨epoch, item, itemMem, itemNamed, marked⟩
        have same : item = old := (unique_workItemId exchange.before.tokenWorkItems).eq_of_key
          itemMem stored (itemNamed.trans named.symm)
        rw [same, unmarked] at marked
        cases marked
      · refine ⟨old.adoptedBy token.leaderEpoch databaseNow, ?_, named, rfl⟩
        rw [items, mem_replaceRow stored]
        exact Or.inl rfl

/-! ## The marker -/

/-- A marked row is a hold, a parked or leased handoff, or finished. -/
def TokenWorkItem.MarkedShape (item : TokenWorkItem) : Prop :=
  item.barrierAdoptedEpoch ≠ none →
    item.status = .blocked ∨ item.status = .pendingSink ∨ item.status = .terminal ∨
      item.status = .leased ∧ item.pendingSinkName.isSome = true

theorem Born.markedShape {event : SchedulerEvent} (born : Born item event) : item.MarkedShape := by
  intro marked
  cases born <;> exact absurd rfl marked

theorem Action.next_markedShape (enabled : action.Enabled outcomes item)
    (shape : item.MarkedShape) : (action.next outcomes item).MarkedShape := by
  intro marked
  cases action with
  | claim source leaseOwner expiresAt databaseNow =>
    cases source with
    | ready =>
      have ready : item.status = .ready := enabled.1
      simpa [ready] using shape marked
    | pendingSink =>
      have bundle := enabled.2 rfl
      refine Or.inr (Or.inr (Or.inr ⟨rfl, ?_⟩))
      change item.pendingSinkName.isSome = true
      cases named : item.pendingSinkName with
      | none => simp [pendingSinkBundle, named] at bundle
      | some => rfl
  | renew => exact shape marked
  | rotate =>
    obtain ⟨leased, transform⟩ := enabled
    have named : item.pendingSinkName.isSome = true := by
      simpa [leased] using shape marked
    simp [sinkRedriveShaped, named] at transform
  | release | handOff => exact Or.inr (Or.inl rfl)
  | requeue =>
    have undecided : undecidedFailedWork outcomes item = true := enabled
    simp only [undecidedFailedWork, Bool.and_eq_true, decide_eq_true_eq] at undecided
    simpa [undecided.1] using shape marked
  | dispose image databaseNow =>
    obtain ⟨leased, unnamed, -⟩ := enabled
    have old : item.barrierAdoptedEpoch ≠ none := by
      cases image <;> exact marked
    simpa [leased, unnamed] using shape old
  | finishSink | consume => exact Or.inr (Or.inr (Or.inl rfl))
  | adopt => exact Or.inl enabled.1
  | reset => exact absurd rfl marked

/-- Every edge but the reset keeps a marker, and the id of the row that bears it. -/
theorem Action.next_marked (enabled : action.Enabled outcomes item) (shape : item.MarkedShape)
    (marked : item.barrierAdoptedEpoch = some epoch) (kept : action ≠ .reset) :
    (action.next outcomes item).workItemId = item.workItemId ∧
      (action.next outcomes item).barrierAdoptedEpoch = some epoch := by
  have shaped := shape (by simp [marked])
  cases action with
  | rotate =>
    obtain ⟨leased, transform⟩ := enabled
    have named : item.pendingSinkName.isSome = true := by simpa [leased] using shaped
    simp [sinkRedriveShaped, named] at transform
  | requeue =>
    have undecided : undecidedFailedWork outcomes item = true := enabled
    simp only [undecidedFailedWork, Bool.and_eq_true, decide_eq_true_eq] at undecided
    simp [undecided.1] at shaped
  | adopt =>
    rw [enabled.2] at marked
    cases marked
  | reset => exact absurd rfl kept
  | dispose image => cases image <;> exact ⟨rfl, marked⟩
  | _ => exact ⟨rfl, marked⟩

theorem Request.resets_of_action {reported : Option TokenWorkItem}
    (allowed : (request.scope db reported).action .reset item) :
    item.workItemId ∈ request.resets := by
  cases request with
  | resetAdoptionMarkerToPending => exact allowed.2.2
  | _ =>
    simp [Request.scope, still, births, claiming, renewing,
      recovering, requeueing, disposing, finishing,
      BarrierCompletion.scope, adopting] at allowed

/-- Every stored row has the shape a marker demands. -/
def Db.MarkedShapes (db : Db) : Prop :=
  ∀ item ∈ db.tokenWorkItems.rows, item.MarkedShape

theorem serve_markedShapes (call : Call) (shapes : db.MarkedShapes) :
    (serve call db).2.MarkedShapes :=
  serve_forall_items call (fun _ _ => Born.markedShape) (fun _ _ _ => Action.next_markedShape)
    shapes

/-- **A marker stays** through every call that does not reset it. -/
theorem serve_marked {call : Call} (kept : name ∉ call.request.resets) (shapes : db.MarkedShapes)
    (marked : db.Marked name epoch) : (serve call db).2.Marked name epoch := by
  obtain ⟨item, stored, named, shows⟩ := marked
  have follows := serve_follows
    (fun old new => old.MarkedShape → old.workItemId = name →
      old.barrierAdoptedEpoch = some epoch → new.MarkedShape ∧ new.workItemId = name ∧
        new.barrierAdoptedEpoch = some epoch)
    call db (fun _ shape named shows => ⟨shape, named, shows⟩) ?_ ?_ stored
  · obtain ⟨later, laterMem, keeps⟩ := follows
    obtain ⟨-, laterNamed, laterShows⟩ := keeps (shapes item stored) named shows
    exact ⟨later, laterMem, laterNamed, laterShows⟩
  · intro first second third left right shape named shows
    obtain ⟨middleShape, middleNamed, middleShows⟩ := left shape named shows
    exact right middleShape middleNamed middleShows
  · intro action old allowed enabled shape named shows
    have stays : action ≠ .reset := by
      rintro rfl
      exact kept (named ▸ Request.resets_of_action allowed)
    obtain ⟨sameId, sameMarker⟩ := Action.next_marked enabled shape shows stays
    exact ⟨Action.next_markedShape enabled shape, sameId.trans named, sameMarker⟩

/-! ## Histories -/

theorem markedShapes_of_history (shapes : db.MarkedShapes) (calls : List Call) :
    (after serve db calls).MarkedShapes :=
  after_induction Db.MarkedShapes (fun call _ => serve_markedShapes call) shapes calls

section

variable (kept : ∀ call ∈ calls, name ∉ call.request.resets)
include kept

theorem marked_of_history (shapes : db.MarkedShapes) (marked : db.Marked name epoch) :
    (after serve db calls).Marked name epoch := by
  induction calls generalizing db with
  | nil => exact marked
  | cons call calls ih =>
    obtain ⟨first, rest⟩ := forall_mem_cons.mp kept
    exact ih rest (serve_markedShapes call shapes) (serve_marked first shapes marked)

/-- The adoption calls of a history that name a hold. -/
def adoptionsOf (name : String) (history : List (Exchange Db Call Response)) :
    List (Exchange Db Call Response) :=
  history.filter fun exchange => exchange.call.request.adopts = some name

/-- Once a hold is marked, the adoptions that name it add nothing. -/
theorem adds_nothing_of_marked (shapes : db.MarkedShapes) (marked : db.Marked name epoch) :
    ∀ exchange ∈ adoptionsOf name (exchanges serve db calls),
      membershipsAdded exchange = [] ∧ outcomesAdded exchange = [] ∧
        exchange.after.tokenWorkItems = exchange.before.tokenWorkItems := by
  intro exchange adopting
  obtain ⟨member, names⟩ := mem_filter.mp adopting
  obtain ⟨token, adoption, asks, rfl⟩ := Request.asks_of_adopts (of_decide_eq_true names)
  have adds := (adopts_of_exchange member asks).adds
  obtain ⟨earlier, later, rfl, before, -⟩ := exchanges_split member
  refine adds.2.2.1 ⟨epoch, ?_⟩
  rw [before]
  exact marked_of_history (fun call callMem => kept call (mem_append_left _ callMem))
    shapes marked

/-- All adoptions of one hold together add at most one membership and one outcome. -/
theorem adds_once (shapes : db.MarkedShapes) :
    ((adoptionsOf name (exchanges serve db calls)).flatMap membershipsAdded).length ≤ 1 ∧
      ((adoptionsOf name (exchanges serve db calls)).flatMap outcomesAdded).length ≤ 1 := by
  induction calls generalizing db with
  | nil => simp [adoptionsOf]
  | cons call calls ih =>
    obtain ⟨-, rest⟩ := forall_mem_cons.mp kept
    have later := ih rest (serve_markedShapes call shapes)
    rw [exchanges_cons, adoptionsOf, filter_cons]
    split
    next names =>
      have member : (⟨db, call, (serve call db).1, (serve call db).2⟩ : Exchange Db Call Response) ∈
          exchanges serve db (call :: calls) := mem_cons_self
      obtain ⟨token, adoption, asks, rfl⟩ := Request.asks_of_adopts (of_decide_eq_true names)
      have adds := (adopts_of_exchange member asks).adds
      rw [flatMap_cons, flatMap_cons, length_append, length_append]
      rcases adds.2.2.2 with ⟨epoch, marked⟩ | ⟨noMember, noOutcome⟩
      · -- From here on the marker is set, so the rest adds nothing.
        have nothing := adds_nothing_of_marked rest (serve_markedShapes call shapes) marked
        have noMembers := flatMap_eq_nil_iff.mpr fun exchange member =>
          (nothing exchange member).1
        have noOutcomes := flatMap_eq_nil_iff.mpr fun exchange member =>
          (nothing exchange member).2.1
        rw [adoptionsOf] at noMembers noOutcomes
        rw [noMembers, noOutcomes]
        exact ⟨adds.1, adds.2.1⟩
      · rw [noMember, noOutcome]
        simpa [adoptionsOf] using later
    next => exact later

end

/-- **A hold is adopted once.**  In every history from an empty journal that does not reset
the hold, all its adoption calls together add at most one batch membership and one outcome,
whoever leads; a marker once shown is shown for ever, and a further adoption of a marked
hold adds nothing; an adoption under a token that does not hold the seat, or one that
raises, leaves the journal, the memberships and the outcomes as they were. -/
theorem hold_adopted_once {db : Db} {calls : List Call} (name : String)
    (empty : db.tokenWorkItems.rows = [])
    (kept : ∀ call ∈ calls, name ∉ call.request.resets) :
    ((adoptionsOf name (exchanges serve db calls)).flatMap membershipsAdded).length ≤ 1 ∧
      ((adoptionsOf name (exchanges serve db calls)).flatMap outcomesAdded).length ≤ 1 ∧
      (∀ earlier later epoch, calls = earlier ++ later →
        (after serve db earlier).Marked name epoch →
        (after serve db calls).Marked name epoch ∧
          ∀ exchange ∈ adoptionsOf name (exchanges serve (after serve db earlier) later),
            membershipsAdded exchange = [] ∧ outcomesAdded exchange = [] ∧
              exchange.after.tokenWorkItems = exchange.before.tokenWorkItems) ∧
      ∀ exchange ∈ exchanges serve db calls, ∀ token adoption,
        exchange.call.request = .adoptBlockedBarrierItem token adoption →
        (¬ exchange.before.Holds token ∨ ∃ raised, exchange.reply = .error raised) →
        (∃ raised, exchange.reply = .error raised) ∧
            OnlyRefusal exchange.before exchange.after := by
  have shapes : db.MarkedShapes := by
    intro item stored
    rw [empty] at stored
    cases stored
  refine ⟨(adds_once kept shapes).1, (adds_once kept shapes).2, ?_, ?_⟩
  · intro earlier later epoch split marked
    subst split
    have laterKept : ∀ call ∈ later, name ∉ call.request.resets :=
      fun call callMem => kept call (mem_append_right _ callMem)
    have reached := markedShapes_of_history shapes earlier
    refine ⟨?_, adds_nothing_of_marked laterKept reached marked⟩
    rw [after_append]
    exact marked_of_history laterKept reached marked
  · intro exchange member token adoption asks failing
    have adopts := adopts_of_exchange member asks
    generalize exchange.reply = reply at adopts failing ⊢
    cases adopts with
    | refused raised refusal => exact ⟨⟨raised, rfl⟩, refusal⟩
    | already leads | adopted leads =>
      rcases failing with deposed | ⟨_, impossible⟩
      · exact absurd leads deposed
      · cases impossible

end Histories

namespace Worked

/-- The batch a leader drafts before its first adoption. -/
def batch : BystanderWrite where
  run _ := batchesSlot.insert [{ batchId := "batch-1", runId := "run-1", status := .draft }]
  respects _ := by
    refine Slot.insert_respects fun table session rows => ?_
    exact ⟨⟨⟨rfl, forall₂_serves_refl _, prefix_rfl⟩, rfl, rfl⟩, prefix_rfl,
      prefix_rfl, prefix_rfl, prefix_rfl⟩

def adoption : BarrierAdoption where
  workItemId := firstAttempt
  tokenId := "token-1"
  barrierKey := "join"
  membership := some ⟨"batch-1", 0⟩
  buffered := some ⟨"batch-1", none⟩

/-- The continuation blocks at the barrier, and the leader adopts the hold twice. -/
def holding : List Call :=
  blocking ++ [call 0 (.plainWrite batch), call 0 (.adoptBlockedBarrierItem leader adoption),
    call 0 (.adoptBlockedBarrierItem leader adoption)]

end Worked

/-- In the worked history the first adoption adds the membership and the second none. -/
theorem hold_adopted_once_worked :
    (adoptionsOf adoption.workItemId
        (exchanges Worked.serve Db.empty (Worked.opening ++ Worked.holding))).map
          membershipsAdded = [[⟨"batch-1", "run-1", "token-1", 0⟩], []] ∧
      ((adoptionsOf adoption.workItemId
        (exchanges Worked.serve Db.empty (Worked.opening ++ Worked.holding))).flatMap
          outcomesAdded).length ≤ 1 := by
  refine ⟨by decide +kernel, ?_⟩
  exact (@hold_adopted_once digest Db.empty (opening ++ holding)
    adoption.workItemId rfl (by decide +kernel)).2.1

end Elspeth
